import Mathlib.Data.List.Induction
import Pinos.Client.Introspect
import Pinos.Lib.LastWriter

/-
`client/introspect.c`: updates of the infos of objects.

An info is `NULL` until the first update, which creates it.  Allocation does not
fail, so a copy is the value that is copied.  A dict or an array is read as it is
copied: with a `NULL` in it, an update has no result.
-/

namespace Pinos
namespace Native

open LastWriter

/-- `~0`, the change mask of an info that is created. -/
def changeMaskAll : UInt64 := ~~~0

/-- `change_mask & (1 << bit)`. -/
def changed (changeMask bit : UInt64) : Bool := changeMask &&& (1 <<< bit) != 0

def SpaDictItem.isWhole (item : SpaDictItem) : Bool := item.key.isSome && item.value.isSome

/-- The copy of an array, of which every element is read. -/
def copyArray {α : Type} (isWhole : α → Bool) (xs : Counted α) : Option (Counted α) :=
  if xs.items.all isWhole then some xs else none

def spaDictCopy : Option SpaDict → Option (Option SpaDict)
  | none => some none
  | some dict => (copyArray SpaDictItem.isWhole dict).map some

/-- `spa_format_copy` of every format. -/
def copyFormats : Counted (Option SpaPODObject) → Option (Counted (Option SpaPODObject)) :=
  copyArray Option.isSome

/-- What the updates of all kinds of infos do: `assign` takes over what has changed, into a new
info or the one there is.  Without an update nothing is done. -/
def infoUpdate {Info : Type} (changeMask : Info → UInt64) (calloc : Info)
    (assign : UInt64 → Info → Info → Option Info) (info : Option Info) :
    Option Info → Option (Option Info)
  | none => some info
  | some update =>
    match info with
    | none => (assign changeMaskAll calloc update).map some
    | some info => (assign (changeMask info ||| changeMask update) info update).map some

/-- A field that is copied from the update when it has changed. -/
def takeOver {α : Type} (changed : Bool) (copy : α → Option α) (update info : α) : Option α :=
  if changed then copy update else some info

/-- One update after the other, from no info. -/
def infoUpdates {Info : Type} (step : Option Info → Option Info → Option (Option Info))
    (updates : List Info) : Option (Option Info) :=
  updates.foldlM (fun info update => step info (some update)) none

/-! ## The kinds of infos -/

namespace PinosCoreInfo

def calloc : PinosCoreInfo :=
  { id := 0, changeMask := 0, userName := none, hostName := none, version := none, name := none
    cookie := 0, props := none }

def assign (changeMask : UInt64) (info update : PinosCoreInfo) : Option PinosCoreInfo := do
  let changed := changed update.changeMask
  let props ← takeOver (changed 5) spaDictCopy update.props info.props
  return {
    id := update.id
    changeMask
    userName := if changed 0 then update.userName else info.userName
    hostName := if changed 1 then update.hostName else info.hostName
    version := if changed 2 then update.version else info.version
    name := if changed 3 then update.name else info.name
    cookie := if changed 4 then update.cookie else info.cookie
    props }

end PinosCoreInfo

def pinosCoreInfoUpdate : Option PinosCoreInfo → Option PinosCoreInfo →
    Option (Option PinosCoreInfo) :=
  infoUpdate PinosCoreInfo.changeMask .calloc PinosCoreInfo.assign

namespace PinosNodeInfo

def calloc : PinosNodeInfo :=
  { id := 0, changeMask := 0, name := none, maxInputs := 0, nInputs := 0, inputFormats := .nil
    maxOutputs := 0, nOutputs := 0, outputFormats := .nil, state := 0, error := none
    props := none }

/-- `n_inputs` and `n_outputs` are left as they are. -/
def assign (changeMask : UInt64) (info update : PinosNodeInfo) : Option PinosNodeInfo := do
  let changed := changed update.changeMask
  let inputFormats ← takeOver (changed 2) copyFormats update.inputFormats info.inputFormats
  let outputFormats ← takeOver (changed 4) copyFormats update.outputFormats info.outputFormats
  let props ← takeOver (changed 6) spaDictCopy update.props info.props
  return {
    id := update.id
    changeMask
    name := if changed 0 then update.name else info.name
    maxInputs := if changed 1 then update.maxInputs else info.maxInputs
    nInputs := info.nInputs
    inputFormats
    maxOutputs := if changed 3 then update.maxOutputs else info.maxOutputs
    nOutputs := info.nOutputs
    outputFormats
    state := if changed 5 then update.state else info.state
    error := if changed 5 then update.error else info.error
    props }

end PinosNodeInfo

def pinosNodeInfoUpdate : Option PinosNodeInfo → Option PinosNodeInfo →
    Option (Option PinosNodeInfo) :=
  infoUpdate PinosNodeInfo.changeMask .calloc PinosNodeInfo.assign

namespace PinosModuleInfo

def calloc : PinosModuleInfo :=
  { id := 0, changeMask := 0, name := none, filename := none, args := none, props := none }

def assign (changeMask : UInt64) (info update : PinosModuleInfo) : Option PinosModuleInfo := do
  let changed := changed update.changeMask
  let props ← takeOver (changed 3) spaDictCopy update.props info.props
  return {
    id := update.id
    changeMask
    name := if changed 0 then update.name else info.name
    filename := if changed 1 then update.filename else info.filename
    args := if changed 2 then update.args else info.args
    props }

end PinosModuleInfo

def pinosModuleInfoUpdate : Option PinosModuleInfo → Option PinosModuleInfo →
    Option (Option PinosModuleInfo) :=
  infoUpdate PinosModuleInfo.changeMask .calloc PinosModuleInfo.assign

namespace PinosClientInfo

def calloc : PinosClientInfo := { id := 0, changeMask := 0, props := none }

def assign (changeMask : UInt64) (info update : PinosClientInfo) : Option PinosClientInfo := do
  let changed := changed update.changeMask
  let props ← takeOver (changed 0) spaDictCopy update.props info.props
  return { id := update.id, changeMask, props }

end PinosClientInfo

def pinosClientInfoUpdate : Option PinosClientInfo → Option PinosClientInfo →
    Option (Option PinosClientInfo) :=
  infoUpdate PinosClientInfo.changeMask .calloc PinosClientInfo.assign

namespace PinosLinkInfo

def calloc : PinosLinkInfo :=
  { id := 0, changeMask := 0, outputNodeId := 0, outputPortId := 0, inputNodeId := 0
    inputPortId := 0 }

def assign (changeMask : UInt64) (info update : PinosLinkInfo) : Option PinosLinkInfo :=
  let changed := changed update.changeMask
  some {
    id := update.id
    changeMask
    outputNodeId := if changed 0 then update.outputNodeId else info.outputNodeId
    outputPortId := if changed 1 then update.outputPortId else info.outputPortId
    inputNodeId := if changed 2 then update.inputNodeId else info.inputNodeId
    inputPortId := if changed 3 then update.inputPortId else info.inputPortId }

end PinosLinkInfo

def pinosLinkInfoUpdate : Option PinosLinkInfo → Option PinosLinkInfo →
    Option (Option PinosLinkInfo) :=
  infoUpdate PinosLinkInfo.changeMask .calloc PinosLinkInfo.assign

/-! ## Runs of updates -/

section
variable {Info α : Type} {changeMask : Info → UInt64} {calloc : Info}
  {assign : UInt64 → Info → Info → Option Info}

theorem infoUpdates_concat (step : Option Info → Option Info → Option (Option Info))
    (us : List Info) (u : Info) :
    infoUpdates step (us ++ [u]) = (infoUpdates step us).bind fun info => step info (some u) := by
  rw [infoUpdates, List.foldlM_append]
  simp only [List.foldlM_cons, List.foldlM_nil, bind_pure]
  rfl

/-- An update assigns to the info there is, or to a new one. -/
theorem infoUpdate_eq_some {info : Option Info} {u : Info} {r : Option Info}
    (h : infoUpdate changeMask calloc assign info (some u) = some r) :
    ∃ info', r = some info' ∧
      assign ((info.map fun i => changeMask i ||| changeMask u).getD changeMaskAll)
        (info.getD calloc) u = some info' := by
  cases info with
  | none =>
    obtain ⟨info', hassign, hr⟩ := Option.map_eq_some_iff.mp h
    exact ⟨info', hr.symm, hassign⟩
  | some info =>
    obtain ⟨info', hassign, hr⟩ := Option.map_eq_some_iff.mp h
    exact ⟨info', hr.symm, hassign⟩

theorem infoUpdate_some {info : Option Info} {u : Info} (h : ∀ mask i, (assign mask i u).isSome) :
    ∃ info', infoUpdate changeMask calloc assign info (some u) = some (some info') := by
  cases info with
  | none =>
    obtain ⟨info', hassign⟩ := Option.isSome_iff_exists.mp (h changeMaskAll calloc)
    exact ⟨info', congrArg (Option.map some) hassign⟩
  | some info =>
    obtain ⟨info', hassign⟩ :=
      Option.isSome_iff_exists.mp (h (changeMask info ||| changeMask u) info)
    exact ⟨info', congrArg (Option.map some) hassign⟩

/-- Updates that can be copied give an info. -/
theorem infoUpdates_some {us : List Info} (hne : us ≠ [])
    (h : ∀ u ∈ us, ∀ mask i, (assign mask i u).isSome) :
    ∃ info, infoUpdates (infoUpdate changeMask calloc assign) us = some (some info) := by
  induction us using List.reverseRecOn with
  | nil => exact absurd rfl hne
  | append_singleton us u ih =>
    rw [List.forall_mem_append, List.forall_mem_singleton] at h
    rw [infoUpdates_concat]
    by_cases hus : us = []
    · rw [hus]
      show ∃ info', infoUpdate changeMask calloc assign none (some u) = some (some info')
      exact infoUpdate_some h.2
    · obtain ⟨info, hinfo⟩ := ih hus h.1
      rw [hinfo, Option.bind_some]
      exact infoUpdate_some h.2

/-- A field that every update assigns when it covers it is that of the last such update. -/
theorem infoUpdates_field (covers : Info → Bool) (get : Info → α)
    (hassign : ∀ {mask i u i'}, assign mask i u = some i' →
      get i' = if covers u then get u else get i)
    {us : List Info} {r : Option Info}
    (h : infoUpdates (infoUpdate changeMask calloc assign) us = some r) :
    get (r.getD calloc) = latest covers get (get calloc) us := by
  induction us using List.reverseRecOn generalizing r with
  | nil =>
    cases h
    rfl
  | append_singleton us u ih =>
    rw [infoUpdates_concat] at h
    obtain ⟨info, hinfo, hstep⟩ := Option.bind_eq_some_iff.mp h
    obtain ⟨info', rfl, hupdate⟩ := infoUpdate_eq_some hstep
    rw [latest_concat, ← ih hinfo]
    exact hassign hupdate

/-- A new info is marked as changed in everything, and stays so. -/
theorem infoUpdates_changeMask
    (hassign : ∀ {mask i u i'}, assign mask i u = some i' → changeMask i' = mask)
    {us : List Info} {r : Option Info}
    (h : infoUpdates (infoUpdate changeMask calloc assign) us = some r) :
    ∀ info ∈ r, changeMask info = changeMaskAll := by
  induction us using List.reverseRecOn generalizing r with
  | nil =>
    cases h
    exact fun info hinfo => nomatch hinfo
  | append_singleton us u ih =>
    rw [infoUpdates_concat] at h
    obtain ⟨info, hinfo, hstep⟩ := Option.bind_eq_some_iff.mp h
    obtain ⟨info', rfl, hupdate⟩ := infoUpdate_eq_some hstep
    intro i hi
    cases hi
    rw [hassign hupdate]
    cases info with
    | none => rfl
    | some info =>
      have hall := ih hinfo info rfl
      rw [Option.map_some, Option.getD_some, hall, changeMaskAll]
      exact UInt64.neg_one_or

end

/-! ## The last update counts -/

/-- `update->change_mask` has the bit of a field. -/
def covers {Info : Type} (changeMask : Info → UInt64) (bit : UInt64) (update : Info) : Bool :=
  changed (changeMask update) bit

/-- The copy of what an update covers succeeds: there is no `NULL` in it. -/
def CopiesDict (props : Option SpaDict) : Prop := ∀ dict ∈ props, ∀ item ∈ dict.items, item.isWhole

def CopiesFormats (formats : Counted (Option SpaPODObject)) : Prop :=
  ∀ format ∈ formats.items, format.isSome

section
variable {α : Type}

theorem copyArray_eq_some {isWhole : α → Bool} {xs ys : Counted α}
    (h : copyArray isWhole xs = some ys) : ys = xs := by
  rw [copyArray] at h
  split at h
  · exact (Option.some.inj h).symm
  · cases h

theorem copyArray_whole {isWhole : α → Bool} {xs : Counted α} (h : ∀ x ∈ xs.items, isWhole x) :
    copyArray isWhole xs = some xs :=
  if_pos (List.all_eq_true.mpr h)

theorem copyFormats_whole {formats : Counted (Option SpaPODObject)} (h : CopiesFormats formats) :
    copyFormats formats = some formats :=
  copyArray_whole h

theorem spaDictCopy_eq_some {dict copy : Option SpaDict} (h : spaDictCopy dict = some copy) :
    copy = dict := by
  cases dict with
  | none => exact (Option.some.inj h).symm
  | some dict =>
    obtain ⟨copied, hcopied, rfl⟩ := Option.map_eq_some_iff.mp h
    rw [copyArray_eq_some hcopied]

theorem spaDictCopy_whole {dict : Option SpaDict} (h : CopiesDict dict) :
    spaDictCopy dict = some dict := by
  cases dict with
  | none => rfl
  | some dict => exact congrArg (Option.map some) (copyArray_whole (h dict rfl))

theorem takeOver_eq_some {copy : α → Option α} (hcopy : ∀ {x y}, copy x = some y → y = x)
    {c : Bool} {new old field : α} (h : takeOver c copy new old = some field) :
    field = if c then new else old := by
  cases c with
  | true => exact hcopy h
  | false => exact (Option.some.inj h).symm

theorem takeOver_some {copy : α → Option α} {c : Bool} {new old : α}
    (hcopy : c = true → copy new = some new) :
    takeOver c copy new old = some (if c then new else old) := by
  cases c with
  | true => exact hcopy rfl
  | false => rfl

end

/-- The fields of an info, each with the updates that cover it. -/
def InfoFields (Info : Type) : Type 1 := {α : Type} → (Info → Bool) → (Info → α) → Prop

/-- Updates give an info that is marked as changed in everything, with every field as in the last
update that covers it.  After an update with every bit set it is `full` of that update. -/
def LastUpdateWins {Info : Type} (step : Option Info → Option Info → Option (Option Info))
    (changeMask : Info → UInt64) (calloc : Info) (copies : Info → Prop) (fields : InfoFields Info)
    (full : Info → Info → Prop) : Prop :=
  ∀ us, us ≠ [] → (∀ u ∈ us, copies u) →
    ∃ info, infoUpdates step us = some (some info) ∧ changeMask info = changeMaskAll ∧
      (∀ {α : Type} {covers : Info → Bool} {get : Info → α}, fields covers get →
        get info = latest covers get (get calloc) us) ∧
      ∀ u, us.getLast? = some u → changeMask u = changeMaskAll → full info u

theorem lastUpdateWins {Info : Type} {changeMask : Info → UInt64} {calloc : Info}
    {assign : UInt64 → Info → Info → Option Info} {copies : Info → Prop}
    {fields : InfoFields Info} {full : Info → Info → Prop}
    (hsome : ∀ {u}, copies u → ∀ mask i, (assign mask i u).isSome)
    (hmask : ∀ {mask i u i'}, assign mask i u = some i' → changeMask i' = mask)
    (hassign : ∀ {α : Type} {covers : Info → Bool} {get : Info → α}, fields covers get →
      ∀ {mask i u i'}, assign mask i u = some i' → get i' = if covers u then get u else get i)
    (hfull : ∀ {info u}, changeMask u = changeMaskAll → changeMask info = changeMaskAll →
      (∀ {α : Type} {covers : Info → Bool} {get : Info → α}, fields covers get →
        covers u = true → get info = get u) → full info u) :
    LastUpdateWins (infoUpdate changeMask calloc assign) changeMask calloc copies fields full := by
  intro us hne hcopies
  obtain ⟨info, hinfo⟩ := infoUpdates_some hne fun u hu => hsome (hcopies u hu)
  have hchanged : changeMask info = changeMaskAll := infoUpdates_changeMask hmask hinfo info rfl
  refine ⟨info, hinfo, hchanged, ?_, ?_⟩
  · intro α covers get hfield
    exact infoUpdates_field covers get (hassign hfield) hinfo
  · intro u hlast hall
    refine hfull hall hchanged ?_
    intro α covers get hfield hu
    rw [← latest_of_getLast get hlast hu]
    exact infoUpdates_field covers get (hassign hfield) hinfo

theorem covers_all {Info : Type} {changeMask : Info → UInt64} {bit : UInt64} {u : Info}
    (hbit : changed changeMaskAll bit = true) (hall : changeMask u = changeMaskAll) :
    covers changeMask bit u = true := by
  rw [covers, hall, hbit]

attribute [ext] PinosCoreInfo PinosNodeInfo PinosModuleInfo PinosClientInfo PinosLinkInfo

namespace PinosCoreInfo

inductive Field : InfoFields PinosCoreInfo
  | id : Field (fun _ => true) PinosCoreInfo.id
  | userName : Field (covers PinosCoreInfo.changeMask 0) PinosCoreInfo.userName
  | hostName : Field (covers PinosCoreInfo.changeMask 1) PinosCoreInfo.hostName
  | version : Field (covers PinosCoreInfo.changeMask 2) PinosCoreInfo.version
  | name : Field (covers PinosCoreInfo.changeMask 3) PinosCoreInfo.name
  | cookie : Field (covers PinosCoreInfo.changeMask 4) PinosCoreInfo.cookie
  | props : Field (covers PinosCoreInfo.changeMask 5) PinosCoreInfo.props

def Copies (update : PinosCoreInfo) : Prop :=
  changed update.changeMask 5 → CopiesDict update.props

theorem assign_some {u : PinosCoreInfo} (h : u.Copies) (mask : UInt64) (i : PinosCoreInfo) :
    (assign mask i u).isSome := by
  rw [assign, takeOver_some fun hc => spaDictCopy_whole (h hc)]
  rfl

theorem assign_eq {mask : UInt64} {i u i' : PinosCoreInfo} (h : assign mask i u = some i') :
    i'.changeMask = mask ∧ ∀ {α : Type} {covers : PinosCoreInfo → Bool} {get : PinosCoreInfo → α},
      Field covers get → get i' = if covers u then get u else get i := by
  simp only [assign, Option.bind_eq_bind, Option.bind_eq_some_iff] at h
  obtain ⟨props, hprops, hi⟩ := h
  cases hi
  refine ⟨rfl, ?_⟩
  intro α covers get hfield
  cases hfield with
  | props => exact takeOver_eq_some spaDictCopy_eq_some hprops
  | _ => rfl

theorem eq_of_fields {info u : PinosCoreInfo} (hu : u.changeMask = changeMaskAll)
    (hinfo : info.changeMask = changeMaskAll)
    (h : ∀ {α : Type} {covers : PinosCoreInfo → Bool} {get : PinosCoreInfo → α}, Field covers get →
      covers u = true → get info = get u) :
    info = u :=
  PinosCoreInfo.ext (h .id rfl) (hinfo.trans hu.symm) (h .userName (covers_all rfl hu))
    (h .hostName (covers_all rfl hu)) (h .version (covers_all rfl hu))
    (h .name (covers_all rfl hu)) (h .cookie (covers_all rfl hu)) (h .props (covers_all rfl hu))

end PinosCoreInfo

namespace PinosNodeInfo

/-- The fields but `n_inputs` and `n_outputs`. -/
inductive Field : InfoFields PinosNodeInfo
  | id : Field (fun _ => true) PinosNodeInfo.id
  | name : Field (covers PinosNodeInfo.changeMask 0) PinosNodeInfo.name
  | maxInputs : Field (covers PinosNodeInfo.changeMask 1) PinosNodeInfo.maxInputs
  | inputFormats : Field (covers PinosNodeInfo.changeMask 2) PinosNodeInfo.inputFormats
  | maxOutputs : Field (covers PinosNodeInfo.changeMask 3) PinosNodeInfo.maxOutputs
  | outputFormats : Field (covers PinosNodeInfo.changeMask 4) PinosNodeInfo.outputFormats
  | state : Field (covers PinosNodeInfo.changeMask 5) PinosNodeInfo.state
  | error : Field (covers PinosNodeInfo.changeMask 5) PinosNodeInfo.error
  | props : Field (covers PinosNodeInfo.changeMask 6) PinosNodeInfo.props

def Copies (update : PinosNodeInfo) : Prop :=
  (changed update.changeMask 2 → CopiesFormats update.inputFormats) ∧
  (changed update.changeMask 4 → CopiesFormats update.outputFormats) ∧
  (changed update.changeMask 6 → CopiesDict update.props)

theorem assign_some {u : PinosNodeInfo} (h : u.Copies) (mask : UInt64) (i : PinosNodeInfo) :
    (assign mask i u).isSome := by
  obtain ⟨hinputs, houtputs, hprops⟩ := h
  rw [assign, takeOver_some fun hc => copyFormats_whole (hinputs hc),
    takeOver_some fun hc => copyFormats_whole (houtputs hc),
    takeOver_some fun hc => spaDictCopy_whole (hprops hc)]
  rfl

theorem assign_eq {mask : UInt64} {i u i' : PinosNodeInfo} (h : assign mask i u = some i') :
    i'.changeMask = mask ∧ ∀ {α : Type} {covers : PinosNodeInfo → Bool} {get : PinosNodeInfo → α},
      Field covers get → get i' = if covers u then get u else get i := by
  simp only [assign, Option.bind_eq_bind, Option.bind_eq_some_iff] at h
  obtain ⟨inputFormats, hinputs, outputFormats, houtputs, props, hprops, hi⟩ := h
  cases hi
  refine ⟨rfl, ?_⟩
  intro α covers get hfield
  cases hfield with
  | inputFormats => exact takeOver_eq_some copyArray_eq_some hinputs
  | outputFormats => exact takeOver_eq_some copyArray_eq_some houtputs
  | props => exact takeOver_eq_some spaDictCopy_eq_some hprops
  | _ => rfl

theorem eq_of_fields {info u : PinosNodeInfo} (hu : u.changeMask = changeMaskAll)
    (hinfo : info.changeMask = changeMaskAll)
    (h : ∀ {α : Type} {covers : PinosNodeInfo → Bool} {get : PinosNodeInfo → α}, Field covers get →
      covers u = true → get info = get u) :
    info = { u with nInputs := info.nInputs, nOutputs := info.nOutputs } :=
  PinosNodeInfo.ext (h .id rfl) (hinfo.trans hu.symm) (h .name (covers_all rfl hu))
    (h .maxInputs (covers_all rfl hu)) rfl (h .inputFormats (covers_all rfl hu))
    (h .maxOutputs (covers_all rfl hu)) rfl (h .outputFormats (covers_all rfl hu))
    (h .state (covers_all rfl hu)) (h .error (covers_all rfl hu)) (h .props (covers_all rfl hu))

end PinosNodeInfo

namespace PinosModuleInfo

inductive Field : InfoFields PinosModuleInfo
  | id : Field (fun _ => true) PinosModuleInfo.id
  | name : Field (covers PinosModuleInfo.changeMask 0) PinosModuleInfo.name
  | filename : Field (covers PinosModuleInfo.changeMask 1) PinosModuleInfo.filename
  | args : Field (covers PinosModuleInfo.changeMask 2) PinosModuleInfo.args
  | props : Field (covers PinosModuleInfo.changeMask 3) PinosModuleInfo.props

def Copies (update : PinosModuleInfo) : Prop :=
  changed update.changeMask 3 → CopiesDict update.props

theorem assign_some {u : PinosModuleInfo} (h : u.Copies) (mask : UInt64) (i : PinosModuleInfo) :
    (assign mask i u).isSome := by
  rw [assign, takeOver_some fun hc => spaDictCopy_whole (h hc)]
  rfl

theorem assign_eq {mask : UInt64} {i u i' : PinosModuleInfo} (h : assign mask i u = some i') :
    i'.changeMask = mask ∧
      ∀ {α : Type} {covers : PinosModuleInfo → Bool} {get : PinosModuleInfo → α}, Field covers get →
        get i' = if covers u then get u else get i := by
  simp only [assign, Option.bind_eq_bind, Option.bind_eq_some_iff] at h
  obtain ⟨props, hprops, hi⟩ := h
  cases hi
  refine ⟨rfl, ?_⟩
  intro α covers get hfield
  cases hfield with
  | props => exact takeOver_eq_some spaDictCopy_eq_some hprops
  | _ => rfl

theorem eq_of_fields {info u : PinosModuleInfo} (hu : u.changeMask = changeMaskAll)
    (hinfo : info.changeMask = changeMaskAll)
    (h : ∀ {α : Type} {covers : PinosModuleInfo → Bool} {get : PinosModuleInfo → α},
      Field covers get → covers u = true → get info = get u) :
    info = u :=
  PinosModuleInfo.ext (h .id rfl) (hinfo.trans hu.symm) (h .name (covers_all rfl hu))
    (h .filename (covers_all rfl hu)) (h .args (covers_all rfl hu)) (h .props (covers_all rfl hu))

end PinosModuleInfo

namespace PinosClientInfo

inductive Field : InfoFields PinosClientInfo
  | id : Field (fun _ => true) PinosClientInfo.id
  | props : Field (covers PinosClientInfo.changeMask 0) PinosClientInfo.props

def Copies (update : PinosClientInfo) : Prop :=
  changed update.changeMask 0 → CopiesDict update.props

theorem assign_some {u : PinosClientInfo} (h : u.Copies) (mask : UInt64) (i : PinosClientInfo) :
    (assign mask i u).isSome := by
  rw [assign, takeOver_some fun hc => spaDictCopy_whole (h hc)]
  rfl

theorem assign_eq {mask : UInt64} {i u i' : PinosClientInfo} (h : assign mask i u = some i') :
    i'.changeMask = mask ∧
      ∀ {α : Type} {covers : PinosClientInfo → Bool} {get : PinosClientInfo → α}, Field covers get →
        get i' = if covers u then get u else get i := by
  simp only [assign, Option.bind_eq_bind, Option.bind_eq_some_iff] at h
  obtain ⟨props, hprops, hi⟩ := h
  cases hi
  refine ⟨rfl, ?_⟩
  intro α covers get hfield
  cases hfield with
  | props => exact takeOver_eq_some spaDictCopy_eq_some hprops
  | _ => rfl

theorem eq_of_fields {info u : PinosClientInfo} (hu : u.changeMask = changeMaskAll)
    (hinfo : info.changeMask = changeMaskAll)
    (h : ∀ {α : Type} {covers : PinosClientInfo → Bool} {get : PinosClientInfo → α},
      Field covers get → covers u = true → get info = get u) :
    info = u :=
  PinosClientInfo.ext (h .id rfl) (hinfo.trans hu.symm) (h .props (covers_all rfl hu))

end PinosClientInfo

namespace PinosLinkInfo

inductive Field : InfoFields PinosLinkInfo
  | id : Field (fun _ => true) PinosLinkInfo.id
  | outputNodeId : Field (covers PinosLinkInfo.changeMask 0) PinosLinkInfo.outputNodeId
  | outputPortId : Field (covers PinosLinkInfo.changeMask 1) PinosLinkInfo.outputPortId
  | inputNodeId : Field (covers PinosLinkInfo.changeMask 2) PinosLinkInfo.inputNodeId
  | inputPortId : Field (covers PinosLinkInfo.changeMask 3) PinosLinkInfo.inputPortId

theorem assign_eq {mask : UInt64} {i u i' : PinosLinkInfo} (h : assign mask i u = some i') :
    i'.changeMask = mask ∧ ∀ {α : Type} {covers : PinosLinkInfo → Bool} {get : PinosLinkInfo → α},
      Field covers get → get i' = if covers u then get u else get i := by
  cases h
  refine ⟨rfl, ?_⟩
  intro α covers get hfield
  cases hfield with
  | _ => rfl

theorem eq_of_fields {info u : PinosLinkInfo} (hu : u.changeMask = changeMaskAll)
    (hinfo : info.changeMask = changeMaskAll)
    (h : ∀ {α : Type} {covers : PinosLinkInfo → Bool} {get : PinosLinkInfo → α}, Field covers get →
      covers u = true → get info = get u) :
    info = u :=
  PinosLinkInfo.ext (h .id rfl) (hinfo.trans hu.symm) (h .outputNodeId (covers_all rfl hu))
    (h .outputPortId (covers_all rfl hu)) (h .inputNodeId (covers_all rfl hu))
    (h .inputPortId (covers_all rfl hu))

end PinosLinkInfo

/-- The infos of each kind follow the updates. -/
theorem infoUpdates_lastUpdateWins :
    LastUpdateWins pinosCoreInfoUpdate PinosCoreInfo.changeMask .calloc PinosCoreInfo.Copies
        PinosCoreInfo.Field (fun info u => info = u) ∧
      LastUpdateWins pinosModuleInfoUpdate PinosModuleInfo.changeMask .calloc
        PinosModuleInfo.Copies PinosModuleInfo.Field (fun info u => info = u) ∧
      LastUpdateWins pinosNodeInfoUpdate PinosNodeInfo.changeMask .calloc PinosNodeInfo.Copies
        PinosNodeInfo.Field (fun info u =>
          info = { u with nInputs := info.nInputs, nOutputs := info.nOutputs }) ∧
      LastUpdateWins pinosClientInfoUpdate PinosClientInfo.changeMask .calloc
        PinosClientInfo.Copies PinosClientInfo.Field (fun info u => info = u) ∧
      LastUpdateWins pinosLinkInfoUpdate PinosLinkInfo.changeMask .calloc (fun _ => True)
        PinosLinkInfo.Field (fun info u => info = u) := by
  refine ⟨?_, ?_, ?_, ?_, ?_⟩
  · exact lastUpdateWins PinosCoreInfo.assign_some (fun h => (PinosCoreInfo.assign_eq h).1)
      (fun hfield _ _ _ _ h => (PinosCoreInfo.assign_eq h).2 hfield) PinosCoreInfo.eq_of_fields
  · exact lastUpdateWins PinosModuleInfo.assign_some (fun h => (PinosModuleInfo.assign_eq h).1)
      (fun hfield _ _ _ _ h => (PinosModuleInfo.assign_eq h).2 hfield) PinosModuleInfo.eq_of_fields
  · exact lastUpdateWins PinosNodeInfo.assign_some (fun h => (PinosNodeInfo.assign_eq h).1)
      (fun hfield _ _ _ _ h => (PinosNodeInfo.assign_eq h).2 hfield) PinosNodeInfo.eq_of_fields
  · exact lastUpdateWins PinosClientInfo.assign_some (fun h => (PinosClientInfo.assign_eq h).1)
      (fun hfield _ _ _ _ h => (PinosClientInfo.assign_eq h).2 hfield) PinosClientInfo.eq_of_fields
  · exact lastUpdateWins (fun _ _ _ => rfl) (fun h => (PinosLinkInfo.assign_eq h).1)
      (fun hfield _ _ _ _ h => (PinosLinkInfo.assign_eq h).2 hfield) PinosLinkInfo.eq_of_fields

/-- A node that is told that it has one input, in an update of nothing or of everything. -/
def oneInput (changeMask : UInt64) : PinosNodeInfo :=
  { PinosNodeInfo.calloc with changeMask, nInputs := 1 }

theorem infoUpdates_lastUpdateWins_node :
    ∃ info, infoUpdates pinosNodeInfoUpdate [oneInput changeMaskAll] = some (some info) ∧
      info.name = none := by
  obtain ⟨info, hinfo, -, hfields, -⟩ :=
    infoUpdates_lastUpdateWins.2.2.1 [oneInput changeMaskAll] (List.cons_ne_nil _ _) fun u hu => by
      rw [List.mem_singleton.mp hu]
      exact ⟨fun _ _ hf => (nomatch hf), fun _ _ hf => (nomatch hf), fun _ _ hd => (nomatch hd)⟩
  exact ⟨info, hinfo, hfields .name⟩

/-- The mask is not the union of the masks, and an update of everything leaves something out. -/
theorem not_infoUpdates_union_full :
    (¬ ∀ us info, infoUpdates pinosNodeInfoUpdate us = some (some info) →
      info.changeMask = us.foldr (fun u mask => u.changeMask ||| mask) 0) ∧
    ¬ ∀ us u info, infoUpdates pinosNodeInfoUpdate us = some (some info) →
      us.getLast? = some u → u.changeMask = changeMaskAll → info = u := by
  constructor
  · intro h
    have hmask := h [oneInput 0] _ rfl
    exact absurd hmask (by decide)
  · intro h
    have hinfo := h [oneInput changeMaskAll] _ _ rfl rfl rfl
    exact absurd (congrArg PinosNodeInfo.nInputs hinfo) (by decide)

end Native
end Pinos

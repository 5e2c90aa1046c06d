import Pinos.Lib.Halting
import Pinos.Plugins.V4l2EnumFormat

/-
What the enumeration of `plugins/v4l2/v4l2-utils.c` meets, and its calls as a machine.

The loops look at the entries of lists, which the device and the filter give.  The machine goes on
with the next call where one has returned a format, and halts where one returns
`SPA_RESULT_ENUM_END`.
-/

namespace Pinos

open StateTransition Halting

/-! ## What an enumeration meets -/

def V4l2Frmival.IsRange : V4l2Frmival → Prop
  | continuous _ | stepwise _ => True
  | _ => False

/-- The entry at an index of a list, in which those that do not pass are left empty. -/
def V4l2Entry.at {α : Type} (entries : List (Option α)) (index : UInt32) : V4l2Entry α :=
  match entries[index.toNat]? with
  | none => .past
  | some none => .skipped
  | some (some entry) => .found entry

namespace V4l2Enum

variable (enum : V4l2Enum)

/-- The size of the filter is not a rectangle. -/
def SizeMistyped : Prop := ∃ p, enum.findProp .size = some p ∧ p.type ≠ .rectangle

/-- The framerate of the filter is not a fraction. -/
def RateMistyped : Prop := ∃ p, enum.findProp .framerate = some p ∧ p.type ≠ .fraction

/-- The sizes of a pixel format: what the filter makes of those of the device, or its own one. -/
def frmsizes (pixelFormat : UInt32) : List (Option V4l2Frmsize) :=
  match enum.findProp .size with
  | none => (enum.device.framesizes pixelFormat).map some
  | some p =>
    if p.body.unset then
      (enum.device.framesizes pixelFormat).map fun frmsize =>
        if (p.filterSize frmsize).2 then some (p.filterSize frmsize).1 else none
    else [some (.discrete (p.rectangleAt 0).width (p.rectangleAt 0).height)]

/-- The sizes that intervals are asked for. -/
def sizes (pixelFormat : UInt32) : List SpaRectangle :=
  (enum.frmsizes pixelFormat).filterMap fun frmsize => frmsize.bind V4l2Frmsize.sensible

def intervals (pixelFormat : UInt32) (size : SpaRectangle) : List V4l2Frmival :=
  enum.device.frameintervals pixelFormat size.width size.height

/-- The intervals of a size, as the filter makes them. -/
def frmivals (pixelFormat : UInt32) (size : SpaRectangle) : List (Option V4l2Frmival) :=
  match enum.findProp .framerate with
  | none => (enum.intervals pixelFormat size).map some
  | some p =>
    (enum.intervals pixelFormat size).map fun frmival =>
      if (p.filterRate frmival).2 then some (p.filterRate frmival).1 else none

/-- The enumeration is given up when it looks at the intervals of a size. -/
def Stops (pixelFormat : UInt32) (size : SpaRectangle) : Prop :=
  enum.RateMistyped ∧ enum.intervals pixelFormat size ≠ []

/-- A range of intervals passes the filter. -/
def Repeats (pixelFormat : UInt32) (size : SpaRectangle) : Prop :=
  ¬ enum.RateMistyped ∧ ∃ frmival, some frmival ∈ enum.frmivals pixelFormat size ∧ frmival.IsRange

/-- The pixel format at an index, if it is one that has a type. -/
def pixelformatAt (index : UInt32) : Option UInt32 :=
  match enum.fmtdescAt index with
  | .found pixelformat =>
    if (fourccToFormatInfo pixelformat).isSome then some pixelformat else none
  | _ => none

def StopsAt (index : UInt32) : Prop :=
  enum.fmtdescAt index = .enumEnd ∨
    ∃ pixelFormat, enum.pixelformatAt index = some pixelFormat ∧
      (enum.SizeMistyped ∨ ∃ size ∈ enum.sizes pixelFormat, enum.Stops pixelFormat size)

def RepeatsAt (index : UInt32) : Prop :=
  ∃ pixelFormat, enum.pixelformatAt index = some pixelFormat ∧
    ∃ size ∈ enum.sizes pixelFormat, enum.Repeats pixelFormat size

/-- A size has a format when it has intervals, even if none of them passes. -/
def formatsOf (pixelFormat : UInt32) (size : SpaRectangle) : Nat :=
  if enum.intervals pixelFormat size = [] then 0 else 1

def formatsAt (index : UInt32) : Nat :=
  match enum.pixelformatAt index with
  | none => 0
  | some pixelFormat => ((enum.sizes pixelFormat).map (enum.formatsOf pixelFormat)).sum

end V4l2Enum

/-! ## Entries -/

namespace V4l2Enum

variable {enum : V4l2Enum}

theorem frmsizeAt_eq (h : ¬ enum.SizeMistyped) (pixelFormat index : UInt32) :
    enum.frmsizeAt pixelFormat index = .at (enum.frmsizes pixelFormat) index := by
  rw [frmsizeAt, frmsizes, V4l2Entry.at]
  cases hp : enum.findProp .size with
  | none =>
    dsimp only
    rw [List.getElem?_map]
    cases (enum.device.framesizes pixelFormat)[index.toNat]? <;> rfl
  | some p =>
    have htype : ¬ p.type ≠ .rectangle := fun hne => h ⟨p, hp, hne⟩
    dsimp only
    rw [if_neg htype]
    by_cases hunset : p.body.unset = true
    · rw [if_pos hunset, if_pos hunset, List.getElem?_map]
      cases (enum.device.framesizes pixelFormat)[index.toNat]? with
      | none => rfl
      | some frmsize =>
        dsimp only [Option.map_some]
        cases (p.filterSize frmsize).2 <;> rfl
    · rw [if_neg hunset, if_neg hunset]
      by_cases hzero : 0 < index
      · have hlen : 1 ≤ index.toNat := hzero
        rw [if_pos hzero, List.getElem?_eq_none hlen]
      · have hindex : index = 0 := UInt32.le_antisymm (UInt32.not_lt.mp hzero) (Nat.zero_le _)
        rw [if_neg hzero, hindex]
        rfl

theorem frmsizeAt_mistyped (h : enum.SizeMistyped) (pixelFormat index : UInt32) :
    enum.frmsizeAt pixelFormat index = .enumEnd := by
  obtain ⟨p, hp, hne⟩ := h
  rw [frmsizeAt, hp]
  exact if_pos hne

theorem frmivalAt_eq (h : ¬ enum.RateMistyped) (pixelFormat index : UInt32) (size : SpaRectangle) :
    enum.frmivalAt pixelFormat size.width size.height index =
      .at (enum.frmivals pixelFormat size) index := by
  rw [frmivalAt, frmivals, V4l2Entry.at, ← intervals]
  cases hp : enum.findProp .framerate with
  | none =>
    dsimp only
    rw [List.getElem?_map]
    cases (enum.intervals pixelFormat size)[index.toNat]? <;> rfl
  | some p =>
    have htype : ¬ p.type ≠ .fraction := fun hne => h ⟨p, hp, hne⟩
    dsimp only
    rw [List.getElem?_map]
    cases (enum.intervals pixelFormat size)[index.toNat]? with
    | none => rfl
    | some frmival =>
      dsimp only [Option.map_some]
      rw [if_neg htype]
      cases (p.filterRate frmival).2 <;> rfl

theorem frmivalAt_mistyped (h : enum.RateMistyped) {pixelFormat : UInt32} {size : SpaRectangle}
    (hsome : enum.intervals pixelFormat size ≠ []) :
    enum.frmivalAt pixelFormat size.width size.height (.ofNat 0) = .enumEnd := by
  obtain ⟨p, hp, hne⟩ := h
  obtain ⟨frmival, rest, hcons⟩ := List.exists_cons_of_ne_nil hsome
  rw [frmivalAt, ← intervals, hcons, hp]
  exact if_pos hne

theorem frmivalAt_empty {pixelFormat : UInt32} {size : SpaRectangle}
    (hnone : enum.intervals pixelFormat size = []) :
    enum.frmivalAt pixelFormat size.width size.height (.ofNat 0) = .past := by
  rw [frmivalAt, ← intervals, hnone]
  rfl

theorem length_frmivals (pixelFormat : UInt32) (size : SpaRectangle) :
    (enum.frmivals pixelFormat size).length = (enum.intervals pixelFormat size).length := by
  rw [frmivals]
  split <;> exact List.length_map _

theorem length_frmivals_lt (pixelFormat : UInt32) (size : SpaRectangle) :
    (enum.frmivals pixelFormat size).length < 2 ^ 32 := by
  rw [length_frmivals]
  exact enum.device.few_frameintervals _ _ _

theorem length_frmsizes_lt (pixelFormat : UInt32) :
    (enum.frmsizes pixelFormat).length < 2 ^ 32 := by
  have hfew := enum.device.few_framesizes pixelFormat
  rw [frmsizes]
  split
  · rwa [List.length_map]
  · split
    · rwa [List.length_map]
    · exact Nat.one_lt_two_pow (by decide)

theorem fmtdescAt_ne_past (index : UInt32) : enum.fmtdescAt index ≠ .past := by
  rw [fmtdescAt]
  split
  · dsimp only
    split
    · exact nofun
    · split <;> exact nofun
  · split <;> exact nofun

end V4l2Enum

/-! ## Intervals that are known -/

namespace PropPod

theorem filterEach_known {filter : V4l2Frmival → FilterFraction → FilterFraction →
      FilterFraction → V4l2Frmival × Bool} {value : Nat → FilterFraction} {one : FilterFraction}
    (hfilter : ∀ frmival, frmival.Known → ∀ min max step, (filter frmival min max step).1.Known)
    {frmival : V4l2Frmival} (h : frmival.Known) (is : List Nat) :
    (filterEach filter value one frmival is).1.Known := by
  induction is generalizing frmival with
  | nil => exact h
  | cons i is ih =>
    rw [filterEach]
    dsimp only
    split
    · exact hfilter frmival h _ _ _
    · exact ih (hfilter frmival h _ _ _)

theorem filterFramerate_known {frmival : V4l2Frmival} (h : frmival.Known)
    (min max step : FilterFraction) : (filterFramerate frmival min max step).1.Known := by
  cases frmival with
  | discrete interval => exact trivial
  | continuous intervals => exact trivial
  | stepwise intervals => exact trivial
  | unknown type => exact h.elim

theorem filterRate_known (p : PropPod) {frmival : V4l2Frmival} (h : frmival.Known) :
    (p.filterRate frmival).1.Known := by
  have hfilter := fun frmival (h : V4l2Frmival.Known frmival) => filterFramerate_known h
  rw [filterRate]
  split
  · rw [filterRange]
    split
    · split
      · exact hfilter _ h _ _ _
      · exact h
    · split
      · exact hfilter _ h _ _ _
      · exact h
    · exact filterEach_known hfilter h _
    · exact h
  · exact hfilter _ h _ _ _

end PropPod

theorem V4l2Enum.known_of_mem {enum : V4l2Enum} {pixelFormat : UInt32} {size : SpaRectangle}
    {frmival : V4l2Frmival} (h : some frmival ∈ enum.frmivals pixelFormat size) :
    frmival.Known := by
  have hknown := enum.device.frameintervals_known pixelFormat size.width size.height
  rw [frmivals] at h
  split at h
  · obtain ⟨frmival', hmem, hsome⟩ := List.mem_map.mp h
    cases hsome
    exact hknown frmival hmem
  · rename_i p _
    obtain ⟨frmival', hmem, hsome⟩ := List.mem_map.mp h
    split at hsome
    · cases hsome
      exact p.filterRate_known (hknown frmival' hmem)
    · cases hsome

/-! ## The machine -/

/-- All calls one behind the other: how many of them have returned a format, and where the last one
is. -/
structure V4l2Calls where
  returned : Nat
  label : V4l2Label
  state : SpaV4l2State

namespace V4l2Enum

variable (enum : V4l2Enum)

def next (calls : V4l2Calls) : Option V4l2Calls :=
  match enum.turn calls.label calls.state with
  | .goto label state => some { returned := calls.returned, label, state }
  | .ret res _ state =>
    if res = .ok then some { returned := calls.returned + 1, label := .fmtdesc, state } else none

variable {enum} {n : Nat} {label label' : V4l2Label} {s s' : SpaV4l2State}
  {format : Option V4l2Format}

theorem next_goto (h : enum.turn label s = .goto label' s') (n : Nat) :
    enum.next ⟨n, label, s⟩ = some ⟨n, label', s'⟩ := by
  rw [next, h]

theorem next_ok (h : enum.turn label s = .ret .ok format s') (n : Nat) :
    enum.next ⟨n, label, s⟩ = some ⟨n + 1, .fmtdesc, s'⟩ := by
  rw [next, h]
  rfl

theorem next_enumEnd (h : enum.turn label s = .ret .enumEnd format s') (n : Nat) :
    enum.next ⟨n, label, s⟩ = none := by
  rw [next, h]
  rfl

theorem reaches_goto (h : enum.turn label s = .goto label' s') (n : Nat) :
    Reaches enum.next ⟨n, label, s⟩ ⟨n, label', s'⟩ :=
  reaches_of_next (next_goto h n)

/-- A call returns a format or the end. -/
theorem turn_ret {res : SpaResult} (h : enum.turn label s = .ret res format s') :
    (res = .enumEnd ∧ format = none) ∨ (res = .ok ∧ ∃ f, format = some f) := by
  cases label with
  | fmtdesc =>
    rw [turn] at h
    split at h
    · split at h <;> cases h <;> exact .inl ⟨rfl, rfl⟩
    · split at h <;> cases h
  | nextFmtdesc => cases h
  | frmsize info =>
    rw [turn] at h
    split at h
    · split at h <;> cases h
      exact .inl ⟨rfl, rfl⟩
    · cases h
  | build info => cases h
  | frmival info framerate =>
    rw [turn] at h
    split at h
    · cases h
      exact .inl ⟨rfl, rfl⟩
    · dsimp only at h
      split at h
      · cases h
      · cases h
        exact .inr ⟨rfl, _, rfl⟩
    · cases h
    · cases h
    · cases h
      exact .inr ⟨rfl, _, rfl⟩
    · cases h
      exact .inr ⟨rfl, _, rfl⟩
    · cases h

theorem reaches_of_run {fuel : Nat} {res : SpaResult}
    (h : enum.run fuel label s = some (res, format, s')) (n : Nat) :
    ∃ label' t, Reaches enum.next ⟨n, label, s⟩ ⟨n, label', t⟩ ∧
      enum.turn label' t = .ret res format s' := by
  induction fuel generalizing label s with
  | zero => cases h
  | succ fuel ih =>
    rw [run] at h
    cases hturn : enum.turn label s with
    | goto label₁ s₁ =>
      rw [hturn] at h
      obtain ⟨label', t, hreach, hret⟩ := ih h
      exact ⟨label', t, (reaches_goto hturn n).trans hreach, hret⟩
    | ret res₁ format₁ s₁ =>
      rw [hturn] at h
      cases h
      exact ⟨label, s, Relation.ReflTransGen.refl, hturn⟩

/-- Where the call with some index starts. -/
def entered (index : UInt32) (s : SpaV4l2State) : SpaV4l2State :=
  if index = 0 then .cleared else s

theorem Enumerates.reaches {index : UInt32} (h : enum.Enumerates index s) :
    ∃ n < 2 ^ 32, ∃ label t,
      Reaches enum.next ⟨index.toNat, .fmtdesc, entered index s⟩ ⟨n, label, t⟩ ∧
        enum.next ⟨n, label, t⟩ = none := by
  induction h with
  | @enumEnd fuel index s s' h =>
    obtain ⟨label, t, hreach, hret⟩ := reaches_of_run h index.toNat
    exact ⟨_, index.toNat_lt, label, t, hreach, next_enumEnd hret _⟩
  | @ok fuel index s s' format h hindex rest ih =>
    obtain ⟨label₁, t₁, hreach, hret⟩ := reaches_of_run h index.toNat
    obtain ⟨n, hn, label, t, hrest, hnone⟩ := ih
    have hsucc : (index + 1).toNat = index.toNat + 1 := by
      have hne : (index + 1).toNat ≠ 0 := fun heq => hindex (UInt32.toNat_inj.mp heq)
      have hlt := index.toNat_lt
      have hmod : (index + 1).toNat = (index.toNat + 1) % 2 ^ 32 := UInt32.toNat_add _ _
      omega
    rw [entered, if_neg hindex, hsucc] at hrest
    exact ⟨n, hn, label, t, (hreach.trans (reaches_of_next (next_ok hret _))).trans hrest, hnone⟩

theorem ofNat_succ_ne_zero (h : n + 1 < 2 ^ 32) : UInt32.ofNat (n + 1) ≠ 0 := by
  intro heq
  have hzero := congrArg UInt32.toNat heq
  rw [UInt32.toNat_ofNat_of_lt' h] at hzero
  cases hzero

theorem ofNat_add_one (n : Nat) : UInt32.ofNat n + 1 = .ofNat (n + 1) := by
  rw [UInt32.ofNat_add, UInt32.ofNat_one]

/-- The call that is at some label returns, and so do the calls behind it. -/
def Returns (enum : V4l2Enum) (calls : V4l2Calls) : Prop :=
  ∃ fuel s', enum.run fuel calls.label calls.state = some (.enumEnd, none, s') ∨
    ∃ format, enum.run fuel calls.label calls.state = some (.ok, some format, s') ∧
      calls.returned + 1 < 2 ^ 32 ∧ enum.Enumerates (.ofNat (calls.returned + 1)) s'

theorem returns_of_reaches {c b : V4l2Calls} (h : Reaches enum.next c b)
    (hnone : enum.next b = none) (hb : b.returned < 2 ^ 32) :
    c.returned ≤ b.returned ∧ enum.Returns c := by
  refine Relation.ReflTransGen.head_induction_on h ?_ ?_
  · refine ⟨Nat.le_refl _, 1, ?_⟩
    cases hturn : enum.turn b.label b.state with
    | goto label s =>
      rw [next, hturn] at hnone
      cases hnone
    | ret res format s =>
      rcases turn_ret hturn with ⟨rfl, rfl⟩ | ⟨rfl, -⟩
      · exact ⟨s, .inl (by rw [run, hturn])⟩
      · rw [next, hturn] at hnone
        cases hnone
  · intro c c' hcc' _ ih
    obtain ⟨hle, fuel, s', hcall⟩ := ih
    have hstep : enum.next c = some c' := hcc'
    cases hturn : enum.turn c.label c.state with
    | goto label s =>
      rw [next, hturn] at hstep
      cases hstep
      refine ⟨hle, fuel + 1, s', ?_⟩
      rw [run, hturn]
      exact hcall
    | ret res format s =>
      rw [next, hturn] at hstep
      rcases turn_ret hturn with ⟨rfl, rfl⟩ | ⟨rfl, format, rfl⟩
      · cases hstep
      · cases hstep
        have hlt : c.returned + 1 < 2 ^ 32 := Nat.lt_of_le_of_lt hle hb
        have hindex := ofNat_succ_ne_zero hlt
        have hcalled : enum.enumFormat fuel (.ofNat (c.returned + 1)) s =
            enum.run fuel .fmtdesc s := by
          rw [enumFormat, if_neg hindex]
        refine ⟨Nat.le_of_succ_le hle, 1, s, .inr ⟨format, by rw [run, hturn], hlt, ?_⟩⟩
        rcases hcall with hend | ⟨format', hok, hlt', hrest⟩
        · exact .enumEnd (hcalled.trans hend)
        · refine .ok (hcalled.trans hok) ?_ ?_
          · rw [ofNat_add_one]
            exact ofNat_succ_ne_zero hlt'
          · rw [ofNat_add_one]
            exact hrest

/-- The enumeration ends where the machine does, unless the indices run out before. -/
theorem enumerates_iff_reaches (s : SpaV4l2State) :
    enum.Enumerates 0 s ↔ ∃ n < 2 ^ 32, ∃ label t,
      Reaches enum.next ⟨0, .fmtdesc, .cleared⟩ ⟨n, label, t⟩ ∧
        enum.next ⟨n, label, t⟩ = none := by
  constructor
  · intro h
    exact h.reaches
  · rintro ⟨n, hn, label, t, hreach, hnone⟩
    obtain ⟨-, fuel, s', hend | ⟨format, hok, -, hrest⟩⟩ := returns_of_reaches hreach hnone hn
    · have hcalled : enum.enumFormat fuel 0 s = some (.enumEnd, none, s') := hend
      exact .enumEnd hcalled
    · have hcalled : enum.enumFormat fuel 0 s = some (.ok, some format, s') := hok
      exact .ok hcalled (by decide) hrest

end V4l2Enum

end Pinos

import Pinos.Client.CallRoundTrip
import Pinos.Client.Translation

/-
Calls between two sides that number their types differently.

The receiver translates the type ids of a message in place before it reads it.  `translated` is
the call that it makes: the one that was sent, with each id replaced by its image.
-/

namespace Pinos

open ByteMem

/-- The image of an id in a table of ids; an id without an image is not asked for. -/
def PinosMap.target (types : PinosMap) (id : UInt32) : UInt32 := (types.image id.toNat).getD id

namespace PodCall

/-- A value with the ids replaced: `objs` gives the objects that take the place of objects. -/
def translated (types : PinosMap) (objs : SpaPODObject → SpaPODObject) : PodCall → PodCall
  | .id val => .id (types.target val)
  | .pod (some ⟨.object, body, small⟩) => .pod (some (objs ⟨body, small⟩).blob)
  | c => c

/-- The ids that the translation of a value visits are in the table, and its object becomes what
`objs` gives. -/
def TranslatedBy (types : PinosMap) (objs : SpaPODObject → SpaPODObject) : PodCall → Prop
  | .id val => types.image val.toNat ≠ none
  | .pod (some blob) => ∃ (o : SpaPODObject) (p : Pod), blob = o.blob ∧ p.WellFormed ∧
      p.type = .object ∧ p.body = o.body ∧
      (∀ w ∈ p.idWords 0, w.visited = true → types.image w.id.toNat ≠ none) ∧
      (objs o).body = (p.translated types.target).body
  | _ => True

end PodCall

namespace IdWord

variable {types : PinosMap} {ws : List IdWord}

theorem known_target
    (h : ∀ w ∈ ws, w.visited = true → types.image w.id.toNat ≠ none) :
    Known types types.target ws := by
  intro w hw hvisited
  obtain ⟨id', hid⟩ := Option.ne_none_iff_exists'.mp (h w hw hvisited)
  rw [PinosMap.target, hid]
  rfl

end IdWord

theorem Pod.known_at {types : PinosMap} {f : UInt32 → UInt32} {p : Pod}
    (h : IdWord.Known types f (p.idWords 0)) (a : Nat) : IdWord.Known types f (p.idWords a) := by
  intro w hw hvisited
  obtain ⟨v, hv, rfl⟩ := Pod.mem_idWords_shift.mp hw
  exact h v hv hvisited

namespace Writes

open PinosMap

variable {types : PinosMap} {objs : SpaPODObject → SpaPODObject} {calls : List PodCall}
  {bs : List UInt8}

/-- What the translation makes of one value. -/
theorem field_turns {c : PodCall} {type : SpaPODType} {body : List UInt8}
    (hfield : c.field = some (type, body)) (hby : c.TranslatedBy types objs) (a : Nat) :
    ∃ ws body', (c.translated types objs).field = some (type, body') ∧
      Turns types ws a body body' ∧
        ∀ m : Mem, m.Holds a body → Nested types m type.code a body.length ws := by
  cases c with
  | id val =>
    cases hfield
    obtain ⟨val', hval⟩ := Option.ne_none_iff_exists'.mp hby
    have htarget : types.target val = val' := by
      rw [target, hval]
      rfl
    refine ⟨[a], toLE 4 val'.toNat, ?_, .word hval, fun m _ => .id (by rw [length_toLE])⟩
    rw [PodCall.translated, htarget]
    rfl
  | pod pod =>
    cases pod with
    | none =>
      cases hfield
      exact ⟨[], [], rfl, .refl types a _,
        fun m _ => Pod.nested_other (by decide) (by decide) (by decide) (by decide)⟩
    | some blob =>
      obtain ⟨o, p, rfl, hwf, htype, hbody, hids, hobjs⟩ := hby
      cases hfield
      have hknown := Pod.known_at (IdWord.known_target hids) a
      refine ⟨Pod.visitedWords (p.idWords a), (objs o).body, rfl, ?_, fun m hm => ?_⟩
      · show Turns types _ a o.body (objs o).body
        rw [hobjs, ← hbody]
        exact p.turns a hwf hknown
      · have hm' : m.Holds a p.body := by
          rw [hbody]
          exact hm
        have hnested : Nested types m _ _ _ _ := p.idWords_nested a hwf hm'
        rw [htype, hbody] at hnested
        exact hnested
  | int val | long val | string str | bytes data =>
    cases hfield
    exact ⟨[], _, rfl, .refl types a _,
      fun m _ => Pod.nested_other (by decide) (by decide) (by decide) (by decide)⟩
  | _ => cases hfield

/-- What it makes of the values of a message. -/
theorem turns (h : Writes calls bs) (hby : ∀ c ∈ calls, c.TranslatedBy types objs)
    (hlt : bs.length < 2 ^ 32) (a : Nat) :
    ∃ ws bs', Writes (calls.map (PodCall.translated types objs)) bs' ∧
      Turns types ws a bs bs' ∧
        ∀ m : Mem, m.Holds a bs → NestedPods types m a (a + bs.length) ws := by
  induction h generalizing a with
  | nil => exact ⟨[], [], .nil, .refl types a _, fun _ _ => .done (Nat.le_refl _)⟩
  | @value c calls type body bs hfield _ ih =>
    rw [List.length_append] at hlt
    have hlen : (fieldBytes type body).length = roundUpN (8 + body.length) 8 := by
      rw [fieldBytes, Pod.length_aligned, Pod.length_withHeader, roundUpN_eight]
    have hround := roundUpN_eight (8 + body.length)
    obtain ⟨ws, body', hfield', hone, hnested⟩ :=
      field_turns hfield (hby c List.mem_cons_self) (a + 8)
    obtain ⟨ws', bs', hwrites, hrest, hnestedRest⟩ :=
      ih (fun d hd => hby d (List.mem_cons_of_mem c hd)) (by omega)
        (a + (fieldBytes type body).length)
    refine ⟨ws ++ ws', fieldBytes type body' ++ bs', .value hfield' hwrites,
      hone.header.aligned.append hrest, fun m hm => ?_⟩
    obtain ⟨hsize, htype, hbody⟩ := SpaPODIter.holds_aligned hm.left (by rw [← fieldBytes]; omega)
    have hpod : podSize m a = 8 + body.length := by rw [podSize, hsize, sizeofSpaPOD]
    rw [List.length_append]
    refine .next ?_ ?_ ?_
    · rw [hpod]
      omega
    · rw [htype, hsize]
      exact hnested m hbody
    · rw [hpod, ← hlen, ← Nat.add_assoc]
      exact hnestedRest m hm.right
  | @struct inner calls vs bs hinner _ ih ih' =>
    rw [List.length_append, Pod.length_withHeader] at hlt
    have hmod := hinner.length_mod
    obtain ⟨ws, vs', hwrites, hone, hnested⟩ := ih
      (fun d hd => hby d (List.mem_cons_of_mem _ (List.mem_append_left _ hd))) (by omega) (a + 8)
    obtain ⟨ws', bs', hwritesRest, hrest, hnestedRest⟩ := ih'
      (fun d hd => hby d (List.mem_cons_of_mem _ (List.mem_append_right _
        (List.mem_cons_of_mem _ hd)))) (by omega) (a + (Pod.withHeader .struct vs).length)
    refine ⟨ws ++ ws', Pod.withHeader .struct vs' ++ bs', ?_, hone.header.append hrest,
      fun m hm => ?_⟩
    · rw [List.map_cons, List.map_append, List.map_cons]
      exact .struct hwrites hwritesRest
    obtain ⟨hsize, htype, hbody⟩ := Pod.holds_withHeader hm.left (by omega)
    have hpod : podSize m a = 8 + vs.length := by rw [podSize, hsize, sizeofSpaPOD]
    have hright := hnestedRest m hm.right
    rw [Pod.length_withHeader, Nat.add_assoc] at hright
    rw [List.length_append, Pod.length_withHeader]
    refine .next ?_ ?_ ?_
    · rw [hpod]
      omega
    · rw [htype, hsize]
      exact .struct (hnested m hbody)
    · rw [hpod, roundUpN_eight, padLength_of_mod (by omega), Nat.add_zero]
      exact hright

end Writes

namespace Demarshal

variable {α : Type} {d : Demarshal α} {types : PinosMap} {objs : SpaPODObject → SpaPODObject}
  {m : Mem} {data : Nat} {values stop : List PodCall} {vs : List UInt8}

/-- Reading what stands in memory behind the header of a message. -/
theorem get_run (h : Writes values vs) (hstop : ∀ c ∈ stop.head?, c = .pop)
    (hm : m.Holds data (Pod.withHeader .struct vs)) (hlt : 8 + vs.length < 2 ^ 32) :
    d.get.run m (.contents (data + 8) vs.length) = (d.get.read (values ++ stop)).map Prod.fst := by
  have hbody := (Pod.holds_withHeader hm (by omega)).2.2
  apply Get.run_eq_read
  have hlast : (SpaPODIter.contents (data + 8) vs.length).size + 8 < 2 ^ 32 := by
    show vs.length + 8 < _
    omega
  exact h.at_holds hbody (Nat.zero_add _).symm hlast hstop

theorem run_plain (hremap : d.remap = false) (h : Writes values vs)
    (hstop : ∀ c ∈ stop.head?, c = .pop) (hdata : data ≠ 0)
    (hm : m.Holds data (Pod.withHeader .struct vs)) (hlt : 8 + vs.length < 2 ^ 32) :
    ∃ fuel, d.run types fuel m data (8 + vs.length) =
      some ((d.get.read (values ++ stop)).map Prod.fst) := by
  refine ⟨0, ?_⟩
  rw [run, struct_holds hdata hm hlt, if_neg (Nat.lt_irrefl _)]
  simp only [hremap, Bool.false_eq_true, if_false, get_run h hstop hm hlt]

/-- A message that is translated is what is read of its values with their ids replaced. -/
theorem run_translated (hremap : d.remap = true) (h : Writes values vs)
    (hstop : ∀ c ∈ stop.head?, c = .pop) (hdata : data ≠ 0)
    (hm : m.Holds data (Pod.withHeader .struct vs)) (hlt : 8 + vs.length < 2 ^ 32)
    (hby : ∀ c ∈ values, c.TranslatedBy types objs) :
    ∃ fuel, d.run types fuel m data (8 + vs.length) =
      some ((d.get.read (values.map (PodCall.translated types objs) ++ stop)).map Prod.fst) := by
  obtain ⟨ws, vs', hwrites, hturns, hinner⟩ := h.turns hby (by omega) (data + 8)
  obtain ⟨hsize, htype, hbody⟩ := Pod.holds_withHeader hm (by omega)
  have hpod : podSize m data = 8 + vs.length := by rw [podSize, hsize, sizeofSpaPOD]
  have hround := roundUpN_eight (8 + vs.length)
  have hnested : PinosMap.NestedPods types m data (data + (8 + vs.length)) (ws ++ []) := by
    refine .next ?_ ?_ (.done ?_)
    · rw [hpod]
    · rw [htype, hsize]
      exact .struct (hinner m hbody)
    · rw [hpod]
      omega
  rw [List.append_nil] at hnested
  obtain ⟨fuel, hrun⟩ := (PinosMap.Nested.struct hnested).run hlt
  obtain ⟨accesses, -, hr⟩ := hrun ⟨m, []⟩ fun _ _ _ => rfl
  obtain ⟨hok, hholds⟩ := hturns.header.turns m hm
  rw [hok] at hr
  have hlen := hturns.length
  have hread := get_run (d := d) hwrites hstop hholds (by omega)
  rw [hlen] at hread
  refine ⟨fuel, ?_⟩
  rw [run, struct_holds hdata hm hlt, if_neg (Nat.lt_irrefl _)]
  simp only [hremap, if_true, hr, hread]

end Demarshal

namespace Native

def SpaPortInfo.translated (objs : SpaPODObject → SpaPODObject) (info : SpaPortInfo) :
    SpaPortInfo :=
  { info with params := info.params.map (Option.map objs) }

def SpaMeta.translated (types : PinosMap) (m : SpaMeta) : SpaMeta :=
  { m with type := types.target m.type }

def SpaData.translated (types : PinosMap) (d : SpaData) : SpaData :=
  { d with type := types.target d.type }

def PinosClientNodeBuffer.translated (types : PinosMap) (b : PinosClientNodeBuffer) :
    PinosClientNodeBuffer :=
  { b with
    buffer :=
      { b.buffer with
        metas := b.buffer.metas.map (SpaMeta.translated types)
        datas := b.buffer.datas.map (SpaData.translated types) } }

/-! ## The values of a call that is translated -/

section Values

variable {α β : Type} {types : PinosMap} {objs : SpaPODObject → SpaPODObject}

@[simp] theorem translated_int (val : UInt32) :
    (PodCall.int val).translated types objs = .int val := rfl

@[simp] theorem translated_long (val : UInt64) :
    (PodCall.long val).translated types objs = .long val := rfl

@[simp] theorem translated_string (str : Option CString) :
    (PodCall.string str).translated types objs = .string str := rfl

@[simp] theorem translated_bytes (data : List UInt8) :
    (PodCall.bytes data).translated types objs = .bytes data := rfl

@[simp] theorem translated_id (val : UInt32) :
    (PodCall.id val).translated types objs = .id (types.target val) := rfl

@[simp] theorem map_podStruct (values : List PodCall) :
    (podStruct values).map (PodCall.translated types objs) =
      podStruct (values.map (PodCall.translated types objs)) := by
  rw [podStruct, List.map_cons, List.map_append]
  rfl

@[simp] theorem map_putObject (pod : Option SpaPODObject) :
    (putObject pod).map (PodCall.translated types objs) = putObject (pod.map objs) := by
  cases pod <;> rfl

theorem map_putArray {put : α → List PodCall} {put' : β → List PodCall} {g : α → β}
    (h : ∀ x, (put x).map (PodCall.translated types objs) = put' (g x)) (xs : Counted α) :
    (putArray put xs).map (PodCall.translated types objs) = putArray put' (xs.map g) := by
  have hcount : (xs.map g).count = xs.count := by
    rw [Counted.count, Counted.count, Counted.map, List.length_map]
  rw [putArray, putArray, List.map_cons, List.map_flatMap, hcount, Counted.map, List.flatMap_map]
  simp only [h, translated_int]

theorem map_putArray_self {put : α → List PodCall}
    (h : ∀ x, (put x).map (PodCall.translated types objs) = put x) (xs : Counted α) :
    (putArray put xs).map (PodCall.translated types objs) = putArray put xs := by
  rw [putArray, List.map_cons, List.map_flatMap]
  simp only [h, translated_int]

@[simp] theorem map_putObjects (pods : Counted (Option SpaPODObject)) :
    (putArray putObject pods).map (PodCall.translated types objs) =
      putArray putObject (pods.map (Option.map objs)) :=
  map_putArray map_putObject pods

@[simp] theorem map_putStrings (strs : Counted (Option CString)) :
    (putArray putString strs).map (PodCall.translated types objs) = putArray putString strs :=
  map_putArray_self (fun _ => rfl) strs

@[simp] theorem map_putDict (props : Option SpaDict) :
    (putDict props).map (PodCall.translated types objs) = putDict props :=
  map_putArray_self (fun _ => rfl) _

@[simp] theorem map_putDictInt (props : Option SpaDict) :
    (putDictInt props).map (PodCall.translated types objs) = putDictInt props := by
  have hitem : ∀ item, (putItem item).map (PodCall.translated types objs) = putItem item :=
    fun _ => rfl
  rw [putDictInt, List.map_cons, List.map_flatMap]
  simp only [hitem, translated_int]

@[simp] theorem map_putPortInfo (info : Option SpaPortInfo) :
    (Client.putPortInfo info).map (PodCall.translated types objs) =
      Client.putPortInfo (info.map (SpaPortInfo.translated objs)) := by
  cases info with
  | none => rfl
  | some info => simp [Client.putPortInfo, SpaPortInfo.translated]

theorem map_putBuffer (b : PinosClientNodeBuffer) :
    (putBuffer b).map (PodCall.translated types objs) = putBuffer (b.translated types) := by
  have hmetas : ∀ m : SpaMeta, (putMeta m).map (PodCall.translated types objs) =
      putMeta (m.translated types) := fun _ => rfl
  have hdatas : ∀ d : SpaData, (putData d).map (PodCall.translated types objs) =
      putData (d.translated types) := fun _ => rfl
  rw [putBuffer, putBuffer, List.map_append, List.map_append, map_putArray hmetas,
    map_putArray hdatas]
  rfl

@[simp] theorem map_putBuffers (buffers : Counted PinosClientNodeBuffer) :
    (putArray putBuffer buffers).map (PodCall.translated types objs) =
      putArray putBuffer (buffers.map (PinosClientNodeBuffer.translated types)) :=
  map_putArray map_putBuffer buffers

end Values

namespace PinosMessage

variable {types : PinosMap} {objs : SpaPODObject → SpaPODObject} {out conn : ConnectionBuffer}

/-- A call with the ids replaced in what it carries. -/
def translated (types : PinosMap) (objs : SpaPODObject → SpaPODObject) :
    PinosMessage → PinosMessage
  | clientNodeDoUpdate changeMask maxInputPorts maxOutputPorts props =>
    clientNodeDoUpdate changeMask maxInputPorts maxOutputPorts (props.map objs)
  | clientNodeDoPortUpdate direction portId changeMask possibleFormats format props info =>
    clientNodeDoPortUpdate direction portId changeMask (possibleFormats.map (Option.map objs))
      (format.map objs) (props.map objs)
      (info.map (SpaPortInfo.translated objs))
  | clientNodeDoEvent event => clientNodeDoEvent (event.map objs)
  | nodeNotifyInfo info =>
    nodeNotifyInfo
      { info with
        inputFormats := info.inputFormats.map (Option.map objs)
        outputFormats := info.outputFormats.map (Option.map objs) }
  | clientNodeNotifyEvent event => clientNodeNotifyEvent (event.map objs)
  | clientNodeNotifySetFormat seq direction portId flags format =>
    clientNodeNotifySetFormat seq direction portId flags (format.map objs)
  | clientNodeNotifyAddMem direction portId memId type memfd flags offset size =>
    clientNodeNotifyAddMem direction portId memId (types.target type) memfd flags offset size
  | clientNodeNotifyUseBuffers seq direction portId buffers =>
    clientNodeNotifyUseBuffers seq direction portId
      (buffers.map (PinosClientNodeBuffer.translated types))
  | clientNodeNotifyNodeCommand seq command =>
    clientNodeNotifyNodeCommand seq (command.map objs)
  | clientNodeNotifyPortCommand portId command =>
    clientNodeNotifyPortCommand portId (command.map objs)
  | msg => msg

@[simp] theorem opcode_translated (msg : PinosMessage) :
    (msg.translated types objs).opcode = msg.opcode := by
  cases msg <;> rfl

@[simp] theorem demarshals_translated (msg : PinosMessage) (conn : ConnectionBuffer) :
    (msg.translated types objs).demarshals conn = msg.demarshals conn := by
  cases msg <;> rfl

/-- Only calls that carry ids are translated. -/
theorem remap_or (msg : PinosMessage) (objs : SpaPODObject → SpaPODObject)
    {d : Demarshal PinosMessage}
    (hd : (msg.demarshals conn)[msg.opcode.toNat]? = some d) :
    d.remap = true ∨ d.remap = false ∧ ∀ types, msg.translated types objs = msg := by
  cases msg <;> cases hd <;> first | exact .inl rfl | exact .inr ⟨rfl, fun _ => rfl⟩

theorem marshal_translated (msg : PinosMessage) (types : PinosMap)
    (objs : SpaPODObject → SpaPODObject) (out : ConnectionBuffer) :
    (msg.translated types objs).marshal out =
      ((msg.marshal out).1, (msg.marshal out).2.map (PodCall.translated types objs)) := by
  cases msg with
  | coreDoClientUpdate => simp [translated, marshal, Client.coreMarshalClientUpdate]
  | coreDoCreateNode => simp [translated, marshal, Client.coreMarshalCreateNode]
  | coreDoCreateClientNode => simp [translated, marshal, Client.coreMarshalCreateClientNode]
  | coreDoUpdateTypes => simp [translated, marshal, Client.coreMarshalUpdateTypes]
  | clientNodeDoUpdate => simp [translated, marshal, Client.clientNodeMarshalUpdate]
  | clientNodeDoPortUpdate direction portId changeMask possibleFormats format props info =>
    simp [translated, marshal, Client.clientNodeMarshalPortUpdate]
  | clientNodeDoEvent => simp [translated, marshal, Client.clientNodeMarshalEvent]
  | coreNotifyInfo => simp [translated, marshal, Server.coreMarshalInfo]
  | coreNotifyUpdateTypes => simp [translated, marshal, Server.coreMarshalUpdateTypes]
  | moduleNotifyInfo => simp [translated, marshal, Server.moduleMarshalInfo]
  | nodeNotifyInfo => simp [translated, marshal, Server.nodeMarshalInfo]
  | clientNotifyInfo => simp [translated, marshal, Server.clientMarshalInfo]
  | clientNodeNotifyEvent => simp [translated, marshal, Server.clientNodeMarshalEvent]
  | clientNodeNotifySetFormat => simp [translated, marshal, Server.clientNodeMarshalSetFormat]
  | clientNodeNotifyUseBuffers => simp [translated, marshal, Server.clientNodeMarshalUseBuffers]
  | clientNodeNotifyNodeCommand => simp [translated, marshal, Server.clientNodeMarshalNodeCommand]
  | clientNodeNotifyPortCommand => simp [translated, marshal, Server.clientNodeMarshalPortCommand]
  | _ => rfl

theorem noneNull_map {pods : Counted (Option SpaPODObject)} :
    NoneNull (pods.map (Option.map objs)) ↔ NoneNull pods := by
  simp [NoneNull, Counted.map]

theorem notNull_map {pod : Option SpaPODObject} : NotNull (pod.map objs) ↔ NotNull pod := by
  cases pod <;> simp [NotNull]

/-- What a call needs to arrive as it is does not depend on its ids. -/
theorem intact_translated (msg : PinosMessage) (types : PinosMap)
    (objs : SpaPODObject → SpaPODObject) (out : ConnectionBuffer) :
    (msg.translated types objs).Intact out ↔ msg.Intact out := by
  cases msg with
  | clientNodeDoPortUpdate direction portId changeMask possibleFormats format props info =>
    cases info <;> simp [translated, Intact, SpaPortInfo.translated, noneNull_map]
  | clientNodeDoEvent event => exact notNull_map
  | nodeNotifyInfo info => simp [translated, Intact, noneNull_map]
  | clientNodeNotifyEvent event => exact notNull_map
  | clientNodeNotifyUseBuffers seq direction portId buffers =>
    simp [translated, Intact, Counted.map, PinosClientNodeBuffer.translated, SpaData.translated]
  | clientNodeNotifyNodeCommand seq command => exact notNull_map
  | clientNodeNotifyPortCommand portId command => exact notNull_map
  | _ => exact Iff.rfl

/-- What the receiver's table and `objs` have to give for the ids of a call. -/
def TranslatedBy (types : PinosMap) (objs : SpaPODObject → SpaPODObject) (msg : PinosMessage)
    (out : ConnectionBuffer) : Prop :=
  ∀ c ∈ (msg.marshal out).2, c.TranslatedBy types objs

/-- What a demarshal function is given is the call with its ids replaced, or nothing when its size
did not fit. -/
theorem run_translated_iff {d : Demarshal PinosMessage} {msg : PinosMessage} {m : Mem}
    {data size : Nat} {values : List PodCall} {vs : List UInt8}
    (hd : (msg.demarshals conn)[msg.opcode.toNat]? = some d)
    (hpayload : Payload (msg.marshal out).2 values vs) (hdata : data ≠ 0)
    (hm : m.Holds data (Pod.withHeader .struct vs)) (hlt : 8 + vs.length < 2 ^ 32)
    (hsize : size = (8 + vs.length) % 2 ^ 24) (hby : msg.TranslatedBy types objs out) :
    (∃ fuel, d.run types fuel m data size = some (some (msg.translated types objs).filled)) ↔
      8 + vs.length < 2 ^ 24 ∧
        Reads d ((msg.translated types objs).marshal out).2 (msg.translated types objs) := by
  by_cases hfits : 8 + vs.length < 2 ^ 24
  · rw [Nat.mod_eq_of_lt hfits] at hsize
    obtain ⟨stop, hstop, hstopped, htail, hmem⟩ : ∃ stop : List PodCall,
        (∀ c ∈ stop.head?, c = PodCall.pop) ∧
        stop.map (PodCall.translated types objs) = stop ∧
        (msg.marshal out).2.tail = values ++ stop ∧ ∀ c ∈ values, c ∈ (msg.marshal out).2 := by
      generalize (msg.marshal out).2 = calls at hpayload
      cases hpayload with
      | closed =>
        refine ⟨[.pop], by simp, rfl, rfl, fun c hc => ?_⟩
        exact List.mem_cons_of_mem _ (List.mem_append_left _ hc)
      | unclosed => exact ⟨[], by simp, rfl, by simp⟩
    have htranslated : ((msg.translated types objs).marshal out).2.tail =
        values.map (PodCall.translated types objs) ++ stop := by
      rw [marshal_translated]
      dsimp only
      rw [← List.map_tail, htail, List.map_append, hstopped]
    obtain ⟨fuel, hrun⟩ : ∃ fuel, d.run types fuel m data (8 + vs.length) =
        some ((d.get.read ((msg.translated types objs).marshal out).2.tail).map Prod.fst) := by
      rcases remap_or msg objs hd with hremap | ⟨hremap, hsame⟩
      · rw [htranslated]
        exact Demarshal.run_translated hremap hpayload.writes hstop hdata hm hlt
          fun c hc => hby c (hmem c hc)
      · rw [hsame, htail]
        exact Demarshal.run_plain hremap hpayload.writes hstop hdata hm hlt
    rw [← hsize] at hrun
    constructor
    · rintro ⟨fuel', hcall⟩
      exact ⟨hfits, Demarshal.run_unique hrun hcall⟩
    · rintro ⟨-, hreads⟩
      exact ⟨fuel, hrun.trans (congrArg some hreads)⟩
  · refine iff_of_false ?_ fun h => hfits h.1
    rintro ⟨fuel, hcall⟩
    rw [Demarshal.run_short hdata hm hlt (by omega)] at hcall
    cases hcall

/-- The call that the receiver makes, when the bytes have been written. -/
theorem receive_translated_iff {msg : PinosMessage} {destId : UInt32}
    (hfds : out.fds.length ≤ maxFds) (hsmall : msg.Small out) (hok : msg.Reserved out)
    (hby : msg.TranslatedBy types objs out)
    (hconn : Delivered out (msg.send out destId).out conn) :
    (∃ fuel, msg.receive types fuel conn = some (some (msg.translated types objs).filled)) ↔
      msg.size out < 2 ^ 24 ∧ msg.Intact out := by
  obtain ⟨values, vs, hpayload⟩ := msg.payload out
  have hlength : 8 + vs.length = msg.size out := hpayload.length_eq
  have hlt : 8 + vs.length < 2 ^ 32 := by
    have hle := msg.size_le out
    rw [Small] at hsmall
    omega
  obtain ⟨hholds, hroom⟩ := delivered_packet (sent_packet hsmall hok hpayload) hconn
  obtain ⟨conn', hsame, hdata, hm, hsize, hreceive⟩ := receive_packet types hholds hroom
  have harrived : conn'.fds = ((msg.translated types objs).marshal out).1.flushed.2 := by
    rw [hsame, hconn.fds, sent_fds, marshal_translated]
  obtain ⟨d, hd, hintact⟩ := demarshalled_iff (msg.translated types objs) hfds harrived
  rw [demarshals_translated, opcode_translated] at hd
  simp only [hreceive, hd]
  rw [run_translated_iff hd hpayload hdata hm hlt hsize hby, hintact, intact_translated, hlength]

/-- What is asked of a call between two sides with different ids. -/
structure Arrives (msg : PinosMessage) (types : PinosMap) (objs : SpaPODObject → SpaPODObject)
    (out : ConnectionBuffer) (destId : UInt32) (conn : ConnectionBuffer) : Prop where
  inside : (msg.send out destId).overrun = false
  called : ∃ fuel, msg.receive types fuel conn = some (some (msg.translated types objs).filled)

/-- An object of type `type` with nothing in it. -/
def emptyObject (type : UInt32) : SpaPODObject :=
  ⟨toLE 4 0 ++ toLE 4 type.toNat, by rw [List.length_append, length_toLE, length_toLE]; decide⟩

/-- The type that is 3 on one side and 7 on the other. -/
def threeToSeven : PinosMap := ⟨[0, 0, 0, 14], 0⟩

theorem translatedBy_emptyObject (out : ConnectionBuffer) :
    (clientNodeDoEvent (some (emptyObject 3))).TranslatedBy threeToSeven
      (fun _ => emptyObject 7) out := by
  intro c hc
  have hvalues : ((clientNodeDoEvent (some (emptyObject 3))).marshal out).2 =
      [.pushStruct, .pod (some (emptyObject 3).blob), .pop] := rfl
  rw [hvalues] at hc
  simp only [List.mem_cons, List.not_mem_nil, or_false] at hc
  rcases hc with rfl | rfl | rfl
  · trivial
  · refine ⟨emptyObject 3, .object 0 3 [], rfl, .object 0 3 [] (by simp) (by decide), rfl,
      by decide, ?_, by decide⟩
    simp only [Pod.idWords, Pod.contentsWords, List.mem_singleton]
    rintro w rfl -
    decide
  · trivial

end PinosMessage
end Native
end Pinos

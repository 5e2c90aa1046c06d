import Pinos.Lib.Run
import Pinos.Server.ProxyPorts
import Pinos.Spa.PodAppend

/-
What a proxy answers about its ports, against what the client has said of them last.
-/

namespace Pinos
namespace ClientNode

open ByteMem
open Native (SpaPortInfo)

/-- What the messages about a port have carried, each value from the last one that covers it. -/
structure LastUpdate where
  formats : Counted SpaPODObject
  format : Option SpaPODObject
  info : SpaPortInfo

namespace LastUpdate

/-- Nothing is known of a port that is new. -/
def fresh : LastUpdate := ⟨.nil, none, emptyInfo⟩

def next (last : LastUpdate) (m : PortUpdate SpaPODObject) : LastUpdate where
  formats := if Covers m.changeMask possibleFormatsFlag then m.possibleFormats else last.formats
  format := if Covers m.changeMask formatFlag then m.format else last.format
  info := if Covers m.changeMask infoFlag then m.info.getD emptyInfo else last.info

end LastUpdate

/-- A message about a port. -/
structure PortMessage where
  direction : UInt32
  portId : UInt32
  m : PortUpdate SpaPODObject

/-- A proxy, and beside it what its client has said last. -/
structure Watched where
  proxy : SpaProxy SpaPODObject
  last : PinosDirection → Fin maxIds → Option LastUpdate

namespace Watched

def start (formatBuffer : PodBuffer) : Watched := ⟨.empty formatBuffer, fun _ _ => none⟩

/-- What is known of a port after a message about it. -/
def lastOf (last : Option LastUpdate) (m : PortUpdate SpaPODObject) : Option LastUpdate :=
  if m.changeMask = 0 then none else some ((last.getD .fresh).next m)

def step (w : Watched) (msg : PortMessage) : Watched where
  proxy := w.proxy.clientNodePortUpdate msg.direction msg.portId msg.m
  last :=
    match checkPortId msg.direction msg.portId with
    | none => w.last
    | some (d, i) =>
      Function.update w.last d (Function.update (w.last d) i (lastOf (w.last d i) msg.m))

end Watched

/-! ## What has to be answered -/

/-- The entries of the extra information, none when there is no dictionary. -/
def extraItems (info : SpaPortInfo) : List Native.SpaDictItem :=
  (info.extra.map Counted.items).getD []

/-- The same information, whether an empty dictionary is there or not. -/
def SameInfo (a b : SpaPortInfo) : Prop :=
  { a with extra := none } = { b with extra := none } ∧ extraItems a = extraItems b

section Answers

variable (this : SpaProxy SpaPODObject) (direction portId : UInt32)

/-- Without a filter the formats are enumerated, each complete at the start of the buffer. -/
def Enumerates (formats : List SpaPODObject) : Prop :=
  ∀ index : UInt32,
    let (next, res) := this.portEnumFormats (fun _ : Option SpaPODObject =>
      SpaProxy.copyFormat fun format => format.blob.bytes) direction portId none index
    match formats[index.toNat]? with
    | none => res = .enumEnd
    | some format => res = .ok ∧ format.blob.bytes <+: next.bufferBytes

/-- The answers about a port are what the client has said last. -/
def Answers : Option LastUpdate → Prop
  | none =>
    this.portGetFormat direction portId = (.invalidPort, none) ∧
      this.portGetInfo direction portId = (.invalidPort, none) ∧
      ∀ index, (this.portEnumFormats (fun _ : Option SpaPODObject =>
        SpaProxy.copyFormat fun format => format.blob.bytes) direction portId none index).2 =
          .invalidPort
  | some last =>
    this.portGetFormat direction portId =
        (if last.format.isSome then .ok else .noFormat, last.format) ∧
      (∃ info, this.portGetInfo direction portId = (.ok, some info) ∧ SameInfo info last.info) ∧
      Enumerates this direction portId last.formats.items

end Answers

/-- All ports are answered for as they should be. -/
def Watched.Reflects (w : Watched) : Prop :=
  ∀ direction portId d i, checkPortId direction portId = some (d, i) →
    Answers w.proxy direction portId (w.last d i)

/-- What is asked of the information that comes, or does not come, with a message. -/
def InfoFits (port : SpaProxyPort SpaPODObject) (m : PortUpdate SpaPODObject) : Prop :=
  if Covers m.changeMask infoFlag then
    match m.info with
    | none => port.info = emptyInfo
    | some info => extraItems info = []
  else port.valid = true ∨ port.info = emptyInfo

/-- What is asked of a message about a port that is not removed by it: its formats have room in
the buffer, a format is not carried by the message that makes the port, and the information that
the port keeps is not left over. -/
def PortFits (port : SpaProxyPort SpaPODObject) (m : PortUpdate SpaPODObject) : Prop :=
  (Covers m.changeMask possibleFormatsFlag →
      ∀ format ∈ m.possibleFormats.items, format.blob.bytes.length ≤ SpaProxy.formatBufferSize) ∧
    (Covers m.changeMask formatFlag → m.format.isSome → port.valid = true) ∧
    InfoFits port m

def Watched.Fits (w : Watched) (msg : PortMessage) : Prop :=
  ∀ d i, checkPortId msg.direction msg.portId = some (d, i) → msg.m.changeMask ≠ 0 →
    PortFits (w.proxy.ports d i) msg.m

/-! ## The port of a proxy against what is known of it -/

/-- A port that is known is valid and has the formats that were said last. -/
structure Known (port : SpaProxyPort SpaPODObject) (last : Option LastUpdate) : Prop where
  valid : port.valid = last.isSome
  formats : port.formats = (last.map LastUpdate.formats).getD .nil
  format : last = none → port.format = none
  extra : port.info.extra = none

/-- What is answered about a port that is known is right. -/
structure Right (port : SpaProxyPort SpaPODObject) (last : LastUpdate) : Prop where
  format : port.format = last.format
  info : SameInfo port.info last.info
  room : ∀ format ∈ last.formats.items, format.blob.bytes.length ≤ SpaProxy.formatBufferSize

section Buffer

variable {buffer : PodBuffer} {bs : List UInt8}

theorem length_aligned_le (h : bs.length ≤ SpaProxy.formatBufferSize) :
    (Pod.aligned bs).length ≤ SpaProxy.formatBufferSize := by
  have hsize : SpaProxy.formatBufferSize = 1024 := rfl
  rw [Pod.length_aligned, padLength_eq]
  omega

/-- What has been appended first is at the start of the buffer. -/
theorem prefix_of_appends {b : SpaPODBuilder PodBuffer}
    (h : SpaPODBuilder.Appends (SpaPODBuilder.init buffer SpaProxy.formatBufferSize) b
      (Pod.aligned bs)) (hfits : bs.length ≤ SpaProxy.formatBufferSize) :
    bs <+: (PodStore.view b.data).read 0 SpaProxy.formatBufferSize := by
  have hholds : Mem.Holds ((PodStore.view buffer).write 0 (Pod.aligned bs)) 0 bs :=
    (Mem.holds_write _ 0 (Pod.aligned bs)).left
  rw [h.view]
  show bs <+: ((PodStore.view buffer).write 0 (Pod.aligned bs)).read 0 SpaProxy.formatBufferSize
  rw [List.prefix_iff_eq_take, Mem.take_read _ _ hfits]
  exact hholds.symm

/-- A pod that has room is at the start of the buffer. -/
theorem prefix_rawPadded (h : bs.length ≤ SpaProxy.formatBufferSize) :
    bs <+: (PodStore.view ((SpaPODBuilder.init buffer SpaProxy.formatBufferSize).rawPadded
      bs).1.data).read 0 SpaProxy.formatBufferSize :=
  prefix_of_appends (SpaPODBuilder.rawPadded_appends
    (SpaPODBuilder.room_init (length_aligned_le h) (by decide))) h

end Buffer

section Port

variable {this : SpaProxy SpaPODObject} {direction portId : UInt32} {d : PinosDirection}
  {i : Fin maxIds} {port : SpaProxyPort SpaPODObject} {last : Option LastUpdate}
  {m : PortUpdate SpaPODObject}

/-- Every port is found by a direction and an id. -/
theorem exists_checkPortId (d : PinosDirection) (i : Fin maxIds) :
    ∃ direction portId, checkPortId direction portId = some (d, i) := by
  have hi : (UInt32.ofNat i.val).toNat = i.val := by
    have hlt := i.isLt
    have hmax : maxIds = 64 := rfl
    rw [UInt32.toNat_ofNat']
    exact Nat.mod_eq_of_lt (by omega)
  have hlt : (UInt32.ofNat i.val).toNat < maxIds := by
    rw [hi]
    exact i.isLt
  have hid : (⟨(UInt32.ofNat i.val).toNat, hlt⟩ : Fin maxIds) = i := Fin.ext hi
  cases d with
  | input => exact ⟨0, .ofNat i.val, by rw [checkPortId, dif_pos hlt, if_pos rfl, hid]⟩
  | output =>
    exact ⟨1, .ofNat i.val, by
      rw [checkPortId, dif_pos hlt, if_neg (by decide), if_pos rfl, hid]⟩

theorem checkPort_eq (h : checkPortId direction portId = some (d, i)) :
    this.checkPort direction portId = if (this.ports d i).valid then some (d, i) else none := by
  rw [SpaProxy.checkPort, h, Option.filter_some]

/-- Nothing is answered about a port that is not valid. -/
theorem answers_none (h : checkPortId direction portId = some (d, i))
    (hknown : Known (this.ports d i) none) : Answers this direction portId none := by
  have hcheck : this.checkPort direction portId = none := by
    rw [checkPort_eq h, hknown.valid]
    rfl
  refine ⟨?_, ?_, fun index => ?_⟩
  · rw [SpaProxy.portGetFormat, hcheck]
  · rw [SpaProxy.portGetInfo, hcheck]
  · rw [SpaProxy.portEnumFormats, hcheck]

/-- The format with an index, without a filter. -/
theorem nextFormat_copy {bytes : SpaPODObject → List UInt8} (formats : List SpaPODObject)
    (index : UInt32) (buffer : PodBuffer) :
    SpaProxy.nextFormat (SpaProxy.copyFormat bytes) index formats index buffer =
      match formats with
      | [] => (buffer, .enumEnd)
      | format :: _ =>
        (((SpaPODBuilder.init buffer SpaProxy.formatBufferSize).rawPadded (bytes format)).1.data,
          .ok) := by
  cases formats with
  | nil => rfl
  | cons format formats =>
    rw [SpaProxy.nextFormat]
    dsimp only [SpaProxy.copyFormat]
    rw [if_neg (not_not.mpr rfl), if_neg (not_not.mpr rfl)]

theorem enumerates_iff (h : checkPortId direction portId = some (d, i))
    (hvalid : (this.ports d i).valid = true) :
    Enumerates this direction portId (this.ports d i).formats.items ↔
      ∀ format ∈ (this.ports d i).formats.items,
        format.blob.bytes.length ≤ SpaProxy.formatBufferSize := by
  have hcheck : this.checkPort direction portId = some (d, i) := by
    rw [checkPort_eq h, hvalid, if_pos rfl]
  generalize hformats : (this.ports d i).formats = formats
  have henum : ∀ index : UInt32, this.portEnumFormats (fun _ : Option SpaPODObject =>
      SpaProxy.copyFormat fun format => format.blob.bytes) direction portId none index =
        match formats.items[index.toNat]? with
        | none => (this, .enumEnd)
        | some format =>
          ({ this with
            formatBuffer := ((SpaPODBuilder.init this.formatBuffer
              SpaProxy.formatBufferSize).rawPadded format.blob.bytes).1.data }, .ok) := by
    intro index
    rw [SpaProxy.portEnumFormats, hcheck]
    dsimp only [Option.isSome]
    rw [hformats, if_neg Bool.false_ne_true, nextFormat_copy]
    cases hget : formats.items[index.toNat]? with
    | none => rw [List.drop_eq_nil_of_le (List.getElem?_eq_none_iff.mp hget)]
    | some format =>
      obtain ⟨hlt, hget⟩ := List.getElem?_eq_some_iff.mp hget
      rw [List.drop_eq_getElem_cons hlt, hget]
  constructor
  · intro henumerates format hformat
    obtain ⟨k, hk, hget⟩ := List.getElem_of_mem hformat
    have hindex : (UInt32.ofNat k).toNat = k := by
      have hsmall := formats.small
      rw [UInt32.toNat_ofNat']
      exact Nat.mod_eq_of_lt (by omega)
    have hat := henumerates (.ofNat k)
    rw [henum] at hat
    rw [hindex, List.getElem?_eq_getElem hk, hget] at hat
    have hle := hat.2.length_le
    rwa [SpaProxy.bufferBytes, Mem.length_read] at hle
  · intro hroom index
    rw [henum]
    cases hget : formats.items[index.toNat]? with
    | none => rfl
    | some format => exact ⟨rfl, prefix_rawPadded (hroom format (List.mem_of_getElem? hget))⟩

/-- What is answered about a valid port is what was said last. -/
theorem answers_some_iff {last : LastUpdate} (h : checkPortId direction portId = some (d, i))
    (hknown : Known (this.ports d i) (some last)) :
    Answers this direction portId (some last) ↔ Right (this.ports d i) last := by
  have hcheck : this.checkPort direction portId = some (d, i) := by
    rw [checkPort_eq h, hknown.valid]
    rfl
  have hformats : last.formats = (this.ports d i).formats := hknown.formats.symm
  have hformat : this.portGetFormat direction portId =
      (if (this.ports d i).format.isSome then .ok else .noFormat, (this.ports d i).format) := by
    rw [SpaProxy.portGetFormat, hcheck]
    dsimp only
    cases (this.ports d i).format <;> rfl
  have hinfo : this.portGetInfo direction portId = (.ok, some (this.ports d i).info) := by
    rw [SpaProxy.portGetInfo, hcheck]
  rw [Answers, hformats, enumerates_iff h hknown.valid, hformat, hinfo]
  constructor
  · intro ⟨hf, ⟨info, hi, hsame⟩, hroom⟩
    cases hi
    exact ⟨congrArg Prod.snd hf, hsame, hformats ▸ hroom⟩
  · intro hright
    exact ⟨by rw [hright.format], ⟨_, rfl, hright.info⟩, hformats ▸ hright.room⟩

end Port

/-! ## What a message does -/

namespace SpaProxy

section Ports

variable {Format : Type} {this : SpaProxy Format} {d d' : PinosDirection} {i j : Fin maxIds}
  {m : PortUpdate Format}

theorem ports_doUpdatePort :
    (this.doUpdatePort d i m).ports =
      (this.setPort d i ((this.ports d i).update m)).ports := by
  unfold doUpdatePort
  dsimp only
  split <;> rfl

theorem ports_clearPort :
    (this.clearPort d i).ports =
      (this.setPort d i { (this.ports d i).update clearing with nBuffers := 0 }).ports := by
  have hport : (this.doUpdatePort d i clearing).ports d i = (this.ports d i).update clearing := by
    rw [ports_doUpdatePort, ports_setPort]
  unfold clearPort clearBuffers
  rw [hport, ports_setPort_congr ports_doUpdatePort, setPort_setPort]

/-- A port that is removed keeps its information and its io. -/
theorem ports_doUninitPort :
    (this.doUninitPort d i).ports =
      (this.setPort d i { this.ports d i with
        valid := false, format := none, formats := .nil, nBuffers := 0 }).ports := by
  have hformats : Covers (possibleFormatsFlag ||| formatFlag ||| propsFlag ||| infoFlag)
      possibleFormatsFlag := by decide
  have hformat : Covers (possibleFormatsFlag ||| formatFlag ||| propsFlag ||| infoFlag)
      formatFlag := by decide
  have hinfo : Covers (possibleFormatsFlag ||| formatFlag ||| propsFlag ||| infoFlag)
      infoFlag := by decide
  have hport : ((this.setNPorts d (this.nPorts d - 1)).clearPort d i).ports d i =
      { (this.ports d i).update clearing with nBuffers := 0 } := by
    rw [ports_clearPort, ports_setPort, ports_setNPorts]
  unfold doUninitPort
  dsimp only
  rw [hport, ports_setPort_congr ports_clearPort, setPort_setPort, SpaProxyPort.update_eq]
  show Function.update this.ports d (Function.update (this.ports d) i _) = _
  rw [clearing, if_pos hformats, if_pos hformat, if_pos hinfo, ite_self]
  rfl

/-- The port that a message is about. -/
def messagePort (port : SpaProxyPort Format) (m : PortUpdate Format) : SpaProxyPort Format :=
  if m.changeMask = 0 then
    { port with valid := false, format := none, formats := .nil, nBuffers := 0 }
  else port.update m

theorem ports_clientNodePortUpdate {direction portId : UInt32}
    (h : checkPortId direction portId = some (d, i)) :
    (this.clientNodePortUpdate direction portId m).ports =
      (this.setPort d i (messagePort (this.ports d i) m)).ports := by
  rw [clientNodePortUpdate, h, messagePort]
  dsimp only
  split
  · exact ports_doUninitPort
  · exact ports_doUpdatePort

end Ports
end SpaProxy

section Messages

variable {port : SpaProxyPort SpaPODObject} {last : Option LastUpdate}
  {m : PortUpdate SpaPODObject}

theorem Known.message (h : Known port last) :
    Known (SpaProxy.messagePort port m) (Watched.lastOf last m) := by
  unfold SpaProxy.messagePort Watched.lastOf
  by_cases hmask : m.changeMask = 0
  · rw [if_pos hmask, if_pos hmask]
    exact ⟨rfl, rfl, fun _ => rfl, h.extra⟩
  · rw [if_neg hmask, if_neg hmask, SpaProxyPort.update_eq]
    refine ⟨rfl, ?_, (fun hnone => by cases hnone), ?_⟩
    · show (if _ then _ else port.formats) = (if _ then _ else (last.getD .fresh).formats)
      rw [h.formats]
      cases last <;> rfl
    · show (if _ then _ else port.info).extra = none
      split
      · cases m.info with
        | none => exact h.extra
        | some info => rfl
      · exact h.extra

theorem sameInfo_self {info : SpaPortInfo} : SameInfo info info := ⟨rfl, rfl⟩

/-- The information of a message is kept without what is extra. -/
theorem sameInfo_extra {info : SpaPortInfo} :
    SameInfo { info with extra := none } info ↔ extraItems info = [] := by
  constructor
  · exact fun h => h.2.symm
  · exact fun h => ⟨rfl, h.symm⟩

theorem sameInfo_empty {info : SpaPortInfo} (h : info.extra = none) :
    SameInfo info emptyInfo ↔ info = emptyInfo := by
  obtain ⟨flags, rate, params, maxbuffering, latency, extra⟩ := info
  cases h
  constructor
  · exact fun hsame => hsame.1
  · exact fun he => he ▸ sameInfo_self

/-- What is known of the information of a port after a message is right exactly when the
message fits. -/
theorem info_update_iff (hknown : Known port last)
    (hright : ∀ u, last = some u → SameInfo port.info u.info) :
    SameInfo (port.update m).info ((last.getD .fresh).next m).info ↔ InfoFits port m := by
  rw [SpaProxyPort.update_eq, LastUpdate.next, InfoFits]
  dsimp only
  split
  · cases m.info with
    | none => exact sameInfo_empty hknown.extra
    | some info => exact sameInfo_extra
  · cases last with
    | none =>
      have hvalid : port.valid = false := hknown.valid
      rw [hvalid]
      exact (sameInfo_empty hknown.extra).trans (by simp)
    | some u => exact iff_of_true (hright u rfl) (.inl hknown.valid)

theorem format_update_iff (hknown : Known port last)
    (hright : ∀ u, last = some u → port.format = u.format) :
    (port.update m).format = ((last.getD .fresh).next m).format ↔
      (Covers m.changeMask formatFlag → m.format.isSome → port.valid = true) := by
  rw [SpaProxyPort.update_eq, LastUpdate.next]
  dsimp only
  have hvalid := hknown.valid
  cases last with
  | none =>
    have hfalse : port.valid = false := hvalid
    rw [hfalse, if_neg Bool.false_ne_true]
    by_cases hcovers : Covers m.changeMask formatFlag
    · rw [if_pos hcovers]
      cases m.format <;> simp [hcovers]
    · rw [if_neg hcovers]
      exact iff_of_true rfl fun h => absurd h hcovers
  | some u =>
    have htrue : port.valid = true := hvalid
    rw [htrue, if_pos rfl, hright u rfl]
    exact iff_of_true rfl fun _ _ => rfl

theorem room_update_iff (hright : ∀ u, last = some u → Right port u) :
    (∀ format ∈ ((last.getD .fresh).next m).formats.items,
        format.blob.bytes.length ≤ SpaProxy.formatBufferSize) ↔
      (Covers m.changeMask possibleFormatsFlag → ∀ format ∈ m.possibleFormats.items,
        format.blob.bytes.length ≤ SpaProxy.formatBufferSize) := by
  rw [LastUpdate.next]
  dsimp only
  by_cases hcovers : Covers m.changeMask possibleFormatsFlag
  · rw [if_pos hcovers]
    exact ⟨fun h _ => h, fun h => h hcovers⟩
  · rw [if_neg hcovers]
    refine iff_of_true ?_ fun h => absurd h hcovers
    cases last with
    | none => exact fun format hformat => absurd hformat List.not_mem_nil
    | some u => exact (hright u rfl).room

theorem right_update_iff (hknown : Known port last) (hright : ∀ u, last = some u → Right port u) :
    Right (port.update m) ((last.getD .fresh).next m) ↔ PortFits port m := by
  have hformat := format_update_iff (m := m) hknown fun u hu => (hright u hu).format
  have hinfo := info_update_iff (m := m) hknown fun u hu => (hright u hu).info
  have hroom := room_update_iff (m := m) hright
  constructor
  · exact fun h => ⟨hroom.mp h.room, hformat.mp h.format, hinfo.mp h.info⟩
  · exact fun h => ⟨hformat.mpr h.2.1, hinfo.mpr h.2.2, hroom.mpr h.1⟩

end Messages

/-! ## Runs -/

namespace Watched

/-- Every port is known, and what is known of it is right. -/
structure Sound (w : Watched) : Prop where
  known : ∀ d i, Known (w.proxy.ports d i) (w.last d i)
  right : ∀ d i last, w.last d i = some last → Right (w.proxy.ports d i) last

theorem reflects_iff {w : Watched} (hknown : ∀ d i, Known (w.proxy.ports d i) (w.last d i)) :
    w.Reflects ↔ ∀ d i last, w.last d i = some last → Right (w.proxy.ports d i) last := by
  constructor
  · intro h d i last hlast
    obtain ⟨direction, portId, hcheck⟩ := exists_checkPortId d i
    have hanswers := h direction portId d i hcheck
    rw [hlast] at hanswers
    exact (answers_some_iff hcheck (hlast ▸ hknown d i)).mp hanswers
  · intro h direction portId d i hcheck
    cases hlast : w.last d i with
    | none => exact answers_none hcheck (hlast ▸ hknown d i)
    | some last =>
      exact (answers_some_iff hcheck (hlast ▸ hknown d i)).mpr (h d i last hlast)

theorem step_other {w : Watched} {msg : PortMessage}
    (hcheck : checkPortId msg.direction msg.portId = none) : (w.step msg) = w := by
  unfold step
  rw [SpaProxy.clientNodePortUpdate, hcheck]

section Step

variable {w : Watched} {msg : PortMessage} {d d' : PinosDirection} {i j : Fin maxIds}

theorem step_self (hcheck : checkPortId msg.direction msg.portId = some (d, i)) :
    (w.step msg).proxy.ports d i = SpaProxy.messagePort (w.proxy.ports d i) msg.m ∧
      (w.step msg).last d i = lastOf (w.last d i) msg.m := by
  unfold step
  dsimp only
  rw [SpaProxy.ports_clientNodePortUpdate hcheck, hcheck]
  dsimp only
  exact ⟨SpaProxy.ports_setPort, by rw [Function.update_self, Function.update_self]⟩

theorem step_of_ne (hcheck : checkPortId msg.direction msg.portId = some (d, i))
    (hne : d' ≠ d ∨ j ≠ i) :
    (w.step msg).proxy.ports d' j = w.proxy.ports d' j ∧ (w.step msg).last d' j = w.last d' j := by
  unfold step
  dsimp only
  rw [SpaProxy.ports_clientNodePortUpdate hcheck, hcheck]
  dsimp only
  refine ⟨SpaProxy.ports_setPort_of_ne hne, ?_⟩
  by_cases hd : d' = d
  · subst hd
    rw [Function.update_self, Function.update_of_ne (hne.resolve_left (not_not.mpr rfl))]
  · rw [Function.update_of_ne hd]

theorem known_step (h : ∀ d i, Known (w.proxy.ports d i) (w.last d i)) (d' : PinosDirection)
    (j : Fin maxIds) : Known ((w.step msg).proxy.ports d' j) ((w.step msg).last d' j) := by
  cases hcheck : checkPortId msg.direction msg.portId with
  | none =>
    rw [step_other hcheck]
    exact h d' j
  | some at' =>
    obtain ⟨d, i⟩ := at'
    by_cases hself : d' = d ∧ j = i
    · obtain ⟨rfl, rfl⟩ := hself
      rw [(step_self hcheck).1, (step_self hcheck).2]
      exact (h d' j).message
    · have hne := step_of_ne (w := w) hcheck (not_and_or.mp hself)
      rw [hne.1, hne.2]
      exact h d' j

/-- After a message the answers are right exactly when the message fits. -/
theorem reflects_step_iff (h : w.Sound) : (w.step msg).Reflects ↔ w.Fits msg := by
  rw [reflects_iff (known_step h.known)]
  cases hcheck : checkPortId msg.direction msg.portId with
  | none =>
    rw [step_other hcheck]
    refine iff_of_true h.right fun d i hsome => ?_
    rw [hcheck] at hsome
    cases hsome
  | some at' =>
    obtain ⟨d, i⟩ := at'
    have hport := right_update_iff (m := msg.m) (h.known d i) (h.right d i)
    constructor
    · intro hright d' i' hsome hmask
      rw [hcheck] at hsome
      cases hsome
      refine hport.mp ?_
      have hself := hright d i ((w.last d i |>.getD .fresh).next msg.m)
      rw [(step_self hcheck).1, (step_self hcheck).2, lastOf, if_neg hmask, SpaProxy.messagePort,
        if_neg hmask] at hself
      exact hself rfl
    · intro hfits d' j last hlast
      by_cases hself : d' = d ∧ j = i
      · obtain ⟨rfl, rfl⟩ := hself
        rw [(step_self hcheck).2, lastOf] at hlast
        by_cases hmask : msg.m.changeMask = 0
        · rw [if_pos hmask] at hlast
          cases hlast
        · rw [if_neg hmask] at hlast
          cases hlast
          rw [(step_self hcheck).1, SpaProxy.messagePort, if_neg hmask]
          exact hport.mpr (hfits d' j hcheck hmask)
      · have hne := step_of_ne (w := w) hcheck (not_and_or.mp hself)
        rw [hne.2] at hlast
        rw [hne.1]
        exact h.right d' j last hlast

end Step

theorem sound_start (formatBuffer : PodBuffer) : (start formatBuffer).Sound where
  known _ _ := ⟨rfl, rfl, fun _ => rfl, rfl⟩
  right _ _ _ h := by cases h

/-- After each message of a run the answers are what was said last, exactly as long as the
messages fit. -/
theorem run_reflects_iff (formatBuffer : PodBuffer) (messages : List PortMessage) :
    Run.Along step (fun w msg => (w.step msg).Reflects) (start formatBuffer) messages ↔
      Run.Along step Fits (start formatBuffer) messages := by
  refine @Run.along_iff _ _ _ _ _ (fun _ _ => True) _ Sound (fun w msg h _ => reflects_step_iff h)
    (fun w msg h _ hfits => ?_) _ (sound_start formatBuffer)
    (Run.along_of_forall fun _ _ => trivial)
  have hknown := @known_step w msg h.known
  exact ⟨hknown, (reflects_iff hknown).mp ((reflects_step_iff h).mpr hfits)⟩

theorem empty_small : 8 + ([] : List UInt8).length < 2 ^ 32 := by decide

/-- A port is made by a message that carries a format. -/
def creating : PortMessage where
  direction := 0
  portId := 0
  m :=
    { changeMask := formatFlag
      possibleFormats := .nil
      format := some ⟨[], empty_small⟩
      info := none }

theorem not_run_reflects :
    ¬ ∀ (formatBuffer : PodBuffer) (messages : List PortMessage),
      Run.Along step (fun w msg => (w.step msg).Reflects) (start formatBuffer) messages := by
  intro h
  have hreflects := (h ⟨fun _ => 0, 0⟩ [creating]).1 0 0 .input ⟨0, by decide⟩ rfl
  have hformat := congrArg Prod.snd hreflects.1
  cases hformat

end Watched
end ClientNode
end Pinos

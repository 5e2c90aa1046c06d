import Mathlib.Data.List.TakeDrop
import Pinos.Client.FdPassing
import Pinos.Client.ProtocolNative
import Pinos.Server.ProtocolNative

/-
The calls of both sides with the functions that write and read them.

`demarshalled_iff` says for each call when the values that its marshal function adds
are read as the same call by the demarshal function that its opcode leads to.
-/

namespace Pinos
namespace Native

namespace PinosMessage

/-- What the marshal function of a call adds to a struct, and the connection with the
descriptors it has added. -/
def marshal (out : ConnectionBuffer) : PinosMessage → ConnectionBuffer × List PodCall
  | coreDoClientUpdate props => (out, Client.coreMarshalClientUpdate props)
  | coreDoSync seq => (out, Client.coreMarshalSync seq)
  | coreDoGetRegistry newId => (out, Client.coreMarshalGetRegistry newId)
  | coreDoCreateNode factoryName name props newId =>
    (out, Client.coreMarshalCreateNode factoryName name props newId)
  | coreDoCreateClientNode name props newId =>
    (out, Client.coreMarshalCreateClientNode name props newId)
  | coreDoUpdateTypes firstId types => (out, Client.coreMarshalUpdateTypes firstId types)
  | registryDoBind id newId => (out, Client.registryMarshalBind id newId)
  | clientNodeDoUpdate changeMask maxInputPorts maxOutputPorts props =>
    (out, Client.clientNodeMarshalUpdate changeMask maxInputPorts maxOutputPorts props)
  | clientNodeDoPortUpdate direction portId changeMask possibleFormats format props info =>
    (out, Client.clientNodeMarshalPortUpdate direction portId changeMask possibleFormats format
      props info)
  | clientNodeDoEvent event => (out, Client.clientNodeMarshalEvent event)
  | clientNodeDoDestroy => (out, Client.clientNodeMarshalDestroy)
  | coreNotifyInfo info => (out, Server.coreMarshalInfo info)
  | coreNotifyDone seq => (out, Server.coreMarshalDone seq)
  | coreNotifyError id res error => (out, Server.coreMarshalError id res error)
  | coreNotifyRemoveId id => (out, Server.coreMarshalRemoveId id)
  | coreNotifyUpdateTypes firstId types => (out, Server.coreMarshalUpdateTypes firstId types)
  | registryNotifyGlobal id type => (out, Server.registryMarshalGlobal id type)
  | registryNotifyGlobalRemove id => (out, Server.registryMarshalGlobalRemove id)
  | moduleNotifyInfo info => (out, Server.moduleMarshalInfo info)
  | nodeNotifyInfo info => (out, Server.nodeMarshalInfo info)
  | clientNotifyInfo info => (out, Server.clientMarshalInfo info)
  | clientNodeNotifyDone readfd writefd => Server.clientNodeMarshalDone out readfd writefd
  | clientNodeNotifyEvent event => (out, Server.clientNodeMarshalEvent event)
  | clientNodeNotifyAddPort seq direction portId =>
    (out, Server.clientNodeMarshalAddPort seq direction portId)
  | clientNodeNotifyRemovePort seq direction portId =>
    (out, Server.clientNodeMarshalRemovePort seq direction portId)
  | clientNodeNotifySetFormat seq direction portId flags format =>
    (out, Server.clientNodeMarshalSetFormat seq direction portId flags format)
  | clientNodeNotifySetProperty seq id value =>
    (out, Server.clientNodeMarshalSetProperty seq id value)
  | clientNodeNotifyAddMem direction portId memId type memfd flags offset size =>
    Server.clientNodeMarshalAddMem out direction portId memId type memfd flags offset size
  | clientNodeNotifyUseBuffers seq direction portId buffers =>
    (out, Server.clientNodeMarshalUseBuffers seq direction portId buffers)
  | clientNodeNotifyNodeCommand seq command =>
    (out, Server.clientNodeMarshalNodeCommand seq command)
  | clientNodeNotifyPortCommand portId command =>
    (out, Server.clientNodeMarshalPortCommand portId command)
  | clientNodeNotifyTransport memfd offset size =>
    Server.clientNodeMarshalTransport out memfd offset size
  | linkNotifyInfo info => (out, Server.linkMarshalInfo info)

/-- The demarshal functions of the interface a call is made on, at the receiver. -/
def demarshals (msg : PinosMessage) (connection : ConnectionBuffer) :
    List (Demarshal PinosMessage) :=
  if msg.isMethod then Server.methods msg.interface else Client.events connection msg.interface

/-- The call as it may arrive, with empty strings for NULL. -/
def filled : PinosMessage → PinosMessage
  | coreDoClientUpdate props => coreDoClientUpdate (filledDict props)
  | coreDoCreateNode factoryName name props newId =>
    coreDoCreateNode (Native.filled factoryName) (Native.filled name) (filledDict props)
      newId
  | coreDoCreateClientNode name props newId =>
    coreDoCreateClientNode (Native.filled name) (filledDict props) newId
  | coreDoUpdateTypes firstId types => coreDoUpdateTypes firstId (types.map Native.filled)
  | clientNodeDoPortUpdate direction portId changeMask possibleFormats format props info =>
    clientNodeDoPortUpdate direction portId changeMask possibleFormats format props
      (info.map fun info => { info with extra := filledDict info.extra })
  | coreNotifyInfo info =>
    coreNotifyInfo
      { info with
        userName := Native.filled info.userName
        hostName := Native.filled info.hostName
        version := Native.filled info.version
        name := Native.filled info.name
        props := filledDict info.props }
  | coreNotifyUpdateTypes firstId types => coreNotifyUpdateTypes firstId (types.map Native.filled)
  | registryNotifyGlobal id type => registryNotifyGlobal id (Native.filled type)
  | moduleNotifyInfo info =>
    moduleNotifyInfo
      { info with
        name := Native.filled info.name
        filename := Native.filled info.filename
        args := Native.filled info.args
        props := filledDict info.props }
  | nodeNotifyInfo info =>
    nodeNotifyInfo
      { info with
        name := Native.filled info.name
        error := Native.filled info.error
        props := filledDict info.props }
  | clientNotifyInfo info => clientNotifyInfo { info with props := filledDict info.props }
  | msg => msg

end PinosMessage

/-! ## Arguments that arrive -/

def NotNull {α : Type} (p : Option α) : Prop := p ≠ none

def NoneNull {α : Type} (ps : Counted (Option α)) : Prop := none ∉ ps.items

/-- A 64-bit value of which the upper half is 0. -/
def Short (val : UInt64) : Prop := val.toNat < 2 ^ 32

/-- There is a place for a descriptor in the table of a connection. -/
def HasPlace (out : ConnectionBuffer) (fd : Int) : Prop :=
  fd ∈ out.fds ∨ out.fds.length < maxFds

instance (out : ConnectionBuffer) (fd : Int) : Decidable (HasPlace out fd) :=
  inferInstanceAs (Decidable (_ ∨ _))

/-- A descriptor that is sent is no negative number; without a place in the table `-1`
arrives. -/
def FdArrives (out : ConnectionBuffer) (fd : Int) : Prop :=
  if HasPlace out fd then 0 ≤ fd else fd = -1

namespace PinosMessage

/-- What its marshal function and the connection need to send a call as it is. -/
def Intact (out : ConnectionBuffer) : PinosMessage → Prop
  | coreDoClientUpdate props => NotNull props ∧ CountsInt props
  | coreDoCreateNode _ _ props _ => NotNull props
  | coreDoCreateClientNode _ props _ => NotNull props
  | clientNodeDoPortUpdate _ _ _ possibleFormats _ _ info =>
    NoneNull possibleFormats ∧ ∀ i ∈ info, Short i.maxbuffering ∧ Short i.latency ∧
      NoneNull i.params ∧ NotNull i.extra ∧ CountsInt i.extra
  | clientNodeDoEvent event => NotNull event
  | coreNotifyInfo info => Short info.changeMask ∧ NotNull info.props
  | coreNotifyError _ _ error => error.chars.length < 128
  | moduleNotifyInfo info => Short info.changeMask ∧ NotNull info.props
  | nodeNotifyInfo info =>
    Short info.changeMask ∧ NoneNull info.inputFormats ∧ NoneNull info.outputFormats ∧
      NotNull info.props
  | clientNotifyInfo info => Short info.changeMask ∧ NotNull info.props
  | clientNodeNotifyDone readfd writefd =>
    0 ≤ readfd ∧ HasPlace out readfd ∧ 0 ≤ writefd ∧ HasPlace (out.addFd readfd).1 writefd
  | clientNodeNotifyEvent event => NotNull event
  | clientNodeNotifyAddMem _ _ _ _ memfd _ _ _ => FdArrives out memfd
  | clientNodeNotifyUseBuffers _ _ _ buffers =>
    ∀ b ∈ buffers.items, ∀ d ∈ b.buffer.datas.items, Short d.data
  | clientNodeNotifyNodeCommand _ command => NotNull command
  | clientNodeNotifyPortCommand _ command => NotNull command
  | clientNodeNotifyTransport memfd _ _ => FdArrives out memfd
  | linkNotifyInfo info => Short info.changeMask
  | _ => True

end PinosMessage

/-! ## Reading what was written -/

section Conditions

variable {α : Type}

@[simp] theorem cutLong_iff {val : UInt64} : cutLong val = val ↔ Short val := by
  rw [cutLong, ← UInt64.toNat_inj, UInt32.toNat_toUInt64, UInt64.toNat_toUInt32]
  exact Nat.mod_eq_iff_lt (by decide)

theorem map_self_iff {f : α → α} {xs : Counted α} :
    xs.map f = xs ↔ ∀ x ∈ xs.items, f x = x := by
  obtain ⟨items, hsmall⟩ := xs
  rw [Counted.map, Counted.mk.injEq]
  constructor
  · intro h x hx
    exact List.map_inj_left.mp (h.trans (List.map_id items).symm) x hx
  · intro h
    exact (List.map_congr_left h).trans (List.map_id items)

@[simp] theorem sentDict_iff {props : Option SpaDict} :
    some (sentDict props) = filledDict props ↔ NotNull props := by
  cases props with
  | none => exact iff_of_false (fun h => by cases h) (fun h => h rfl)
  | some dict => exact iff_of_true rfl (fun h => by cases h)

end Conditions

namespace PinosMessage

variable {out conn : ConnectionBuffer}

/-- A demarshal function reads the call from what its marshal function added, except for
the start of the struct. -/
def Reads (d : Demarshal PinosMessage) (values : List PodCall) (msg : PinosMessage) : Prop :=
  (d.get.read values.tail).map Prod.fst = some msg.filled

theorem reads_coreDoClientUpdate (props : Option SpaDict) :
    Reads Server.coreDemarshalClientUpdate (Client.coreMarshalClientUpdate props)
      (coreDoClientUpdate props) ↔ NotNull props ∧ CountsInt props := by
  by_cases h : CountsInt props <;>
    simp [Reads, Client.coreMarshalClientUpdate, Server.coreDemarshalClientUpdate, podStruct,
      PinosMessage.filled, h]

theorem reads_coreNotifyInfo (info : PinosCoreInfo) :
    Reads Client.coreDemarshalInfo (Server.coreMarshalInfo info) (.coreNotifyInfo info) ↔
      Short info.changeMask ∧ NotNull info.props := by
  simp [Reads, Client.coreDemarshalInfo, Server.coreMarshalInfo, podStruct, PinosMessage.filled]

/-- The info of a port that arrives. -/
def sentPortInfo (info : SpaPortInfo) : SpaPortInfo :=
  { info with
    maxbuffering := cutLong info.maxbuffering
    latency := cutLong info.latency
    extra := some (sentDict info.extra) }

theorem read_getPortInfo {info : SpaPortInfo} (hparams : none ∉ info.params.items)
    (hextra : CountsInt info.extra) (rest : List PodCall) :
    Server.getPortInfo.read (Client.putPortInfo (some info) ++ rest) =
      some (some (sentPortInfo info), .pop :: rest) := by
  simp [Server.getPortInfo, Client.putPortInfo, podStruct, hparams, hextra, sentPortInfo]

theorem read_getPortInfo_stop {info : SpaPortInfo}
    (h : none ∈ info.params.items ∨ ¬ CountsInt info.extra) (rest : List PodCall) :
    Server.getPortInfo.read (Client.putPortInfo (some info) ++ rest) = none := by
  by_cases hparams : none ∈ info.params.items
  · simp [Server.getPortInfo, Client.putPortInfo, podStruct, hparams]
  · have hextra := h.resolve_left hparams
    simp [Server.getPortInfo, Client.putPortInfo, podStruct, hparams, hextra]

theorem read_getPortInfo_null (rest : List PodCall) :
    Server.getPortInfo.read (Client.putPortInfo none ++ rest) = some (none, rest) := rfl

theorem sentPortInfo_iff {info : SpaPortInfo} :
    sentPortInfo info = { info with extra := filledDict info.extra } ↔
      Short info.maxbuffering ∧ Short info.latency ∧ NotNull info.extra := by
  obtain ⟨flags, rate, params, maxbuffering, latency, extra⟩ := info
  simp [sentPortInfo]

theorem reads_clientNodeDoPortUpdate (direction portId changeMask : UInt32)
    (possibleFormats : Counted (Option SpaPODObject)) (format props : Option SpaPODObject)
    (info : Option SpaPortInfo) :
    Reads Server.clientNodeDemarshalPortUpdate
      (Client.clientNodeMarshalPortUpdate direction portId changeMask possibleFormats format props
        info)
      (clientNodeDoPortUpdate direction portId changeMask possibleFormats format props info) ↔
    NoneNull possibleFormats ∧ ∀ i ∈ info, Short i.maxbuffering ∧ Short i.latency ∧
      NoneNull i.params ∧ NotNull i.extra ∧ CountsInt i.extra := by
  by_cases hformats : none ∈ possibleFormats.items
  · simp [Reads, Client.clientNodeMarshalPortUpdate, Server.clientNodeDemarshalPortUpdate,
      podStruct, NoneNull, hformats]
  have hread : Server.clientNodeDemarshalPortUpdate.get.read
      (Client.clientNodeMarshalPortUpdate direction portId changeMask possibleFormats format props
        info).tail =
      (Server.getPortInfo >>= fun info => pure (clientNodeDoPortUpdate direction portId changeMask
        possibleFormats format props info)).read (Client.putPortInfo info ++ [.pop]) := by
    simp [Client.clientNodeMarshalPortUpdate, Server.clientNodeDemarshalPortUpdate, podStruct,
      hformats]
  rw [Reads, hread, PinosMessage.filled]
  cases info with
  | none =>
    rw [read_then _ (read_getPortInfo_null _)]
    simp [NoneNull, hformats]
  | some info =>
    by_cases hstop : none ∈ info.params.items ∨ ¬ CountsInt info.extra
    · rw [read_stop (read_getPortInfo_stop hstop _)]
      refine iff_of_false (fun h => by cases h) fun h => ?_
      obtain ⟨-, -, hparams, -, hextra⟩ := h.2 info rfl
      exact hstop.elim hparams (absurd hextra)
    · obtain ⟨hparams, hextra⟩ := not_or.mp hstop
      rw [read_then _ (read_getPortInfo hparams (not_not.mp hextra) _)]
      have hsent := @sentPortInfo_iff info
      simp [NoneNull, hformats, hsent, hparams, not_not.mp hextra]

theorem reads_nodeNotifyInfo (info : PinosNodeInfo) :
    Reads Client.nodeDemarshalInfo (Server.nodeMarshalInfo info) (nodeNotifyInfo info) ↔
      Short info.changeMask ∧ NoneNull info.inputFormats ∧ NoneNull info.outputFormats ∧
        NotNull info.props := by
  by_cases hin : none ∈ info.inputFormats.items
  · simp [Reads, Server.nodeMarshalInfo, Client.nodeDemarshalInfo, podStruct, 
      PinosMessage.filled, NoneNull, hin]
  by_cases hout : none ∈ info.outputFormats.items
  · simp [Reads, Server.nodeMarshalInfo, Client.nodeDemarshalInfo, podStruct, 
      PinosMessage.filled, NoneNull, hin, hout]
  · simp [Reads, Server.nodeMarshalInfo, Client.nodeDemarshalInfo, podStruct, 
      PinosMessage.filled, NoneNull, hin, hout]

theorem cut_iff {b : PinosClientNodeBuffer} :
    b.cut = b ↔ ∀ d ∈ b.buffer.datas.items, Short d.data := by
  obtain ⟨memId, offset, size, id, metas, datas⟩ := b
  have hdata : ∀ d : SpaData, d.cut = d ↔ Short d.data := by
    rintro ⟨type, flags, mapoffset, maxsize, data⟩
    simp [SpaData.cut]
  simp [PinosClientNodeBuffer.cut, SpaBuffer.cut, map_self_iff, hdata]

theorem reads_clientNodeNotifyUseBuffers (seq direction portId : UInt32)
    (buffers : Counted PinosClientNodeBuffer) :
    Reads Client.clientNodeDemarshalUseBuffers
      (Server.clientNodeMarshalUseBuffers seq direction portId buffers)
      (clientNodeNotifyUseBuffers seq direction portId buffers) ↔
      ∀ b ∈ buffers.items, ∀ d ∈ b.buffer.datas.items, Short d.data := by
  simp [Reads, Server.clientNodeMarshalUseBuffers, Client.clientNodeDemarshalUseBuffers, podStruct,
    PinosMessage.filled, map_self_iff, cut_iff]

theorem take_iff {str : CString} {n : Nat} : str.take n = str ↔ str.chars.length ≤ n := by
  obtain ⟨chars, noNul⟩ := str
  rw [CString.take, CString.mk.injEq]
  exact List.take_eq_self_iff chars

theorem reads_coreNotifyError (id res : UInt32) (error : CString) :
    Reads Client.coreDemarshalError (Server.coreMarshalError id res error)
      (coreNotifyError id res error) ↔ error.chars.length < 128 := by
  have hread : Client.coreDemarshalError.get.read (Server.coreMarshalError id res error).tail =
      some (coreNotifyError id res (error.take 127), [.pop]) := rfl
  rw [Reads, hread]
  simp [PinosMessage.filled, take_iff, Nat.lt_succ_iff]

/-! ### File descriptors -/

theorem hasPlace_iff {fd : Int} : HasPlace out fd ↔ (out.addFd fd).2 ≠ none := by
  rw [HasPlace, ConnectionBuffer.addFd]
  cases hfound : out.fds.idxOf? fd with
  | some i =>
    have hmem : fd ∈ out.fds := by
      by_contra hnot
      rw [List.idxOf?_eq_none_iff.mpr hnot] at hfound
      cases hfound
    exact iff_of_true (Or.inl hmem) (fun h => by cases h)
  | none =>
    have hnot := List.idxOf?_eq_none_iff.mp hfound
    dsimp only
    split
    · next hfull => exact iff_of_false (not_or.mpr ⟨hnot, Nat.not_lt.mpr hfull⟩) (fun h => h rfl)
    · next hroom => exact iff_of_true (Or.inr (Nat.not_le.mp hroom)) (fun h => by cases h)

theorem addFd_length {fd : Int} (h : out.fds.length ≤ maxFds) :
    (out.addFd fd).1.fds.length ≤ maxFds := by
  rw [ConnectionBuffer.addFd]
  split
  · exact h
  · split
    · exact h
    · show (out.fds ++ [fd]).length ≤ maxFds
      rw [List.length_append, List.length_singleton]
      omega

/-- What is received for a descriptor that was added to the table of the sender, with
`more` behind it. -/
theorem getFd_fdIndex {fd : Int} {more : List Int}
    (hconn : conn.fds = ((out.addFd fd).1.fds ++ more).map fun fd => (fd.natAbs : Int))
    (hlen : conn.fds.length ≤ maxFds) :
    conn.getFd (Server.fdIndex (out.addFd fd).2).toNat =
      if HasPlace out fd then (fd.natAbs : Int) else -1 := by
  obtain ⟨added, hadd, hindex⟩ := out.addFd_index fd
  unfold maxFds at hlen
  cases hplace : (out.addFd fd).2 with
  | none =>
    have hnone : conn.fds[2 ^ 32 - 1]? = none := List.getElem?_eq_none (by omega)
    rw [if_neg (fun h => hasPlace_iff.mp h hplace), ConnectionBuffer.getFd,
      List.getD_eq_getElem?_getD]
    exact congrArg (Option.getD · (-1)) hnone
  | some i =>
    have hsome : HasPlace out fd := hasPlace_iff.mpr (by rw [hplace]; exact Option.some_ne_none i)
    have hfound : conn.fds[i]? = some (fd.natAbs : Int) := by
      obtain ⟨hlt, hget⟩ := List.getElem?_eq_some_iff.mp (hindex i hplace)
      rw [hconn, hadd, List.getElem?_map, List.getElem?_append_left hlt,
        List.getElem?_eq_getElem hlt, hget]
      rfl
    obtain ⟨hlt, -⟩ := List.getElem?_eq_some_iff.mp hfound
    have hi : (Server.fdIndex (some i)).toNat = i := by
      show (UInt32.ofNat i).toNat = i
      rw [UInt32.toNat_ofNat']
      exact Nat.mod_eq_of_lt (by omega)
    rw [if_pos hsome, ConnectionBuffer.getFd, hi, List.getD_eq_getElem?_getD, hfound]
    rfl

theorem fdArrives_iff {fd : Int} :
    (if HasPlace out fd then (fd.natAbs : Int) else -1) = fd ↔ FdArrives out fd := by
  rw [FdArrives]
  split <;> omega

theorem reads_clientNodeNotifyTransport {memfd : Int} {offset size : UInt32}
    (hfds : out.fds.length ≤ maxFds)
    (hconn : conn.fds = (Server.clientNodeMarshalTransport out memfd offset size).1.flushed.2) :
    Reads (Client.clientNodeDemarshalTransport conn)
      (Server.clientNodeMarshalTransport out memfd offset size).2
      (clientNodeNotifyTransport memfd offset size) ↔ FdArrives out memfd := by
  have hget := @getFd_fdIndex out conn memfd [] (by rw [List.append_nil]; exact hconn)
    (by rw [hconn]; exact (List.length_map _).trans_le (addFd_length hfds))
  have harrives := @fdArrives_iff out memfd
  generalize (if HasPlace out memfd then (memfd.natAbs : Int) else -1) = arrived at hget harrives
  simp [Reads, Client.clientNodeDemarshalTransport, Server.clientNodeMarshalTransport, podStruct,
    PinosMessage.filled, hget, harrives]

theorem reads_clientNodeNotifyAddMem {direction portId memId type flags offset size : UInt32}
    {memfd : Int} (hfds : out.fds.length ≤ maxFds)
    (hconn : conn.fds = (Server.clientNodeMarshalAddMem out direction portId memId type memfd flags
      offset size).1.flushed.2) :
    Reads (Client.clientNodeDemarshalAddMem conn)
      (Server.clientNodeMarshalAddMem out direction portId memId type memfd flags offset size).2
      (clientNodeNotifyAddMem direction portId memId type memfd flags offset size) ↔
      FdArrives out memfd := by
  have hget := @getFd_fdIndex out conn memfd [] (by rw [List.append_nil]; exact hconn)
    (by rw [hconn]; exact (List.length_map _).trans_le (addFd_length hfds))
  have harrives := @fdArrives_iff out memfd
  generalize (if HasPlace out memfd then (memfd.natAbs : Int) else -1) = arrived at hget harrives
  simp [Reads, Client.clientNodeDemarshalAddMem, Server.clientNodeMarshalAddMem, podStruct,
    PinosMessage.filled, hget, harrives]

theorem reads_clientNodeNotifyDone {readfd writefd : Int} (hfds : out.fds.length ≤ maxFds)
    (hconn : conn.fds = (Server.clientNodeMarshalDone out readfd writefd).1.flushed.2) :
    Reads (Client.clientNodeDemarshalDone conn)
      (Server.clientNodeMarshalDone out readfd writefd).2 (clientNodeNotifyDone readfd writefd) ↔
      0 ≤ readfd ∧ HasPlace out readfd ∧ 0 ≤ writefd ∧ HasPlace (out.addFd readfd).1 writefd := by
  have hlen : conn.fds.length ≤ maxFds := by
    rw [hconn]
    exact (List.length_map _).trans_le (addFd_length (addFd_length hfds))
  obtain ⟨more, hadd, -⟩ := (out.addFd readfd).1.addFd_index writefd
  have hread := @getFd_fdIndex out conn readfd more (by
    rw [hconn]
    show List.map _ ((out.addFd readfd).1.addFd writefd).1.fds = _
    rw [hadd]) hlen
  have hwrite := @getFd_fdIndex (out.addFd readfd).1 conn writefd [] (by
    rw [List.append_nil]
    exact hconn) hlen
  by_cases hr : HasPlace out readfd
  · rw [if_pos hr] at hread
    have hreadfd : (readfd.natAbs : Int) = readfd ↔ 0 ≤ readfd := by omega
    have hreadNe : (readfd.natAbs : Int) ≠ -1 := by omega
    generalize (readfd.natAbs : Int) = arrivedRead at hread hreadfd hreadNe
    by_cases hw : HasPlace (out.addFd readfd).1 writefd
    · rw [if_pos hw] at hwrite
      have hwritefd : (writefd.natAbs : Int) = writefd ↔ 0 ≤ writefd := by omega
      have hwriteNe : (writefd.natAbs : Int) ≠ -1 := by omega
      generalize (writefd.natAbs : Int) = arrivedWrite at hwrite hwritefd hwriteNe
      simp [Reads, Client.clientNodeDemarshalDone, Server.clientNodeMarshalDone, podStruct,
        PinosMessage.filled, hread, hwrite, hr, hw, hreadfd, hwritefd, hreadNe, hwriteNe]
    · simp [Reads, Client.clientNodeDemarshalDone, Server.clientNodeMarshalDone, podStruct,
        hread, hwrite, hr, hw]
  · simp [Reads, Client.clientNodeDemarshalDone, Server.clientNodeMarshalDone, podStruct,
      hread, hwrite, hr]

/-- Whether the demarshal function that the opcode of a call leads to reads the call as it
was sent depends on its arguments, and on the table of descriptors. -/
theorem demarshalled_iff (msg : PinosMessage) (hfds : out.fds.length ≤ maxFds)
    (hconn : conn.fds = (msg.marshal out).1.flushed.2) :
    ∃ d, (msg.demarshals conn)[msg.opcode.toNat]? = some d ∧
      (Reads d (msg.marshal out).2 msg ↔ msg.Intact out) := by
  cases msg with
  | coreDoClientUpdate props => exact ⟨_, rfl, reads_coreDoClientUpdate props⟩
  | coreDoSync seq => exact ⟨_, rfl, iff_of_true rfl trivial⟩
  | coreDoGetRegistry newId => exact ⟨_, rfl, iff_of_true rfl trivial⟩
  | coreDoCreateNode factoryName name props newId =>
    refine ⟨_, rfl, ?_⟩
    simp [Reads, marshal, Client.coreMarshalCreateNode, Server.coreDemarshalCreateNode, podStruct,
      PinosMessage.filled, Intact]
  | coreDoCreateClientNode name props newId =>
    refine ⟨_, rfl, ?_⟩
    simp [Reads, marshal, Client.coreMarshalCreateClientNode, Server.coreDemarshalCreateClientNode,
      podStruct, PinosMessage.filled, Intact]
  | coreDoUpdateTypes firstId types =>
    refine ⟨_, rfl, ?_⟩
    simp [Reads, marshal, Client.coreMarshalUpdateTypes, Server.coreDemarshalUpdateTypes,
      podStruct, PinosMessage.filled, Intact]
  | registryDoBind id newId => exact ⟨_, rfl, iff_of_true rfl trivial⟩
  | clientNodeDoUpdate changeMask maxInputPorts maxOutputPorts props =>
    refine ⟨_, rfl, ?_⟩
    simp [Reads, marshal, Client.clientNodeMarshalUpdate, Server.clientNodeDemarshalUpdate,
      podStruct, PinosMessage.filled, Intact]
  | clientNodeDoPortUpdate direction portId changeMask possibleFormats format props info =>
    exact ⟨_, rfl, reads_clientNodeDoPortUpdate direction portId changeMask possibleFormats format
      props info⟩
  | clientNodeDoEvent event =>
    refine ⟨_, rfl, ?_⟩
    cases event <;> simp [Reads, marshal, Client.clientNodeMarshalEvent, Server.clientNodeDemarshalEvent,
      podStruct, PinosMessage.filled, Intact, NotNull]
  | clientNodeDoDestroy => exact ⟨_, rfl, iff_of_true rfl trivial⟩
  | coreNotifyInfo info =>
    refine ⟨_, rfl, ?_⟩
    simp [Reads, marshal, Server.coreMarshalInfo, Client.coreDemarshalInfo, podStruct,
      PinosMessage.filled, Intact]
  | coreNotifyDone seq => exact ⟨_, rfl, iff_of_true rfl trivial⟩
  | coreNotifyError id res error => exact ⟨_, rfl, reads_coreNotifyError id res error⟩
  | coreNotifyRemoveId id => exact ⟨_, rfl, iff_of_true rfl trivial⟩
  | coreNotifyUpdateTypes firstId types =>
    refine ⟨_, rfl, ?_⟩
    simp [Reads, marshal, Server.coreMarshalUpdateTypes, Client.coreDemarshalUpdateTypes,
      podStruct, PinosMessage.filled, Intact]
  | registryNotifyGlobal id type => exact ⟨_, rfl, iff_of_true rfl trivial⟩
  | registryNotifyGlobalRemove id => exact ⟨_, rfl, iff_of_true rfl trivial⟩
  | moduleNotifyInfo info =>
    refine ⟨_, rfl, ?_⟩
    simp [Reads, marshal, Server.moduleMarshalInfo, Client.moduleDemarshalInfo, podStruct,
      PinosMessage.filled, Intact]
  | nodeNotifyInfo info => exact ⟨_, rfl, reads_nodeNotifyInfo info⟩
  | clientNotifyInfo info =>
    refine ⟨_, rfl, ?_⟩
    simp [Reads, marshal, Server.clientMarshalInfo, Client.clientDemarshalInfo, podStruct,
      PinosMessage.filled, Intact]
  | clientNodeNotifyDone readfd writefd => exact ⟨_, rfl, reads_clientNodeNotifyDone hfds hconn⟩
  | clientNodeNotifyEvent event =>
    refine ⟨_, rfl, ?_⟩
    cases event <;> simp [Reads, marshal, Server.clientNodeMarshalEvent, Client.clientNodeDemarshalEvent,
      podStruct, PinosMessage.filled, Intact, NotNull]
  | clientNodeNotifyAddPort seq direction portId => exact ⟨_, rfl, iff_of_true rfl trivial⟩
  | clientNodeNotifyRemovePort seq direction portId => exact ⟨_, rfl, iff_of_true rfl trivial⟩
  | clientNodeNotifySetFormat seq direction portId flags format =>
    refine ⟨_, rfl, ?_⟩
    simp [Reads, marshal, Server.clientNodeMarshalSetFormat, Client.clientNodeDemarshalSetFormat,
      podStruct, PinosMessage.filled, Intact]
  | clientNodeNotifySetProperty seq id value => exact ⟨_, rfl, iff_of_true rfl trivial⟩
  | clientNodeNotifyAddMem direction portId memId type memfd flags offset size =>
    exact ⟨_, rfl, reads_clientNodeNotifyAddMem hfds hconn⟩
  | clientNodeNotifyUseBuffers seq direction portId buffers =>
    exact ⟨_, rfl, reads_clientNodeNotifyUseBuffers seq direction portId buffers⟩
  | clientNodeNotifyNodeCommand seq command =>
    refine ⟨_, rfl, ?_⟩
    cases command <;> simp [Reads, marshal, Server.clientNodeMarshalNodeCommand,
      Client.clientNodeDemarshalNodeCommand, podStruct, PinosMessage.filled, Intact, NotNull]
  | clientNodeNotifyPortCommand portId command =>
    refine ⟨_, rfl, ?_⟩
    cases command <;> simp [Reads, marshal, Server.clientNodeMarshalPortCommand,
      Client.clientNodeDemarshalPortCommand, podStruct, PinosMessage.filled, Intact, NotNull]
  | clientNodeNotifyTransport memfd offset size =>
    exact ⟨_, rfl, reads_clientNodeNotifyTransport hfds hconn⟩
  | linkNotifyInfo info =>
    refine ⟨_, rfl, ?_⟩
    cases info
    simp [Reads, marshal, Server.linkMarshalInfo, Client.linkDemarshalInfo, podStruct,
      PinosMessage.filled, Intact]

end PinosMessage
end Native
end Pinos

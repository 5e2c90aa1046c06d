import Pinos.Client.BufferTable
import Pinos.Client.Calls
import Pinos.Lib.Run
import Pinos.Server.PortBuffers

/-
The buffers of a client node as its stream sees them.

Requests are written to the connection with the descriptors of a flush, the client gets
descriptors of its own for these, and the stream handles the messages one after the other.
-/

namespace Pinos
namespace SharedBuffers

open Native (PinosMessage)
open PortBuffers (BufferTypes Request SentMem SpaBuffer addMems)
open BufferTable (Stream MapPtr)

/-- What a marshal function adds, with the opcode of its call. -/
structure Sent where
  opcode : UInt8
  values : List PodCall

/-- Calls that are written one after the other. -/
def send (out : ConnectionBuffer) : List PinosMessage → ConnectionBuffer × List Sent
  | [] => (out, [])
  | msg :: msgs =>
    let (out, values) := msg.marshal out
    let (out, sent) := send out msgs
    (out, ⟨msg.opcode, values⟩ :: sent)

/-- What the client knows the types as; they have one number on both sides. -/
def clientTypes (types : BufferTypes) : BufferTable.DataTypes :=
  ⟨types.dataMemPtr, types.dataMemFd, types.dataId⟩

/-- A message to the client node of a stream. -/
def receive (types : BufferTypes) (conn : ConnectionBuffer) (s : Stream) (sent : Sent) :
    Option Stream :=
  match (Native.Client.events conn .clientNode)[sent.opcode.toNat]?.bind fun d =>
      d.get.read sent.values.tail with
  | none => some s
  | some (msg, _) => s.handle (clientTypes types) msg

/-- A port of the server with the next number for a request and the `size` of its buffers. -/
structure ProxyPort where
  seq : UInt32
  sizes : List UInt64

/-- A request with what was sent for it, if it could be. -/
structure Flight where
  request : Request
  sent : Option (List Sent)

def sendRequests (types : BufferTypes) (direction portId : UInt32) :
    ProxyPort → ConnectionBuffer → List Request → ProxyPort × ConnectionBuffer × List Flight
  | port, out, [] => (port, out, [])
  | port, out, r :: rs =>
    match PortBuffers.useBuffers types port.seq direction portId port.sizes (r.buffers types) with
    | none =>
      let (port, out, flights) := sendRequests types direction portId port out rs
      (port, out, ⟨r, none⟩ :: flights)
    | some (messages, sizes) =>
      let (out, sent) := send out messages
      let (port, out, flights) := sendRequests types direction portId ⟨port.seq + 1, sizes⟩ out rs
      (port, out, ⟨r, some sent⟩ :: flights)

/-- The descriptors `numbers` that `recvmsg` opens for the descriptors `fds` of the sender. -/
def opened (s : Stream) (fds numbers : List Int) : Stream :=
  { s with
    files := (numbers.zip fds).foldl (fun files p => Function.update files p.1 (some p.2)) s.files }

/-- The in buffer of a connection, of which messages ask for descriptors. -/
def inBuffer (numbers : List Int) : ConnectionBuffer :=
  { ConnectionBuffer.new (fun _ => 0) true with fds := numbers }

/-- The stream when the messages of a request are handled. -/
def handled (types : BufferTypes) (conn : ConnectionBuffer) (s : Stream) (flight : Flight) : Stream :=
  ((flight.sent.bind fun sent => sent.foldlM (receive types conn) s)).getD s

/-! ## What is asked of a request -/

/-- A pointer leads to `size` bytes at `offset` of a file, and these are mapped. -/
def Resolves (p : MapPtr) (file : Int) (offset size : Nat) : Prop :=
  p.file = file ∧ p.offset = offset ∧ offset + size ≤ p.length

structure SeesMeta (file : Int) (m : BufferTable.SpaMeta) (m' : PortBuffers.SpaMeta) : Prop where
  type : m.type = m'.type
  size : m.size = m'.size
  data : Resolves m.data file m'.data m'.size.toNat

structure SeesData (file : Int) (files : Int → Option Int) (d : BufferTable.SpaData)
    (d' : PortBuffers.SpaData) : Prop where
  fd : d.fd.bind files = some d'.fd
  mapoffset : d.mapoffset = d'.mapoffset
  maxsize : d.maxsize = d'.maxsize
  chunk : Resolves d.chunk file d'.chunk PortBuffers.sizeofChunk

structure SeesBuffer (file : Int) (files : Int → Option Int) (b : BufferTable.BufferId)
    (b' : SpaBuffer) : Prop where
  id : b.id = b'.id
  metas : List.Forall₂ (SeesMeta file) b.metas b'.metas.items
  datas : List.Forall₂ (SeesData file files) b.datas b'.datas.items

/-- The table of the stream has exactly the buffers of the request. -/
def Sees (types : BufferTypes) (s : Stream) (r : Request) : Prop :=
  List.Forall₂ (SeesBuffer r.memFd s.files) s.bufferIds (r.buffers types).items

/-- The messages of a request were sent and handled, and the stream sees its buffers. -/
def Right (types : BufferTypes) (conn : ConnectionBuffer) (s : Stream) (flight : Flight) : Prop :=
  ∃ sent s', flight.sent = some sent ∧ sent.foldlM (receive types conn) s = some s' ∧
    Sees types s' flight.request

/-! ## When it is met -/

/-- The descriptor at the client for a descriptor of the sender, `-1` when there is none. -/
def number (fds numbers : List Int) (fd : Int) : Int :=
  match fds.idxOf? fd with
  | some i => numbers.getD i (-1)
  | none => -1

/-- The memories of a request, in the order they are sent. -/
def mems (types : BufferTypes) (r : Request) : List SentMem :=
  (r.buffers types).items.flatMap (SpaBuffer.mems types)

/-- A descriptor that is open and stays so while the first `n` memories of the table are
replaced. -/
def StaysOpen (s : Stream) (n : Nat) (fd : Int) (file : Int) : Prop :=
  s.files fd = some file ∧ ∀ mid ∈ s.memIds.take n, mid.fd ≠ fd

instance (s : Stream) (n : Nat) (fd file : Int) : Decidable (StaysOpen s n fd file) :=
  inferInstanceAs (Decidable (_ ∧ _))

/-- The header of every buffer ends inside what is mapped for it, whose size is an `uint32_t`. -/
def Inside (types : BufferTypes) (r : Request) : Prop :=
  ∀ i < r.nBuffers.toNat,
    r.layout.dataSize types * i + r.layout.headerSize types ≤
      (r.layout.dataSize types * i + r.layout.dataSize types) % 2 ^ 32

instance (types : BufferTypes) (r : Request) : Decidable (Inside types r) :=
  inferInstanceAs (Decidable (∀ i < _, _))

structure Fits (types : BufferTypes) (fds numbers : List Int) (s : Stream) (flight : Flight) :
    Prop where
  few : flight.request.nBuffers.toNat ≤ PortBuffers.maxBuffers
  inside : Inside types flight.request
  open_ : ∀ m ∈ mems types flight.request,
    StaysOpen s (mems types flight.request).length (number fds numbers m.fd) m.fd

/-! ## Messages with descriptors -/

section Transport

variable {types : BufferTypes} {direction portId : UInt32} {out : ConnectionBuffer}
  {fds numbers more : List Int}

/-- A descriptor by the index it is sent as. -/
theorem getFd_number {fd : Int} (hfds : fds = (out.addFd fd).1.fds ++ more)
    (hmax : fds.length ≤ maxFds) (hlen : numbers.length ≤ maxFds) :
    (inBuffer numbers).getFd (Native.Server.fdIndex (out.addFd fd).2).toNat =
      number fds numbers fd := by
  have hindex : ∀ i, i < maxFds → (Native.Server.fdIndex (some i)).toNat = i := fun i hi =>
    UInt32.toNat_ofNat_of_lt' (Nat.lt_of_lt_of_le hi (by decide))
  have happend : ∀ xs ys : List Int, (xs ++ ys).idxOf? fd =
      (xs.idxOf? fd).or ((ys.idxOf? fd).map (· + xs.length)) := fun xs ys => List.findIdx?_append
  unfold ConnectionBuffer.addFd at hfds ⊢
  unfold number
  cases hfound : out.fds.idxOf? fd with
  | some i =>
    rw [hfound] at hfds
    dsimp only at hfds ⊢
    obtain ⟨hlt, -⟩ := List.idxOf?_eq_some_iff.mp hfound
    rw [hfds, List.length_append] at hmax
    rw [hfds, happend, hfound, hindex i (by omega)]
    rfl
  | none =>
    rw [hfound] at hfds
    by_cases hfull : maxFds ≤ out.fds.length
    · simp only [if_pos hfull] at hfds ⊢
      rw [hfds, List.length_append] at hmax
      have hmore : more = [] := List.length_eq_zero_iff.mp (by omega)
      rw [hfds, hmore, List.append_nil, hfound]
      have hnone : numbers[2 ^ 32 - 1]? = none := List.getElem?_eq_none (by
        have hsmall : maxFds < 2 ^ 32 - 1 := by decide
        omega)
      show numbers.getD (2 ^ 32 - 1) (-1) = -1
      rw [List.getD_eq_getElem?_getD, hnone]
      rfl
    · simp only [if_neg hfull] at hfds ⊢
      rw [hindex _ (by omega), hfds, happend, happend, hfound, List.idxOf?_cons, beq_self_eq_true,
        if_pos rfl]
      show numbers.getD out.fds.length (-1) = numbers.getD (0 + out.fds.length) (-1)
      rw [Nat.zero_add]

theorem send_cons (out : ConnectionBuffer) (msg : PinosMessage) (msgs : List PinosMessage) :
    send out (msg :: msgs) =
      ((send (msg.marshal out).1 msgs).1,
        ⟨msg.opcode, (msg.marshal out).2⟩ :: (send (msg.marshal out).1 msgs).2) := rfl

theorem send_append (out : ConnectionBuffer) (msgs msgs' : List PinosMessage) :
    send out (msgs ++ msgs') =
      ((send (send out msgs).1 msgs').1, (send out msgs).2 ++ (send (send out msgs).1 msgs').2) := by
  induction msgs generalizing out with
  | nil => rfl
  | cons msg msgs ih =>
    rw [List.cons_append, send_cons, send_cons, ih, List.cons_append]

/-- Descriptors are put behind those of a connection, as long as there is a place. -/
structure Extends (out out' : ConnectionBuffer) : Prop where
  grows : ∃ more, out'.fds = out.fds ++ more
  room : out.fds.length ≤ maxFds → out'.fds.length ≤ maxFds

theorem Extends.refl (out : ConnectionBuffer) : Extends out out :=
  ⟨⟨[], (List.append_nil _).symm⟩, id⟩

theorem Extends.trans {out' out'' : ConnectionBuffer} (h : Extends out out')
    (h' : Extends out' out'') : Extends out out'' := by
  obtain ⟨more, hmore⟩ := h.grows
  obtain ⟨more', hmore'⟩ := h'.grows
  exact ⟨⟨more ++ more', by rw [hmore', hmore, List.append_assoc]⟩, fun hroom => h'.room (h.room hroom)⟩

theorem extends_addFd (out : ConnectionBuffer) (fd : Int) : Extends out (out.addFd fd).1 := by
  obtain ⟨more, hmore, -⟩ := out.addFd_index fd
  exact ⟨⟨more, by rw [hmore]⟩, PinosMessage.addFd_length⟩

theorem extends_marshal (msg : PinosMessage) (out : ConnectionBuffer) :
    Extends out (msg.marshal out).1 := by
  cases msg with
  | clientNodeNotifyDone readfd writefd =>
    exact (extends_addFd out readfd).trans (extends_addFd _ writefd)
  | clientNodeNotifyAddMem direction portId memId type memfd flags offset size =>
    exact extends_addFd out memfd
  | clientNodeNotifyTransport memfd offset size => exact extends_addFd out memfd
  | _ => exact .refl out

theorem extends_send (out : ConnectionBuffer) (msgs : List PinosMessage) :
    Extends out (send out msgs).1 := by
  induction msgs generalizing out with
  | nil => exact .refl out
  | cons msg msgs ih => exact (extends_marshal msg out).trans (ih _)

/-- An `add_mem` that arrives, with the descriptor that the client has for its own. -/
theorem receive_addMem {conn : ConnectionBuffer} (s : Stream) (k : Nat) (m : SentMem) :
    receive types conn s ⟨6, (Native.Server.clientNodeMarshalAddMem out direction portId (.ofNat k)
        m.type m.fd m.flags m.offset m.size).2⟩ =
      some (s.addMem (.ofNat k) (conn.getFd (Native.Server.fdIndex (out.addFd m.fd).2).toNat)
        m.flags m.offset m.size) := by
  rfl

/-- The memories of a stream that were added last. -/
def newMems (fds numbers : List Int) : Nat → List SentMem → List BufferTable.MemId
  | _, [] => []
  | k, m :: ms =>
    ⟨.ofNat k, number fds numbers m.fd, m.flags, none, m.offset, m.size⟩ ::
      newMems fds numbers (k + 1) ms

/-- What the messages about memories do: they replace those with the same ids. -/
theorem receive_addMems {s : Stream} {pre old : List BufferTable.MemId} {ms : List SentMem}
    (hmems : s.memIds = pre ++ old) (hnumbered : Stream.Numbered 0 s.memIds)
    (hsmall : s.memIds.length ≤ 2 ^ 31) (hids : pre.length + ms.length ≤ 2 ^ 31)
    (hfds : fds = (send out (addMems direction portId pre.length ms)).1.fds ++ more)
    (hmax : fds.length ≤ maxFds) (hlen : numbers.length ≤ maxFds) :
    (send out (addMems direction portId pre.length ms)).2.foldlM
        (receive types (inBuffer numbers)) s =
      some { s with
        memIds := pre ++ newMems fds numbers pre.length ms ++ old.drop ms.length
        files := Stream.closeAll s.files ((old.take ms.length).map (·.fd)) } := by
  induction ms generalizing s pre old out with
  | nil =>
    rw [List.length_nil, List.drop_zero, newMems, List.append_nil, ← hmems]
    rfl
  | cons m ms ih =>
    rw [List.length_cons] at hids
    obtain ⟨more', hmore⟩ :=
      (extends_send (out.addFd m.fd).1 (addMems direction portId (pre.length + 1) ms)).grows
    have hhead := @getFd_number _ _ numbers _ m.fd
      (by rw [hfds, ← List.append_assoc, ← hmore]; rfl) hmax hlen
    have hadd := @Stream.addMem_next _ _ _ hmems hnumbered (by omega) (by omega)
      (number fds numbers m.fd) m.flags m.offset m.size
    rw [addMems, send_cons, List.foldlM_cons]
    show (receive types (inBuffer numbers) s ⟨6, (Native.Server.clientNodeMarshalAddMem out direction
      portId _ m.type m.fd m.flags m.offset m.size).2⟩).bind _ = _
    rw [receive_addMem, hhead, hadd, Option.bind_some]
    obtain ⟨mem, hmem⟩ : ∃ mem : BufferTable.MemId, mem =
      ⟨.ofNat pre.length, number fds numbers m.fd, m.flags, none, m.offset, m.size⟩ := ⟨_, rfl⟩
    obtain ⟨hpre, hold⟩ := (hmems ▸ hnumbered).split
    rw [Nat.zero_add] at hold
    have hlength : (pre ++ [mem]).length = pre.length + 1 := by
      rw [List.length_append, List.length_singleton]
    rw [hmems, List.length_append] at hsmall
    have htail : Stream.Numbered (pre.length + 1) old.tail ∧ old.tail.length ≤ old.length := by
      cases old with
      | nil => exact ⟨trivial, Nat.le_refl _⟩
      | cons first old => exact ⟨hold.2, Nat.le_succ _⟩
    have hnext := @ih (out.addFd m.fd).1
      { s with
        memIds := pre ++ mem :: old.tail
        files := Stream.closeAll s.files (old.head?.toList.map (·.fd)) }
      (pre ++ [mem]) old.tail (List.append_cons ..)
      (hpre.append (by rw [hmem, Nat.zero_add]; exact ⟨rfl, htail.1⟩))
      (by
        show (pre ++ mem :: old.tail).length ≤ _
        rw [List.length_append, List.length_cons]
        cases old with
        | nil =>
          rw [List.tail_nil, List.length_nil]
          omega
        | cons first old =>
          rw [List.length_cons] at hsmall
          rw [List.tail_cons]
          omega)
      (by omega) (by rw [hlength]; exact hfds)
    rw [hlength] at hnext
    rw [← hmem]
    refine hnext.trans ?_
    rw [newMems, ← hmem]
    cases old with
    | nil => simp [Stream.closeAll]
    | cons first old => simp [Stream.closeAll]

theorem newMems_append (k : Nat) (ms ms' : List SentMem) :
    newMems fds numbers k (ms ++ ms') =
      newMems fds numbers k ms ++ newMems fds numbers (k + ms.length) ms' := by
  induction ms generalizing k with
  | nil => rfl
  | cons m ms ih =>
    show _ :: newMems fds numbers (k + 1) (ms ++ ms') = _ :: (_ ++ _)
    rw [ih, List.length_cons, Nat.add_right_comm, Nat.add_assoc k]

theorem length_newMems (k : Nat) (ms : List SentMem) :
    (newMems fds numbers k ms).length = ms.length := by
  induction ms generalizing k with
  | nil => rfl
  | cons m ms ih => exact congrArg (· + 1) (ih _)

theorem numbered_newMems (k : Nat) (ms : List SentMem) :
    Stream.Numbered k (newMems fds numbers k ms) := by
  induction ms generalizing k with
  | nil => trivial
  | cons m ms ih => exact ⟨rfl, ih _⟩

theorem getElem?_newMems (k : Nat) (ms : List SentMem) (j : Nat) :
    (newMems fds numbers k ms)[j]? = ms[j]?.map fun m =>
      ⟨.ofNat (k + j), number fds numbers m.fd, m.flags, none, m.offset, m.size⟩ := by
  induction ms generalizing k j with
  | nil => rfl
  | cons m ms ih =>
    cases j with
    | zero => rfl
    | succ j =>
      show (newMems fds numbers (k + 1) ms)[j]? = ms[j]?.map _
      rw [ih, Nat.add_right_comm, Nat.add_assoc]

/-- The datas of a buffer as the stream gets them. -/
def seenDatas (types : BufferTypes) (fds numbers : List Int) (bufPtr : MapPtr) :
    Nat → List PortBuffers.SpaData → List BufferTable.SpaData
  | _, [] => []
  | chunk, d :: ds =>
    ⟨types.dataMemFd, d.flags, .value 0, some (number fds numbers d.fd), d.mapoffset, d.maxsize,
        bufPtr.add chunk⟩ ::
      seenDatas types fds numbers bufPtr (chunk + BufferTable.Stream.sizeofChunk) ds

/-- Datas whose memories are found. -/
theorem useDatas_sent {mems : List BufferTable.MemId} {bufPtr : MapPtr}
    {ds : List PortBuffers.SpaData} {k : Nat}
    (h : ∀ j (hj : j < ds.length), ∃ mid, Stream.findMem mems (.ofNat (k + j)) = some mid ∧
      mid.fd = number fds numbers ds[j].fd) (chunk : Nat) :
    Stream.useDatas (clientTypes types) mems bufPtr chunk (PortBuffers.sentDatas types k ds) =
      some (seenDatas types fds numbers bufPtr chunk ds) := by
  induction ds generalizing k chunk with
  | nil => rfl
  | cons d ds ih =>
    obtain ⟨mid, hfind, hfd⟩ := h 0 (Nat.zero_lt_succ _)
    have hrest := ih (k := k + 1) (fun j hj => by
      obtain ⟨mid, hfind, hfd⟩ := h (j + 1) (Nat.succ_lt_succ hj)
      rw [← Nat.add_assoc, Nat.add_right_comm] at hfind
      exact ⟨mid, hfind, hfd⟩) (chunk + Stream.sizeofChunk)
    have hdata : Stream.useData (clientTypes types) mems bufPtr chunk
        ⟨types.dataId, d.flags, d.mapoffset, d.maxsize, (UInt32.ofNat k).toUInt64⟩ =
        some ⟨types.dataMemFd, d.flags, .value 0, some (number fds numbers d.fd), d.mapoffset,
          d.maxsize, bufPtr.add chunk⟩ := by
      have hid : (UInt32.ofNat k).toUInt64.toUInt32 = .ofNat k := UInt32.toUInt32_toUInt64 _
      have hnum : mid.fd = number fds numbers d.fd := hfd
      unfold Stream.useData
      dsimp only
      rw [if_pos (show types.dataId = (clientTypes types).id from rfl), hid]
      rw [show UInt32.ofNat k = .ofNat (k + 0) from rfl, hfind, Option.map_some, hnum]
      rfl
    rw [PortBuffers.sentDatas, Stream.useDatas, hdata, hrest]
    rfl

/-- The entry of the table for a buffer whose memory has the id `k`, if it can be mapped. -/
def entry (types : BufferTypes) (fds numbers : List Int) (files : Int → Option Int)
    (kb : Nat × SpaBuffer) : Option BufferTable.BufferId :=
  let m := kb.2.mem types
  (Stream.mapped files
      ⟨.ofNat kb.1, number fds numbers m.fd, m.flags, none, m.offset, m.size⟩).map fun mapped =>
    let bufPtr := mapped.2.add 0
    let metas := kb.2.metas.items.map fun m => ⟨m.type, m.size⟩
    ⟨kb.2.id, bufPtr, Stream.placeMetas bufPtr 0 metas,
      seenDatas types fds numbers bufPtr (Stream.metaSize metas) kb.2.datas.items⟩

theorem mapped_id {files : Int → Option Int} {mem mid : BufferTable.MemId} {ptr : MapPtr}
    (h : Stream.mapped files mem = some (mid, ptr)) : mid.id = mem.id := by
  unfold Stream.mapped at h
  split at h
  · cases h
    rfl
  · dsimp only at h
    split at h
    · cases h
    · obtain ⟨file, -, heq⟩ := Option.map_eq_some_iff.mp h
      cases heq
      rfl

/-- One turn of the loop over the buffers. -/
theorem useBuffer_sent {s : Stream} {done rest : List BufferTable.MemId} {k : Nat} {b : SpaBuffer}
    (hmems : s.memIds = done ++ newMems fds numbers k (b.mems types) ++ rest) (hk : done.length = k)
    (hnumbered : Stream.Numbered 0 s.memIds) (hsmall : s.memIds.length ≤ 2 ^ 31) :
    ∃ done', done'.length = k + 1 + b.datas.items.length ∧
      Stream.Numbered 0 (done' ++ rest) ∧
      s.useBuffer (clientTypes types) (PortBuffers.sentShared types (k, b)) =
        some { s with
          memIds := done' ++ rest
          bufferIds := s.bufferIds ++ (entry types fds numbers s.files (k, b)).toList } := by
  obtain ⟨mem, hmem⟩ : ∃ mem : BufferTable.MemId, mem =
    ⟨.ofNat k, number fds numbers (b.mem types).fd, (b.mem types).flags, none,
      (b.mem types).offset, (b.mem types).size⟩ := ⟨_, rfl⟩
  obtain ⟨datas, hdatas⟩ : ∃ datas, datas =
    newMems fds numbers (k + 1) (b.datas.items.map PortBuffers.SpaData.mem) := ⟨_, rfl⟩
  have hlength : datas.length = b.datas.items.length := by
    rw [hdatas, length_newMems, List.length_map]
  have hsplit : newMems fds numbers k (b.mems types) = mem :: datas := by
    rw [hmem, hdatas]
    rfl
  rw [hsplit] at hmems
  rw [hmems] at hnumbered hsmall
  rw [List.length_append, List.length_append, List.length_cons] at hsmall
  have hplace : ∀ m : BufferTable.MemId, (done ++ m :: datas ++ rest)[k]? = some m := fun m => by
    rw [List.append_assoc, List.getElem?_append_right (Nat.le_of_eq hk), hk, Nat.sub_self]
    rfl
  have hfind : Stream.findMem s.memIds (.ofNat k) = some mem := by
    rw [hmems, Stream.findMem_numbered hnumbered (by simp; omega) (by omega),
      if_pos (Nat.zero_le _), Nat.sub_zero]
    exact hplace mem
  unfold Stream.useBuffer
  rw [show (PortBuffers.sentShared types (k, b)).memId = .ofNat k from rfl, hfind, Option.bind_some]
  dsimp only [entry]
  rw [← hmem]
  cases hmapped : Stream.mapped s.files mem with
  | none =>
    refine ⟨done ++ mem :: datas, ?_, hnumbered, ?_⟩
    · rw [List.length_append, List.length_cons, hlength, hk]
      omega
    · rw [← hmems, Option.map_none, Option.toList_none, List.append_nil]
  | some mapping =>
    obtain ⟨mid, ptr⟩ := mapping
    have hmid : mid.id = .ofNat k := by
      rw [mapped_id hmapped, hmem]
    have hset : Stream.setMem s.memIds mid = done ++ mid :: datas ++ rest := by
      rw [hmems, Stream.setMem_numbered hnumbered (by simp; omega) (by omega) hmid (Nat.zero_le _),
        Nat.sub_zero, List.append_assoc, List.set_append_right _ _ (Nat.le_of_eq hk), hk,
        Nat.sub_self, List.append_assoc]
      rfl
    have hnumbered' : Stream.Numbered 0 (done ++ mid :: datas ++ rest) := by
      have hkept := @Stream.Numbered.set _ mid _ k hnumbered (by rw [hmid, Nat.zero_add])
      rwa [List.append_assoc, List.set_append_right _ _ (Nat.le_of_eq hk), hk, Nat.sub_self,
        List.cons_append, List.set_cons_zero, ← List.cons_append, ← List.append_assoc] at hkept
    refine ⟨done ++ mid :: datas, ?_, hnumbered', ?_⟩
    · rw [List.length_append, List.length_cons, hlength, hk]
      omega
    · have hfound : ∀ j (hj : j < b.datas.items.length), ∃ mid',
          Stream.findMem (done ++ mid :: datas ++ rest) (.ofNat (k + 1 + j)) = some mid' ∧
          mid'.fd = number fds numbers b.datas.items[j].fd := fun j hj => by
        refine ⟨⟨.ofNat (k + 1 + j), number fds numbers b.datas.items[j].fd, b.datas.items[j].flags,
          none, b.datas.items[j].mapoffset, b.datas.items[j].maxsize⟩, ?_, rfl⟩
        rw [Stream.findMem_numbered hnumbered' (by simp; omega) (by omega), if_pos (Nat.zero_le _),
          Nat.sub_zero, List.append_assoc, List.getElem?_append_right (by omega), hk,
          show k + 1 + j - k = j + 1 by omega, List.cons_append, List.getElem?_cons_succ,
          List.getElem?_append_left (by omega), hdatas, getElem?_newMems, List.getElem?_map,
          List.getElem?_eq_getElem hj]
        rfl
      dsimp only
      rw [hset]
      show Option.map _ (Stream.useDatas _ _ _ _ (PortBuffers.sentDatas types (k + 1) _)) = _
      rw [useDatas_sent hfound]
      rfl

/-- The loop over the buffers: those that are mapped are in the table. -/
theorem useBuffers_sent {s : Stream} {done rest : List BufferTable.MemId} {k : Nat}
    {bs : List SpaBuffer}
    (hmems : s.memIds = done ++ newMems fds numbers k (bs.flatMap (SpaBuffer.mems types)) ++ rest)
    (hk : done.length = k) (hnumbered : Stream.Numbered 0 s.memIds)
    (hsmall : s.memIds.length ≤ 2 ^ 31) :
    ∃ memIds, memIds.length = s.memIds.length ∧ Stream.Numbered 0 memIds ∧
      ((PortBuffers.numbered k bs).map (PortBuffers.sentShared types)).foldlM
          (Stream.useBuffer (clientTypes types)) s =
        some { s with
          memIds
          bufferIds := s.bufferIds ++
            (PortBuffers.numbered k bs).filterMap (entry types fds numbers s.files) } := by
  induction bs generalizing s done k with
  | nil => exact ⟨s.memIds, rfl, hnumbered, by rw [PortBuffers.numbered]; simp⟩
  | cons b bs ih =>
    have hlength : (b.mems types).length = 1 + b.datas.items.length := by
      rw [SpaBuffer.mems, List.length_cons, List.length_map, Nat.add_comm]
    rw [List.flatMap_cons, newMems_append, hlength, ← Nat.add_assoc, ← List.append_assoc,
      List.append_assoc _ _ rest] at hmems
    obtain ⟨done', hdone, hnumbered', hturn⟩ := useBuffer_sent hmems hk hnumbered hsmall
    have hsame : (done' ++ (newMems fds numbers (k + 1 + b.datas.items.length)
        (bs.flatMap (SpaBuffer.mems types)) ++ rest)).length = s.memIds.length := by
      have hfront : done'.length = (done ++ newMems fds numbers k (b.mems types)).length := by
        rw [hdone, List.length_append, hk, length_newMems, hlength, Nat.add_assoc]
      rw [hmems, List.length_append, hfront, ← List.length_append]
    obtain ⟨memIds, hcount, hnext, hloop⟩ := ih
      (s := { s with
        memIds := done' ++ (newMems fds numbers (k + 1 + b.datas.items.length)
          (bs.flatMap (SpaBuffer.mems types)) ++ rest)
        bufferIds := s.bufferIds ++ (entry types fds numbers s.files (k, b)).toList })
      (List.append_assoc ..).symm hdone hnumbered' (by rw [hsame]; exact hsmall)
    refine ⟨memIds, hcount.trans hsame, hnext, ?_⟩
    rw [PortBuffers.numbered, List.map_cons, List.foldlM_cons, hturn]
    refine hloop.trans ?_
    rw [List.filterMap_cons, List.append_assoc]
    cases entry types fds numbers s.files (k, b) with
    | none => rfl
    | some e => rfl

end Transport

end SharedBuffers
end Pinos

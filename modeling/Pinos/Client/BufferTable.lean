import Mathlib.Data.List.Basic
import Mathlib.Logic.Function.Basic
import Pinos.Client.Interfaces

/-
`client/stream.c`: the memories and buffers of a stream, with what is mapped.

A pointer into mapped memory says of which file the mapping is, how much of it is mapped, and
where it points to.  A descriptor leads to a file while it is open.
-/

namespace Pinos
namespace BufferTable

/-- The types that `client_node_use_buffers` asks for. -/
structure DataTypes where
  memPtr : UInt32
  memFd : UInt32
  id : UInt32

structure MapPtr where
  file : Int
  length : Nat
  offset : Int

def MapPtr.add (p : MapPtr) (n : Int) : MapPtr := { p with offset := p.offset + n }

structure MemId where
  id : UInt32
  fd : Int
  flags : UInt32
  ptr : Option MapPtr
  offset : UInt32
  size : UInt32

structure SpaMeta where
  type : UInt32
  data : MapPtr
  size : UInt32

/-- The pointer of a data: into a mapping, or what came with the message. -/
inductive DataPtr
  | mapped (p : MapPtr)
  | value (n : UInt64)

/-- A data; `fd` is none where nothing has set it. -/
structure SpaData where
  type : UInt32
  flags : UInt32
  data : DataPtr
  fd : Option Int
  mapoffset : UInt32
  maxsize : UInt32
  chunk : MapPtr

structure BufferId where
  id : UInt32
  bufPtr : MapPtr
  metas : List SpaMeta
  datas : List SpaData

/-- A stream, and the files of the descriptors that it was sent and that are open. -/
structure Stream where
  memIds : List MemId
  bufferIds : List BufferId
  files : Int → Option Int

namespace Stream

def new : Stream := ⟨[], [], fun _ => none⟩

def findMem (mems : List MemId) (id : UInt32) : Option MemId := mems.find? (·.id = id)

/-- Replace the memory with the id of `mem`. -/
def setMem (mems : List MemId) (mem : MemId) : List MemId :=
  mems.replaceF fun m => if m.id = mem.id then some mem else none

def close (s : Stream) (fd : Int) : Stream := { s with files := Function.update s.files fd none }

/-- `clear_mems`. -/
def clearMems (s : Stream) : Stream :=
  { s.memIds.foldl (fun s m => s.close m.fd) s with memIds := [] }

/-- `client_node_add_mem`. -/
def addMem (s : Stream) (memId : UInt32) (memfd : Int) (flags offset size : UInt32) : Stream :=
  let mem : MemId := ⟨memId, memfd, flags, none, offset, size⟩
  match findMem s.memIds memId with
  | some m => { s.close m.fd with memIds := setMem s.memIds mem }
  | none => { s with memIds := s.memIds ++ [mem] }

/-- A memory with its mapping.  There is none of a descriptor that is not open, nor of no
bytes. -/
def mapped (files : Int → Option Int) (mid : MemId) : Option (MemId × MapPtr) :=
  match mid.ptr with
  | some ptr => some (mid, ptr)
  | none =>
    let length := mid.size + mid.offset
    if length = 0 then none
    else
      (files mid.fd).map fun file =>
        let ptr : MapPtr := ⟨file, length.toNat, mid.offset.toNat⟩
        ({ mid with ptr := some ptr }, ptr)

/-- Metas from `offset` on, each behind the one before. -/
def placeMetas (bufPtr : MapPtr) : Nat → List Native.SpaMeta → List SpaMeta
  | _, [] => []
  | offset, m :: ms =>
    ⟨m.type, bufPtr.add offset, m.size⟩ :: placeMetas bufPtr (offset + m.size.toNat) ms

def sizeofChunk : Nat := 12

/-- A data of a buffer with its chunk; none when its memory is not found. -/
def useData (types : DataTypes) (mems : List MemId) (bufPtr : MapPtr) (chunk : Nat)
    (d : Native.SpaData) : Option SpaData :=
  let chunk := bufPtr.add chunk
  if d.type = types.id then
    (findMem mems d.data.toUInt32).map fun bmid =>
      ⟨types.memFd, d.flags, .value 0, some bmid.fd, d.mapoffset, d.maxsize, chunk⟩
  else if d.type = types.memPtr then
    some ⟨d.type, d.flags, .mapped (bufPtr.add d.data.toUInt32.toInt32.toInt), some (-1),
      d.mapoffset, d.maxsize, chunk⟩
  else some ⟨d.type, d.flags, .value d.data, none, d.mapoffset, d.maxsize, chunk⟩

/-- The datas, whose chunks are one behind the other. -/
def useDatas (types : DataTypes) (mems : List MemId) (bufPtr : MapPtr) :
    Nat → List Native.SpaData → Option (List SpaData)
  | _, [] => some []
  | chunk, d :: ds => do
    let d ← useData types mems bufPtr chunk d
    let ds ← useDatas types mems bufPtr (chunk + sizeofChunk) ds
    some (d :: ds)

def metaSize (ms : List Native.SpaMeta) : Nat := (ms.map fun m => m.size.toNat).sum

/-- One turn of the loop over the buffers; none if it reads through a null pointer. -/
def useBuffer (types : DataTypes) (s : Stream) (b : Native.PinosClientNodeBuffer) : Option Stream :=
  match (findMem s.memIds b.memId).bind (mapped s.files) with
  | none => some s
  | some (mid, ptr) =>
    let mems := setMem s.memIds mid
    let bufPtr := ptr.add b.offset.toNat
    let metas := b.buffer.metas.items
    (useDatas types mems bufPtr (metaSize metas) b.buffer.datas.items).map fun datas =>
      { s with
        memIds := mems
        bufferIds := s.bufferIds ++ [⟨b.buffer.id, bufPtr, placeMetas bufPtr 0 metas, datas⟩] }

/-- `client_node_use_buffers`. -/
def useBuffers (types : DataTypes) (s : Stream) (buffers : Counted Native.PinosClientNodeBuffer) :
    Option Stream :=
  (buffers.items.foldlM (useBuffer types) { s with bufferIds := [] }).map fun s =>
    if buffers.items = [] then s.clearMems else s

/-- The events of the client node that are about memories and buffers. -/
def handle (types : DataTypes) (s : Stream) : Native.PinosMessage → Option Stream
  | .clientNodeNotifyAddMem _ _ memId _ memfd flags offset size =>
    some (s.addMem memId memfd flags offset size)
  | .clientNodeNotifyUseBuffers _ _ _ buffers => s.useBuffers types buffers
  | _ => some s

/-! ## Memories by their ids -/

/-- The ids of memories count up from `k`. -/
def Numbered : Nat → List MemId → Prop
  | _, [] => True
  | k, m :: ms => m.id = .ofNat k ∧ Numbered (k + 1) ms

theorem ofNat_inj {k n : Nat} (hk : k < 2 ^ 32) (hn : n < 2 ^ 32) :
    UInt32.ofNat k = .ofNat n ↔ k = n := by
  rw [← UInt32.toNat_inj, UInt32.toNat_ofNat_of_lt' hk, UInt32.toNat_ofNat_of_lt' hn]

theorem findMem_numbered {ms : List MemId} {k n : Nat} (h : Numbered k ms)
    (hsmall : k + ms.length ≤ 2 ^ 32) (hn : n < 2 ^ 32) :
    findMem ms (.ofNat n) = if k ≤ n then ms[n - k]? else none := by
  induction ms generalizing k with
  | nil => split <;> rfl
  | cons m ms ih =>
    obtain ⟨hid, hrest⟩ := h
    rw [List.length_cons] at hsmall
    have hnext := ih hrest (by omega)
    rw [findMem] at hnext ⊢
    rw [List.find?_cons, hnext, hid]
    by_cases heq : k = n
    · subst heq
      rw [decide_eq_true rfl, if_pos (Nat.le_refl k), Nat.sub_self]
      rfl
    · rw [decide_eq_false fun h => heq ((ofNat_inj (by omega) hn).mp h)]
      by_cases hle : k ≤ n
      · obtain ⟨d, rfl⟩ : ∃ d, n = k + 1 + d := ⟨n - (k + 1), by omega⟩
        rw [if_pos hle, if_pos (by omega), Nat.add_sub_cancel_left,
          show k + 1 + d - k = d + 1 by omega]
        rfl
      · rw [if_neg hle, if_neg (by omega)]

theorem setMem_numbered {ms : List MemId} {mem : MemId} {k n : Nat} (h : Numbered k ms)
    (hsmall : k + ms.length ≤ 2 ^ 32) (hn : n < 2 ^ 32) (hmem : mem.id = .ofNat n) (hle : k ≤ n) :
    setMem ms mem = ms.set (n - k) mem := by
  induction ms generalizing k with
  | nil => rfl
  | cons m ms ih =>
    obtain ⟨hid, hrest⟩ := h
    rw [List.length_cons] at hsmall
    rw [setMem, List.replaceF, hid, hmem]
    by_cases heq : k = n
    · subst heq
      rw [if_pos rfl, Nat.sub_self]
      rfl
    · have hnext := ih hrest (by omega) (by omega)
      rw [setMem, hmem] at hnext
      rw [if_neg fun h => heq ((ofNat_inj (by omega) hn).mp h)]
      obtain ⟨d, rfl⟩ : ∃ d, n = k + 1 + d := ⟨n - (k + 1), by omega⟩
      rw [Nat.add_sub_cancel_left] at hnext
      rw [show k + 1 + d - k = d + 1 by omega, List.set_cons_succ]
      exact congrArg (m :: ·) hnext

theorem Numbered.append {ms ms' : List MemId} {k : Nat} (h : Numbered k ms)
    (h' : Numbered (k + ms.length) ms') : Numbered k (ms ++ ms') := by
  induction ms generalizing k with
  | nil => exact h'
  | cons m ms ih =>
    rw [List.length_cons, Nat.add_comm ms.length, ← Nat.add_assoc] at h'
    exact ⟨h.1, ih h.2 h'⟩

theorem Numbered.split {ms ms' : List MemId} {k : Nat} (h : Numbered k (ms ++ ms')) :
    Numbered k ms ∧ Numbered (k + ms.length) ms' := by
  induction ms generalizing k with
  | nil => exact ⟨trivial, h⟩
  | cons m ms ih =>
    obtain ⟨hrest, htail⟩ := ih h.2
    rw [List.length_cons, Nat.add_comm ms.length, ← Nat.add_assoc]
    exact ⟨⟨h.1, hrest⟩, htail⟩

theorem Numbered.set {ms : List MemId} {mem : MemId} {k n : Nat} (h : Numbered k ms)
    (hmem : mem.id = .ofNat (k + n)) : Numbered k (ms.set n mem) := by
  induction ms generalizing k n with
  | nil => trivial
  | cons m ms ih =>
    cases n with
    | zero => exact ⟨hmem, h.2⟩
    | succ n => exact ⟨h.1, ih h.2 (by rw [hmem, Nat.add_right_comm, Nat.add_assoc])⟩

/-- Descriptors that are closed. -/
def closeAll (files : Int → Option Int) (fds : List Int) : Int → Option Int :=
  fds.foldl (fun files fd => Function.update files fd none) files

theorem closeAll_apply {files : Int → Option Int} {fds : List Int} {fd : Int} :
    closeAll files fds fd = if fd ∈ fds then none else files fd := by
  induction fds generalizing files with
  | nil => rfl
  | cons c fds ih =>
    show closeAll (Function.update files c none) fds fd = _
    rw [ih]
    by_cases hmem : fd ∈ fds
    · rw [if_pos hmem, if_pos (List.mem_cons_of_mem c hmem)]
    · rw [if_neg hmem]
      by_cases heq : fd = c
      · rw [heq, Function.update_self, if_pos List.mem_cons_self]
      · rw [Function.update_of_ne heq, if_neg]
        rintro (_ | ⟨_, h⟩)
        · exact heq rfl
        · exact hmem h

theorem clearMems_eq (s : Stream) :
    s.clearMems = { s with memIds := [], files := closeAll s.files (s.memIds.map (·.fd)) } := by
  have hclose : ∀ (ms : List MemId) (s : Stream), ms.foldl (fun s m => s.close m.fd) s =
      { s with files := closeAll s.files (ms.map (·.fd)) } := by
    intro ms
    induction ms with
    | nil => exact fun s => rfl
    | cons m ms ih => exact fun s => ih (s.close m.fd)
  rw [clearMems, hclose]

/-- A memory is added under the next id: it replaces the one with that id, whose descriptor is
closed. -/
theorem addMem_next {s : Stream} {pre old : List MemId} (hmems : s.memIds = pre ++ old)
    (h : Numbered 0 s.memIds) (hsmall : s.memIds.length ≤ 2 ^ 32) (hpre : pre.length < 2 ^ 32)
    {memfd : Int} {flags offset size : UInt32} :
    s.addMem (.ofNat pre.length) memfd flags offset size =
      { s with
        memIds := pre ++ ⟨.ofNat pre.length, memfd, flags, none, offset, size⟩ :: old.tail
        files := closeAll s.files (old.head?.toList.map (·.fd)) } := by
  have hfind := findMem_numbered (n := pre.length) h (by omega) hpre
  rw [if_pos (Nat.zero_le _), hmems, Nat.sub_zero, List.getElem?_append_right (Nat.le_refl _),
    Nat.sub_self] at hfind
  unfold addMem
  dsimp only
  rw [hmems, hfind]
  cases old with
  | nil =>
    rw [List.append_nil]
    rfl
  | cons m old =>
    have hset := @setMem_numbered _
      ⟨.ofNat pre.length, memfd, flags, none, offset, size⟩ _ pre.length h (by omega) hpre rfl
      (Nat.zero_le _)
    rw [hmems, Nat.sub_zero, List.set_append_right _ _ (Nat.le_refl _), Nat.sub_self] at hset
    dsimp only [List.getElem?_cons_zero]
    rw [hset]
    rfl

end Stream
end BufferTable
end Pinos

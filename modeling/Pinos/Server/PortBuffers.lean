import Pinos.Client.Interfaces
import Pinos.Spa.Defs

/-
Buffers from `alloc_buffers` of `server/link.c` to the messages that
`spa_proxy_node_port_use_buffers` of `server/client-node.c` sends about them.

A pointer into the block of the buffers is an offset into its memory.
-/

namespace Pinos
namespace PortBuffers

open Native (PinosMessage)

/-- What the type map gives for the metadata and the data of buffers. -/
structure BufferTypes where
  metaShared : UInt32
  dataMemPtr : UInt32
  dataMemFd : UInt32
  dataDmaBuf : UInt32
  dataId : UInt32

structure SpaMeta where
  type : UInt32
  data : Nat
  size : UInt32

structure SpaData where
  type : UInt32
  flags : UInt32
  fd : Int
  mapoffset : UInt32
  maxsize : UInt32
  chunk : Nat

structure SpaMetaShared where
  flags : Int32
  fd : Int
  offset : Int32
  size : UInt32

/-- `shared` is what is in the memory of the first meta with the type `Shared`. -/
structure SpaBuffer where
  id : UInt32
  metas : Counted SpaMeta
  datas : Counted SpaData
  shared : SpaMetaShared

def sizeofMetaShared : UInt32 := 16

def sizeofChunk : Nat := 12

/-! ## `alloc_buffers` -/

/-- What the parameters and the caller of `alloc_buffers` ask for: the metas that are enabled and
the sizes of the datas. -/
structure BufferLayout where
  enabled : List Native.SpaMeta
  dataSizes : List Nat
  few_enabled : enabled.length ≤ 3
  few_datas : dataSizes.length ≤ 4

/-- Metas from `p` on, each behind the one before. -/
def placeMetas : Nat → List Native.SpaMeta → List SpaMeta
  | _, [] => []
  | p, m :: ms => ⟨m.type, p, m.size⟩ :: placeMetas (p + m.size.toNat) ms

/-- Chunks from `cdp` on and the memory of the datas from `ddp` on.  A data without a size stays
as `calloc` made it, but for its type. -/
def placeDatas (types : BufferTypes) (fd : Int) : Nat → Nat → List Nat → List SpaData
  | _, _, [] => []
  | cdp, ddp, size :: sizes =>
    { type := if 0 < size then types.dataMemFd else spaIdInvalid
      flags := 0
      fd := if 0 < size then fd else 0
      mapoffset := if 0 < size then .ofNat ddp else 0
      maxsize := .ofNat size
      chunk := cdp } :: placeDatas types fd (cdp + sizeofChunk) (ddp + size) sizes

theorem length_placeMetas (p : Nat) (ms : List Native.SpaMeta) :
    (placeMetas p ms).length = ms.length := by
  induction ms generalizing p with
  | nil => rfl
  | cons m ms ih => exact congrArg (· + 1) (ih _)

theorem length_placeDatas {types : BufferTypes} {fd : Int} (cdp ddp : Nat) (sizes : List Nat) :
    (placeDatas types fd cdp ddp sizes).length = sizes.length := by
  induction sizes generalizing cdp ddp with
  | nil => rfl
  | cons size sizes ih => exact congrArg (· + 1) (ih _ _)

namespace BufferLayout

/-- The shared metadata comes first. -/
def metas (layout : BufferLayout) (types : BufferTypes) : List Native.SpaMeta :=
  ⟨types.metaShared, sizeofMetaShared⟩ :: layout.enabled

def metaSize (layout : BufferLayout) (types : BufferTypes) : Nat :=
  ((layout.metas types).map fun m => m.size.toNat).sum

/-- The size of the metas and the chunks. -/
def headerSize (layout : BufferLayout) (types : BufferTypes) : Nat :=
  layout.metaSize types + sizeofChunk * layout.dataSizes.length

def dataSize (layout : BufferLayout) (types : BufferTypes) : Nat :=
  layout.headerSize types + layout.dataSizes.sum

/-- Buffer `i` in the block with the descriptor `fd`. -/
def buffer (layout : BufferLayout) (types : BufferTypes) (fd : Int) (i : Nat) : SpaBuffer :=
  let p := layout.dataSize types * i
  { id := .ofNat i
    metas := ⟨placeMetas p (layout.metas types), by
      have hfew := layout.few_enabled
      rw [length_placeMetas, metas, List.length_cons]
      omega⟩
    datas := ⟨placeDatas types fd (p + layout.metaSize types) (p + layout.headerSize types)
        layout.dataSizes, by
      have hfew := layout.few_datas
      rw [length_placeDatas]
      omega⟩
    shared :=
      { flags := 0, fd, offset := .ofNat p, size := .ofNat (layout.dataSize types) } }

end BufferLayout

/-- What a node that allocates buffers writes to a data of a buffer. -/
structure NodeData where
  type : UInt32
  flags : UInt32
  fd : Int
  mapoffset : UInt32
  maxsize : UInt32

def SpaData.filled (d : SpaData) : Option NodeData → SpaData
  | none => d
  | some n =>
    { d with type := n.type, flags := n.flags, fd := n.fd, mapoffset := n.mapoffset, maxsize := n.maxsize }

/-- Buffers laid out by `alloc_buffers`, with the datas that a node has written to. -/
structure Request where
  layout : BufferLayout
  nBuffers : UInt32
  memFd : Int
  nodeData : Nat → Nat → Option NodeData

def Request.buffer (r : Request) (types : BufferTypes) (i : Nat) : SpaBuffer :=
  let b := r.layout.buffer types r.memFd i
  { b with
    datas := ⟨b.datas.items.mapIdx fun j d => d.filled (r.nodeData i j), by
      rw [List.length_mapIdx]
      exact b.datas.small⟩ }

def Request.buffers (r : Request) (types : BufferTypes) : Counted SpaBuffer :=
  ⟨(List.range r.nBuffers.toNat).map (r.buffer types), by
    rw [List.length_map, List.length_range]
    exact r.nBuffers.toNat_lt⟩

/-! ## `spa_proxy_node_port_use_buffers` -/

/-- The loop over the datas of a buffer, with the next memory id and `size` of the buffer. -/
def useDatas (types : BufferTypes) (direction portId : UInt32) :
    UInt32 → UInt64 → List SpaData → List PinosMessage × List Native.SpaData × UInt64
  | _, size, [] => ([], [], size)
  | nMem, size, d :: ds =>
    if d.type = types.dataDmaBuf ∨ d.type = types.dataMemFd then
      let (messages, datas, size) := useDatas types direction portId (nMem + 1) size ds
      (.clientNodeNotifyAddMem direction portId nMem d.type d.fd d.flags d.mapoffset d.maxsize ::
          messages,
        ⟨types.dataId, d.flags, d.mapoffset, d.maxsize, nMem.toUInt64⟩ :: datas, size)
    else if d.type = types.dataMemPtr then
      let (messages, datas, size') :=
        useDatas types direction portId nMem (size + d.maxsize.toUInt64) ds
      (messages, ⟨d.type, d.flags, d.mapoffset, d.maxsize, size⟩ :: datas, size')
    else
      let (messages, datas, size) := useDatas types direction portId nMem size ds
      (messages, ⟨spaIdInvalid, d.flags, d.mapoffset, d.maxsize, 0⟩ :: datas, size)

/-- The memories that are sent for datas. -/
def memsOf (types : BufferTypes) (ds : List SpaData) : UInt32 :=
  .ofNat (ds.countP fun d => d.type = types.dataDmaBuf ∨ d.type = types.dataMemFd)

theorem length_useDatas {types : BufferTypes} {direction portId : UInt32} (nMem : UInt32)
    (size : UInt64) (ds : List SpaData) :
    (useDatas types direction portId nMem size ds).2.1.length = ds.length := by
  induction ds generalizing nMem size with
  | nil => rfl
  | cons d ds ih =>
    unfold useDatas
    split
    · exact congrArg (· + 1) (ih _ _)
    · split
      · exact congrArg (· + 1) (ih _ _)
      · exact congrArg (· + 1) (ih _ _)

/-- The buffer that is sent, whose memory has the id `memId`. -/
def sentBuffer (types : BufferTypes) (direction portId memId : UInt32) (size : UInt64)
    (b : SpaBuffer) : Native.PinosClientNodeBuffer where
  memId
  offset := 0
  size := b.shared.size
  buffer :=
    { id := b.id
      metas := b.metas.map fun m => ⟨m.type, m.size⟩
      datas := ⟨(useDatas types direction portId (memId + 1) size b.datas.items).2.1, by
        rw [length_useDatas]
        exact b.datas.small⟩ }

/-- The loop over the buffers: the messages, the buffers to send, and the `size` of the buffers of
the port behind it.  It ends early at a buffer without shared metadata. -/
def useBuffer (types : BufferTypes) (direction portId : UInt32) :
    UInt32 → (sizes : List UInt64) → List SpaBuffer →
      List PinosMessage × Option (List Native.PinosClientNodeBuffer) × List UInt64
  | _, sizes, [] => ([], some [], sizes)
  | nMem, sizes, b :: bs =>
    if b.metas.items.all (·.type ≠ types.metaShared) then ([], none, sizes)
    else
      let size := sizes.headD 0
      let (mems, _, size') := useDatas types direction portId (nMem + 1) size b.datas.items
      let (messages, buffers, sizes') :=
        useBuffer types direction portId (nMem + 1 + memsOf types b.datas.items) sizes.tail bs
      (.clientNodeNotifyAddMem direction portId nMem types.dataMemFd b.shared.fd
          b.shared.flags.toUInt32 b.shared.offset.toUInt32 b.shared.size :: mems ++ messages,
        buffers.map (sentBuffer types direction portId nMem size b :: ·), size' :: sizes')

theorem length_useBuffer {types : BufferTypes} {direction portId nMem : UInt32}
    {sizes : List UInt64} {bs : List SpaBuffer} {sent : List Native.PinosClientNodeBuffer}
    (h : (useBuffer types direction portId nMem sizes bs).2.1 = some sent) :
    sent.length = bs.length := by
  induction bs generalizing nMem sizes sent with
  | nil =>
    cases h
    rfl
  | cons b bs ih =>
    unfold useBuffer at h
    split at h
    · cases h
    · obtain ⟨rest, hrest, rfl⟩ := Option.map_eq_some_iff.mp h
      exact congrArg (· + 1) (ih hrest)

/-- The buffers that a port has. -/
def maxBuffers : Nat := 64

/-- `spa_proxy_node_port_use_buffers` for a port with a format, to a client that is there.  There
is no result when it writes behind the buffers of the port. -/
def useBuffers (types : BufferTypes) (seq direction portId : UInt32) (sizes : List UInt64)
    (buffers : Counted SpaBuffer) : Option (List PinosMessage × List UInt64) :=
  if maxBuffers < buffers.items.length then none
  else
    let result := useBuffer types direction portId 0 sizes buffers.items
    match h : result.2.1 with
    | none => some (result.1, result.2.2)
    | some sent =>
      some (result.1 ++
          [.clientNodeNotifyUseBuffers seq direction portId
            ⟨sent, by rw [length_useBuffer h]; exact buffers.small⟩],
        result.2.2)

/-! ## Buffers in shared memory -/

section Shared

variable {types : BufferTypes} {direction portId : UInt32}

/-- A memory as `add_mem` describes it. -/
structure SentMem where
  type : UInt32
  fd : Int
  flags : UInt32
  offset : UInt32
  size : UInt32

def SpaData.mem (d : SpaData) : SentMem := ⟨d.type, d.fd, d.flags, d.mapoffset, d.maxsize⟩

def SpaBuffer.mem (types : BufferTypes) (b : SpaBuffer) : SentMem :=
  ⟨types.dataMemFd, b.shared.fd, b.shared.flags.toUInt32, b.shared.offset.toUInt32, b.shared.size⟩

/-- The memories of a buffer, its own first. -/
def SpaBuffer.mems (types : BufferTypes) (b : SpaBuffer) : List SentMem :=
  b.mem types :: b.datas.items.map SpaData.mem

/-- `add_mem` for one memory after the other, from the id `k` on. -/
def addMems (direction portId : UInt32) : Nat → List SentMem → List PinosMessage
  | _, [] => []
  | k, m :: ms =>
    .clientNodeNotifyAddMem direction portId (.ofNat k) m.type m.fd m.flags m.offset m.size ::
      addMems direction portId (k + 1) ms

theorem addMems_append (k : Nat) (ms ms' : List SentMem) :
    addMems direction portId k (ms ++ ms') =
      addMems direction portId k ms ++ addMems direction portId (k + ms.length) ms' := by
  induction ms generalizing k with
  | nil => rfl
  | cons m ms ih =>
    show _ :: addMems _ _ _ (ms ++ ms') = _ :: (_ ++ _)
    rw [ih, List.length_cons, Nat.add_right_comm, Nat.add_assoc k]

/-- The datas are in the memories from the id `k` on. -/
def sentDatas (types : BufferTypes) : Nat → List SpaData → List Native.SpaData
  | _, [] => []
  | k, d :: ds =>
    ⟨types.dataId, d.flags, d.mapoffset, d.maxsize, (UInt32.ofNat k).toUInt64⟩ ::
      sentDatas types (k + 1) ds

def Shares (types : BufferTypes) (d : SpaData) : Prop :=
  d.type = types.dataDmaBuf ∨ d.type = types.dataMemFd

instance (types : BufferTypes) (d : SpaData) : Decidable (Shares types d) :=
  inferInstanceAs (Decidable (_ ∨ _))

theorem ofNat_succ (k : Nat) : UInt32.ofNat k + 1 = .ofNat (k + 1) := (UInt32.ofNat_add k 1).symm

theorem useDatas_shared {ds : List SpaData} (h : ∀ d ∈ ds, Shares types d) (k : Nat) (size : UInt64) :
    useDatas types direction portId (.ofNat k) size ds =
      (addMems direction portId k (ds.map SpaData.mem), sentDatas types k ds, size) := by
  induction ds generalizing k with
  | nil => rfl
  | cons d ds ih =>
    have hrest := ih (fun d' hmem => h d' (List.mem_cons_of_mem d hmem)) (k + 1)
    have hhead : d.type = types.dataDmaBuf ∨ d.type = types.dataMemFd := h d List.mem_cons_self
    rw [useDatas, if_pos hhead, ofNat_succ, hrest]
    rfl

/-- A buffer in shared memory. -/
structure SpaBuffer.Shared (types : BufferTypes) (b : SpaBuffer) : Prop where
  described : ∃ m ∈ b.metas.items, m.type = types.metaShared
  datas : ∀ d ∈ b.datas.items, Shares types d

theorem memsOf_shared {b : SpaBuffer} (h : b.Shared types) :
    memsOf types b.datas.items = .ofNat b.datas.items.length := by
  rw [memsOf, List.countP_eq_length.mpr]
  exact fun d hmem => decide_eq_true (h.datas d hmem)

/-- The buffers, each with the id of its own memory. -/
def numbered : Nat → List SpaBuffer → List (Nat × SpaBuffer)
  | _, [] => []
  | k, b :: bs => (k, b) :: numbered (k + 1 + b.datas.items.length) bs

theorem length_sentDatas (k : Nat) (ds : List SpaData) :
    (sentDatas types k ds).length = ds.length := by
  induction ds generalizing k with
  | nil => rfl
  | cons d ds ih => exact congrArg (· + 1) (ih _)

def sentShared (types : BufferTypes) (kb : Nat × SpaBuffer) : Native.PinosClientNodeBuffer where
  memId := .ofNat kb.1
  offset := 0
  size := kb.2.shared.size
  buffer :=
    { id := kb.2.id
      metas := kb.2.metas.map fun m => ⟨m.type, m.size⟩
      datas := ⟨sentDatas types (kb.1 + 1) kb.2.datas.items, by
        rw [length_sentDatas]
        exact kb.2.datas.small⟩ }

theorem sentBuffer_shared {b : SpaBuffer} (h : b.Shared types) (k : Nat) (size : UInt64) :
    sentBuffer types direction portId (.ofNat k) size b = sentShared types (k, b) := by
  have hdatas := @useDatas_shared _ direction portId _ h.datas (k + 1) size
  unfold sentBuffer sentShared
  simp only [ofNat_succ, hdatas]

/-- The messages about buffers in shared memory. -/
theorem useBuffer_shared {bs : List SpaBuffer} (h : ∀ b ∈ bs, b.Shared types) (k : Nat)
    (sizes : List UInt64) :
    ∃ sizes', useBuffer types direction portId (.ofNat k) sizes bs =
      (addMems direction portId k (bs.flatMap (SpaBuffer.mems types)),
        some ((numbered k bs).map (sentShared types)), sizes') := by
  induction bs generalizing k sizes with
  | nil => exact ⟨sizes, rfl⟩
  | cons b bs ih =>
    have hb := h b List.mem_cons_self
    obtain ⟨m, hmem, htype⟩ := hb.described
    obtain ⟨sizes', hrest⟩ := ih (fun b' hmem => h b' (List.mem_cons_of_mem b hmem))
      (k + 1 + b.datas.items.length) sizes.tail
    have hdatas := @useDatas_shared _ direction portId _ hb.datas (k + 1)
      (sizes.headD 0)
    have hfound : ¬ b.metas.items.all (·.type ≠ types.metaShared) = true := by
      rw [List.all_eq_true]
      exact fun hall => of_decide_eq_true (hall m hmem) htype
    refine ⟨sizes.headD 0 :: sizes', ?_⟩
    unfold useBuffer
    rw [if_neg hfound, ofNat_succ, memsOf_shared hb, ← UInt32.ofNat_add, hrest, List.flatMap_cons,
      addMems_append]
    dsimp only
    rw [hdatas, Option.map_some, sentBuffer_shared hb]
    simp only [SpaBuffer.mems, addMems, List.length_cons, List.length_map, numbered, List.map_cons,
      Nat.add_assoc, Nat.add_comm 1]
    rfl

/-- The request that is sent for buffers in shared memory. -/
theorem useBuffers_shared {seq : UInt32} {sizes : List UInt64} {buffers : Counted SpaBuffer}
    (h : ∀ b ∈ buffers.items, b.Shared types) (hmany : buffers.items.length ≤ maxBuffers) :
    ∃ (sent : Counted Native.PinosClientNodeBuffer) (sizes' : List UInt64),
      sent.items = (numbered 0 buffers.items).map (sentShared types) ∧
      useBuffers types seq direction portId sizes buffers =
        some (addMems direction portId 0 (buffers.items.flatMap (SpaBuffer.mems types)) ++
          [.clientNodeNotifyUseBuffers seq direction portId sent], sizes') := by
  obtain ⟨sizes', hresult⟩ :=
    @useBuffer_shared _ direction portId _ h 0 sizes
  unfold useBuffers
  rw [if_neg (Nat.not_lt_of_le hmany)]
  dsimp only
  split
  · next hnone =>
    rw [show (0 : UInt32) = .ofNat 0 from rfl, hresult] at hnone
    cases hnone
  · next sent hsent =>
    have hitems := hsent
    rw [show (0 : UInt32) = .ofNat 0 from rfl, hresult] at hitems
    exact ⟨_, sizes', (Option.some.inj hitems).symm, congrArg some
      (Prod.ext (congrArg (· ++ [_]) (congrArg Prod.fst hresult)) (congrArg (·.2.2) hresult))⟩

end Shared

end PortBuffers
end Pinos

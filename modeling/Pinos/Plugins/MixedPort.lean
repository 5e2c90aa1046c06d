import Pinos.Plugins.AudioMixer

/-
What is queued on an input port of the mixer, and what a turn of a mix does with it.

On a good port the counters agree with the queue.  Since a buffer is only queued when no bytes
are, all but the last buffer of a queue are empty, and what was taken off the first is less than
it holds.
-/

namespace Pinos

open ByteMem

namespace SpaAudioMixerPort

/-! ## What is queued -/

def size (port : SpaAudioMixerPort) (i : Nat) : Nat := (port.buffers i).outbuf.chunkSize.toNat

/-- The bytes of all buffers on the queue. -/
def total (port : SpaAudioMixerPort) : Nat := (port.queue.map port.size).sum

/-- The number of queued bytes is right. -/
def Counted (port : SpaAudioMixerPort) : Prop :=
  port.queuedOffset ≤ port.total ∧ port.queuedBytes = port.total - port.queuedOffset

def chunk (port : SpaAudioMixerPort) (i : Nat) : List UInt8 :=
  let b := (port.buffers i).outbuf
  b.memory.read b.chunkOffset.toNat b.chunkSize.toNat

/-- The bytes on the queue that were not taken yet. -/
def unread (port : SpaAudioMixerPort) : List UInt8 :=
  (port.queue.flatMap port.chunk).drop port.queuedOffset

structure Good (port : SpaAudioMixerPort) : Prop where
  counted : port.Counted
  inside : port.queuedOffset = 0 ∨
    ∃ i, port.queue = [i] ∧ port.queuedOffset < port.size i
  zeros : ∀ i ∈ port.queue.dropLast, port.size i = 0
  fresh : ∀ i ∈ port.queue, (port.buffers i).outstanding = false
  nodup : port.queue.Nodup
  empty : port.nBuffers = 0 → port.queue = []
  linked : port.io.isSome → port.linked
  fault : port.fault = false

/-- Nothing is counted on the port. -/
def Drained (port : SpaAudioMixerPort) : Prop := port.queuedBytes = 0 ∧ port.queuedOffset = 0

instance (port : SpaAudioMixerPort) : Decidable port.Drained :=
  inferInstanceAs (Decidable (_ ∧ _))

variable {port : SpaAudioMixerPort} {i n layer : Nat} {out : Mem}

theorem good_zero : Good zero where
  counted := ⟨Nat.le_refl 0, rfl⟩
  inside := .inl rfl
  zeros := fun _ h => nomatch h
  fresh := fun _ h => nomatch h
  nodup := List.nodup_nil
  empty := fun _ => rfl
  linked := fun h => nomatch h
  fault := rfl

theorem size_lt (port : SpaAudioMixerPort) (i : Nat) : port.size i < 2 ^ 32 :=
  (port.buffers i).outbuf.chunkSize.toNat_lt

theorem length_chunk (port : SpaAudioMixerPort) (i : Nat) : (port.chunk i).length = port.size i :=
  Mem.length_read _ _ _

theorem length_chunks (port : SpaAudioMixerPort) :
    (port.queue.flatMap port.chunk).length = port.total := by
  rw [List.length_flatMap, total]
  congr 1
  exact List.map_congr_left fun i _ => port.length_chunk i

theorem Good.length_unread (h : port.Good) : port.unread.length = port.queuedBytes := by
  rw [unread, List.length_drop, length_chunks, h.counted.2]

theorem Good.unread_eq_nil (h : port.Good) : port.unread = [] ↔ port.queuedBytes = 0 := by
  rw [← List.length_eq_zero_iff, h.length_unread]

theorem chunk_eq_nil (h : port.size i = 0) : port.chunk i = [] := by
  rw [← List.length_eq_zero_iff, length_chunk, h]

/-- A queue without bytes on it. -/
theorem Good.drained (h : port.Good) (hbytes : port.queuedBytes = 0) :
    port.queuedOffset = 0 ∧ port.total = 0 := by
  obtain ⟨hle, hcount⟩ := h.counted
  rcases h.inside with hoffset | ⟨i, hqueue, hlt⟩
  · omega
  · have htotal : port.total = port.size i := by
      rw [total, hqueue]
      exact Nat.add_zero _
    omega

theorem size_eq_zero (h : port.total = 0) (hi : i ∈ port.queue) : port.size i = 0 :=
  List.sum_eq_zero_iff_forall_eq_nat.mp h _ (List.mem_map_of_mem hi)

/-- The first buffer is the only one when it is not empty. -/
theorem Good.single {rest : List Nat} (h : port.Good) (hqueue : port.queue = i :: rest)
    (hsize : port.size i ≠ 0) : rest = [] := by
  cases rest with
  | nil => rfl
  | cons j rest =>
    refine absurd (h.zeros i ?_) hsize
    rw [hqueue, List.dropLast_cons_cons]
    exact List.mem_cons_self

/-! ## Buffers that are not queued -/

theorem total_update {port' : SpaAudioMixerPort} (hqueue : port'.queue = port.queue)
    (hbuffers : ∀ j ∈ port.queue, port'.buffers j = port.buffers j) :
    port'.total = port.total := by
  rw [total, total, hqueue]
  congr 1
  refine List.map_congr_left fun j hj => ?_
  rw [size, size, hbuffers j hj]

theorem flatMap_chunk_congr {port' : SpaAudioMixerPort} {queue : List Nat}
    (hbuffers : ∀ j ∈ queue, port'.buffers j = port.buffers j) :
    queue.flatMap port'.chunk = queue.flatMap port.chunk := by
  rw [List.flatMap_def, List.flatMap_def]
  congr 1
  refine List.map_congr_left fun j hj => ?_
  rw [chunk, chunk, hbuffers j hj]

/-- A port with the same queue, and the same buffers on it. -/
theorem Good.congr {port' : SpaAudioMixerPort} (h : port.Good) (hqueue : port'.queue = port.queue)
    (hoffset : port'.queuedOffset = port.queuedOffset)
    (hbytes : port'.queuedBytes = port.queuedBytes)
    (hbuffers : ∀ j ∈ port.queue, port'.buffers j = port.buffers j)
    (hn : port'.nBuffers = 0 → port.nBuffers = 0)
    (hlinked : port'.io.isSome → port'.linked) (hfault : port'.fault = false) :
    port'.Good ∧ port'.unread = port.unread := by
  have hsize : ∀ j ∈ port.queue, port'.size j = port.size j := fun j hj => by
    rw [size, size, hbuffers j hj]
  refine ⟨?_, ?_⟩
  · constructor
    · rw [Counted, total_update hqueue hbuffers, hoffset, hbytes]
      exact h.counted
    · rcases h.inside with hzero | ⟨i, hi, hlt⟩
      · exact .inl (hoffset.trans hzero)
      · refine .inr ⟨i, hqueue.trans hi, ?_⟩
        rwa [hoffset, hsize i (by rw [hi]; exact List.mem_singleton_self i)]
    · intro j hj
      rw [hqueue] at hj
      rw [hsize j (List.dropLast_subset _ hj)]
      exact h.zeros j hj
    · intro j hj
      rw [hqueue] at hj
      rw [hbuffers j hj]
      exact h.fresh j hj
    · rw [hqueue]
      exact h.nodup
    · intro hzero
      rw [hqueue]
      exact h.empty (hn hzero)
    · exact hlinked
    · exact hfault
  · rw [unread, unread, hoffset, hqueue, flatMap_chunk_congr hbuffers]

/-! ## Forgetting the queue -/

theorem Good.unread_of_drained (h : port.Good) (hdrained : port.Drained) : port.unread = [] :=
  h.unread_eq_nil.mpr hdrained.1

/-- A port with nothing on its queue, and nothing counted. -/
theorem good_empty {port' : SpaAudioMixerPort} (hqueue : port'.queue = [])
    (hdrained : port'.Drained) (hlinked : port'.io.isSome → port'.linked)
    (hfault : port'.fault = false) : port'.Good ∧ port'.unread = [] := by
  have htotal : port'.total = 0 := by rw [total, hqueue, List.map_nil, List.sum_nil]
  have hgood : port'.Good := by
    constructor
    · rw [Counted, htotal, hdrained.1, hdrained.2]
      exact ⟨Nat.le_refl 0, rfl⟩
    · exact .inl hdrained.2
    · rw [hqueue]
      exact fun _ h => nomatch h
    · rw [hqueue]
      exact fun _ h => nomatch h
    · rw [hqueue]
      exact List.nodup_nil
    · exact fun _ => hqueue
    · exact hlinked
    · exact hfault
  exact ⟨hgood, hgood.unread_of_drained hdrained⟩

/-! ## A buffer is queued -/

/-- The buffer that `process_input` queues on a port, if it does. -/
def arriving (port : SpaAudioMixerPort) : List Nat :=
  match port.io with
  | none => []
  | some io =>
    if port.nBuffers ≠ 0 ∧ port.Looks io ∧ (port.buffers io.bufferId.toNat).outstanding then
      [io.bufferId.toNat]
    else []

/-- The io names a buffer of the array when `process_input` looks at it. -/
def IdInside (port : SpaAudioMixerPort) : Prop :=
  ∀ io ∈ port.io, port.nBuffers ≠ 0 → port.Looks io → io.bufferId.toNat < maxBuffers

instance (port : SpaAudioMixerPort) : Decidable port.IdInside :=
  inferInstanceAs (Decidable (∀ io ∈ port.io, _))

/-- The io names a buffer that is looked at, and either it is queued or it is in use. -/
theorem queueInput_cases (port : SpaAudioMixerPort) :
    (port.queueInput = port ∧ port.arriving = []) ∨
      ∃ io, port.io = some io ∧ port.nBuffers ≠ 0 ∧ port.Looks io ∧
        ((port.buffers io.bufferId.toNat).outstanding = true ∧
            port.arriving = [io.bufferId.toNat] ∧
            port.queueInput = port.queueBuffer io io.bufferId.toNat ∨
          port.arriving = [] ∧ port.queueInput = port.refuseBuffer io io.bufferId.toNat) := by
  cases hio : port.io with
  | none => exact .inl ⟨by rw [queueInput, hio], by rw [arriving, hio]⟩
  | some io =>
    have hqueue : port.queueInput =
        if port.nBuffers = 0 then port
        else if port.Looks io then
          if (port.buffers io.bufferId.toNat).outstanding then
            port.queueBuffer io io.bufferId.toNat
          else port.refuseBuffer io io.bufferId.toNat
        else port := by
      rw [queueInput, hio]
    have harriving : port.arriving =
        if port.nBuffers ≠ 0 ∧ port.Looks io ∧
            (port.buffers io.bufferId.toNat).outstanding then [io.bufferId.toNat] else [] := by
      rw [arriving, hio]
    rw [hqueue, harriving]
    by_cases hn : port.nBuffers = 0
    · exact .inl ⟨if_pos hn, if_neg fun h => h.1 hn⟩
    by_cases hlooks : port.Looks io
    · refine .inr ⟨io, rfl, hn, hlooks, ?_⟩
      rw [if_neg hn, if_pos hlooks]
      by_cases hout : (port.buffers io.bufferId.toNat).outstanding = true
      · exact .inl ⟨hout, if_pos ⟨hn, hlooks, hout⟩, if_pos hout⟩
      · exact .inr ⟨if_neg fun h => hout h.2.2, if_neg hout⟩
    · exact .inl ⟨by rw [if_neg hn, if_neg hlooks], if_neg fun h => hlooks h.2.1⟩

theorem active_queueInput (port : SpaAudioMixerPort) : port.queueInput.active = port.active := by
  obtain ⟨hsame, -⟩ | ⟨io, hio, -, -, ⟨-, -, hsame⟩ | ⟨-, hsame⟩⟩ := port.queueInput_cases
  · rw [hsame]
  · rw [hsame, active, active, hio]
    rfl
  · rw [hsame, active, active, hio]
    rfl

theorem queue_queueInput (port : SpaAudioMixerPort) :
    port.queueInput.queue = port.queue ++ port.arriving := by
  obtain ⟨hsame, harriving⟩ | ⟨io, -, -, -, ⟨-, harriving, hsame⟩ | ⟨harriving, hsame⟩⟩ :=
    port.queueInput_cases
  · rw [hsame, harriving, List.append_nil]
  · rw [hsame, harriving]
    rfl
  · rw [hsame, harriving, List.append_nil]
    rfl

theorem size_queueBuffer {io : SpaMixerIO} (j : Nat) :
    (port.queueBuffer io i).size j = port.size j := by
  show (Function.update port.buffers i _ j).outbuf.chunkSize.toNat = port.size j
  by_cases he : j = i
  · rw [he, Function.update_self]
    rfl
  · rw [Function.update_of_ne he]
    rfl

theorem size_queueInput (port : SpaAudioMixerPort) (j : Nat) :
    port.queueInput.size j = port.size j := by
  obtain ⟨hsame, -⟩ | ⟨io, -, -, -, ⟨-, -, hsame⟩ | ⟨-, hsame⟩⟩ := port.queueInput_cases
  · rw [hsame]
  · rw [hsame, size_queueBuffer]
  · rw [hsame]
    rfl

/-- A buffer is queued behind those that have no bytes left. -/
theorem Good.queueBuffer {io : SpaMixerIO} (h : port.Good) (hn : port.nBuffers ≠ 0)
    (hlinked : port.linked) (hbytes : port.queuedBytes = 0)
    (hout : (port.buffers i).outstanding = true) (hi : i < maxBuffers) :
    (port.queueBuffer io i).Good ∧
      (port.queueBuffer io i).unread = port.unread ++ [i].flatMap port.chunk := by
  obtain ⟨hoffset, htotal⟩ := h.drained hbytes
  have hfree : i ∉ port.queue := fun hmem => by
    rw [h.fresh i hmem] at hout
    exact Bool.false_ne_true hout
  have hne : ∀ j ∈ port.queue, j ≠ i := fun j hj he => hfree (he ▸ hj)
  have hbuffers : ∀ j ∈ port.queue, (port.queueBuffer io i).buffers j = port.buffers j :=
    fun j hj => Function.update_of_ne (hne j hj) _ _
  have hcount : (port.queueBuffer io i).queuedBytes = port.size i := by
    have hlt := port.size_lt i
    show (port.queuedBytes + port.size i) % 2 ^ 64 = port.size i
    rw [hbytes, Nat.zero_add]
    exact Nat.mod_eq_of_lt (by omega)
  have htotal' : (port.queueBuffer io i).total = port.size i := by
    show ((port.queue ++ [i]).map (port.queueBuffer io i).size).sum = port.size i
    rw [show (port.queueBuffer io i).size = port.size from funext size_queueBuffer,
      List.map_append, List.sum_append]
    show port.total + (port.size i + 0) = port.size i
    rw [htotal, Nat.zero_add, Nat.add_zero]
  constructor
  · constructor
    · rw [Counted, htotal', hcount]
      show port.queuedOffset ≤ _ ∧ _ = _ - port.queuedOffset
      rw [hoffset]
      exact ⟨Nat.zero_le _, rfl⟩
    · exact .inl hoffset
    · show ∀ j ∈ (port.queue ++ [i]).dropLast, _
      rw [List.dropLast_concat]
      intro j hj
      rw [size_queueBuffer, size_eq_zero htotal hj]
    · intro j hj
      rcases List.mem_append.mp hj with hj | hj
      · rw [hbuffers j hj]
        exact h.fresh j hj
      · rw [List.mem_singleton.mp hj]
        show (Function.update port.buffers i _ i).outstanding = false
        rw [Function.update_self]
    · refine List.nodup_append.mpr ⟨h.nodup, List.pairwise_singleton _ i, fun j hj k hk => ?_⟩
      rw [List.mem_singleton.mp hk]
      exact hne j hj
    · exact fun hzero => absurd hzero hn
    · exact fun _ => hlinked
    · show (port.fault || decide (maxBuffers ≤ i) || !port.linked || port.queue.contains i) = false
      have hcontains : port.queue.contains i = false := by simpa using hfree
      rw [h.fault, hlinked, hcontains, decide_eq_false (Nat.not_le.mpr hi)]
      rfl
  · have hchunk : (port.queueBuffer io i).chunk i = port.chunk i := by
      show (Function.update port.buffers i _ i).outbuf.memory.read
        (Function.update port.buffers i _ i).outbuf.chunkOffset.toNat
        (Function.update port.buffers i _ i).outbuf.chunkSize.toNat = port.chunk i
      rw [Function.update_self]
      rfl
    show ((port.queue ++ [i]).flatMap (port.queueBuffer io i).chunk).drop port.queuedOffset =
      (port.queue.flatMap port.chunk).drop port.queuedOffset ++ [i].flatMap port.chunk
    rw [hoffset, List.drop_zero, List.drop_zero, List.flatMap_append,
      flatMap_chunk_congr hbuffers, List.flatMap_singleton, List.flatMap_singleton, hchunk]

/-- The bytes of the buffer that is queued come after those that were. -/
theorem Good.queueInput (h : port.Good) (hid : port.IdInside) :
    port.queueInput.Good ∧
      port.queueInput.unread = port.unread ++ port.arriving.flatMap port.chunk := by
  obtain ⟨hsame, harriving⟩ | ⟨io, hio, hn, hlooks, hcases⟩ := port.queueInput_cases
  · rw [hsame, harriving, List.flatMap_nil, List.append_nil]
    exact ⟨h, rfl⟩
  have hlinked : port.linked := h.linked (by rw [hio]; rfl)
  have hinside := hid io hio hn hlooks
  rcases hcases with ⟨hout, harriving, hsame⟩ | ⟨harriving, hsame⟩
  · rw [hsame, harriving]
    exact h.queueBuffer hn hlinked hlooks.1 hout hinside
  · rw [hsame, harriving, List.flatMap_nil, List.append_nil]
    refine h.congr rfl rfl rfl (fun _ _ => rfl) id (fun _ => hlinked) ?_
    show (port.fault || decide (maxBuffers ≤ io.bufferId.toNat)) = false
    rw [h.fault, decide_eq_false (Nat.not_le.mpr hinside)]
    rfl

/-! ## A turn of the mix -/

theorem Good.offset_of_size (h : port.Good) (hqueue : port.queue.head? = some i)
    (hsize : port.size i = 0) : port.queuedOffset = 0 := by
  rcases h.inside with hzero | ⟨j, hj, hlt⟩
  · exact hzero
  · rw [hj, List.head?_cons] at hqueue
    obtain rfl := Option.some.inj hqueue
    omega

/-- What is left of the first buffer, where it is not empty, is all that is left. -/
theorem Good.first {rest : List Nat} (h : port.Good) (hqueue : port.queue = i :: rest)
    (hsize : port.size i ≠ 0) :
    rest = [] ∧ port.queuedOffset < port.size i ∧
      port.queuedBytes = port.size i - port.queuedOffset ∧ port.insize i = port.queuedBytes := by
  have hrest := h.single hqueue hsize
  have htotal : port.total = port.size i := by
    rw [total, hqueue, hrest]
    exact Nat.add_zero _
  have hlt : port.queuedOffset < port.size i := by
    rcases h.inside with hzero | ⟨j, hj, hlt⟩
    · omega
    · rw [hqueue] at hj
      obtain ⟨rfl, -⟩ := List.cons.inj hj
      exact hlt
  have hbytes : port.queuedBytes = port.size i - port.queuedOffset := htotal ▸ h.counted.2
  refine ⟨hrest, hlt, hbytes, ?_⟩
  have hmax := port.size_lt i
  show (port.size i + 2 ^ 64 - port.queuedOffset) % 2 ^ 64 = port.queuedBytes
  omega

theorem Good.total_lt (h : port.Good) : port.total < 2 ^ 32 := by
  rcases List.eq_nil_or_concat port.queue with hqueue | ⟨front, last, hqueue⟩
  · rw [total, hqueue]
    exact Nat.two_pow_pos 32
  · have hzeros := h.zeros
    rw [hqueue, List.concat_eq_append, List.dropLast_concat] at hzeros
    have hfront : (front.map port.size).sum = 0 := by
      refine List.sum_eq_zero_iff_forall_eq_nat.mpr fun x hx => ?_
      obtain ⟨j, hj, rfl⟩ := List.mem_map.mp hx
      exact hzeros j hj
    have hlast := port.size_lt last
    rw [total, hqueue, List.concat_eq_append, List.map_append, List.sum_append, hfront]
    show 0 + (port.size last + 0) < 2 ^ 32
    omega

/-- The port when buffer `i`, the first, goes back. -/
def returned (port : SpaAudioMixerPort) (i : Nat) : SpaAudioMixerPort :=
  { port with
    io := port.io.map fun io => { io with bufferId := (port.buffers i).outbuf.id }
    queue := port.queue.tail
    buffers := Function.update port.buffers i { port.buffers i with outstanding := true }
    queuedOffset := 0
    queuedBytes := (port.queuedBytes + 2 ^ 64 - port.insize i) % 2 ^ 64 }

theorem takeData_of_le (h : port.insize i ≤ n) : port.takeData n i = port.returned i := by
  unfold takeData
  dsimp only
  rw [Nat.min_eq_right h, if_pos rfl]
  rfl

theorem takeData_of_lt (h : n < port.insize i) :
    port.takeData n i =
      { port with
        queuedOffset := (port.queuedOffset + n) % 2 ^ 64
        queuedBytes := (port.queuedBytes + 2 ^ 64 - n) % 2 ^ 64 } := by
  unfold takeData
  dsimp only
  rw [Nat.min_eq_left (Nat.le_of_lt h), if_neg (Nat.ne_of_lt h)]

theorem Good.returned {rest : List Nat} (h : port.Good) (hqueue : port.queue = i :: rest)
    (hbytes : (port.queuedBytes + 2 ^ 64 - port.insize i) % 2 ^ 64 = (rest.map port.size).sum) :
    (port.returned i).Good ∧ (port.returned i).unread = rest.flatMap port.chunk := by
  have hqueue' : (port.returned i).queue = rest := by
    show port.queue.tail = rest
    rw [hqueue]
    rfl
  have hnodup := h.nodup
  rw [hqueue, List.nodup_cons] at hnodup
  have hsame : ∀ j ∈ rest, (port.returned i).buffers j = port.buffers j := fun j hj =>
    Function.update_of_ne (fun he : j = i => hnodup.1 (he ▸ hj)) _ _
  have hsize : ∀ j ∈ rest, (port.returned i).size j = port.size j := fun j hj => by
    rw [size, size, hsame j hj]
  have htotal : (port.returned i).total = (rest.map port.size).sum := by
    rw [total, hqueue', List.map_congr_left hsize]
  constructor
  · constructor
    · exact ⟨Nat.zero_le _, hbytes.trans htotal.symm⟩
    · exact .inl rfl
    · intro j hj
      rw [hqueue'] at hj
      rw [hsize j (List.dropLast_subset _ hj)]
      refine h.zeros j ?_
      rw [hqueue, List.dropLast_cons_of_ne_nil (List.ne_nil_of_mem (List.dropLast_subset _ hj))]
      exact List.mem_cons_of_mem i hj
    · intro j hj
      rw [hqueue'] at hj
      rw [hsame j hj]
      exact h.fresh j (by rw [hqueue]; exact List.mem_cons_of_mem i hj)
    · rw [hqueue']
      exact hnodup.2
    · intro hzero
      have hempty := h.empty hzero
      rw [hqueue] at hempty
      exact absurd hempty (List.cons_ne_nil i rest)
    · intro hio
      exact h.linked (by rwa [← Option.isSome_map])
    · exact h.fault
  · show ((port.returned i).queue.flatMap (port.returned i).chunk).drop 0 = _
    rw [hqueue', List.drop_zero, flatMap_chunk_congr hsame]

/-- The bytes that are taken are the next ones. -/
theorem Good.takeData {rest : List Nat} (h : port.Good) (hqueue : port.queue = i :: rest)
    (hempty : port.size i = 0 → n = 0 ∨ port.queuedBytes = 0) :
    (port.takeData n i).Good ∧ (port.takeData n i).unread = port.unread.drop n := by
  obtain ⟨hle, hcount⟩ := h.counted
  have hlt := h.total_lt
  by_cases hsize : port.size i = 0
  · -- An empty buffer goes back, and nothing else happens.
    have hoffset := h.offset_of_size (by rw [hqueue]; rfl) hsize
    have hinsize : port.insize i = 0 := by
      show (port.size i + 2 ^ 64 - port.queuedOffset) % 2 ^ 64 = 0
      omega
    have htotal : port.total = (rest.map port.size).sum := by
      rw [total, hqueue, List.map_cons, List.sum_cons, hsize, Nat.zero_add]
    rw [takeData_of_le (by rw [hinsize]; exact Nat.zero_le n)]
    obtain ⟨hgood, hunread⟩ := h.returned hqueue (by rw [← htotal]; omega)
    refine ⟨hgood, hunread.trans ?_⟩
    have hsame : port.unread = rest.flatMap port.chunk := by
      rw [unread, hoffset, hqueue, List.drop_zero, List.flatMap_cons, chunk_eq_nil hsize,
        List.nil_append]
    rcases hempty hsize with rfl | hbytes
    · rw [hsame, List.drop_zero]
    · rw [← hsame, h.unread_eq_nil.mpr hbytes, List.drop_nil]
  · obtain ⟨rfl, hinside, hbytes, hinsize⟩ := h.first hqueue hsize
    have hmax := port.size_lt i
    rcases Nat.lt_or_ge n (port.insize i) with hshort | hlong
    · -- Some of the buffer is left.
      rw [takeData_of_lt hshort]
      have htotal : port.total = port.size i := by
        rw [total, hqueue]
        exact Nat.add_zero _
      have hnext : (port.queuedOffset + n) % 2 ^ 64 = port.queuedOffset + n :=
        Nat.mod_eq_of_lt (by omega)
      refine ⟨?_, ?_⟩
      · constructor
        · show (port.queuedOffset + n) % 2 ^ 64 ≤ port.total ∧
            (port.queuedBytes + 2 ^ 64 - n) % 2 ^ 64 =
              port.total - (port.queuedOffset + n) % 2 ^ 64
          omega
        · refine .inr ⟨i, hqueue, ?_⟩
          show (port.queuedOffset + n) % 2 ^ 64 < port.size i
          omega
        · exact h.zeros
        · exact h.fresh
        · exact h.nodup
        · exact h.empty
        · exact h.linked
        · exact h.fault
      · show (port.queue.flatMap port.chunk).drop ((port.queuedOffset + n) % 2 ^ 64) = _
        rw [hnext, ← List.drop_drop]
        rfl
    · rw [takeData_of_le hlong]
      obtain ⟨hgood, hunread⟩ := h.returned hqueue (by
        rw [hinsize]
        show _ = 0
        omega)
      refine ⟨hgood, hunread.trans ?_⟩
      rw [List.flatMap_nil, List.drop_of_length_le]
      rw [h.length_unread, ← hinsize]
      exact hlong

/-- A mix of `n` bytes takes the next bytes of a port that has as many, and does not come to an
empty buffer before bytes. -/
def Ready (n : Nat) (port : SpaAudioMixerPort) : Prop :=
  port.active → n = 0 ∨ port.queuedBytes = 0 ∨
    n ≤ port.queuedBytes ∧ ∀ i ∈ port.queue.head?, port.size i ≠ 0

theorem mix_idle (h : ¬ port.active) : port.mix n out layer = (out, layer, port) := by
  rw [mix, if_neg h]

theorem mix_nil (h : port.active) (hqueue : port.queue = []) :
    port.mix n out layer =
      (out, layer,
        { port with queuedBytes := 0, queuedOffset := 0, fault := port.fault || !port.linked }) := by
  rw [mix, if_pos h, hqueue]

theorem mix_cons {rest : List Nat} (h : port.active) (hqueue : port.queue = i :: rest) :
    port.mix n out layer = (port.addData out n i layer, layer + 1, port.takeData n i) := by
  rw [mix, if_pos h, hqueue]

/-- The port after its turn. -/
def mixed (n : Nat) (port : SpaAudioMixerPort) : SpaAudioMixerPort :=
  (port.mix n (fun _ => 0) 0).2.2

theorem mix_port : (port.mix n out layer).2.2 = port.mixed n := by
  unfold mixed
  by_cases hactive : port.active = true
  · cases hqueue : port.queue with
    | nil => rw [mix_nil hactive hqueue, mix_nil hactive hqueue]
    | cons i rest => rw [mix_cons hactive hqueue, mix_cons hactive hqueue]
  · rw [mix_idle hactive, mix_idle hactive]

theorem Good.mixed (h : port.Good) (hready : port.Ready n) :
    (port.mixed n).Good ∧
      (port.mixed n).unread = if port.active then port.unread.drop n else port.unread := by
  unfold SpaAudioMixerPort.mixed
  by_cases hactive : port.active = true
  · rw [if_pos hactive]
    cases hqueue : port.queue with
    | nil =>
      have hlinked : port.linked := h.linked (Bool.and_eq_true_iff.mp hactive).1
      have hunread : port.unread = [] := by rw [unread, hqueue, List.flatMap_nil, List.drop_nil]
      rw [mix_nil hactive hqueue, hunread, List.drop_nil]
      refine good_empty hqueue ⟨rfl, rfl⟩ (fun _ => hlinked) ?_
      show (port.fault || !port.linked) = false
      rw [h.fault, hlinked]
      rfl
    | cons i rest =>
      rw [mix_cons hactive hqueue]
      refine h.takeData hqueue fun hsize => ?_
      rcases hready hactive with hzero | hbytes | ⟨-, hhead⟩
      · exact .inl hzero
      · exact .inr hbytes
      · exact absurd hsize (hhead i (by rw [hqueue]; rfl))
  · rw [if_neg hactive, mix_idle hactive]
    exact ⟨h, rfl⟩

/-! ## The bytes that go out -/

theorem fits16_addSample (x y : Int) : Fits16 (addSample x y) := by
  unfold addSample spaClamp Fits16
  split
  · omega
  · split <;> omega

theorem sample_addSamples (ip : Mem) (a m : Nat) (out : Mem) (k : Nat) :
    (addSamples ip a m out).sample (2 * k) =
      if k < m then addSample (out.sample (2 * k)) (ip.sample (a + 2 * k))
      else out.sample (2 * k) := by
  induction m with
  | zero => rfl
  | succ m ih =>
    rw [addSamples]
    rcases Nat.lt_trichotomy k m with hlt | rfl | hgt
    · rw [Mem.sample_storeSample_outside _ _ (by omega), ih, if_pos hlt, if_pos (by omega)]
    · rw [Mem.sample_storeSample _ _ (fits16_addSample _ _), if_pos (Nat.lt_succ_self k), ih,
        if_neg (Nat.lt_irrefl k)]
    · rw [Mem.sample_storeSample_outside _ _ (by omega), ih, if_neg (by omega), if_neg (by omega)]

/-- An empty buffer adds nothing. -/
theorem addData_empty (h : port.insize i = 0) : port.addData out n i layer = out := by
  unfold addData
  dsimp only
  rw [h, Nat.min_zero]
  split
  · exact Mem.write_nil out 0
  · rfl

/-- Where the next bytes are. -/
theorem Good.take_unread {rest : List Nat} (h : port.Good) (hqueue : port.queue = i :: rest)
    (hsize : port.size i ≠ 0) (hn : n ≤ port.queuedBytes) :
    port.unread.take n = (port.buffers i).outbuf.memory.read
      (port.queuedOffset + (port.buffers i).outbuf.chunkOffset.toNat) n := by
  obtain ⟨rfl, hinside, hbytes, -⟩ := h.first hqueue hsize
  rw [unread, hqueue, List.flatMap_singleton, chunk, Mem.drop_read, Mem.take_read _ _ (hbytes ▸ hn),
    Nat.add_comm]

/-- The first layer is copied. -/
theorem Good.addData_zero {rest : List Nat} (h : port.Good) (hqueue : port.queue = i :: rest)
    (hsize : port.size i ≠ 0) (hn : n ≤ port.queuedBytes) :
    port.addData out n i 0 = out.write 0 (port.unread.take n) := by
  obtain ⟨-, -, -, hinsize⟩ := h.first hqueue hsize
  rw [h.take_unread hqueue hsize hn]
  unfold addData
  dsimp only
  rw [hinsize, Nat.min_eq_left hn, if_pos rfl]

/-- A further layer is added to what is there. -/
theorem Good.addData_succ {rest : List Nat} (h : port.Good) (hqueue : port.queue = i :: rest)
    (hsize : port.size i ≠ 0) (hn : n ≤ port.queuedBytes) {k : Nat} (hk : 2 * k + 1 < n) :
    (port.addData out n i (layer + 1)).sample (2 * k) =
      addSample (out.sample (2 * k)) (sampleAt (port.unread.take n) k) := by
  obtain ⟨-, -, -, hinsize⟩ := h.first hqueue hsize
  rw [h.take_unread hqueue hsize hn, Mem.sampleAt_read _ _ hk]
  unfold addData
  dsimp only
  rw [hinsize, Nat.min_eq_left hn, if_neg (Nat.succ_ne_zero layer), sample_addSamples,
    if_pos (by omega)]

end SpaAudioMixerPort
end Pinos

import Pinos.Client.Sending
import Pinos.Spa.PodAppend

/-
`write_pod` of `client/protocol-native.c` and `server/protocol-native.c`: a builder
that writes the payload of the next packet of a connection.
-/

namespace Pinos

open ByteMem

/-- The out buffer of a connection while a packet is put together.  `overrun` records
that a byte was copied behind the memory of the buffer. -/
structure ConnectionStore where
  out : ConnectionBuffer
  overrun : Bool

namespace ConnectionStore

/-- `builder->data`, the memory `pinos_connection_begin_write` returned. -/
def data (store : ConnectionStore) : Nat := store.out.bufferSize + 8

/-- The part of `write_pod` that makes room, and the new `size` of the builder. -/
def makeRoom (out : ConnectionBuffer) (size offset len : Nat) : ConnectionBuffer × Nat :=
  if size ≤ offset then
    let size := toU32 (roundUpN (toU32 (offset + len)) 4096)
    ((out.beginWrite size).1, size)
  else (out, size)

/-- `write_pod`; no reference stands for `-1`. -/
def writePod (store : ConnectionStore) (size offset : Nat) (ref : Option Nat)
    (bytes : List UInt8) : ConnectionStore × Nat × Nat :=
  let ref := ref.getD offset
  let (out, size) := makeRoom store.out size offset bytes.length
  ({ out := out.fill (store.data + ref) bytes
     overrun := store.overrun ||
       decide (out.bufferMaxsize < store.data + ref + bytes.length) }, size, ref)

instance : PodStore ConnectionStore where
  raw store size offset bytes := store.writePod size offset none bytes
  patch store size offset ref bytes :=
    ((store.writePod size offset (some ref) bytes).1,
      (store.writePod size offset (some ref) bytes).2.1)
  view store := fun i => store.out.bufferData (store.data + i)
  accepts _ _ _ _ := true

theorem makeRoom_eq (out : ConnectionBuffer) (size offset len : Nat) :
    ∃ maxsize, (makeRoom out size offset len).1 = { out with bufferMaxsize := maxsize } := by
  unfold makeRoom
  split
  · exact out.ensureSize_eq _
  · exact ⟨out.bufferMaxsize, rfl⟩

theorem view_writePod (store : ConnectionStore) (size offset : Nat) (ref : Option Nat)
    (bytes : List UInt8) :
    PodStore.view (store.writePod size offset ref bytes).1 =
      (PodStore.view store).write (ref.getD offset) bytes := by
  obtain ⟨maxsize, hsame⟩ := makeRoom_eq store.out size offset bytes.length
  show (fun i => ((makeRoom store.out size offset bytes.length).1.fill
      (store.data + ref.getD offset) bytes).bufferData
        ((makeRoom store.out size offset bytes.length).1.bufferSize + 8 + i)) = _
  rw [hsame]
  exact Mem.view_write store.out.bufferData store.data (ref.getD offset) bytes

instance : LawfulPodStore ConnectionStore where
  view_raw store size offset bytes _ := ⟨view_writePod store size offset none bytes, rfl⟩
  view_drop _ _ _ _ h := by cases h
  view_patch store size offset ref bytes := view_writePod store size offset (some ref) bytes
  accepts_raw _ _ _ _ := rfl
  accepts_patch _ _ _ _ _ := rfl

end ConnectionStore

/-! ## Putting a packet together -/

/-- A builder on a connection and, beside it, the bytes its calls have written: a
write goes to the end, and the header of a container over the one it began with. -/
structure Marshal where
  builder : SpaPODBuilder ConnectionStore
  written : List UInt8

inductive MarshalCall
  /-- Any run of bytes: a pod, a body, padding. -/
  | raw (bytes : List UInt8)
  /-- The start of a container. -/
  | push (header : SpaPOD) (fields : List UInt8)
  | pop

/-- No more bytes than this are written, padding included. -/
def MarshalCall.length : MarshalCall → Nat
  | .raw bytes => bytes.length
  | .push _ fields => 8 + fields.length
  | .pop => 16

/-- Overwrite a part of a list. -/
def patchBytes (written : List UInt8) (ref : Nat) (bytes : List UInt8) : List UInt8 :=
  written.take ref ++ bytes ++ written.drop (ref + bytes.length)

namespace Marshal

def start (out : ConnectionBuffer) : Marshal :=
  { builder := .init ⟨out, false⟩ 0, written := [] }

def step (s : Marshal) : MarshalCall → Marshal
  | .raw bytes => { builder := (s.builder.raw bytes).1, written := s.written ++ bytes }
  | .push header fields =>
    { builder := (s.builder.pushContainer header fields).1
      written := s.written ++ (header.bytes ++ fields) }
  | .pop =>
    match s.builder.stack with
    | [] => s
    | frame :: _ =>
      { builder := s.builder.pop
        written := patchBytes s.written frame.ref frame.pod.bytes ++ padding s.written.length }

/-- A write of `n` bytes is one for which memory is reserved: at the end of what the
builder asked for it asks for more, elsewhere the buffer has to be large enough. -/
def Fits (s : Marshal) (n : Nat) : Prop :=
  s.builder.offset + n + 4096 ≤ 2 ^ 32 ∧
    (s.builder.size ≤ s.builder.offset ∨
      s.builder.data.data + s.builder.offset + n ≤ s.builder.data.out.bufferMaxsize)

/-- The header of a container is written over 8 bytes that are there already. -/
def Reserved (s : Marshal) : MarshalCall → Prop
  | .raw bytes => s.Fits bytes.length
  | .push _ fields => s.Fits (8 + fields.length)
  | .pop => s.builder.offset + 8 + 4096 ≤ 2 ^ 32

instance (s : Marshal) (n : Nat) : Decidable (s.Fits n) := inferInstanceAs (Decidable (_ ∧ _))

instance (s : Marshal) : (c : MarshalCall) → Decidable (s.Reserved c)
  | .raw _ | .push _ _ => inferInstanceAs (Decidable (Fits _ _))
  | .pop => inferInstanceAs (Decidable (_ ≤ _))

/-- Room for the builder is what the connection has reserved behind its packets. -/
structure Backed (buffered : List UInt8) (store : ConnectionStore) (size : Nat) : Prop where
  overrun : store.overrun = false
  aligned : size % 8 = 0
  reserved : size = 0 ∨ store.data + size ≤ store.out.bufferMaxsize
  buffered : store.out.Pending buffered

structure Inv (buffered : List UInt8) (s : Marshal) : Prop where
  backed : Backed buffered s.builder.data s.builder.size
  written : s.written.length = s.builder.offset
  small : s.builder.offset + 4096 ≤ 2 ^ 32
  view : (PodStore.view s.builder.data).Holds 0 s.written
  frames : ∀ frame ∈ s.builder.stack, frame.ref + 8 ≤ s.builder.offset

variable {buffered : List UInt8} {store : ConnectionStore} {size offset : Nat} {s : Marshal}

/-- Memory for a write that starts at the end of what the builder asked for. -/
theorem ensureSize_reserves (out : ConnectionBuffer) {n : Nat} (hn : n + 4096 ≤ 2 ^ 32) :
    toU32 (roundUpN (toU32 n) 4096) % 8 = 0 ∧ n ≤ toU32 (roundUpN (toU32 n) 4096) ∧
      out.bufferSize + 8 + toU32 (roundUpN (toU32 n) 4096) ≤
        (out.beginWrite (toU32 (roundUpN (toU32 n) 4096))).1.bufferMaxsize := by
  have hround : toU32 (roundUpN (toU32 n) 4096) = roundUpN n 4096 := by
    unfold toU32 roundUpN
    omega
  have hbound : n ≤ roundUpN n 4096 ∧ roundUpN n 4096 % 8 = 0 ∧
      8 + roundUpN n 4096 < 2 ^ 32 := by
    unfold roundUpN
    omega
  rw [hround, ConnectionBuffer.beginWrite, toU32_of_lt hbound.2.2]
  refine ⟨hbound.2.1, hbound.1, ?_⟩
  unfold ConnectionBuffer.ensureSize
  split
  · show _ ≤ roundUpN (out.bufferSize + (8 + roundUpN n 4096)) maxBufferSize
    have hup : ∀ k, k ≤ roundUpN k maxBufferSize := by
      intro k
      unfold roundUpN maxBufferSize
      omega
    have := hup (out.bufferSize + (8 + roundUpN n 4096))
    omega
  · show _ ≤ out.bufferMaxsize
    omega

/-- A write that asks for more memory, or stays in what there is. -/
theorem Backed.writePod (h : Backed buffered store size) (ref : Option Nat) (bytes : List UInt8)
    (href : ref.getD offset ≤ offset)
    (hfits : size ≤ offset ∧ offset + bytes.length + 4096 ≤ 2 ^ 32 ∨
      offset < size ∧ store.data + ref.getD offset + bytes.length ≤ store.out.bufferMaxsize) :
    Backed buffered (store.writePod size offset ref bytes).1
      (store.writePod size offset ref bytes).2.1 := by
  rcases hfits with ⟨hend, hsmall⟩ | ⟨hroom, hinside⟩
  · obtain ⟨hmod, hle, hmax⟩ := ensureSize_reserves store.out hsmall
    obtain ⟨maxsize, hsame⟩ := store.out.ensureSize_eq
      (toU32 (8 + toU32 (roundUpN (toU32 (offset + bytes.length)) 4096)))
    simp only [ConnectionStore.writePod, ConnectionStore.makeRoom, if_pos hend]
    simp only [ConnectionBuffer.beginWrite, hsame] at hmax ⊢
    refine ⟨?_, hmod, Or.inr hmax, ?_⟩
    · show (store.overrun || decide (maxsize < store.data + ref.getD offset + bytes.length)) = false
      rw [h.overrun, Bool.false_or, decide_eq_false_iff_not, ConnectionStore.data]
      omega
    · exact (h.buffered.maxsize maxsize).fill (by show store.out.bufferSize ≤ _; rw [ConnectionStore.data]; omega) bytes
  · simp only [ConnectionStore.writePod, ConnectionStore.makeRoom, if_neg (Nat.not_le.mpr hroom)]
    refine ⟨?_, h.aligned, h.reserved, ?_⟩
    · show (store.overrun ||
        decide (store.out.bufferMaxsize < store.data + ref.getD offset + bytes.length)) = false
      rw [h.overrun, Bool.false_or, decide_eq_false_iff_not]
      omega
    · exact h.buffered.fill (by rw [ConnectionStore.data]; omega) bytes

theorem Inv.raw (h : Inv buffered s) (bytes : List UInt8) (hfits : s.Fits bytes.length) :
    Inv buffered { builder := (s.builder.raw bytes).1, written := s.written ++ bytes } := by
  obtain ⟨hsmall, hroom⟩ := hfits
  have hview : PodStore.view (s.builder.raw bytes).1.data =
      (PodStore.view s.builder.data).write s.builder.offset bytes :=
    ConnectionStore.view_writePod s.builder.data s.builder.size s.builder.offset none bytes
  have hoffset : (s.builder.raw bytes).1.offset = s.builder.offset + bytes.length :=
    toU32_of_lt (by omega)
  refine ⟨?_, ?_, ?_, ?_, ?_⟩
  · refine h.backed.writePod none bytes (Nat.le_refl s.builder.offset) ?_
    rcases Nat.lt_or_ge s.builder.offset s.builder.size with hlt | hge
    · exact Or.inr ⟨hlt, hroom.resolve_left (Nat.not_le.mpr hlt)⟩
    · exact Or.inl ⟨hge, hsmall⟩
  · rw [List.length_append, h.written, hoffset]
  · rw [hoffset]
    exact hsmall
  · rw [hview, ← h.written]
    apply Mem.holds_append.mpr ⟨?_, ?_⟩
    · exact h.view.write_outside (Or.inl (Nat.le_of_eq (Nat.zero_add _)))
    · rw [Nat.zero_add]
      exact Mem.holds_write _ _ _
  · intro frame hframe
    obtain ⟨frame', hmem, rfl⟩ := List.mem_map.mp hframe
    have := h.frames frame' hmem
    rw [hoffset]
    show frame'.ref + 8 ≤ _
    omega

/-- The writes of `spa_pod_builder_pop` never need more than the builder has asked for. -/
theorem Inv.pop (h : Inv buffered s) (hsmall : s.builder.offset + 8 + 4096 ≤ 2 ^ 32) :
    Inv buffered (s.step .pop) := by
  rw [step]
  split
  · exact h
  next frame rest hstack =>
  have href := h.frames frame (by rw [hstack]; exact List.mem_cons_self)
  have hreserved := h.backed.reserved
  -- the header
  let patched := s.builder.data.writePod s.builder.size s.builder.offset (some frame.ref)
    frame.pod.bytes
  have hbacked : Backed buffered patched.1 patched.2.1 := by
    apply h.backed.writePod (some frame.ref) frame.pod.bytes
    · show frame.ref ≤ s.builder.offset
      omega
    · show s.builder.size ≤ s.builder.offset ∧ _ ∨ s.builder.offset < s.builder.size ∧
        s.builder.data.data + frame.ref + frame.pod.bytes.length ≤ _
      rw [SpaPOD.length_bytes]
      omega
  let after : Marshal :=
    { builder := { s.builder with
        data := patched.1, size := patched.2.1, stack := rest, inArray := stackInArray rest }
      written := patchBytes s.written frame.ref frame.pod.bytes }
  have hlen : after.written.length = s.written.length := by
    show (patchBytes s.written frame.ref frame.pod.bytes).length = _
    simp only [patchBytes, List.length_append, List.length_take, List.length_drop,
      SpaPOD.length_bytes, h.written]
    omega
  have hafter : Inv buffered after := by
    refine ⟨hbacked, hlen.trans h.written, h.small, ?_, ?_⟩
    · show (PodStore.view patched.1).Holds 0 (patchBytes s.written frame.ref frame.pod.bytes)
      rw [ConnectionStore.view_writePod]
      have hpatch : (frame.ref + frame.pod.bytes.length) ≤ s.written.length := by
        rw [SpaPOD.length_bytes, h.written]
        exact href
      have hholds := h.view.patch hpatch
      rw [Nat.zero_add] at hholds
      exact hholds
    · intro frame' hmem
      apply h.frames
      rw [hstack]
      exact List.mem_cons_of_mem _ hmem
  have hroom : s.builder.offset < patched.2.1 := by
    show s.builder.offset < (ConnectionStore.makeRoom _ _ _ _).2
    unfold ConnectionStore.makeRoom
    split
    · have hle := (ensureSize_reserves s.builder.data.out
        (n := s.builder.offset + frame.pod.bytes.length) (by rw [SpaPOD.length_bytes]; exact hsmall)).2.1
      rw [SpaPOD.length_bytes] at hle ⊢
      show _ < toU32 _
      omega
    · show _ < s.builder.size
      omega
  -- the padding
  have hpop : s.builder.pop = after.builder.pad s.builder.offset :=
    SpaPODBuilder.pop_cons hstack (by unfold invalidRef; omega)
  have hpad : padLength s.builder.offset < 8 := by
    rw [padLength_eq]
    omega
  rw [hpop, SpaPODBuilder.pad]
  split
  · next hzero =>
    have hnone : padding s.written.length = [] := by
      rw [h.written, padding, hzero]
      rfl
    rw [hnone, List.append_nil]
    exact hafter
  · have hlength : (padding s.written.length).length = padLength s.builder.offset := by
      rw [length_padding, h.written]
    have hraw := hafter.raw (padding s.written.length) ?_
    · rw [h.written] at hraw ⊢
      exact hraw
    · refine ⟨?_, Or.inr ?_⟩
      · show s.builder.offset + (padding s.written.length).length + 4096 ≤ 2 ^ 32
        omega
      · have halign := hbacked.aligned
        have hmax := hbacked.reserved
        have hpadded := roundUpN_eight s.builder.offset
        show patched.1.data + s.builder.offset + (padding s.written.length).length ≤
          patched.1.out.bufferMaxsize
        rw [hlength]
        rw [padLength_eq]
        omega

theorem inv_step {c : MarshalCall} (h : Inv buffered s) (hok : s.Reserved c) :
    Inv buffered (s.step c) := by
  cases c with
  | raw bytes => exact h.raw bytes hok
  | push header fields =>
    have hlen : (header.bytes ++ fields).length = 8 + fields.length := by
      rw [List.length_append, SpaPOD.length_bytes]
    have hraw := h.raw (header.bytes ++ fields) (by rw [hlen]; exact hok)
    refine ⟨hraw.backed, hraw.written, hraw.small, hraw.view, ?_⟩
    have hoffset : (s.builder.raw (header.bytes ++ fields)).1.offset =
        s.builder.offset + (8 + fields.length) := by
      rw [← hlen]
      exact toU32_of_lt (by have := hok.1; omega)
    intro frame hframe
    rcases List.mem_cons.mp hframe with rfl | hmem
    · show s.builder.offset + 8 ≤ (s.builder.raw (header.bytes ++ fields)).1.offset
      omega
    · exact hraw.frames frame hmem
  | pop => exact h.pop hok

theorem inv_start (out : ConnectionBuffer) (h : out.Pending buffered) :
    Inv buffered (start out) where
  backed := ⟨rfl, rfl, Or.inl rfl, h⟩
  written := rfl
  small := show 0 + 4096 ≤ 2 ^ 32 by decide
  view := Mem.holds_nil _ _
  frames _ h := absurd h List.not_mem_nil

theorem pending_flushed (out : ConnectionBuffer) : out.Pending out.flushed.1 := by
  refine ⟨Mem.length_read _ _ _, ?_⟩
  show Mem.read _ _ (Mem.read _ _ _).length = _
  rw [Mem.length_read]
  rfl

/-- What is asked of the calls that put a packet together: they have not copied a byte
behind the memory of the connection, and what they wrote is the payload of the packet
that `pinos_connection_end_write` adds to `buffered`. -/
structure Marshals (buffered : List UInt8) (s : Marshal) : Prop where
  inside : s.builder.data.overrun = false
  inPlace : (PodStore.view s.builder.data).Holds 0 s.written
  finished (destId : UInt32) (opcode : UInt8) :
    (s.builder.data.out.endWrite destId opcode s.builder.offset).Pending
      (buffered ++ Packet.bytes ⟨destId, opcode, s.written⟩)

theorem Inv.marshals (h : Inv buffered s) : Marshals buffered s where
  inside := h.backed.overrun
  inPlace := h.view
  finished destId opcode := by
    have hsmall := h.small
    have hwritten := h.written
    have hpayload : s.builder.data.out.bufferData.Holds (s.builder.data.out.bufferSize + 8)
        s.written := by
      apply Mem.holds_iff.mpr
      intro i hi
      have hbyte := Mem.holds_iff.mp h.view i hi
      rw [Nat.zero_add] at hbyte
      exact hbyte
    have hend := h.backed.buffered.endWrite (p := ⟨destId, opcode, s.written⟩) hpayload
      (by show 8 + s.written.length < 2 ^ 32; omega)
    rw [← hwritten]
    exact hend.1

theorem inv_run (out : ConnectionBuffer) (calls : List MarshalCall)
    (hok : Run.Along step Reserved (start out) calls) :
    Inv out.flushed.1 (Run.run step (start out) calls) :=
  Run.run_invariant (Inv out.flushed.1) (fun _ _ h he => inv_step h he)
    (inv_start out (pending_flushed out)) hok

/-- Calls whose writes fit stay inside the memory of the connection and make a packet
of what they wrote, behind the packets that are there. -/
theorem run_marshals (out : ConnectionBuffer) (calls : List MarshalCall)
    (hok : Run.Along step Reserved (start out) calls) :
    Marshals out.flushed.1 (Run.run step (start out) calls) :=
  (inv_run out calls hok).marshals

/-- A connection with a packet that has not been flushed. -/
def unflushed : ConnectionBuffer :=
  (ConnectionBuffer.new (fun _ => 0) false).writePacket 0 ⟨1, 2, [3]⟩

/-- A string in a struct. -/
theorem run_marshals_string :
    Marshals unflushed.flushed.1 (Run.run step (start unflushed)
      [.push ⟨0, .struct⟩ [], .raw (SpaPOD.bytes ⟨3, .string⟩), .raw [104, 105, 0], .pop]) :=
  run_marshals unflushed _ (by decide)

/-- A write that starts below the size of the builder is not measured: of a string with
its header written before, as much as is wanted goes behind the memory. -/
theorem not_marshals :
    ¬ ∀ (out : ConnectionBuffer) (calls : List MarshalCall),
      (calls.map MarshalCall.length).sum + 4096 ≤ 2 ^ 32 →
      Marshals out.flushed.1 (Run.run step (start out) calls) := by
  intro h
  let out : ConnectionBuffer := .new (fun _ => 0) false
  have hsmall : ([.raw (SpaPOD.bytes ⟨9000, .string⟩), .raw (List.replicate 9000 0)].map
      MarshalCall.length).sum + 4096 ≤ 2 ^ 32 := by
    simp only [List.map_cons, List.map_nil, List.sum_cons, List.sum_nil, MarshalCall.length,
      SpaPOD.length_bytes, List.length_replicate]
    decide
  have hbad := (h out [.raw (SpaPOD.bytes ⟨9000, .string⟩), .raw (List.replicate 9000 0)]
    hsmall).inside
  have hover : (Run.run step (start out)
      [.raw (SpaPOD.bytes ⟨9000, .string⟩), .raw (List.replicate 9000 0)]).builder.data.overrun =
        true := by
    rw [Run.run_cons, Run.run_cons, Run.run_nil]
    have hfirst : (step (start out) (.raw (SpaPOD.bytes ⟨9000, .string⟩))).builder.size = 4096 ∧
        (step (start out) (.raw (SpaPOD.bytes ⟨9000, .string⟩))).builder.offset = 8 ∧
        (step (start out) (.raw (SpaPOD.bytes ⟨9000, .string⟩))).builder.data.data = 8 := by
      decide
    obtain ⟨hsize, hoffset, hdata⟩ := hfirst
    show (ConnectionStore.writePod _ _ _ none (List.replicate 9000 0)).1.overrun = true
    rw [hsize, hoffset]
    simp only [ConnectionStore.writePod, ConnectionStore.makeRoom, hdata, List.length_replicate]
    decide
  rw [hover] at hbad
  cases hbad

end Marshal
end Pinos

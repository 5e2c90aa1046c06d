import Pinos.Spa.PodBuilder

/-
What a builder call adds to the value under construction.

`Appends b b' bs` says that going from `b` to `b'` the builder added the bytes
`bs` at its offset and nothing else happened to the memory it has room in.  The
lemmas state it for every direct call, given room, and compose.  A container is
the one place where something already written changes: its header is patched
when it is popped, and `pop_appends` accounts for that once.
-/

namespace Pinos

open ByteMem

/-- A store either keeps the whole run of bytes it is given or drops it. -/
class LawfulPodStore (σ : Type) [PodStore σ] : Prop where
  view_raw (s : σ) (size offset : Nat) (bs : List UInt8) :
    PodStore.accepts s size offset bs.length = true →
      PodStore.view (PodStore.raw s size offset bs).1 = (PodStore.view s).write offset bs ∧
        (PodStore.raw s size offset bs).2.2 = offset
  view_drop (s : σ) (size offset : Nat) (bs : List UInt8) :
    PodStore.accepts s size offset bs.length = false →
      PodStore.view (PodStore.raw s size offset bs).1 = PodStore.view s ∧
        (PodStore.raw s size offset bs).2.2 = invalidRef
  view_patch (s : σ) (size offset ref : Nat) (bs : List UInt8) :
    PodStore.view (PodStore.patch s size offset ref bs).1 = (PodStore.view s).write ref bs
  accepts_raw (s : σ) (size offset : Nat) (bs : List UInt8) :
    PodStore.accepts (PodStore.raw s size offset bs).1 (PodStore.raw s size offset bs).2.1 =
      PodStore.accepts s size
  accepts_patch (s : σ) (size offset ref : Nat) (bs : List UInt8) :
    PodStore.accepts (PodStore.patch s size offset ref bs).1
      (PodStore.patch s size offset ref bs).2 = PodStore.accepts s size

instance : LawfulPodStore PodBuffer where
  view_raw s size offset bs h := by
    have hfit : ¬ size < toU32 (offset + bs.length) := by
      have := of_decide_eq_true h
      omega
    show PodStore.view (if _ then _ else _ : PodBuffer × Nat × Nat).1 = _ ∧ _
    simp only [PodStore.raw, if_neg hfit]
    exact ⟨Mem.view_write s.mem s.data offset bs, trivial⟩
  view_drop s size offset bs h := by
    have hfit : size < toU32 (offset + bs.length) := by
      have := of_decide_eq_false h
      omega
    simp only [PodStore.raw, if_pos hfit, and_self]
  view_patch s size offset ref bs := Mem.view_write s.mem s.data ref bs
  accepts_raw s size offset bs := by
    simp only [PodStore.raw]
    split <;> rfl
  accepts_patch s size offset ref bs := rfl

theorem SpaPODFrame.grow_grow (m n : Nat) (f : SpaPODFrame) :
    (f.grow m).grow n = f.grow (m + n) := by
  simp only [grow, UInt32.ofNat_add, UInt32.add_assoc]

theorem SpaPODFrame.grow_zero (f : SpaPODFrame) : f.grow 0 = f := by
  show { f with pod := { f.pod with size := f.pod.size + 0 } } = f
  rw [UInt32.add_zero]

theorem SpaPODFrame.map_grow_zero (fs : List SpaPODFrame) : fs.map (grow 0) = fs := by
  rw [List.map_congr_left fun f _ => f.grow_zero, List.map_id']

theorem stackInArray_grow (n : Nat) (fs : List SpaPODFrame) :
    stackInArray (fs.map (SpaPODFrame.grow n)) = stackInArray fs := by
  cases fs <;> rfl

theorem SpaPODFrame.map_grow_grow (m n : Nat) (fs : List SpaPODFrame) :
    (fs.map (grow m)).map (grow n) = fs.map (grow (m + n)) := by
  rw [List.map_map]
  exact List.map_congr_left fun f _ => grow_grow m n f

namespace SpaPODBuilder

variable {σ : Type} [PodStore σ] {b b' b'' : SpaPODBuilder σ}

/-- The next `n` bytes will be kept, however they are cut into calls. -/
structure Room (b : SpaPODBuilder σ) (n : Nat) : Prop where
  lt : b.offset + n < 2 ^ 32
  accepts : ∀ i j, i + j ≤ n → PodStore.accepts b.data b.size (b.offset + i) j = true

structure Appends (b b' : SpaPODBuilder σ) (bs : List UInt8) : Prop where
  view : PodStore.view b'.data = (PodStore.view b.data).write b.offset bs
  offset : b'.offset = b.offset + bs.length
  stack : b'.stack = b.stack.map (SpaPODFrame.grow bs.length)
  inArray : b'.inArray = b.inArray
  accepts : PodStore.accepts b'.data b'.size = PodStore.accepts b.data b.size

theorem Appends.trans {xs ys : List UInt8} (h : Appends b b' xs) (h' : Appends b' b'' ys) :
    Appends b b'' (xs ++ ys) where
  view := by rw [h'.view, h.view, h.offset, Mem.write_append]
  offset := by rw [h'.offset, h.offset, List.length_append, Nat.add_assoc]
  stack := by rw [h'.stack, h.stack, SpaPODFrame.map_grow_grow, List.length_append]
  inArray := h'.inArray.trans h.inArray
  accepts := h'.accepts.trans h.accepts

theorem Room.mono {m n : Nat} (h : b.Room n) (hmn : m ≤ n) : b.Room m where
  lt := Nat.lt_of_le_of_lt (Nat.add_le_add_left hmn _) h.lt
  accepts i j hij := h.accepts i j (Nat.le_trans hij hmn)

/-- A buffer has room for what ends inside of it. -/
theorem room_of_le {b : SpaPODBuilder PodBuffer} {n : Nat} (h : b.offset + n ≤ b.size)
    (hlt : b.size < 2 ^ 32) : b.Room n := by
  refine ⟨Nat.lt_of_le_of_lt h hlt, fun i j hij => ?_⟩
  show decide (toU32 (b.offset + i + j) ≤ b.size) = true
  rw [toU32_of_lt (by omega)]
  exact decide_eq_true (by omega)

theorem room_init {store : PodBuffer} {size n : Nat} (h : n ≤ size) (hsize : size < 2 ^ 32) :
    (init store size).Room n :=
  room_of_le ((Nat.zero_add n).trans_le h) hsize

/-- Room that is left when part of it has been used. -/
theorem Room.after {n : Nat} {bs : List UInt8} (h : b.Room (bs.length + n))
    (ha : Appends b b' bs) : b'.Room n where
  lt := by
    have := h.lt
    rw [ha.offset]
    omega
  accepts i j hij := by
    have := h.accepts (bs.length + i) j (by omega)
    rwa [ha.accepts, ha.offset, Nat.add_assoc]

/-- The flag `first` does not matter to `Appends`. -/
theorem Appends.setFirst {bs : List UInt8} (f : Bool)
    (h : Appends { b with first := f } b' bs) : Appends b b' bs :=
  ⟨h.view, h.offset, h.stack, h.inArray, h.accepts⟩

theorem Appends.refl (b : SpaPODBuilder σ) : Appends b b [] where
  view := (Mem.write_nil _ _).symm
  offset := rfl
  stack := by
    rw [List.length_nil, SpaPODFrame.map_grow_zero]
  inArray := rfl
  accepts := rfl

variable [LawfulPodStore σ]

theorem raw_appends {bs : List UInt8} (h : b.Room bs.length) :
    Appends b (b.raw bs).1 bs ∧ (b.raw bs).2 = b.offset := by
  have hacc := h.accepts 0 bs.length (by omega)
  rw [Nat.add_zero] at hacc
  obtain ⟨hview, href⟩ := LawfulPodStore.view_raw b.data b.size b.offset bs hacc
  exact ⟨⟨hview, toU32_of_lt h.lt, rfl, rfl,
    LawfulPodStore.accepts_raw b.data b.size b.offset bs⟩, href⟩

theorem pad_appends {n : Nat} (h : b.Room (padLength n)) :
    Appends b (b.pad n) (padding n) := by
  unfold pad
  split
  · next hz =>
    have hnil : padding n = [] := by rw [padding, hz]; rfl
    rw [hnil]
    exact Appends.refl b
  · exact (raw_appends (by rwa [length_padding])).1

/-- A body and its padding, as strings, bytes and whole pods are written. -/
theorem rawPadded_appends {bs : List UInt8} (h : b.Room (Pod.aligned bs).length) :
    Appends b (b.rawPadded bs).1 (Pod.aligned bs) := by
  rw [Pod.length_aligned] at h
  unfold rawPadded
  split
  · next hz =>
    have hbs : bs = [] := List.length_eq_zero_iff.mp hz
    subst hbs
    exact pad_appends (n := 0) (h.mono (Nat.le_refl _))
  · have hraw := (raw_appends (h.mono (Nat.le_add_right bs.length _))).1
    exact hraw.trans (pad_appends (h.after hraw))

theorem primitive_appends {t : SpaPODType} {bs : List UInt8} (hin : b.inArray = false)
    (h : b.Room (Pod.aligned (Pod.withHeader t bs)).length) :
    Appends b (b.primitive t bs).1 (Pod.aligned (Pod.withHeader t bs)) := by
  rw [Pod.length_aligned] at h
  let b₀ : SpaPODBuilder σ := { b with first := false }
  have h₀ : b₀.Room ((Pod.withHeader t bs).length + padLength (Pod.withHeader t bs).length) :=
    ⟨h.lt, h.accepts⟩
  have hraw := (raw_appends (h₀.mono (Nat.le_add_right _ _))).1
  have hall := hraw.trans (pad_appends (h₀.after hraw))
  have heq : (b.primitive t bs).1 =
      (b₀.raw (Pod.withHeader t bs)).1.pad (Pod.withHeader t bs).length := by
    simp [primitive, hin, b₀]
  rw [heq]
  exact Appends.setFirst false hall

theorem aligned_withHeader (t : SpaPODType) (bs : List UInt8) :
    Pod.aligned (Pod.withHeader t bs) =
      SpaPOD.bytes ⟨.ofNat bs.length, t⟩ ++ Pod.aligned bs := by
  have hpad : padding (Pod.withHeader t bs).length = padding bs.length := by
    rw [padding, padding, padLength_eq, padLength_eq, Pod.length_withHeader]
    congr 2
    omega
  rw [Pod.aligned, hpad, Pod.withHeader, Pod.aligned, List.append_assoc]

theorem sized_appends {t : SpaPODType} {bs : List UInt8}
    (h : b.Room (Pod.aligned (Pod.withHeader t bs)).length) :
    Appends b (b.sized t bs).1 (Pod.aligned (Pod.withHeader t bs)) := by
  rw [aligned_withHeader] at h ⊢
  rw [List.length_append] at h
  have hhead := (raw_appends (h.mono (Nat.le_add_right _ _))).1
  exact hhead.trans (rawPadded_appends (h.after hhead))

/-! ## Containers -/

omit [LawfulPodStore σ] in
theorem pop_cons {frame : SpaPODFrame} {rest : List SpaPODFrame}
    (hstack : b.stack = frame :: rest) (href : frame.ref ≠ invalidRef) :
    b.pop =
      { b with
        data := (PodStore.patch b.data b.size b.offset frame.ref frame.pod.bytes).1
        size := (PodStore.patch b.data b.size b.offset frame.ref frame.pod.bytes).2
        stack := rest
        inArray := stackInArray rest : SpaPODBuilder σ }.pad b.offset := by
  unfold pop
  rw [hstack]
  simp only [if_neg href]

/-- A container from the call that pushes it to the call that pops it, which aligns what
follows.  `fields` are the words that belong to the container itself and `contents` is what
the calls in between appended. -/
theorem container_appends_aligned {t : SpaPODType} {fields contents : List UInt8}
    (hinner : Appends (b.pushContainer ⟨.ofNat fields.length, t⟩ fields).1 b' contents)
    (h : b.Room (Pod.aligned (Pod.withHeader t (fields ++ contents))).length)
    (halign : b.offset % 8 = 0) (hstack : b.inArray = stackInArray b.stack) :
    Appends b b'.pop (Pod.aligned (Pod.withHeader t (fields ++ contents))) := by
  rw [Pod.length_aligned, Pod.length_withHeader] at h
  have hlen : (fields ++ contents).length = fields.length + contents.length :=
    List.length_append
  let header : SpaPOD := ⟨.ofNat fields.length, t⟩
  have hhead : (header.bytes ++ fields).length = 8 + fields.length := by
    rw [List.length_append, SpaPOD.length_bytes]
  obtain ⟨hraw, href⟩ := raw_appends
    (show b.Room (header.bytes ++ fields).length from h.mono (by omega))
  have hoff : b.offset ≠ invalidRef := by
    have := h.lt
    unfold invalidRef
    omega
  -- the frame of this container, with the size its contents have given it
  let frame : SpaPODFrame := ⟨⟨.ofNat (fields ++ contents).length, t⟩, b.offset⟩
  let rest := b.stack.map (SpaPODFrame.grow (8 + (fields ++ contents).length))
  have hstk : b'.stack = frame :: rest := by
    have hgrow : (⟨header, (b.raw (header.bytes ++ fields)).2⟩ : SpaPODFrame).grow
        contents.length = frame := by
      simp only [SpaPODFrame.grow, href, frame, header, hlen, UInt32.ofNat_add]
    have hrest : (b.raw (header.bytes ++ fields)).1.stack.map
        (SpaPODFrame.grow contents.length) = rest := by
      rw [hraw.stack, SpaPODFrame.map_grow_grow, hhead, Nat.add_assoc, ← hlen]
    rw [hinner.stack]
    show _ :: _ = _
    rw [← hgrow, ← hrest]
    rfl
  have hoff' : b'.offset = b.offset + (8 + (fields ++ contents).length) := by
    rw [hinner.offset]
    show (b.raw (header.bytes ++ fields)).1.offset + _ = _
    rw [hraw.offset, hhead, hlen]
    omega
  have hview : PodStore.view b'.data = (PodStore.view b.data).write b.offset
      (header.bytes ++ (fields ++ contents)) := by
    rw [hinner.view]
    show (PodStore.view (b.raw (header.bytes ++ fields)).1.data).write
      (b.raw (header.bytes ++ fields)).1.offset contents = _
    rw [hraw.view, hraw.offset, ← Mem.write_append, List.append_assoc]
  let patched := PodStore.patch b'.data b'.size b'.offset b.offset frame.pod.bytes
  let closed : SpaPODBuilder σ :=
    { b' with data := patched.1, size := patched.2, stack := rest, inArray := stackInArray rest }
  have hclosed : Appends b closed (Pod.withHeader t (fields ++ contents)) := by
    refine ⟨?_, ?_, ?_, ?_, ?_⟩
    · show PodStore.view patched.1 = _
      rw [LawfulPodStore.view_patch, hview,
        Mem.write_patch _ _ _ (by rw [SpaPOD.length_bytes, SpaPOD.length_bytes])]
      rfl
    · rw [Pod.length_withHeader]
      exact hoff'
    · rw [Pod.length_withHeader]
    · show stackInArray rest = b.inArray
      rw [stackInArray_grow, hstack]
    · show PodStore.accepts patched.1 patched.2 = _
      rw [LawfulPodStore.accepts_patch, hinner.accepts]
      exact hraw.accepts
  have hpad : padLength b'.offset = padLength (8 + (fields ++ contents).length) := by
    rw [padLength_eq, padLength_eq, hoff']
    omega
  have hpadding : padding b'.offset = padding (Pod.withHeader t (fields ++ contents)).length := by
    rw [padding, hpad, padding, Pod.length_withHeader]
  have hroom : closed.Room (padLength b'.offset) := by
    rw [hpad]
    refine Room.after ?_ hclosed
    rw [Pod.length_withHeader]
    exact h
  rw [pop_cons hstk hoff, Pod.aligned, ← hpadding]
  exact hclosed.trans (pad_appends hroom)

/-- A container whose contents are aligned. -/
theorem container_appends {t : SpaPODType} {fields contents : List UInt8}
    (hinner : Appends (b.pushContainer ⟨.ofNat fields.length, t⟩ fields).1 b' contents)
    (h : b.Room (8 + (fields ++ contents).length)) (halign : b.offset % 8 = 0)
    (hmod : (fields ++ contents).length % 8 = 0)
    (hstack : b.inArray = stackInArray b.stack) :
    Appends b b'.pop (Pod.withHeader t (fields ++ contents)) := by
  have haligned : Pod.aligned (Pod.withHeader t (fields ++ contents)) =
      Pod.withHeader t (fields ++ contents) := by
    apply Pod.aligned_of_mod
    rw [Pod.length_withHeader]
    omega
  rw [← haligned]
  refine container_appends_aligned hinner ?_ halign hstack
  rw [haligned, Pod.length_withHeader]
  exact h

end SpaPODBuilder
end Pinos

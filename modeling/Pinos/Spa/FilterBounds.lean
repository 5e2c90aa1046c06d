import Pinos.Spa.FilterWrites

/-
Where `spa_format_filter` writes: behind what is written already and inside of the buffer, as
long as the pointer to a property that is narrowed points to one that is in the buffer.
-/

namespace Pinos

open ByteMem

/-! ## A property that is changed where it stands -/

section Memory

variable {m : Mem} {a np i : Nat} {bs : List UInt8}

theorem copyWhen_outside {test : Int32 → Bool} {compare : List UInt8 → List UInt8 → Int32}
    {n b : Nat} (h : i < a ∨ a + n ≤ i) : copyWhen test compare n m a b i = m i := by
  rw [copyWhen]
  split
  · exact Mem.write_outside m (by rw [Mem.length_read]; exact h)
  · rfl

/-- `fix_default` writes the flags and the value. -/
theorem fixDefault_outside (h : i < np + 12 ∨ np + 24 + m.u32 (np + 16) ≤ i) :
    fixDefault m np i = m i := by
  have hvalue : i < np + 24 ∨ np + 24 + m.u32 (np + 16) ≤ i := by omega
  have hflags (flags : UInt32) : i < np + 12 ∨ np + 12 + (toLE 4 flags.toNat).length ≤ i := by
    rw [length_toLE]
    omega
  rw [fixDefault]
  cases hrange : SpaPropRange.of (.ofNat (m.u32 (np + 12))) with
  | minMax | step =>
    dsimp only
    rw [copyWhen_outside hvalue, copyWhen_outside hvalue]
  | enum =>
    dsimp only
    generalize hbest : (List.find? _ _ <|> List.head? _) = best
    cases best with
    | none =>
      dsimp only
      split
      · exact Mem.write_outside _ (hflags _)
      · rfl
    | some best =>
      obtain ⟨k, -, rfl⟩ := List.mem_map.mp (mem_of_find_or_head hbest)
      dsimp only
      split
      · rw [Mem.write_outside _ (hflags _)]
        exact Mem.write_outside m (by rw [Mem.length_read]; exact hvalue)
      · exact Mem.write_outside m (by rw [Mem.length_read]; exact hvalue)
  | none | flags | other => rfl

theorem orFlags_outside {flags : UInt32} (h : i < np + 12 ∨ np + 16 ≤ i) :
    SpaPODBuilder.orFlags flags m np i = m i := by
  rw [SpaPODBuilder.orFlags]
  exact Mem.write_outside m (by rw [length_toLE]; omega)

end Memory

/-! ## Bytes that are written or dropped -/

namespace SpaPODBuilder

/-- What a builder that has gone on by `n` bytes has changed: nothing in front of where it was
and nothing behind the buffer. -/
structure Advances (b b' : SpaPODBuilder PodBuffer) (n : Nat) : Prop where
  data : b'.data.data = b.data.data
  size : b'.size = b.size
  mem : ∀ a, a < b.data.data + b.offset ∨ b.data.data + b.size ≤ a →
    b'.data.mem a = b.data.mem a
  offset : b'.offset = b.offset + n
  stack : b'.stack = b.stack.map (SpaPODFrame.grow n)

section Advances

variable {b b' b'' : SpaPODBuilder PodBuffer} {n k : Nat} {bs : List UInt8}

theorem Advances.refl (b : SpaPODBuilder PodBuffer) : Advances b b 0 where
  data := rfl
  size := rfl
  mem _ _ := rfl
  offset := rfl
  stack := (SpaPODFrame.map_grow_zero b.stack).symm

theorem Advances.trans (h : Advances b b' n) (h' : Advances b' b'' k) :
    Advances b b'' (n + k) where
  data := h'.data.trans h.data
  size := h'.size.trans h.size
  mem a ha := by
    rw [h'.mem a (by rw [h.data, h.offset, h.size]; omega), h.mem a ha]
  offset := by rw [h'.offset, h.offset, Nat.add_assoc]
  stack := by rw [h'.stack, h.stack, SpaPODFrame.map_grow_grow]

theorem store_written (h : ¬ b.size < toU32 (b.offset + bs.length)) :
    PodStore.raw b.data b.size b.offset bs =
      ({ b.data with mem := b.data.mem.write (b.data.data + b.offset) bs }, b.size, b.offset) :=
  if_neg h

theorem raw_advances (h : b.offset + bs.length < 2 ^ 32) : Advances b (b.raw bs).1 bs.length := by
  have hoffset : (b.raw bs).1.offset = b.offset + bs.length := toU32_of_lt h
  by_cases hfits : b.size < toU32 (b.offset + bs.length)
  · have hraw : PodStore.raw b.data b.size b.offset bs = (b.data, b.size, invalidRef) :=
      if_pos hfits
    rw [raw, hraw] at hoffset ⊢
    exact ⟨rfl, rfl, fun _ _ => rfl, hoffset, rfl⟩
  · have hraw := store_written hfits
    rw [toU32_of_lt h] at hfits
    rw [raw, hraw] at hoffset ⊢
    exact ⟨rfl, rfl, fun a ha => Mem.write_outside _ (by omega), hoffset, rfl⟩

theorem pad_advances (h : b.offset + padLength n < 2 ^ 32) :
    Advances b (b.pad n) (padLength n) := by
  unfold pad
  split
  · next hzero =>
    rw [hzero]
    exact Advances.refl b
  · have hraw := @raw_advances b (padding n) (by rw [length_padding]; exact h)
    rw [length_padding] at hraw
    exact hraw

theorem rawPadded_advances (h : b.offset + (Pod.aligned bs).length < 2 ^ 32) :
    Advances b (b.rawPadded bs).1 (Pod.aligned bs).length := by
  rw [Pod.length_aligned] at h ⊢
  unfold rawPadded
  split
  · next hzero =>
    rw [hzero, Nat.zero_add] at h ⊢
    exact pad_advances h
  · have hraw := @raw_advances b bs (by omega)
    exact hraw.trans (pad_advances (by rw [hraw.offset]; omega))

theorem foldl_raw_advances {alternatives : List (List UInt8)}
    (h : b.offset + alternatives.flatten.length < 2 ^ 32) :
    Advances b (alternatives.foldl (fun b a => (b.raw a).1) b) alternatives.flatten.length := by
  induction alternatives generalizing b with
  | nil => exact Advances.refl b
  | cons value alternatives ih =>
    rw [List.flatten_cons, List.length_append] at h ⊢
    have hraw := @raw_advances b value (by omega)
    exact hraw.trans (ih (by rw [hraw.offset]; omega))

end Advances

/-! ## A property that is narrowed -/

section Turn

variable {b b' : SpaPODBuilder PodBuffer} {p p1 p2 : PropPod} {flags : UInt32} {n : Nat}
  {alternatives : List (List UInt8)}

/-- A change of bytes that are written already. -/
theorem Advances.changed {change : Mem → Nat → Mem} {np : Nat} (h : Advances b b' n)
    (hchange : ∀ a, a < b.data.data + b.offset ∨ b.data.data + b.size ≤ a →
      change b'.data.mem (b.data.data + np) a = b'.data.mem a) :
    Advances b (b'.changed change np) n where
  data := h.data
  size := h.size
  mem a ha := by
    show change b'.data.mem (b'.data.data + np) a = b.data.mem a
    rw [h.data, hchange a ha, h.mem a ha]
  offset := h.offset
  stack := h.stack

/-- A builder that has written properties: it has stayed in the buffer, and the frames that
there were are below those that have been left open. -/
structure Stays (b b' : SpaPODBuilder PodBuffer) : Prop where
  data : b'.data.data = b.data.data
  size : b'.size = b.size
  mem : ∀ a, a < b.data.data + b.offset ∨ b.data.data + b.size ≤ a →
    b'.data.mem a = b.data.mem a
  le : b.offset ≤ b'.offset
  offset_le : b'.offset + 8 ≤ 2 ^ 32
  frames : ∃ opened, b'.stack.map SpaPODFrame.ref = opened ++ b.stack.map SpaPODFrame.ref

theorem map_ref_grow (k : Nat) (frames : List SpaPODFrame) :
    (frames.map (SpaPODFrame.grow k)).map SpaPODFrame.ref = frames.map SpaPODFrame.ref := by
  rw [List.map_map]
  rfl

theorem Advances.stays (h : Advances b b' n) (hoffset : b.offset + n + 8 ≤ 2 ^ 32) :
    Stays b b' where
  data := h.data
  size := h.size
  mem := h.mem
  le := by rw [h.offset]; exact Nat.le_add_right _ _
  offset_le := by rw [h.offset]; exact hoffset
  frames := ⟨[], by rw [h.stack, map_ref_grow, List.nil_append]⟩

theorem Stays.trans {b'' : SpaPODBuilder PodBuffer} (h : Stays b b') (h' : Stays b' b'') :
    Stays b b'' where
  data := h'.data.trans h.data
  size := h'.size.trans h.size
  mem a ha := by
    have hle := h.le
    rw [h'.mem a (by rw [h.data, h.size]; omega), h.mem a ha]
  le := Nat.le_trans h.le h'.le
  offset_le := h'.offset_le
  frames := by
    obtain ⟨opened, hopened⟩ := h.frames
    obtain ⟨opened', hopened'⟩ := h'.frames
    exact ⟨opened' ++ opened, by rw [hopened', hopened, List.append_assoc]⟩

/-- A property that is pushed, whether it has room or not. -/
theorem pushProp_stays {key : UInt32} (h : b.offset + 16 + 8 ≤ 2 ^ 32) :
    Stays b (b.pushProp key flags).1 ∧ (b.pushProp key flags).1.offset = b.offset + 16 := by
  have hlength : (SpaPOD.bytes ⟨8, .prop⟩ ++ (toLE 4 key.toNat ++ toLE 4 flags.toNat)).length =
      16 := by
    simp only [List.length_append, SpaPOD.length_bytes, length_toLE]
  have hraw := @raw_advances b (SpaPOD.bytes ⟨8, .prop⟩ ++
    (toLE 4 key.toNat ++ toLE 4 flags.toNat)) (by rw [hlength]; omega)
  rw [hlength] at hraw
  rw [pushProp, pushContainer]
  generalize b.raw (SpaPOD.bytes ⟨8, .prop⟩ ++ (toLE 4 key.toNat ++ toLE 4 flags.toNat)) = start
    at hraw ⊢
  have hstays := hraw.stays h
  obtain ⟨opened, hopened⟩ := hstays.frames
  exact ⟨⟨hstays.data, hstays.size, hstays.mem, hstays.le, hstays.offset_le,
    start.2 :: opened, congrArg (List.cons start.2) hopened⟩, hraw.offset⟩

theorem raw_fits {bs : List UInt8} (h : b.offset + bs.length ≤ b.size) (hlt : b.size < 2 ^ 32) :
    (b.raw bs).1.data.mem = b.data.mem.write (b.data.data + b.offset) bs := by
  have hfits : ¬ b.size < toU32 (b.offset + bs.length) := by
    rw [toU32_of_lt (by omega)]
    omega
  rw [raw, store_written hfits]

/-- A property of `n` bytes is being written where `b` is, and the size of its value is in
memory. -/
structure Writing (b b' : SpaPODBuilder PodBuffer) (valueSize n : Nat) : Prop where
  data : b'.data.data = b.data.data
  size : b'.size = b.size
  mem : ∀ a, a < b.data.data + b.offset ∨ b.data.data + b.size ≤ a →
    b'.data.mem a = b.data.mem a
  offset : b'.offset = b.offset + n
  stack : ∃ header, b'.stack = ⟨header, b.offset⟩ :: b.stack.map (SpaPODFrame.grow n)
  value : b'.data.mem.u32 (b.data.data + b.offset + 16) = valueSize

theorem Writing.orFlags {valueSize : Nat} (h : Writing b b' valueSize n)
    (hfits : b.offset + 16 ≤ b.size) :
    Writing b (b'.changed (orFlags flags) b.offset) valueSize n where
  data := h.data
  size := h.size
  mem a ha := by
    show SpaPODBuilder.orFlags flags b'.data.mem (b'.data.data + b.offset) a = b.data.mem a
    rw [h.data, orFlags_outside (by omega), h.mem a ha]
  offset := h.offset
  stack := h.stack
  value := by
    rw [← h.value]
    refine Mem.u32_congr fun a hlo hhi => ?_
    show SpaPODBuilder.orFlags flags b'.data.mem (b'.data.data + b.offset) a = _
    rw [h.data]
    exact orFlags_outside (by omega)

/-- A container whose header has been patched. -/
def closed (b : SpaPODBuilder PodBuffer) (frame : SpaPODFrame) (rest : List SpaPODFrame) :
    SpaPODBuilder PodBuffer :=
  { b with
    data := { b.data with mem := b.data.mem.write (b.data.data + frame.ref) frame.pod.bytes }
    stack := rest
    inArray := stackInArray rest }

theorem closed_mem {frame : SpaPODFrame} {rest : List SpaPODFrame} {a : Nat}
    (h : a < b.data.data + frame.ref ∨ b.data.data + frame.ref + 8 ≤ a) :
    (b.closed frame rest).data.mem a = b.data.mem a :=
  Mem.write_outside _ (by rw [SpaPOD.length_bytes]; exact h)

theorem pop_closed {frame : SpaPODFrame} {rest : List SpaPODFrame}
    (hstack : b.stack = frame :: rest) (href : frame.ref < invalidRef)
    (hsmall : b.offset + padLength b.offset < 2 ^ 32) :
    Advances (b.closed frame rest) b.pop (padLength b.offset) := by
  have hpop : b.pop = (b.closed frame rest).pad b.offset := pop_cons hstack (Nat.ne_of_lt href)
  rw [hpop]
  exact pad_advances hsmall

/-- A property that is closed. -/
theorem Writing.pop {valueSize : Nat} (h : Writing b b' valueSize n) (hn : 24 ≤ n)
    (hfits : b.offset + 8 ≤ b.size)
    (hsmall : b.offset + n + padLength (b.offset + n) < 2 ^ 32) :
    Advances b b'.pop (n + padLength (b.offset + n)) ∧
      b'.pop.data.mem.u32 (b.data.data + b.offset + 16) = valueSize := by
  obtain ⟨header, hstack⟩ := h.stack
  have href : b.offset < invalidRef := by
    unfold invalidRef
    omega
  have hpop := pop_closed hstack href (by rw [h.offset]; exact hsmall)
  have hmem {a : Nat} (ha : a < b.data.data + b.offset ∨ b.data.data + b.offset + 8 ≤ a) :
      (b'.closed ⟨header, b.offset⟩ (b.stack.map (SpaPODFrame.grow n))).data.mem a =
        b'.data.mem a := closed_mem (by rw [h.data]; exact ha)
  have hclosed : Advances b (b'.closed ⟨header, b.offset⟩ (b.stack.map (SpaPODFrame.grow n))) n :=
    ⟨h.data, h.size, fun a ha => (hmem (by omega)).trans (h.mem a ha), h.offset, rfl⟩
  rw [h.offset] at hpop
  refine ⟨hclosed.trans hpop, ?_⟩
  rw [← h.value]
  refine Mem.u32_congr fun a hlo hhi => ?_
  rw [hpop.mem a (by rw [hclosed.data, hclosed.offset]; omega)]
  exact hmem (by omega)

/-- A property and its value that fit are in memory while the alternatives are written. -/
theorem writing_values (hfits : b.offset + 24 + p.body.value.length ≤ b.size)
    (hlt : b.size < 2 ^ 32)
    (hsmall : b.offset + (p.narrowed flags alternatives).bytes.length < 2 ^ 32) :
    Writing b (alternatives.foldl (fun b a => (b.raw a).1)
      ((b.pushProp p.key 0).1.raw (Pod.withHeader p.type p.body.value)).1) p.body.value.length
        (p.narrowed flags alternatives).bytes.length ∧ (b.pushProp p.key 0).2 = b.offset := by
  have hlength := PropPod.length_narrowed p flags alternatives
  rw [Pod.length_withHeader] at hlength
  obtain ⟨hpush, href⟩ := @pushProp_pushed b 0 p.key (room_of_le (by omega) hlt)
  have hstart := (@pushProp_stays b 0 p.key (by omega)).1
  generalize (b.pushProp p.key 0).1 = b1 at hpush hstart ⊢
  have hdata1 := hstart.data
  have hsize1 := hstart.size
  have hsizes : (Pod.withHeader p.type p.body.value).length = 8 + p.body.value.length :=
    Pod.length_withHeader _ _
  have hfits1 : b1.offset + (Pod.withHeader p.type p.body.value).length ≤ b1.size := by
    rw [hpush.offset, hsizes, hsize1]
    omega
  have hvalue : Advances b1 (b1.raw (Pod.withHeader p.type p.body.value)).1
      (Pod.withHeader p.type p.body.value).length := raw_advances (by rw [hsize1] at hfits1; omega)
  have hin : (b1.raw (Pod.withHeader p.type p.body.value)).1.data.mem.u32
      (b.data.data + b.offset + 16) = p.body.value.length := by
    have hholds := (Mem.holds_write b1.data.mem (b1.data.data + b1.offset)
      (Pod.withHeader p.type p.body.value)).left
    rw [raw_fits hfits1 (by rw [hsize1]; exact hlt), Nat.add_assoc, ← hpush.offset, ← hdata1]
    exact (holds_header hholds).1.trans (UInt32.toNat_ofNat_of_lt' (by show _ < 2 ^ 32; omega))
  generalize (b1.raw (Pod.withHeader p.type p.body.value)).1 = b2 at hvalue hin ⊢
  rw [hsizes] at hvalue
  have hoffset2 := hvalue.offset
  rw [hpush.offset] at hoffset2
  have hrest : Advances b2 (alternatives.foldl (fun b a => (b.raw a).1) b2)
      alternatives.flatten.length := foldl_raw_advances (by rw [hoffset2]; omega)
  have hall := hvalue.trans hrest
  generalize alternatives.foldl (fun b a => (b.raw a).1) b2 = b3 at hrest hall ⊢
  refine ⟨⟨?_, ?_, fun a ha => ?_, ?_, ?_, ?_⟩, href⟩
  · rw [hall.data, hdata1]
  · rw [hall.size, hsize1]
  · rw [hall.mem a (by rw [hdata1, hsize1, hpush.offset]; omega), hstart.mem a ha]
  · rw [hall.offset, hpush.offset, hlength, Nat.add_assoc]
  · refine ⟨(SpaPODFrame.grow (8 + p.body.value.length + alternatives.flatten.length)
      ⟨⟨8, .prop⟩, b.offset⟩).pod, ?_⟩
    rw [hall.stack, hpush.stack, List.map_cons, SpaPODFrame.map_grow_grow, hlength]
    rfl
  · rw [← hin]
    refine Mem.u32_congr fun a hlo hhi => hrest.mem a ?_
    rw [hvalue.data, hdata1, hoffset2]
    omega

/-- A property that is narrowed is written inside of the buffer when its value is in it. -/
theorem filterProp_advances (haligned : b.offset % 8 = 0) (htype : p1.type = p2.type)
    (hnarrow : p1.body.narrow p1.type.compareValue p2.body = .ok (flags, alternatives))
    (hfits : b.offset + 24 + p1.body.value.length ≤ b.size) (hlt : b.size < 2 ^ 32)
    (hsmall : b.offset + (Pod.aligned (p1.narrowed flags alternatives).bytes).length < 2 ^ 32) :
    Advances b (b.filterProp p1 p2).1
      (Pod.aligned (p1.narrowed flags alternatives).bytes).length := by
  have hlength := PropPod.length_bytes (p1.narrowed flags alternatives)
  have hpad : padLength (b.offset + (p1.narrowed flags alternatives).bytes.length) =
      padLength (p1.narrowed flags alternatives).bytes.length := by
    rw [padLength_eq, padLength_eq]
    omega
  rw [Pod.length_aligned, ← hpad] at hsmall ⊢
  obtain ⟨hwriting, href⟩ :=
    @writing_values b p1 flags alternatives hfits hlt (by omega)
  have hturn : b.filterProp p1 p2 =
      (((((alternatives.foldl (fun b a => (b.raw a).1)
        ((b.pushProp p1.key 0).1.raw (Pod.withHeader p1.type p1.body.value)).1)).changed
          (orFlags flags) b.offset).pop).changed fixDefault b.offset, .ok) := by
    rw [filterProp, if_neg (not_not.mpr htype)]
    dsimp only
    rw [hnarrow, href]
  rw [hturn]
  have hflags := @Writing.orFlags b _ flags _ _ hwriting (by omega)
  obtain ⟨hpop, hvalue⟩ := hflags.pop (by omega) (by omega) (by omega)
  refine hpop.changed fun a ha => fixDefault_outside ?_
  rw [hvalue]
  omega

/-! ## The properties of a format -/

/-- The properties of a format that are narrowed have their values in a buffer of `size` bytes
when they are written from `offset` on, and the offset does not wrap around. -/
def ValuesFit (filter : List PropPod) (size : Nat) : Nat → List PropPod → Prop
  | offset, [] => offset + 8 ≤ 2 ^ 32
  | offset, p1 :: props =>
    match PropPod.findProp filter p1.key with
    | none => ValuesFit filter size (offset + (Pod.aligned p1.bytes).length) props
    | some p2 =>
      if p1.type = p2.type then
        match p1.body.narrow p1.type.compareValue p2.body with
        | .error _ => offset + 24 + p1.body.value.length + 8 ≤ 2 ^ 32
        | .ok (flags, alternatives) =>
          offset + 24 + p1.body.value.length ≤ size ∧ ValuesFit filter size
            (offset + (Pod.aligned (p1.narrowed flags alternatives).bytes).length) props
      else offset + 8 ≤ 2 ^ 32

section ValuesFit

variable {filter props : List PropPod} {size offset : Nat} {res : SpaResult}

theorem valuesFit_cons_none (hfind : PropPod.findProp filter p1.key = none) :
    ValuesFit filter size offset (p1 :: props) ↔
      ValuesFit filter size (offset + (Pod.aligned p1.bytes).length) props := by
  rw [ValuesFit, hfind]

theorem valuesFit_cons_of_ne (hfind : PropPod.findProp filter p1.key = some p2)
    (htype : p1.type ≠ p2.type) :
    ValuesFit filter size offset (p1 :: props) ↔ offset + 8 ≤ 2 ^ 32 := by
  rw [ValuesFit, hfind]
  dsimp only
  rw [if_neg htype]

theorem valuesFit_cons_error (hfind : PropPod.findProp filter p1.key = some p2)
    (htype : p1.type = p2.type)
    (hnarrow : p1.body.narrow p1.type.compareValue p2.body = .error res) :
    ValuesFit filter size offset (p1 :: props) ↔
      offset + 24 + p1.body.value.length + 8 ≤ 2 ^ 32 := by
  rw [ValuesFit, hfind]
  dsimp only
  rw [if_pos htype, hnarrow]

theorem valuesFit_cons_ok (hfind : PropPod.findProp filter p1.key = some p2)
    (htype : p1.type = p2.type)
    (hnarrow : p1.body.narrow p1.type.compareValue p2.body = .ok (flags, alternatives)) :
    ValuesFit filter size offset (p1 :: props) ↔
      offset + 24 + p1.body.value.length ≤ size ∧ ValuesFit filter size
        (offset + (Pod.aligned (p1.narrowed flags alternatives).bytes).length) props := by
  rw [ValuesFit, hfind]
  dsimp only
  rw [if_pos htype, hnarrow]

theorem ValuesFit.offset_le (h : ValuesFit filter size offset props) : offset + 8 ≤ 2 ^ 32 := by
  induction props generalizing offset with
  | nil => exact h
  | cons p1 props ih =>
    cases hfind : PropPod.findProp filter p1.key with
    | none =>
      have hrest := ih ((valuesFit_cons_none hfind).mp h)
      omega
    | some p2 =>
      by_cases htype : p1.type = p2.type
      · cases hnarrow : p1.body.narrow p1.type.compareValue p2.body with
        | error res =>
          have hrest := (valuesFit_cons_error hfind htype hnarrow).mp h
          omega
        | ok narrow =>
          have hrest := ih ((valuesFit_cons_ok hfind htype hnarrow).mp h).2
          omega
      · exact (valuesFit_cons_of_ne hfind htype).mp h

end ValuesFit

/-- A property that is refused is left open. -/
theorem filterProp_error_stays {res : SpaResult} (htype : p1.type = p2.type)
    (hnarrow : p1.body.narrow p1.type.compareValue p2.body = .error res)
    (hsmall : b.offset + 24 + p1.body.value.length + 8 ≤ 2 ^ 32) :
    Stays b (b.filterProp p1 p2).1 := by
  have hturn : b.filterProp p1 p2 =
      (((b.pushProp p1.key 0).1.raw (Pod.withHeader p1.type p1.body.value)).1, res) := by
    rw [filterProp, if_neg (not_not.mpr htype)]
    dsimp only
    rw [hnarrow]
  rw [hturn]
  obtain ⟨hstart, hoffset⟩ := @pushProp_stays b 0 p1.key (by omega)
  generalize (b.pushProp p1.key 0).1 = b1 at hstart hoffset ⊢
  have hlength : (Pod.withHeader p1.type p1.body.value).length = 8 + p1.body.value.length :=
    Pod.length_withHeader _ _
  have hraw := @raw_advances b1 (Pod.withHeader p1.type p1.body.value)
    (by rw [hoffset, hlength]; omega)
  exact hstart.trans (hraw.stays (by rw [hoffset, hlength]; omega))

theorem propsFilter_stays {filter props : List PropPod} (haligned : b.offset % 8 = 0)
    (hlt : b.size < 2 ^ 32) (h : ValuesFit filter b.size b.offset props) :
    Stays b (propsFilter filter props b).1 := by
  induction props generalizing b with
  | nil => exact (Advances.refl b).stays h
  | cons p1 props ih =>
    -- what a turn that goes on leaves to the others
    have hnext {b' : SpaPODBuilder PodBuffer} {bs : List UInt8}
        (hadvances : Advances b b' (Pod.aligned bs).length)
        (hrest : ValuesFit filter b.size (b.offset + (Pod.aligned bs).length) props) :
        Stays b (propsFilter filter props b').1 := by
      have hmod := Pod.length_aligned_mod bs
      have hstays := ih (show b'.offset % 8 = 0 by rw [hadvances.offset]; omega)
        (by rw [hadvances.size]; exact hlt) (by rw [hadvances.size, hadvances.offset]; exact hrest)
      exact (hadvances.stays (by have := hrest.offset_le; omega)).trans hstays
    cases hfind : PropPod.findProp filter p1.key with
    | none =>
      have hrest := (valuesFit_cons_none hfind).mp h
      rw [propsFilter_cons_none hfind]
      exact hnext (rawPadded_advances (by have := hrest.offset_le; omega)) hrest
    | some p2 =>
      have hsnd : (b.filterProp p1 p2).2 = .ofExcept (p1.filter p2) := filterProp_snd
      rw [propsFilter_cons_some hfind]
      by_cases htype : p1.type = p2.type
      · cases hnarrow : p1.body.narrow p1.type.compareValue p2.body with
        | error res =>
          have hres : (b.filterProp p1 p2).2 = res := by
            rw [hsnd, PropPod.filter, if_pos htype, PropBody.filterBody_eq_narrow, hnarrow]
            rfl
          rw [if_pos (hres ▸ PropBody.narrow_ne_ok _ _ _ hnarrow)]
          exact filterProp_error_stays htype hnarrow
            ((valuesFit_cons_error hfind htype hnarrow).mp h)
        | ok narrow =>
          have hres : (b.filterProp p1 p2).2 = .ok := by
            rw [hsnd, PropPod.filter, if_pos htype, PropBody.filterBody_eq_narrow, hnarrow]
            rfl
          obtain ⟨hfits, hrest⟩ := (valuesFit_cons_ok hfind htype hnarrow).mp h
          rw [if_neg (not_not.mpr hres)]
          exact hnext (filterProp_advances haligned htype hnarrow hfits hlt
            (by have := hrest.offset_le; omega)) hrest
      · have hturn : b.filterProp p1 p2 = (b, .incompatibleProps) := by
          rw [filterProp, if_pos htype]
        rw [hturn, if_pos (show SpaResult.incompatibleProps ≠ .ok by decide)]
        exact (Advances.refl b).stays ((valuesFit_cons_of_ne hfind htype).mp h)

/-- The properties of a format that are narrowed have their values in the buffer. -/
def FormatFits (filter : Option SpaFormat) (size : Nat) (format : SpaFormat) : Prop :=
  ∀ φ ∈ filter, φ.mediaType = format.mediaType → φ.mediaSubtype = format.mediaSubtype →
    ValuesFit φ.props size 48 format.props

theorem length_aligned_bytes_lt (format : SpaFormat) :
    (Pod.aligned format.bytes).length < 2 ^ 32 := by
  have hmod := length_flatMap_mod FormatPod.bytes format.contents
  have hlength := format.length_bytes
  rw [Pod.aligned_of_mod (by rw [hlength]; omega), hlength]
  exact format.small

/-- The header of a format always has room. -/
theorem pushFormat_starts {buffer : PodBuffer} {size : Nat} {type mediaType mediaSubtype : UInt32}
    (hsize : 48 ≤ size) (hlt : size < 2 ^ 32) :
    Stays (init buffer size) ((init buffer size).pushFormat type mediaType mediaSubtype).1 ∧
      ((init buffer size).pushFormat type mediaType mediaSubtype).1.offset = 48 ∧
      ((init buffer size).pushFormat type mediaType mediaSubtype).1.stack.map SpaPODFrame.ref =
        [0] := by
  have hlength : (SpaPOD.bytes ⟨40, .object⟩ ++ formatFields 0 type mediaType mediaSubtype).length =
      48 := by
    rw [List.length_append, SpaPOD.length_bytes, length_formatFields]
  have hroom : (init buffer size).Room (SpaPOD.bytes ⟨40, .object⟩ ++
      formatFields 0 type mediaType mediaSubtype).length :=
    room_of_le (by rw [hlength]; exact (Nat.zero_add 48).trans_le hsize) hlt
  have href := (raw_appends hroom).2
  have hraw := raw_advances hroom.lt
  rw [hlength] at hraw
  rw [pushFormat, pushContainer]
  generalize (init buffer size).raw (SpaPOD.bytes ⟨40, .object⟩ ++
    formatFields 0 type mediaType mediaSubtype) = start at hraw href ⊢
  have hstays := hraw.stays (by show 0 + 48 + 8 ≤ 2 ^ 32; omega)
  obtain ⟨start, ref⟩ := start
  obtain rfl : ref = 0 := href
  have hstack : start.stack = [] := hraw.stack
  refine ⟨⟨hstays.data, hstays.size, hstays.mem, hstays.le, hstays.offset_le, [0], ?_⟩,
    hraw.offset, ?_⟩
  · show 0 :: start.stack.map SpaPODFrame.ref = _
    rw [hstack]
    rfl
  · show 0 :: start.stack.map SpaPODFrame.ref = _
    rw [hstack]
    rfl

/-- The frame that is popped in the end. -/
theorem drop_frames {frames : List SpaPODFrame} {opened : List Nat}
    (h : frames.map SpaPODFrame.ref = opened ++ [0]) :
    ∃ frame, frames.drop (frames.length - 1) = [frame] ∧ frame.ref = 0 := by
  have hlength : frames.length - 1 = opened.length := by
    rw [← List.length_map (f := SpaPODFrame.ref), h, List.length_append]
    rfl
  have hdrop : (frames.drop (frames.length - 1)).map SpaPODFrame.ref = [0] := by
    rw [List.map_drop, h, hlength, List.drop_left]
  obtain ⟨frame, hframe, href⟩ := List.map_eq_singleton_iff.mp hdrop
  exact ⟨frame, hframe, href⟩

/-- `spa_format_filter` writes inside of the buffer. -/
theorem formatFilter_inside {filter : Option SpaFormat} {format : SpaFormat} {buffer : PodBuffer}
    {size : Nat} (hsize : 48 ≤ size) (hlt : size < 2 ^ 32) (h : FormatFits filter size format) :
    ((init buffer size).formatFilter filter format).1.data.data = buffer.data ∧
      ∀ a, a < buffer.data ∨ buffer.data + size ≤ a →
        ((init buffer size).formatFilter filter format).1.data.mem a = buffer.mem a := by
  cases filter with
  | none =>
    have hadvances := @rawPadded_advances (init buffer size) format.bytes (by
      show 0 + (Pod.aligned format.bytes).length < 2 ^ 32
      rw [Nat.zero_add]
      exact length_aligned_bytes_lt format)
    rw [formatFilter]
    dsimp only
    exact ⟨hadvances.data, hadvances.mem⟩
  | some filter =>
    rw [formatFilter]
    dsimp only
    split
    · exact ⟨rfl, fun _ _ => rfl⟩
    · next hmedia =>
      obtain ⟨htype, hsubtype⟩ := not_or.mp hmedia
      have hfits := h filter rfl (not_not.mp htype) (not_not.mp hsubtype)
      obtain ⟨hstart, hoffset, hframes⟩ := @pushFormat_starts buffer size filter.type
        filter.mediaType filter.mediaSubtype hsize hlt
      generalize ((init buffer size).pushFormat filter.type filter.mediaType
        filter.mediaSubtype).1 = b1 at hstart hoffset hframes ⊢
      have hsize1 : b1.size = size := hstart.size
      have hprops := @propsFilter_stays b1 filter.props format.props (by rw [hoffset])
        (by rw [hsize1]; exact hlt) (by rw [hsize1, hoffset]; exact hfits)
      generalize (propsFilter filter.props format.props b1).1 = b2 at hprops ⊢
      have hall := hstart.trans hprops
      -- the frame of the format, below those that are left open
      obtain ⟨opened, hopened⟩ := hprops.frames
      rw [hframes] at hopened
      obtain ⟨frame, hdrop, href⟩ := drop_frames hopened
      have hone : (init buffer size).stack.length + 1 = 1 := rfl
      rw [hone, hdrop]
      have hpad : b2.offset + padLength b2.offset < 2 ^ 32 := by
        have hle := hall.offset_le
        rw [padLength_eq]
        omega
      have hpop := @pop_closed { b2 with stack := [frame] } frame [] rfl
        (by rw [href]; decide) hpad
      refine ⟨hpop.data.trans hall.data, fun a ha => ?_⟩
      have hdata : b2.data.data = buffer.data := hall.data
      have hsize2 : b2.size = size := hall.size
      refine (hpop.mem a ?_).trans ((closed_mem ?_).trans (hall.mem a ?_))
      · show a < b2.data.data + b2.offset ∨ b2.data.data + b2.size ≤ a
        rw [hdata, hsize2]
        omega
      · show a < b2.data.data + frame.ref ∨ b2.data.data + frame.ref + 8 ≤ a
        rw [hdata, href]
        omega
      · show a < buffer.data + 0 ∨ buffer.data + size ≤ a
        exact ha

end Turn
end SpaPODBuilder
end Pinos

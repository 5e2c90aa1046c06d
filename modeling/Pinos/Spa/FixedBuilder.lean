import Mathlib.Data.List.Infix
import Pinos.Spa.PodAdd

/-
The builder of `spa/pod-builder.h` over a buffer of fixed size.

A write that does not fit is refused and its reference is `-1`, but the offset moves
on, so that it tells in the end how much room was needed.  The builder is run here
over a buffer that records every write, next to one over a buffer without end, and
`Tracks` says how the two move together.  The sum that a write is checked by has 32
bits: where it comes out as a small number again, the write is let through.
-/

namespace Pinos

open ByteMem

/-! ## The two buffers -/

/-- The buffer of a builder without callback, and the offset and length of every write
to it, the last one first. -/
structure LoggedBuffer where
  buffer : PodBuffer
  writes : List (Nat × Nat)

instance : PodStore LoggedBuffer where
  raw store size offset bs :=
    let (buffer, size', ref) := PodStore.raw store.buffer size offset bs
    let kept := PodStore.accepts store.buffer size offset bs.length
    ({ buffer := buffer
       writes := if kept then (offset, bs.length) :: store.writes else store.writes }, size', ref)
  patch store size offset ref bs :=
    let (buffer, size') := PodStore.patch store.buffer size offset ref bs
    ({ buffer := buffer, writes := (ref, bs.length) :: store.writes }, size')
  view store := PodStore.view store.buffer
  accepts store := PodStore.accepts store.buffer

/-- A buffer that every write fits in. -/
structure UnboundedBuffer where
  mem : Mem

instance : PodStore UnboundedBuffer where
  raw store size offset bs := ({ mem := store.mem.write offset bs }, size, offset)
  patch store size _ ref bs := ({ mem := store.mem.write ref bs }, size)
  view store := store.mem
  accepts _ _ _ _ := true

/-! ## The calls -/

namespace SpaPODBuilder

variable {σ : Type} [PodStore σ]

/-- What `spa_pod_builder_primitive` writes of a pod.  The variable for its size has 32
bits, and `SPA_POD_SIZE` may have more. -/
def primitiveData (b : SpaPODBuilder σ) (type : SpaPODType) (body : List UInt8) : List UInt8 :=
  if b.inArray && !b.first then body
  else (Pod.withHeader type body).take (toU32 (8 + body.length))

/-- `spa_pod_builder_primitive`, for a pod of any size. -/
def primitive32 (b : SpaPODBuilder σ) (type : SpaPODType) (body : List UInt8) :
    SpaPODBuilder σ × Nat :=
  let data := b.primitiveData type body
  let b := if b.inArray && !b.first then b else { b with first := false }
  let (b', ref) := b.raw data
  (if b.inArray then b' else b'.pad data.length, ref)

theorem primitive32_eq (b : SpaPODBuilder σ) (type : SpaPODType) {body : List UInt8}
    (h : 8 + body.length < 2 ^ 32) : b.primitive32 type body = b.primitive type body := by
  have hdata : (Pod.withHeader type body).take (toU32 (8 + body.length)) =
      Pod.withHeader type body := by
    rw [toU32_of_lt h, ← Pod.length_withHeader type, List.take_length]
  simp only [primitive32, primitive, primitiveData, hdata]

/-- After a primitive the next value has no header, whatever it was before. -/
theorem primitive32_write (b : SpaPODBuilder σ) (type : SpaPODType) (body : List UInt8) :
    (b.primitive32 type body).1 =
        (if b.inArray then ({ b with first := false }.raw (b.primitiveData type body)).1
        else ({ b with first := false }.raw (b.primitiveData type body)).1.pad
          (b.primitiveData type body).length) ∧
      (b.primitive32 type body).2 =
        ({ b with first := false }.raw (b.primitiveData type body)).2 := by
  have hfirst : (if b.inArray && !b.first then b else { b with first := false }) =
      { b with first := false } := by
    split
    · next hmore =>
      have hfalse : b.first = false := by simpa using (Bool.and_eq_true_iff.mp hmore).2
      rw [← hfalse]
    · rfl
  rw [primitive32, hfirst]
  exact ⟨rfl, rfl⟩

/-- A header or an array's start and what belongs to it, padded: the common body of
`spa_pod_builder_string_len`, `spa_pod_builder_bytes` and `spa_pod_builder_array`. -/
def headed (b : SpaPODBuilder σ) (head data : List UInt8) : SpaPODBuilder σ × Nat :=
  let (b', ref) := b.raw head
  let (b'', ref') := b'.rawPadded data
  (b'', if ref' = invalidRef then invalidRef else ref)

end SpaPODBuilder

/-- A call of the builder.  `pop` is given by how many containers it leaves open inside of
the one it ends: the frame it is called with need not be the last one. -/
inductive BuilderCall
  | raw (data : List UInt8)
  | pad (size : Nat)
  | rawPadded (data : List UInt8)
  | primitive (type : SpaPODType) (body : List UInt8)
  | headed (head data : List UInt8)
  | container (header : SpaPOD) (fields : List UInt8)
  | pop (inner : Nat)
  | add (call : PodCall)

namespace BuilderCall

variable {σ : Type} [PodStore σ]

/-- The builder after a call, and the reference that it returns. -/
def apply (b : SpaPODBuilder σ) : BuilderCall → SpaPODBuilder σ × Option Nat
  | raw data => ((b.raw data).1, some (b.raw data).2)
  | pad size => (b.pad size, none)
  | rawPadded data => ((b.rawPadded data).1, some (b.rawPadded data).2)
  | primitive type body => ((b.primitive32 type body).1, some (b.primitive32 type body).2)
  | headed head data => ((b.headed head data).1, some (b.headed head data).2)
  | container header fields =>
    ((b.pushContainer header fields).1, some (b.pushContainer header fields).2)
  | pop inner => ({ b with stack := b.stack.drop inner }.pop, none)
  | add call => (b.add call, none)

def step (b : SpaPODBuilder σ) (call : BuilderCall) : SpaPODBuilder σ := (call.apply b).1

/-- `spa_pod_builder_array` -/
def array (childSize : UInt32) (childType : SpaPODType) (nElems : UInt32) (elems : List UInt8) :
    BuilderCall :=
  let size := (nElems * childSize).toNat
  .headed (SpaPOD.bytes ⟨.ofNat (8 + size), .array⟩ ++ SpaPOD.bytes ⟨childSize, childType⟩)
    (elems.take size)

/-- `spa_pod_builder_pointer`, with four bytes between the type and the value. -/
def pointer (type hole : UInt32) (value : UInt64) : BuilderCall :=
  .primitive .pointer (toLE 4 type.toNat ++ toLE 4 hole.toNat ++ toLE 8 value.toNat)

/-- The direct call that writes a value. -/
def direct : PodCall → BuilderCall
  | .bool val => primitive .bool (toLE 4 (if val then 1 else 0))
  | .id val => primitive .id (toLE 4 val.toNat)
  | .int val => primitive .int (toLE 4 val.toNat)
  | .long val => primitive .long (toLE 8 val.toNat)
  | .float val => primitive .float (toLE 4 val.toNat)
  | .double val => primitive .double (toLE 8 val.toNat)
  | .string str =>
    let data := (str.getD .empty).bytes
    headed (SpaPOD.bytes ⟨.ofNat data.length, .string⟩) data
  | .stringLen str => headed (SpaPOD.bytes ⟨.ofNat str.length, .string⟩) str
  | .bytes data => headed (SpaPOD.bytes ⟨.ofNat data.length, .bytes⟩) data
  | .rectangle width height =>
    primitive .rectangle (toLE 4 width.toNat ++ toLE 4 height.toNat)
  | .fraction num denom => primitive .fraction (toLE 4 num.toNat ++ toLE 4 denom.toNat)
  | .pushArray => container ⟨0, .array⟩ []
  | .pushStruct => container ⟨0, .struct⟩ []
  | .pushObject id type => container ⟨8, .object⟩ (toLE 4 id.toNat ++ toLE 4 type.toNat)
  | .pushProp key flags => container ⟨8, .prop⟩ (toLE 4 key.toNat ++ toLE 4 flags.toNat)
  | .pop => pop 0
  | .pod pod => rawPadded (pod.getD .null).bytes

/-- Every direct call of the header is one of these. -/
theorem step_direct (b : SpaPODBuilder σ) (call : PodCall) : step b (direct call) = b.call call := by
  cases call with
  | bool | id | int | long | float | double | rectangle | fraction =>
    exact congrArg Prod.fst (SpaPODBuilder.primitive32_eq b _ (by simp))
  | string | stringLen | bytes | pushArray | pushStruct | pushObject | pushProp | pop | pod => rfl

/-- The lengths of the writes that a call makes, if any, one after the other. -/
def pieces (b : SpaPODBuilder σ) : BuilderCall → List Nat
  | raw data => [data.length]
  | pad size => [padLength size]
  | rawPadded data => [data.length, padLength data.length]
  | primitive type body =>
    let n := (b.primitiveData type body).length
    if b.inArray then [n] else [n, padLength n]
  | headed head data => [head.length, data.length, padLength data.length]
  | container _ fields => [8 + fields.length]
  | pop inner => if b.stack.length ≤ inner then [] else [padLength b.offset]
  | add call =>
    match Entry.of call with
    | .primitive head _ body =>
      (if b.lead then [head.length] else []) ++ ((body.map b.bodyData).getD []).map List.length
    | .extra body => (b.bodyData body).map List.length
    | .pop => if b.stack.length ≤ 0 then [] else [padLength b.offset]

end BuilderCall

/-- The 32-bit offset behind some writes. -/
def offsetAfter : Nat → List Nat → Nat := List.foldl fun offset n => toU32 (offset + n)

/-- Some write ends at 2^32 or behind it, and its end comes out as an offset inside the
buffer. -/
def Wraps (size : Nat) : Nat → List Nat → Prop
  | _, [] => False
  | offset, n :: ns =>
    2 ^ 32 ≤ offset + n ∧ toU32 (offset + n) ≤ size ∨ Wraps size (toU32 (offset + n)) ns

instance (size : Nat) : (offset : Nat) → (ns : List Nat) → Decidable (Wraps size offset ns)
  | _, [] => inferInstanceAs (Decidable False)
  | offset, n :: ns =>
    have : Decidable (Wraps size (toU32 (offset + n)) ns) := instDecidableWraps size _ ns
    inferInstanceAs (Decidable (_ ∨ _))

theorem wraps_append {size offset : Nat} {xs ys : List Nat} :
    Wraps size offset (xs ++ ys) ↔ Wraps size offset xs ∨ Wraps size (offsetAfter offset xs) ys := by
  induction xs generalizing offset with
  | nil => exact (or_iff_right not_false).symm
  | cons n xs ih =>
    show _ ∨ Wraps size _ (xs ++ ys) ↔ (_ ∨ _) ∨ _
    rw [ih, or_assoc]
    rfl

/-- Without such a write, an offset inside the buffer was inside all along. -/
theorem offsetAfter_le {size offset : Nat} {ns : List Nat} (hwraps : ¬ Wraps size offset ns)
    (hle : offsetAfter offset ns ≤ size) : offset ≤ size := by
  induction ns generalizing offset with
  | nil => exact hle
  | cons n ns ih =>
    obtain ⟨hfirst, hrest⟩ := not_or.mp hwraps
    have hnext : toU32 (offset + n) ≤ size := ih hrest hle
    have hlt : offset + n < 2 ^ 32 := by omega
    rw [toU32_of_lt hlt] at hnext
    omega

/-- Where the last offset is inside the buffer, the first write was kept. -/
theorem fits_first {size offset n : Nat} {ns : List Nat} (hwraps : ¬ Wraps size offset (n :: ns))
    (hle : offsetAfter offset (n :: ns) ≤ size) :
    toU32 (offset + n) ≤ size ∧ offset + n < 2 ^ 32 := by
  obtain ⟨hfirst, hrest⟩ := not_or.mp hwraps
  have hnext : toU32 (offset + n) ≤ size := offsetAfter_le hrest hle
  exact ⟨hnext, by omega⟩

namespace BuilderCall

/-- Calls that return `-1` wherever they are made: there is nothing to write, or nothing
behind the header.  A reference to nothing at the last offset of all is `-1` as well. -/
def Empty {σ : Type} [PodStore σ] (b : SpaPODBuilder σ) : BuilderCall → Prop
  | raw data => data = [] ∧ b.offset = invalidRef
  | primitive type body => b.primitiveData type body = [] ∧ b.offset = invalidRef
  | rawPadded data | headed _ data => data = []
  | pad _ | container _ _ | pop _ | add _ => False

end BuilderCall

/-! ## The two builders side by side -/

abbrev FixedBuilder := SpaPODBuilder LoggedBuffer

abbrev UnboundedBuilder := SpaPODBuilder UnboundedBuffer

/-- No byte outside of the buffer has been written. -/
def FixedBuilder.Inside (f : FixedBuilder) : Prop :=
  ∀ w ∈ f.data.writes, ∀ i, w.1 ≤ i → i < w.1 + w.2 → i < f.size

/-- The bytes below the offset, as they are read from `data`. -/
def SameContents (f : FixedBuilder) (u : UnboundedBuilder) : Prop :=
  ∀ i < f.offset, PodStore.view f.data i = PodStore.view u.data i

/-- What does not depend on where the bytes go. -/
structure Synced (f : FixedBuilder) (u : UnboundedBuilder) : Prop where
  small : f.size < 2 ^ 32
  offset_lt : f.offset < 2 ^ 32
  offset : u.offset = f.offset
  inArray : u.inArray = f.inArray
  first : u.first = f.first
  pods : u.stack.map SpaPODFrame.pod = f.stack.map SpaPODFrame.pod

/-- Every write so far, and every header still to be patched, is inside of the buffer.
As long as the offset is, the two builders agree. -/
structure Clean (f : FixedBuilder) (u : UnboundedBuilder) : Prop where
  inside : f.Inside
  refs : ∀ frame ∈ f.stack, frame.ref = invalidRef ∨ frame.ref + 8 ≤ f.size
  stack : f.offset ≤ f.size → u.stack = f.stack
  contents : f.offset ≤ f.size → SameContents f u

/-- Both builders make the same writes, of the lengths `ns`. -/
structure Tracks (f : FixedBuilder) (u : UnboundedBuilder) (ns : List Nat) (f' : FixedBuilder)
    (u' : UnboundedBuilder) : Prop where
  synced : Synced f' u'
  size : f'.size = f.size
  offset : f'.offset = offsetAfter f.offset ns
  writes : f.data.writes <:+ f'.data.writes
  clean : Clean f u → ¬ Wraps f.size f.offset ns → Clean f' u'
  spilt : Clean f u → Wraps f.size f.offset ns → ¬ f'.Inside

variable {f f' f'' : FixedBuilder} {u u' u'' : UnboundedBuilder}

/-- What has been written outside stays written. -/
theorem FixedBuilder.Inside.of_suffix (h : f'.Inside) (hsize : f'.size = f.size)
    (hwrites : f.data.writes <:+ f'.data.writes) : f.Inside := by
  intro w hw i hlo hhi
  rw [← hsize]
  exact h w (hwrites.subset hw) i hlo hhi

theorem Tracks.trans {xs ys : List Nat} (h : Tracks f u xs f' u') (h' : Tracks f' u' ys f'' u'') :
    Tracks f u (xs ++ ys) f'' u'' where
  synced := h'.synced
  size := h'.size.trans h.size
  offset := by
    rw [h'.offset, h.offset]
    exact List.foldl_append.symm
  writes := h.writes.trans h'.writes
  clean hclean hwraps := by
    rw [wraps_append, not_or, ← h.offset] at hwraps
    refine h'.clean (h.clean hclean hwraps.1) ?_
    rw [h.size]
    exact hwraps.2
  spilt hclean hwraps hinside := by
    by_cases hfirst : Wraps f.size f.offset xs
    · exact h.spilt hclean hfirst (hinside.of_suffix h'.size h'.writes)
    · rw [wraps_append, ← h.offset] at hwraps
      refine h'.spilt (h.clean hclean hfirst) ?_ hinside
      rw [h.size]
      exact hwraps.resolve_left hfirst

/-- A builder that does not write at all. -/
theorem Tracks.silent (hsynced : Synced f' u') (hsize : f'.size = f.size)
    (hoffset : f'.offset = f.offset) (hwrites : f'.data.writes = f.data.writes)
    (hclean : Clean f u → Clean f' u') : Tracks f u [] f' u' where
  synced := hsynced
  size := hsize
  offset := hoffset
  writes := by rw [hwrites]
  clean h _ := hclean h
  spilt _ h := h.elim

theorem Synced.refl (h : Synced f u) : Tracks f u [] f u :=
  .silent h rfl rfl rfl id

theorem Synced.setFirst (h : Synced f u) (flag : Bool) :
    Tracks f u [] { f with first := flag } { u with first := flag } :=
  .silent ⟨h.small, h.offset_lt, h.offset, h.inArray, rfl, h.pods⟩ rfl rfl rfl
    fun hc => ⟨hc.inside, hc.refs, hc.stack, hc.contents⟩

/-! ## One write -/

/-- A write that is refused moves the offset only. -/
theorem raw_refused {bs : List UInt8} (h : f.size < toU32 (f.offset + bs.length)) :
    (f.raw bs).1.data.writes = f.data.writes ∧ (f.raw bs).1.size = f.size ∧
      (f.raw bs).2 = invalidRef := by
  have hkept : PodStore.accepts f.data.buffer f.size f.offset bs.length = false :=
    decide_eq_false (Nat.not_le.mpr h)
  simp [SpaPODBuilder.raw, PodStore.raw, hkept, h]

theorem raw_kept {bs : List UInt8} (h : toU32 (f.offset + bs.length) ≤ f.size) :
    (f.raw bs).1.data.writes = (f.offset, bs.length) :: f.data.writes ∧
      (f.raw bs).1.size = f.size ∧ (f.raw bs).2 = f.offset ∧
      PodStore.view (f.raw bs).1.data = (PodStore.view f.data).write f.offset bs := by
  have hkept : PodStore.accepts f.data.buffer f.size f.offset bs.length = true :=
    decide_eq_true h
  have hview := Mem.view_write f.data.buffer.mem f.data.buffer.data f.offset bs
  simp only [SpaPODBuilder.raw, PodStore.raw, hkept, if_neg (Nat.not_lt.mpr h), if_true, true_and]
  exact hview

theorem Synced.raw (h : Synced f u) (bs : List UInt8) :
    Tracks f u [bs.length] (f.raw bs).1 (u.raw bs).1 := by
  have hsize : (f.raw bs).1.size = f.size := by
    rcases Nat.lt_or_ge f.size (toU32 (f.offset + bs.length)) with hfit | hfit
    · exact (raw_refused hfit).2.1
    · exact (raw_kept hfit).2.1
  have hoffset : (f.raw bs).1.offset = toU32 (f.offset + bs.length) := rfl
  have hsynced : Synced (f.raw bs).1 (u.raw bs).1 := by
    refine ⟨hsize ▸ h.small, toU32_lt _, ?_, h.inArray, h.first, ?_⟩
    · show toU32 _ = toU32 _
      rw [h.offset]
    · show (u.stack.map _).map _ = (f.stack.map _).map _
      have hgrow : SpaPODFrame.pod ∘ SpaPODFrame.grow bs.length =
          (fun p : SpaPOD => { p with size := p.size + .ofNat bs.length }) ∘ SpaPODFrame.pod := rfl
      rw [List.map_map, List.map_map, hgrow, ← List.map_map, ← List.map_map, h.pods]
  have hrefs (hc : Clean f u) : ∀ frame ∈ (f.raw bs).1.stack,
      frame.ref = invalidRef ∨ frame.ref + 8 ≤ (f.raw bs).1.size := by
    intro frame hframe
    obtain ⟨before, hbefore, rfl⟩ := List.mem_map.mp hframe
    rw [hsize]
    exact hc.refs before hbefore
  rcases Nat.lt_or_ge f.size (toU32 (f.offset + bs.length)) with hfit | hfit
  · obtain ⟨hwrites, -, -⟩ := raw_refused hfit
    refine ⟨hsynced, hsize, rfl, by rw [hwrites], fun hc _ => ?_, fun _ hwraps => ?_⟩
    · have hover : ¬ (f.raw bs).1.offset ≤ (f.raw bs).1.size := by
        rw [hsize, hoffset]
        omega
      refine ⟨?_, hrefs hc, fun hle => absurd hle hover, fun hle => absurd hle hover⟩
      intro w hw
      rw [hwrites] at hw
      rw [hsize]
      exact hc.inside w hw
    · rcases hwraps with ⟨-, hle⟩ | hnone
      · omega
      · exact hnone.elim
  · obtain ⟨hwrites, -, -, hview⟩ := raw_kept hfit
    refine ⟨hsynced, hsize, rfl, ?_, fun hc hwraps => ?_, fun hc hwraps hinside => ?_⟩
    · rw [hwrites]
      exact List.suffix_cons _ _
    · have hlt : f.offset + bs.length < 2 ^ 32 := by
        by_contra hge
        exact hwraps (.inl ⟨Nat.not_lt.mp hge, hfit⟩)
      rw [toU32_of_lt hlt] at hfit hoffset
      have hbefore : f.offset ≤ f.size := by omega
      have hstack := hc.stack hbefore
      refine ⟨?_, hrefs hc, fun _ => ?_, fun _ => ?_⟩
      · intro w hw i hlo hhi
        rw [hwrites] at hw
        rw [hsize]
        rcases List.mem_cons.mp hw with rfl | hw
        · exact Nat.lt_of_lt_of_le hhi hfit
        · exact hc.inside w hw i hlo hhi
      · show u.stack.map _ = f.stack.map _
        rw [hstack]
      · intro i hi
        rw [hoffset] at hi
        rw [hview]
        show _ = Mem.write u.data.mem u.offset bs i
        rw [h.offset]
        rcases Nat.lt_or_ge i f.offset with hin | hin
        · rw [Mem.write_outside _ (.inl hin), Mem.write_outside _ (.inl hin)]
          exact hc.contents hbefore i hin
        · obtain ⟨j, rfl⟩ := Nat.exists_eq_add_of_le hin
          rw [Mem.write_inside _ _ (by omega), Mem.write_inside _ _ (by omega)]
    · rcases hwraps with ⟨hge, -⟩ | hnone
      · -- the last byte of the write is at 2^32 - 1 or behind
        have hlast := hinside (f.offset, bs.length) (by rw [hwrites]; exact List.mem_cons_self)
          (f.offset + bs.length - 1)
        have hsmall := h.small
        have hoff := h.offset_lt
        rw [hsize] at hlast
        have := hlast (by show f.offset ≤ _; omega) (by show _ < f.offset + bs.length; omega)
        omega
      · exact hnone.elim

theorem Synced.rawNil (h : Synced f u) : Tracks f u [0] f u := by
  have hoffset : offsetAfter f.offset [0] = f.offset := toU32_of_lt h.offset_lt
  refine ⟨h, rfl, hoffset.symm, List.suffix_rfl, fun hc _ => hc, fun _ hwraps => ?_⟩
  rcases hwraps with ⟨hge, -⟩ | hnone
  · exact absurd h.offset_lt (Nat.not_lt.mpr hge)
  · exact hnone.elim

theorem Synced.pad (h : Synced f u) (n : Nat) : Tracks f u [padLength n] (f.pad n) (u.pad n) := by
  rw [SpaPODBuilder.pad, SpaPODBuilder.pad]
  by_cases hzero : padLength n = 0
  · rw [if_pos hzero, if_pos hzero, hzero]
    exact h.rawNil
  · rw [if_neg hzero, if_neg hzero]
    have hraw := h.raw (padding n)
    rwa [length_padding] at hraw

/-! ## The calls -/

theorem Synced.rawPadded (h : Synced f u) (bs : List UInt8) :
    Tracks f u [bs.length, padLength bs.length] (f.rawPadded bs).1 (u.rawPadded bs).1 := by
  rw [SpaPODBuilder.rawPadded, SpaPODBuilder.rawPadded]
  by_cases hzero : bs.length = 0
  · rw [if_pos hzero, if_pos hzero, hzero]
    exact h.rawNil.trans (h.pad 0)
  · rw [if_neg hzero, if_neg hzero]
    have hraw := h.raw bs
    exact hraw.trans (hraw.synced.pad bs.length)

theorem Synced.primitive (h : Synced f u) (type : SpaPODType) (body : List UInt8) :
    Tracks f u (BuilderCall.pieces f (.primitive type body)) (f.primitive32 type body).1
      (u.primitive32 type body).1 := by
  have hdata : u.primitiveData type body = f.primitiveData type body := by
    rw [SpaPODBuilder.primitiveData, SpaPODBuilder.primitiveData, h.inArray, h.first]
  have hwrite := (h.setFirst false).trans
    ((h.setFirst false).synced.raw (f.primitiveData type body))
  rw [(f.primitive32_write type body).1, (u.primitive32_write type body).1, hdata,
    BuilderCall.pieces]
  by_cases hin : f.inArray
  · rw [if_pos hin, if_pos hin, if_pos (h.inArray.trans hin)]
    exact hwrite
  · rw [if_neg hin, if_neg hin, if_neg (h.inArray ▸ hin)]
    exact hwrite.trans (hwrite.synced.pad _)

theorem Synced.headed (h : Synced f u) (head data : List UInt8) :
    Tracks f u [head.length, data.length, padLength data.length] (f.headed head data).1
      (u.headed head data).1 :=
  have hhead := h.raw head
  hhead.trans (hhead.synced.rawPadded data)

/-- A header goes on the stacks, with references that are the same where all is inside. -/
theorem Tracks.push {ns : List Nat} {ref ref' : Nat} (h : Tracks f u ns f' u') (header : SpaPOD)
    (hrefs : ¬ Wraps f.size f.offset ns →
      (ref = invalidRef ∨ ref + 8 ≤ f'.size) ∧ (f'.offset ≤ f'.size → ref' = ref)) :
    Tracks f u ns (f'.push header ref) (u'.push header ref') := by
  have hsynced := h.synced
  refine ⟨⟨hsynced.small, hsynced.offset_lt, hsynced.offset, rfl, rfl, ?_⟩, h.size, h.offset,
    h.writes, fun hc hwraps => ?_, h.spilt⟩
  · exact congrArg (header :: ·) hsynced.pods
  · have hclean := h.clean hc hwraps
    obtain ⟨hinside, hsame⟩ := hrefs hwraps
    refine ⟨hclean.inside, ?_, fun hle => ?_, hclean.contents⟩
    · intro frame hframe
      rcases List.mem_cons.mp hframe with rfl | hframe
      · exact hinside
      · exact hclean.refs frame hframe
    · exact congrArg₂ (fun ref rest => SpaPODFrame.mk header ref :: rest) (hsame hle)
        (hclean.stack hle)

theorem fst_pushContainer {σ : Type} [PodStore σ] (b : SpaPODBuilder σ) (header : SpaPOD)
    (fields : List UInt8) :
    (b.pushContainer header fields).1 =
      (b.raw (header.bytes ++ fields)).1.push header (b.raw (header.bytes ++ fields)).2 := rfl

theorem snd_raw_unbounded (bs : List UInt8) : (u.raw bs).2 = u.offset := rfl

/-- A container is entered with the reference of what has just been written. -/
theorem Synced.container (h : Synced f u) (header : SpaPOD) (fields : List UInt8) :
    Tracks f u [(header.bytes ++ fields).length] (f.pushContainer header fields).1
      (u.pushContainer header fields).1 := by
  have hraw := h.raw (header.bytes ++ fields)
  rw [fst_pushContainer, fst_pushContainer]
  refine hraw.push header fun hwraps => ⟨?_, fun hle => ?_⟩
  · rcases Nat.lt_or_ge f.size (toU32 (f.offset + (header.bytes ++ fields).length)) with
      hfit | hfit
    · exact .inl (raw_refused hfit).2.2
    · obtain ⟨-, hlt⟩ := fits_first hwraps hfit
      have href := (raw_kept hfit).2.2.1
      rw [toU32_of_lt hlt, List.length_append, SpaPOD.length_bytes] at hfit
      rw [href, hraw.size]
      exact .inr (by omega)
  · rw [hraw.size, hraw.offset] at hle
    rw [snd_raw_unbounded, h.offset, (raw_kept hle).2.2.1]

/-- A builder that has left a container but not padded it yet. -/
def SpaPODBuilder.leave {σ : Type} [PodStore σ] (b : SpaPODBuilder σ) (frame : SpaPODFrame)
    (rest : List SpaPODFrame) : SpaPODBuilder σ :=
  let b' :=
    if frame.ref = invalidRef then b
    else
      let (store, size) := PodStore.patch b.data b.size b.offset frame.ref frame.pod.bytes
      { b with data := store, size := size }
  { b' with stack := rest, inArray := stackInArray rest }

theorem SpaPODBuilder.pop_leave {σ : Type} [PodStore σ] {b : SpaPODBuilder σ}
    {frame : SpaPODFrame} {rest : List SpaPODFrame} (h : b.stack = frame :: rest) :
    b.pop = (b.leave frame rest).pad b.offset := by
  have hoffset : (b.leave frame rest).offset = b.offset := by
    unfold leave
    split <;> rfl
  rw [← hoffset]
  obtain ⟨data, size, offset, stack, inArray, first⟩ := b
  obtain rfl : stack = frame :: rest := h
  rfl

theorem stackInArray_pods {fs gs : List SpaPODFrame}
    (h : fs.map SpaPODFrame.pod = gs.map SpaPODFrame.pod) : stackInArray fs = stackInArray gs := by
  cases fs with
  | nil => rw [List.map_eq_nil_iff.mp h.symm]
  | cons frame rest =>
    cases gs with
    | nil => cases h
    | cons frame' rest' => exact congrArg SpaPOD.isArrayLike (List.cons.inj h).1

theorem Synced.leave (h : Synced f u) {frame frame' : SpaPODFrame} {rest rest' : List SpaPODFrame}
    (hf : f.stack = frame :: rest) (hu : u.stack = frame' :: rest') :
    Tracks f u [] (f.leave frame rest) (u.leave frame' rest') := by
  have hpods := h.pods
  rw [hf, hu] at hpods
  obtain ⟨hpod, hrest⟩ := List.cons.inj hpods
  have hsize : (f.leave frame rest).size = f.size := by
    unfold SpaPODBuilder.leave
    split <;> rfl
  have hoffset : (f.leave frame rest).offset = f.offset := by
    unfold SpaPODBuilder.leave
    split <;> rfl
  have hwrites : (f.leave frame rest).data.writes =
      if frame.ref = invalidRef then f.data.writes else (frame.ref, 8) :: f.data.writes := by
    unfold SpaPODBuilder.leave
    split
    · rfl
    · exact congrArg (fun n => (frame.ref, n) :: f.data.writes) frame.pod.length_bytes
  have hsynced : Synced (f.leave frame rest) (u.leave frame' rest') := by
    refine ⟨hsize ▸ h.small, hoffset ▸ h.offset_lt, ?_, stackInArray_pods hrest, ?_, hrest⟩
    · rw [hoffset, ← h.offset]
      unfold SpaPODBuilder.leave
      split <;> rfl
    · have hleft : (f.leave frame rest).first = f.first := by
        unfold SpaPODBuilder.leave
        split <;> rfl
      rw [hleft, ← h.first]
      unfold SpaPODBuilder.leave
      split <;> rfl
  refine ⟨hsynced, hsize, hoffset, ?_, fun hc _ => ?_, fun _ hwraps => hwraps.elim⟩
  · rw [hwrites]
    split
    · exact List.suffix_rfl
    · exact List.suffix_cons _ _
  · have href := hc.refs frame (by rw [hf]; exact List.mem_cons_self)
    refine ⟨?_, fun g hg => ?_, fun hle => ?_, fun hle => ?_⟩
    · intro w hw i hlo hhi
      rw [hwrites] at hw
      rw [hsize]
      by_cases hinvalid : frame.ref = invalidRef
      · rw [if_pos hinvalid] at hw
        exact hc.inside w hw i hlo hhi
      · rw [if_neg hinvalid] at hw
        rcases List.mem_cons.mp hw with rfl | hw
        · exact Nat.lt_of_lt_of_le hhi (href.resolve_left hinvalid)
        · exact hc.inside w hw i hlo hhi
    · rw [hsize]
      exact hc.refs g (by rw [hf]; exact List.mem_cons_of_mem _ hg)
    · rw [hsize, hoffset] at hle
      have hstack := hc.stack hle
      rw [hf, hu] at hstack
      exact (List.cons.inj hstack).2
    · rw [hsize, hoffset] at hle
      have hstack := hc.stack hle
      rw [hf, hu] at hstack
      obtain ⟨rfl, -⟩ := List.cons.inj hstack
      intro i hi
      rw [hoffset] at hi
      have hbefore := hc.contents hle i hi
      by_cases hinvalid : frame'.ref = invalidRef
      · simp only [SpaPODBuilder.leave, if_pos hinvalid]
        exact hbefore
      · have hview := Mem.view_write f.data.buffer.mem f.data.buffer.data frame'.ref
          frame'.pod.bytes
        simp only [SpaPODBuilder.leave, if_neg hinvalid]
        refine (congrFun hview i).trans ?_
        show _ = Mem.write u.data.mem frame'.ref frame'.pod.bytes i
        unfold Mem.write
        split
        · exact congrArg _ hbefore
        · exact hbefore

theorem Synced.pop (h : Synced f u) (inner : Nat) :
    Tracks f u (BuilderCall.pieces f (.pop inner)) { f with stack := f.stack.drop inner }.pop
      { u with stack := u.stack.drop inner }.pop := by
  have hdrop : Tracks f u [] { f with stack := f.stack.drop inner }
      { u with stack := u.stack.drop inner } := by
    refine .silent ⟨h.small, h.offset_lt, h.offset, h.inArray, h.first, ?_⟩ rfl rfl rfl
      fun hc => ⟨hc.inside, fun g hg => hc.refs g (List.mem_of_mem_drop hg), fun hle => ?_,
        hc.contents⟩
    · show (u.stack.drop inner).map _ = (f.stack.drop inner).map _
      rw [List.map_drop, List.map_drop, h.pods]
    · show u.stack.drop inner = f.stack.drop inner
      rw [hc.stack hle]
  have hpods := hdrop.synced.pods
  rw [BuilderCall.pieces]
  cases hf : f.stack.drop inner with
  | nil =>
    have hu : u.stack.drop inner = [] := by
      rw [hf] at hpods
      exact List.map_eq_nil_iff.mp hpods
    rw [if_pos (List.drop_eq_nil_iff.mp hf), hu]
    rw [hf, hu] at hdrop
    exact hdrop
  | cons frame rest =>
    have hopen : ¬ f.stack.length ≤ inner := fun hle => by
      rw [List.drop_eq_nil_of_le hle] at hf
      cases hf
    cases hu : u.stack.drop inner with
    | nil =>
      rw [hf, hu] at hpods
      cases hpods
    | cons frame' rest' =>
      rw [hf, hu] at hdrop
      have hleave := hdrop.trans (hdrop.synced.leave rfl rfl)
      have hpad := hleave.trans (hleave.synced.pad f.offset)
      have hoffset : u.offset = f.offset := h.offset
      rw [if_neg hopen, SpaPODBuilder.pop_leave rfl, SpaPODBuilder.pop_leave rfl]
      rwa [← hoffset] at hpad ⊢

/-- The loop of `spa_pod_builder_addv` over its data, where no container is entered. -/
theorem Synced.writeAll (h : Synced f u) (datas : List (List UInt8)) :
    Tracks f u (datas.map List.length) (f.writeAll none datas) (u.writeAll none datas) := by
  have hfold : ∀ (rest : List (List UInt8)) (f : FixedBuilder) (u : UnboundedBuilder),
      Synced f u → Tracks f u (rest.map List.length) (rest.foldl (fun b data => (b.raw data).1) f)
        (rest.foldl (fun b data => (b.raw data).1) u) := by
    intro rest
    induction rest with
    | nil => exact fun f u h => h.refl
    | cons data rest ih =>
      intro f u h
      have hraw := h.raw data
      exact hraw.trans (ih _ _ hraw.synced)
  cases datas with
  | nil => exact h.refl
  | cons data rest => exact hfold (data :: rest) f u h

theorem Synced.addValue (h : Synced f u) (head body : List UInt8) :
    Tracks f u
      ((if f.lead then [head.length] else []) ++ (f.bodyData body).map List.length)
      (f.addEntry (.primitive head none (some body)))
      (u.addEntry (.primitive head none (some body))) := by
  have hlead : u.lead = f.lead := by
    rw [SpaPODBuilder.lead, SpaPODBuilder.lead, h.inArray, h.first]
  have hbody : u.bodyData body = f.bodyData body := by
    rw [SpaPODBuilder.bodyData, SpaPODBuilder.bodyData, h.inArray]
  show Tracks f u _
    (if f.lead then { f with first := false }.writeAll none (head :: f.bodyData body)
      else f.writeAll none (f.bodyData body))
    (if u.lead then { u with first := false }.writeAll none (head :: u.bodyData body)
      else u.writeAll none (u.bodyData body))
  rw [hlead, hbody]
  split
  · have hfirst := h.setFirst false
    exact hfirst.trans (hfirst.synced.writeAll (head :: f.bodyData body))
  · exact h.writeAll (f.bodyData body)

theorem Synced.addContainer (h : Synced f u) (header : SpaPOD) (fields : List UInt8) :
    Tracks f u ((if f.lead then [(header.bytes ++ fields).length] else []) ++ [])
      (f.addEntry (.primitive (header.bytes ++ fields) (some header) none))
      (u.addEntry (.primitive (header.bytes ++ fields) (some header) none)) := by
  have hlead : u.lead = f.lead := by
    rw [SpaPODBuilder.lead, SpaPODBuilder.lead, h.inArray, h.first]
  show Tracks f u _
    (if f.lead then ({ f with first := false }.pushContainer header fields).1 else f)
    (if u.lead then ({ u with first := false }.pushContainer header fields).1 else u)
  rw [hlead, List.append_nil]
  split
  · have hfirst := h.setFirst false
    exact hfirst.trans (hfirst.synced.container header fields)
  · exact h.refl

theorem Synced.add (h : Synced f u) (call : PodCall) :
    Tracks f u (BuilderCall.pieces f (.add call)) (f.add call) (u.add call) := by
  have hextra (body : List UInt8) :
      Tracks f u ((f.bodyData body).map List.length) (f.addEntry (.extra body))
        (u.addEntry (.extra body)) := by
    have hbody : u.bodyData body = f.bodyData body := by
      rw [SpaPODBuilder.bodyData, SpaPODBuilder.bodyData, h.inArray]
    show Tracks f u _ (f.writeAll none (f.bodyData body)) (u.writeAll none (u.bodyData body))
    rw [hbody]
    exact h.writeAll _
  cases call with
  | bool | id | int | long | float | double | string | stringLen | bytes | rectangle | fraction =>
    exact h.addValue _ _
  | pushArray | pushStruct | pushObject | pushProp => exact h.addContainer _ _
  | pop => exact h.pop 0
  | pod pod => exact hextra _

/-- Every call, from any state. -/
theorem Synced.apply (h : Synced f u) (call : BuilderCall) :
    Tracks f u (call.pieces f) (BuilderCall.step f call) (BuilderCall.step u call) := by
  cases call with
  | raw data => exact h.raw data
  | pad size => exact h.pad size
  | rawPadded data => exact h.rawPadded data
  | primitive type body => exact h.primitive type body
  | headed head data => exact h.headed head data
  | container header fields =>
    have hcontainer := h.container header fields
    rwa [List.length_append, SpaPOD.length_bytes] at hcontainer
  | pop inner => exact h.pop inner
  | add call => exact h.add call

/-! ## The references -/

theorem some_ref_iff {ref : Nat} : some ref = some invalidRef ↔ ref = invalidRef := by
  rw [Option.some.injEq]

/-- What is written somewhere below 2^32 has a reference, unless it is nothing. -/
theorem invalid_iff {offset : Nat} {bs : List UInt8} (h : offset + bs.length < 2 ^ 32) :
    offset = invalidRef ↔ bs = [] ∧ offset = invalidRef := by
  refine ⟨fun hinvalid => ⟨?_, hinvalid⟩, And.right⟩
  rw [hinvalid, invalidRef] at h
  exact List.length_eq_zero_iff.mp (by omega)

theorem rawPadded_ref {bs : List UInt8}
    (hwraps : ¬ Wraps f.size f.offset [bs.length, padLength bs.length])
    (hle : offsetAfter f.offset [bs.length, padLength bs.length] ≤ f.size) :
    (f.rawPadded bs).2 = invalidRef ↔ bs = [] := by
  obtain ⟨hfit, hlt⟩ := fits_first hwraps hle
  by_cases hnil : bs = []
  · subst hnil
    exact iff_of_true rfl rfl
  · have hlen : bs.length ≠ 0 := fun hzero => hnil (List.length_eq_zero_iff.mp hzero)
    rw [SpaPODBuilder.rawPadded, if_neg hlen]
    refine iff_of_false (fun hinvalid => ?_) hnil
    have href : f.offset = invalidRef := (raw_kept hfit).2.2.1.symm.trans hinvalid
    exact hnil ((invalid_iff hlt).mp href).1

/-- A call that ends inside of the buffer returns `-1` when it has nothing to write. -/
theorem Synced.ref_iff (h : Synced f u) (call : BuilderCall)
    (hwraps : ¬ Wraps f.size f.offset (call.pieces f))
    (hle : (BuilderCall.step f call).offset ≤ f.size) :
    (call.apply f).2 = some invalidRef ↔ call.Empty f := by
  rw [(h.apply call).offset] at hle
  cases call with
  | raw data =>
    obtain ⟨hfit, hlt⟩ := fits_first hwraps hle
    rw [BuilderCall.apply, some_ref_iff, (raw_kept hfit).2.2.1]
    exact invalid_iff hlt
  | rawPadded data =>
    rw [BuilderCall.apply, some_ref_iff]
    exact rawPadded_ref hwraps hle
  | primitive type body =>
    have hpieces : BuilderCall.pieces f (.primitive type body) =
        (f.primitiveData type body).length ::
          if f.inArray then [] else [padLength (f.primitiveData type body).length] := by
      rw [BuilderCall.pieces]
      split <;> rfl
    rw [hpieces] at hwraps hle
    obtain ⟨hfit, hlt⟩ := fits_first hwraps hle
    have href : ({ f with first := false }.raw (f.primitiveData type body)).2 = f.offset :=
      (raw_kept hfit).2.2.1
    rw [BuilderCall.apply, some_ref_iff, (f.primitive32_write type body).2, href]
    exact invalid_iff hlt
  | headed head data =>
    obtain ⟨hfit, hlt⟩ := fits_first hwraps hle
    have hoffset : (f.raw head).1.offset = toU32 (f.offset + head.length) := rfl
    have hsize := (raw_kept hfit).2.1
    have hrest := (not_or.mp hwraps).2
    rw [← hoffset, ← hsize] at hrest
    have hle' : offsetAfter (f.raw head).1.offset [data.length, padLength data.length] ≤
        (f.raw head).1.size := hsize.symm ▸ hle
    have hdata := rawPadded_ref hrest hle'
    have hlt' := (fits_first hrest hle').2
    rw [hoffset, toU32_of_lt hlt] at hlt'
    rw [BuilderCall.apply, some_ref_iff]
    show (if ((f.raw head).1.rawPadded data).2 = invalidRef then invalidRef else (f.raw head).2) =
      invalidRef ↔ data = []
    rw [(raw_kept hfit).2.2.1]
    by_cases hnil : data = []
    · rw [if_pos (hdata.mpr hnil)]
      exact iff_of_true rfl hnil
    · have hlen : data.length ≠ 0 := fun hzero => hnil (List.length_eq_zero_iff.mp hzero)
      rw [if_neg (mt hdata.mp hnil)]
      refine iff_of_false (fun hinvalid => ?_) hnil
      rw [hinvalid, invalidRef] at hlt'
      omega
  | container header fields =>
    obtain ⟨hfit, hlt⟩ := fits_first hwraps hle
    have hlen : 8 + fields.length = (header.bytes ++ fields).length := by
      rw [List.length_append, SpaPOD.length_bytes]
    rw [hlen] at hfit
    have href : (f.pushContainer header fields).2 = f.offset := (raw_kept hfit).2.2.1
    rw [BuilderCall.apply, some_ref_iff, href]
    refine iff_of_false (fun hinvalid => ?_) id
    rw [hinvalid, invalidRef] at hlt
    omega
  | pad | pop | add => exact iff_of_false (fun hnone => nomatch hnone) id

/-! ## Without the record -/

/-- The builder without the record of its writes. -/
def FixedBuilder.forget (f : FixedBuilder) : SpaPODBuilder PodBuffer :=
  { f with data := f.data.buffer }

theorem forget_raw (f : FixedBuilder) (bs : List UInt8) :
    FixedBuilder.forget (f.raw bs).1 = (f.forget.raw bs).1 ∧ (f.raw bs).2 = (f.forget.raw bs).2 :=
  ⟨rfl, rfl⟩

theorem forget_pad (f : FixedBuilder) (n : Nat) :
    FixedBuilder.forget (f.pad n) = f.forget.pad n := by
  unfold SpaPODBuilder.pad
  split <;> rfl

theorem forget_rawPadded (f : FixedBuilder) (bs : List UInt8) :
    FixedBuilder.forget (f.rawPadded bs).1 = (f.forget.rawPadded bs).1 ∧
      (f.rawPadded bs).2 = (f.forget.rawPadded bs).2 := by
  unfold SpaPODBuilder.rawPadded
  split
  · exact ⟨forget_pad f 0, rfl⟩
  · exact ⟨forget_pad _ _, rfl⟩

theorem forget_pop (f : FixedBuilder) : FixedBuilder.forget f.pop = f.forget.pop := by
  obtain ⟨data, size, offset, stack, inArray, first⟩ := f
  cases stack with
  | nil => rfl
  | cons frame rest =>
    rw [SpaPODBuilder.pop_leave rfl, forget_pad, SpaPODBuilder.pop_leave rfl]
    unfold SpaPODBuilder.leave
    split <;> rfl

theorem forget_writeAll (f : FixedBuilder) (frame : Option SpaPOD) (datas : List (List UInt8)) :
    FixedBuilder.forget (f.writeAll frame datas) = f.forget.writeAll frame datas := by
  have hfold : ∀ (rest : List (List UInt8)) (f : FixedBuilder),
      FixedBuilder.forget (rest.foldl (fun b data => (b.raw data).1) f) =
        rest.foldl (fun b data => (b.raw data).1) f.forget := by
    intro rest
    induction rest with
    | nil => exact fun f => rfl
    | cons data rest ih => exact fun f => ih (f.raw data).1
  cases datas with
  | nil => rfl
  | cons data rest =>
    cases frame with
    | none => exact hfold rest (f.raw data).1
    | some pod => exact hfold rest ((f.raw data).1.push pod (f.raw data).2)

theorem forget_apply (f : FixedBuilder) (call : BuilderCall) :
    FixedBuilder.forget (call.apply f).1 = (call.apply f.forget).1 ∧
      (call.apply f).2 = (call.apply f.forget).2 := by
  cases call with
  | raw data => exact ⟨rfl, rfl⟩
  | container header fields =>
    obtain ⟨hbuilder, href⟩ := forget_raw f (header.bytes ++ fields)
    refine ⟨?_, congrArg some href⟩
    show FixedBuilder.forget (f.pushContainer header fields).1 =
      (f.forget.pushContainer header fields).1
    rw [fst_pushContainer, fst_pushContainer, ← hbuilder, ← href]
    rfl
  | pad n => exact ⟨forget_pad f n, rfl⟩
  | rawPadded data =>
    obtain ⟨hbuilder, href⟩ := forget_rawPadded f data
    exact ⟨hbuilder, congrArg some href⟩
  | primitive type body =>
    obtain ⟨hfst, hsnd⟩ := f.primitive32_write type body
    obtain ⟨hfst', hsnd'⟩ := f.forget.primitive32_write type body
    refine ⟨?_, congrArg some (hsnd.trans hsnd'.symm)⟩
    show FixedBuilder.forget (f.primitive32 type body).1 = (f.forget.primitive32 type body).1
    rw [hfst, hfst']
    show FixedBuilder.forget (if f.inArray then _ else _) = if f.inArray then _ else _
    split
    · rfl
    · exact forget_pad _ _
  | headed head data =>
    obtain ⟨hbuilder, href⟩ := forget_rawPadded (f.raw head).1 data
    refine ⟨hbuilder, ?_⟩
    show some (if ((f.raw head).1.rawPadded data).2 = invalidRef then invalidRef
      else (f.raw head).2) = _
    rw [href]
    rfl
  | pop inner => exact ⟨forget_pop _, rfl⟩
  | add call =>
    refine ⟨?_, rfl⟩
    show FixedBuilder.forget (f.addEntry (.of call)) = f.forget.addEntry (.of call)
    cases Entry.of call with
    | primitive head frame body =>
      unfold SpaPODBuilder.addEntry
      show FixedBuilder.forget (if f.lead then _ else _) = if f.lead then _ else _
      split
      · exact forget_writeAll _ _ _
      · exact forget_writeAll _ _ _
    | extra body => exact forget_writeAll _ _ _
    | pop => exact forget_pop f

/-! ## Runs -/

namespace BuilderCall

/-- No write of the call comes round to an offset inside the buffer. -/
def Sound {σ : Type} [PodStore σ] (b : SpaPODBuilder σ) (call : BuilderCall) : Prop :=
  ¬ Wraps b.size b.offset (call.pieces b)

/-- The call does not return `-1`. -/
def Valid {σ : Type} [PodStore σ] (b : SpaPODBuilder σ) (call : BuilderCall) : Prop :=
  (call.apply b).2 ≠ some invalidRef

end BuilderCall

section
open BuilderCall (step Sound Valid Empty)

/-- Any calls one after the other, from a new builder. -/
def build {σ : Type} [PodStore σ] (store : σ) (size : UInt32) (calls : List BuilderCall) :
    SpaPODBuilder σ :=
  Run.run step (.init store size.toNat) calls

/-- The record changes nothing about a run. -/
theorem forget_build (store : PodBuffer) (size : UInt32) (calls : List BuilderCall) :
    FixedBuilder.forget (build ⟨store, []⟩ size calls) = build store size calls := by
  have hrun : ∀ f : FixedBuilder,
      FixedBuilder.forget (Run.run step f calls) = Run.run step f.forget calls := by
    induction calls with
    | nil => exact fun f => rfl
    | cons call calls ih =>
      intro f
      rw [Run.run_cons, Run.run_cons, ih, step, (forget_apply f call).1]
      rfl
  exact hrun _

theorem FixedBuilder.run_suffix (h : Synced f u) (calls : List BuilderCall) :
    (Run.run step f calls).size = f.size ∧
      f.data.writes <:+ (Run.run step f calls).data.writes := by
  induction calls generalizing f u with
  | nil => exact ⟨rfl, List.suffix_rfl⟩
  | cons call calls ih =>
    have hstep := h.apply call
    obtain ⟨hsize, hwrites⟩ := ih hstep.synced
    exact ⟨hsize.trans hstep.size, hstep.writes.trans hwrites⟩

theorem Synced.run (h : Synced f u) (calls : List BuilderCall) :
    Synced (Run.run step f calls) (Run.run step u calls) := by
  induction calls generalizing f u with
  | nil => exact h
  | cons call calls ih => exact ih (h.apply call).synced

theorem Clean.run (h : Clean f u) (hsynced : Synced f u) {calls : List BuilderCall}
    (hsound : Run.Along step Sound f calls) :
    Clean (Run.run step f calls) (Run.run step u calls) := by
  induction calls generalizing f u with
  | nil => exact h
  | cons call calls ih =>
    have hstep := hsynced.apply call
    exact ih (hstep.clean h hsound.1) hstep.synced hsound.2

/-- Nothing is written outside exactly if no write comes round. -/
theorem Clean.inside_iff (h : Clean f u) (hsynced : Synced f u) (calls : List BuilderCall) :
    FixedBuilder.Inside (Run.run step f calls) ↔ Run.Along step Sound f calls := by
  induction calls generalizing f u with
  | nil => exact iff_of_true h.inside trivial
  | cons call calls ih =>
    have hstep := hsynced.apply call
    by_cases hsound : Sound f call
    · exact (ih (hstep.clean h hsound) hstep.synced).trans (and_iff_right hsound).symm
    · obtain ⟨hsize, hwrites⟩ := FixedBuilder.run_suffix hstep.synced calls
      refine iff_of_false (fun hinside => ?_) (fun halong => hsound halong.1)
      exact hstep.spilt h (not_not.mp hsound) (hinside.of_suffix hsize hwrites)

/-- An offset that ends inside the buffer never left it. -/
theorem Synced.offset_le (h : Synced f u) {calls : List BuilderCall}
    (hsound : Run.Along step Sound f calls) (hle : (Run.run step f calls).offset ≤ f.size) :
    f.offset ≤ f.size := by
  induction calls generalizing f u with
  | nil => exact hle
  | cons call calls ih =>
    have hstep := h.apply call
    have hnext := ih hstep.synced hsound.2 (hstep.size ▸ hle)
    rw [hstep.size, hstep.offset] at hnext
    exact offsetAfter_le hsound.1 hnext

theorem Synced.valid_iff (h : Synced f u) {calls : List BuilderCall}
    (hsound : Run.Along step Sound f calls) (hle : (Run.run step f calls).offset ≤ f.size) :
    Run.Along step Valid f calls ↔ Run.Along step (fun b call => ¬ Empty b call) f calls := by
  induction calls generalizing f u with
  | nil => exact Iff.rfl
  | cons call calls ih =>
    have hstep := h.apply call
    have hle' : (Run.run step (step f call) calls).offset ≤ (step f call).size :=
      hstep.size.symm ▸ hle
    have hnext : (step f call).offset ≤ f.size :=
      hstep.size ▸ hstep.synced.offset_le hsound.2 hle'
    exact and_congr (not_congr (h.ref_iff call hsound.1 hnext)) (ih hstep.synced hsound.2 hle')

theorem synced_init (store : PodBuffer) (mem : Mem) (size : UInt32) :
    Synced (.init ⟨store, []⟩ size.toNat) (.init ⟨mem⟩ size.toNat) :=
  ⟨size.toNat_lt, Nat.two_pow_pos 32, rfl, rfl, rfl, rfl⟩

theorem clean_init (store : PodBuffer) (mem : Mem) (size : UInt32) :
    Clean (.init ⟨store, []⟩ size.toNat) (.init ⟨mem⟩ size.toNat) where
  inside _ hw := nomatch hw
  refs _ hframe := nomatch hframe
  stack _ := rfl
  contents _ _ hi := nomatch hi

/-- What a caller may expect of a buffer of `size` bytes: nothing is written outside of
it, and an offset that ends inside of it tells that everything was kept, as a buffer
without end would have kept it. -/
structure KeepsToBuffer (store : PodBuffer) (size : UInt32) (mem : Mem)
    (calls : List BuilderCall) : Prop where
  inside : FixedBuilder.Inside (build ⟨store, []⟩ size calls)
  refs : (build (LoggedBuffer.mk store []) size calls).offset ≤ size.toNat →
    Run.Along step Valid (.init (LoggedBuffer.mk store []) size.toNat) calls
  contents : (build (LoggedBuffer.mk store []) size calls).offset ≤ size.toNat →
    SameContents (build ⟨store, []⟩ size calls) (build ⟨mem⟩ size calls)

/-- It may be expected exactly of the calls of which no write comes round and, where all
of them together have room, none is empty. -/
theorem keepsToBuffer_iff (store : PodBuffer) (size : UInt32) (mem : Mem)
    (calls : List BuilderCall) :
    KeepsToBuffer store size mem calls ↔
      Run.Along step Sound (.init (LoggedBuffer.mk store []) size.toNat) calls ∧
        ((build (UnboundedBuffer.mk mem) size calls).offset ≤ size.toNat →
          Run.Along step (fun b call => ¬ Empty b call)
            (.init (LoggedBuffer.mk store []) size.toNat) calls) := by
  have hsynced := synced_init store mem size
  have hclean := clean_init store mem size
  have hoffset : (build (UnboundedBuffer.mk mem) size calls).offset =
      (build (LoggedBuffer.mk store []) size calls).offset := (hsynced.run calls).offset
  have hsize := (FixedBuilder.run_suffix hsynced calls).1
  rw [hoffset]
  constructor
  · intro h
    have hsound := (hclean.inside_iff hsynced calls).mp h.inside
    exact ⟨hsound, fun hle => (hsynced.valid_iff hsound hle).mp (h.refs hle)⟩
  · rintro ⟨hsound, hempty⟩
    have hrun := hclean.run hsynced hsound
    refine ⟨hrun.inside, fun hle => (hsynced.valid_iff hsound hle).mpr (hempty hle), fun hle => ?_⟩
    exact hrun.contents (hsize.symm ▸ hle)

/-- Eight bytes, and then a string that takes the offset to 2^32: the second write is
let through to a buffer of 16 bytes. -/
theorem not_keepsToBuffer :
    ¬ KeepsToBuffer ⟨fun _ => 0, 0⟩ 16 (fun _ => 0)
      [.raw (List.replicate 8 0), .raw (List.replicate (2 ^ 32 - 8) 0)] := by
  intro h
  have hsound := (Clean.inside_iff (clean_init _ (fun _ => 0) 16) (synced_init _ _ 16) _).mp h.inside
  refine hsound.2.1 ?_
  show Wraps _ (toU32 (0 + (List.replicate 8 (0 : UInt8)).length))
    [(List.replicate (2 ^ 32 - 8) (0 : UInt8)).length]
  rw [List.length_replicate, List.length_replicate]
  exact .inl ⟨by decide, by decide⟩

end

end Pinos

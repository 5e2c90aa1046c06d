import Pinos.Spa.FilterWrites
import Pinos.Spa.FormatShape

/-
The form of what `spa_format_filter` writes, whatever the sizes of the values.

A turn of `spa_props_filter` leaves a property of the same key and type, with as many bytes of
alternatives as it has copied from both sides.  `fix_default` changes the default and the flags
of it and nothing about its form.  The values that come from the filter have the size they have
there, and where that is another one they may not make up whole values of the property.
-/

namespace Pinos

open ByteMem

namespace PropPod

/-! ## How many values are copied -/

/-- How many values the turn for two properties copies from the first and from the second. -/
def kept (p1 p2 : PropPod) : Nat × Nat :=
  let compare := p1.type.compareValue
  let b1 := p1.body
  let b2 := p2.body
  if PropBody.isList b1.range ∧ PropBody.isList b2.range then
    ((b1.choices.map fun a1 => (b2.choices.filter fun a2 => compare a1 a2 = 0).length).sum, 0)
  else if PropBody.isList b1.range ∧ b2.range = .minMax then
    ((b1.choices.filter fun a1 => b2.Within compare a1).length, 0)
  else if b1.range = .minMax ∧ PropBody.isList b2.range then
    (0, (b2.choices.filter fun a2 => b1.Within compare a2).length)
  else if b1.range = .minMax ∧ b2.range = .minMax then
    match decide (compare b1.low b2.low < 0), decide (compare b1.high b2.high < 0) with
    | false, true => (2, 0)
    | true, true | false, false => (1, 1)
    | true, false => (0, 2)
  else (0, 0)

/-- The bytes of the alternatives. -/
def keptLength (p1 p2 : PropPod) : Nat :=
  (kept p1 p2).1 * p1.body.value.length + (kept p1 p2).2 * p2.body.value.length

/-- What is taken from the filter makes up whole values of the property, and two bounds where
these are asked for. -/
def WholeValues (p1 p2 : PropPod) : Prop :=
  p1.body.value.length ∣ (kept p1 p2).2 * p2.body.value.length ∧
    (p1.body.range = .minMax → p2.body.range = .minMax →
      2 * p1.body.value.length ≤ keptLength p1 p2)

section Narrow

variable {p1 p2 : PropPod} {flags : UInt32} {alternatives : List (List UInt8)}

theorem length_of_enumOf {choices : List (List UInt8)} {n : Nat}
    (hsized : ∀ value ∈ choices, value.length = n)
    (h : PropBody.enumOf choices = .ok (flags, alternatives)) :
    alternatives.flatten.length = choices.length * n := by
  rw [(enumOf_eq_ok h).2]
  exact length_flatten hsized

/-- The turn copies as many bytes. -/
theorem length_narrow (h1 : p1.WellFormed) (h2 : p2.WellFormed)
    (h : p1.body.narrow p1.type.compareValue p2.body = .ok (flags, alternatives)) :
    alternatives.flatten.length = keptLength p1 p2 := by
  have hlow1 := h1.length_low
  have hlow2 := h2.length_low
  have hhigh1 := h1.length_high
  have hhigh2 := h2.length_high
  unfold PropBody.narrow at h
  rw [keptLength, kept]
  split at h
  · next hlists =>
    rw [if_pos hlists]
    have hlength := length_of_enumOf (n := p1.body.value.length) (fun value hvalue => by
      obtain ⟨a1, ha1, hvalue⟩ := List.mem_flatMap.mp hvalue
      obtain ⟨a2, -, rfl⟩ := List.mem_map.mp hvalue
      exact h1.sized_choices a1 ha1) h
    rw [hlength, List.length_flatMap]
    simp
  · next hlists =>
    rw [if_neg hlists]
    split at h
    · next hranges =>
      rw [if_pos hranges]
      have hlength := length_of_enumOf (n := p1.body.value.length) (fun value hvalue =>
        h1.sized_choices value (List.mem_filter.mp hvalue).1) h
      rw [hlength]
      simp
    · next hranges =>
      rw [if_neg hranges]
      split at h
      · next hbounds =>
        rw [if_pos hbounds]
        have hlength := length_of_enumOf (n := p2.body.value.length) (fun value hvalue =>
          h2.sized_choices value (List.mem_filter.mp hvalue).1) h
        rw [hlength]
        simp
      · next hbounds =>
        rw [if_neg hbounds]
        split at h
        · next hboth =>
          rw [if_pos hboth]
          cases h
          by_cases hlow : p1.type.compareValue p1.body.low p2.body.low < 0 <;>
            by_cases hhigh : p1.type.compareValue p1.body.high p2.body.high < 0 <;>
            simp [hlow, hhigh, hlow1, hlow2, hhigh1, hhigh2] <;> omega
        · next hboth =>
          rw [if_neg hboth]
          split at h
          · cases h
            simp
          · cases h

/-- The range that is set: bounds exactly if both have bounds. -/
theorem range_narrow
    (h : p1.body.narrow p1.type.compareValue p2.body = .ok (flags, alternatives)) :
    SpaPropRange.of flags = .minMax ↔ p1.body.range = .minMax ∧ p2.body.range = .minMax := by
  have hlist {range : SpaPropRange} (hlist : PropBody.isList range = true) : range ≠ .minMax := by
    rintro rfl
    cases hlist
  have henum {choices : List (List UInt8)}
      (h : PropBody.enumOf choices = .ok (flags, alternatives)) :
      SpaPropRange.of flags ≠ .minMax := by
    rw [(enumOf_eq_ok h).1]
    exact SpaPropRange.noConfusion
  unfold PropBody.narrow at h
  split at h
  · next hlists => exact iff_of_false (henum h) fun hboth => hlist hlists.1 hboth.1
  · split at h
    · next hranges => exact iff_of_false (henum h) fun hboth => hlist hranges.1 hboth.1
    · split at h
      · next hbounds => exact iff_of_false (henum h) fun hboth => hlist hbounds.2 hboth.2
      · split at h
        · next hboth =>
          cases h
          exact iff_of_true (by decide) hboth
        · next hboth =>
          split at h
          · cases h
            exact iff_of_false (by decide) hboth
          · cases h

end Narrow

/-! ## The default -/

/-- What `fix_default` may do to a property. -/
structure Defaulted (p np : PropPod) : Prop where
  key : np.key = p.key
  type : np.type = p.type
  value : np.body.value.length = p.body.value.length
  alternatives : np.body.alternatives = p.body.alternatives
  range : np.body.range = .minMax ↔ p.body.range = .minMax

section Default

variable {m : Mem} {a n b : Nat} {p np np' : PropPod} {rest value : List UInt8}

theorem Defaulted.refl (p : PropPod) : Defaulted p p := ⟨rfl, rfl, rfl, rfl, Iff.rfl⟩

theorem Defaulted.trans (h : Defaulted p np) (h' : Defaulted np np') : Defaulted p np' :=
  ⟨h'.key.trans h.key, h'.type.trans h.type, h'.value.trans h.value,
    h'.alternatives.trans h.alternatives, h'.range.trans h.range⟩

theorem Defaulted.length_bytes (h : Defaulted p np) : np.bytes.length = p.bytes.length := by
  rw [PropPod.length_bytes, PropPod.length_bytes, h.value, h.alternatives]

theorem defaulted_setValue (h : value.length = p.body.value.length) :
    Defaulted p (p.setValue value) :=
  ⟨rfl, rfl, h, rfl, Iff.rfl⟩

/-- A value of the property's size that is copied or not. -/
theorem exists_copyWhen {test : Int32 → Bool} {compare : List UInt8 → List UInt8 → Int32}
    (hn : n = p.body.value.length) :
    ∃ np, Defaulted p np ∧ copyWhen test compare n (m.write a (p.bytes ++ rest)) (a + 24) b =
      m.write a (np.bytes ++ rest) := by
  rw [copyWhen]
  split
  · have hlength : ((m.write a (p.bytes ++ rest)).read b n).length = p.body.value.length := by
      rw [Mem.length_read, hn]
    exact ⟨_, defaulted_setValue hlength, write_setValue hlength⟩
  · exact ⟨p, .refl p, rfl⟩

/-- A default that is taken from a list, if there is one. -/
theorem exists_writeBest {best : Option (List UInt8)} :
    (∀ value ∈ best, value.length = p.body.value.length) →
      ∃ np, Defaulted p np ∧ np.body.flags = p.body.flags ∧
        (match best with
          | none => m.write a (p.bytes ++ rest)
          | some best => (m.write a (p.bytes ++ rest)).write (a + 24) best) =
            m.write a (np.bytes ++ rest) := by
  intro h
  cases best with
  | none => exact ⟨p, .refl p, rfl, rfl⟩
  | some best => exact ⟨_, defaulted_setValue (h best rfl), rfl, write_setValue (h best rfl)⟩

theorem of_masked (flags : UInt32) : SpaPropRange.of (flags &&& ~~~flagUnset &&& ~~~0xF) = .none := by
  have hmask : (~~~0xF &&& 0xF : UInt32) = 0 := by decide
  rw [SpaPropRange.of, UInt32.and_assoc (flags &&& ~~~flagUnset), hmask, UInt32.and_zero]
  rfl

/-- `fix_default` of any property. -/
theorem exists_fixDefault (hsmall : p.bytes.length < 2 ^ 32) :
    ∃ np, Defaulted p np ∧
      fixDefault (m.write a (p.bytes ++ rest)) a = m.write a (np.bytes ++ rest) := by
  have hat := @at_write m a p rest hsmall
  rw [fixDefault, hat.flags, hat.valueSize, UInt32.ofNat_toNat]
  cases hrange : SpaPropRange.of p.body.flags with
  | minMax | step =>
    dsimp only
    obtain ⟨p1, hp1, hfirst⟩ := @exists_copyWhen m a p.body.value.length
      (a + 24 + p.body.value.length) p rest (fun res => res < 0)
      (SpaPODType.ofCode ((m.write a (p.bytes ++ rest)).u32 (a + 20))).compareValue rfl
    rw [hfirst]
    obtain ⟨p2, hp2, hsecond⟩ := @exists_copyWhen m a p.body.value.length
      (a + 24 + p.body.value.length + p.body.value.length) p1 rest (fun res => 0 < res)
      (SpaPODType.ofCode ((m.write a (p.bytes ++ rest)).u32 (a + 20))).compareValue hp1.value.symm
    exact ⟨p2, hp1.trans hp2, hsecond⟩
  | enum =>
    dsimp only
    generalize hbest : (List.find? _ _ <|> List.head? _) = best
    obtain ⟨p1, hp1, hflags, hvalue⟩ := @exists_writeBest m a p rest best fun value hvalue => by
      rw [← hbest] at hvalue
      obtain ⟨k, -, rfl⟩ := List.mem_map.mp (mem_of_find_or_head hvalue)
      exact Mem.length_read _ _ _
    split
    · refine ⟨p1.setFlags (p.body.flags &&& ~~~flagUnset &&& ~~~0xF),
        hp1.trans ⟨rfl, rfl, rfl, rfl, ?_⟩, ?_⟩
      · have hmasked : (p1.setFlags (p.body.flags &&& ~~~flagUnset &&& ~~~0xF)).body.range =
            .none := of_masked _
        have hlist : p1.body.range = .enum := by
          rw [PropBody.range, hflags, hrange]
        rw [hmasked, hlist]
        exact iff_of_false SpaPropRange.noConfusion SpaPropRange.noConfusion
      · have hwritten := congrArg (fun m : Mem => m.write (a + 12)
          (toLE 4 (p.body.flags &&& ~~~flagUnset &&& ~~~0xF).toNat)) hvalue
        exact hwritten.trans write_setFlags
    · exact ⟨p1, hp1, hvalue⟩
  | none | flags | other => exact ⟨p, .refl p, rfl⟩

end Default

/-! ## A turn -/

/-- What the turn for a property that is in the filter too leaves. -/
structure Turned (p1 p2 np : PropPod) : Prop where
  key : np.key = p1.key
  type : np.type = p1.type
  value : np.body.value.length = p1.body.value.length
  alternatives : np.body.alternatives.flatten.length = keptLength p1 p2
  range : np.body.range = .minMax ↔ p1.body.range = .minMax ∧ p2.body.range = .minMax

/-- What the loop leaves of a property. -/
def TurnedBy (filter : List PropPod) (p1 np : PropPod) : Prop :=
  match findProp filter p1.key with
  | none => np = p1
  | some p2 => Turned p1 p2 np

/-- How many bytes the loop writes for a property, with the padding. -/
def turnLength (filter : List PropPod) (p1 : PropPod) : Nat :=
  match findProp filter p1.key with
  | none => roundUpN p1.bytes.length 8
  | some p2 => roundUpN (24 + p1.body.value.length + keptLength p1 p2) 8

section Turn

variable {filter : List PropPod} {p1 p2 np : PropPod}

theorem Turned.length_bytes (h : Turned p1 p2 np) :
    np.bytes.length = 24 + p1.body.value.length + keptLength p1 p2 := by
  rw [PropPod.length_bytes, h.value, h.alternatives]

theorem Turned.regular_iff (h : Turned p1 p2 np) (h1 : p1.WellFormed) :
    (∃ q, SameBytes np q ∧ q.Regular) ↔ WholeValues p1 p2 := by
  have hpos : 0 < np.body.value.length := h.value.symm ▸ h1.pos
  rw [exists_regular_iff hpos, h.value, h.alternatives, h.range, WholeValues, and_imp, keptLength,
    Nat.dvd_add_right (Nat.dvd_mul_left _ _)]

theorem TurnedBy.length_bytes (h : TurnedBy filter p1 np) :
    (Pod.aligned np.bytes).length = turnLength filter p1 := by
  rw [TurnedBy] at h
  rw [Pod.length_aligned, ← roundUpN_eight, turnLength]
  cases hfind : findProp filter p1.key with
  | none =>
    rw [hfind] at h
    obtain rfl : np = p1 := h
    rfl
  | some p2 =>
    rw [hfind] at h
    rw [Turned.length_bytes h]

end Turn
end PropPod

namespace SpaPODBuilder

open PropPod (TurnedBy Turned turnLength WholeValues SameBytes)

section Filter

variable {b b' : SpaPODBuilder PodBuffer} {p p1 p2 : PropPod} {rest bs : List UInt8}

/-- A property that has been appended gets its default where it stands. -/
theorem exists_fixed_appends (h : Appends b b' (p.bytes ++ rest)) (hsmall : p.bytes.length < 2 ^ 32) :
    ∃ np, PropPod.Defaulted p np ∧
      Appends b (b'.changed fixDefault b.offset) (np.bytes ++ rest) := by
  obtain ⟨np, hnp, hfixed⟩ := @PropPod.exists_fixDefault (PodStore.view b.data) b.offset p rest hsmall
  have hlength : (np.bytes ++ rest).length = (p.bytes ++ rest).length := by
    rw [List.length_append, List.length_append, hnp.length_bytes]
  refine ⟨np, hnp, ?_, ?_, ?_, h.inArray, ?_⟩
  · have hview : PodStore.view (b'.changed fixDefault b.offset).data =
        fixDefault (PodStore.view b'.data) b.offset := fixDefault_view
    rw [hview, h.view, hfixed]
  · rw [hlength]
    exact h.offset
  · rw [hlength]
    exact h.stack
  · rw [← h.accepts]
    exact accepts_changed

/-- A property that is in the filter too, whatever the sizes of the values. -/
theorem filterProp_turned (hready : Value.Ready b) (h1 : p1.WellFormed) (h2 : p2.WellFormed)
    (hok : (b.filterProp p1 p2).2 = .ok)
    (hroom : b.Room (roundUpN (24 + p1.body.value.length + p1.keptLength p2) 8)) :
    ∃ np, Turned p1 p2 np ∧ Appends b (b.filterProp p1 p2).1 (Pod.aligned np.bytes) := by
  have hfilter : ∃ np, p1.filter p2 = .ok np := by
    rw [filterProp_snd] at hok
    cases hnp : p1.filter p2 with
    | error res =>
      rw [hnp] at hok
      exact absurd hok (PropPod.filter_ne_ok hnp)
    | ok np => exact ⟨np, rfl⟩
  obtain ⟨_, hnp⟩ := hfilter
  obtain ⟨htype, flags, alternatives, hnarrow, -⟩ := PropPod.filter_eq_ok hnp
  have hkept := PropPod.length_narrow h1 h2 hnarrow
  have hlength : (p1.narrowed flags alternatives).bytes.length =
      24 + p1.body.value.length + p1.keptLength p2 := by
    rw [PropPod.length_bytes, ← hkept]
    rfl
  have haligned : (Pod.aligned (p1.narrowed flags alternatives).bytes).length =
      roundUpN (24 + p1.body.value.length + p1.keptLength p2) 8 := by
    rw [Pod.length_aligned, ← roundUpN_eight, hlength]
  obtain ⟨b', hpop, hturn⟩ := filterProp_narrowed hready htype hnarrow (haligned ▸ hroom)
  have hsmall : (p1.narrowed flags alternatives).bytes.length < 2 ^ 32 := by
    have hlt := hroom.lt
    rw [roundUpN_eight, ← hlength] at hlt
    omega
  rw [Pod.aligned] at hpop
  obtain ⟨np, hdefault, happends⟩ := exists_fixed_appends hpop hsmall
  refine ⟨np, ⟨hdefault.key, hdefault.type, hdefault.value, ?_, ?_⟩, ?_⟩
  · rw [hdefault.alternatives]
    exact hkept
  · rw [hdefault.range]
    exact PropPod.range_narrow hnarrow
  · rw [hturn, Pod.aligned, hdefault.length_bytes]
    exact happends

/-- The properties of a format, one after the other. -/
theorem propsFilter_turned {filter props : List PropPod} (hready : Value.Ready b)
    (h1 : ∀ p ∈ props, p.WellFormed) (h2 : ∀ p ∈ filter, p.WellFormed)
    (hok : (propsFilter filter props b).2 = .ok)
    (hroom : b.Room (props.map (turnLength filter)).sum) :
    ∃ nps, List.Forall₂ (TurnedBy filter) props nps ∧
      Appends b (propsFilter filter props b).1 (nps.flatMap fun p => Pod.aligned p.bytes) := by
  induction props generalizing b with
  | nil => exact ⟨[], .nil, Appends.refl b⟩
  | cons p1 props ih =>
    rw [List.map_cons, List.sum_cons] at hroom
    have hhere := hroom.mono (Nat.le_add_right _ _)
    -- what the turn appends
    obtain ⟨np, b', hnp, happends, hturn⟩ : ∃ np b', TurnedBy filter p1 np ∧
        Appends b b' (Pod.aligned np.bytes) ∧
          propsFilter filter (p1 :: props) b = propsFilter filter props b' := by
      cases hfind : PropPod.findProp filter p1.key with
      | none =>
        rw [turnLength, hfind] at hhere
        have hlength : (Pod.aligned p1.bytes).length = roundUpN p1.bytes.length 8 := by
          rw [Pod.length_aligned, roundUpN_eight]
        refine ⟨p1, _, ?_, rawPadded_appends (hlength ▸ hhere), propsFilter_cons_none hfind⟩
        rw [TurnedBy, hfind]
      | some p2 =>
        rw [turnLength, hfind] at hhere
        have hmem : p2 ∈ filter := List.mem_of_find?_eq_some hfind
        have hfirst : (b.filterProp p1 p2).2 = .ok := by
          by_contra hne
          rw [propsFilter_cons_some hfind, if_pos hne] at hok
          exact hne hok
        obtain ⟨np, hnp, happends⟩ := filterProp_turned hready (h1 p1 List.mem_cons_self)
          (h2 p2 hmem) hfirst hhere
        refine ⟨np, _, ?_, happends, ?_⟩
        · rw [TurnedBy, hfind]
          exact hnp
        · rw [propsFilter_cons_some hfind, if_neg (not_not.mpr hfirst)]
    rw [hturn] at hok ⊢
    rw [← hnp.length_bytes] at hroom
    have hroom' : b'.Room (props.map (turnLength filter)).sum := hroom.after happends
    obtain ⟨nps, hnps, hrest⟩ := ih (hready.after happends (Pod.length_aligned_mod _))
      (fun p hp => h1 p (List.mem_cons_of_mem _ hp)) hok hroom'
    exact ⟨np :: nps, .cons hnp hnps, happends.trans hrest⟩

end Filter
end SpaPODBuilder

/-! ## A format -/

/-- How many bytes `spa_format_filter` writes when it is successful. -/
def filteredLength (filter : Option SpaFormat) (format : SpaFormat) : Nat :=
  match filter with
  | none => format.bytes.length
  | some filter => 48 + (format.props.map (PropPod.turnLength filter.props)).sum

/-- The first `n` bytes of the memory are a format, with these pods behind the media types, and
an iterator finds them; its properties are those of another format. -/
structure FormatAt (m : Mem) (n : Nat) (format : SpaFormat) (id type : UInt32)
    (contents : List FormatPod) : Prop where
  bytes : m.read 0 n = formatBytes id type format.mediaType format.mediaSubtype contents
  regular : ∀ p ∈ contents.filterMap FormatPod.prop?, p.Regular
  typed : ∀ type body, .other type body ∈ contents → type ≠ .prop
  props : List.Forall₂ (fun p np => np.key = p.key ∧ np.type = p.type) format.props
    (contents.filterMap FormatPod.prop?)
  iterated : ∃ fuel, (SpaPODIter.pod m 0).1.remaining m fuel =
    some ((formatPods format.mediaType format.mediaSubtype contents).map PodBlock.coded)

namespace SpaPODBuilder

open PropPod (TurnedBy Turned turnLength WholeValues SameBytes)

/-- What is asked of the bytes that `spa_format_filter` leaves in a new buffer. -/
structure FilterKeepsForm (buffer : PodBuffer) (size : UInt32) (filter : Option SpaFormat)
    (format : SpaFormat) : Prop where
  wellFormed :
    let b := ((init buffer size.toNat).formatFilter filter format).1
    ∃ id type contents, FormatAt (PodStore.view b.data) b.offset format id type contents
  same :
    let b := ((init buffer size.toNat).formatFilter filter format).1
    filter = none → (PodStore.view b.data).read 0 b.offset = format.bytes

section Format

variable {buffer : PodBuffer} {size : UInt32} {filter : Option SpaFormat} {format : SpaFormat}
  {b : SpaPODBuilder PodBuffer} {bs : List UInt8}

/-- The bytes of a builder that has appended to an empty buffer. -/
theorem read_of_appends (h : Appends (init buffer size.toNat) b bs) :
    b.offset = bs.length ∧ (PodStore.view b.data).Holds 0 bs := by
  have hview := h.view
  refine ⟨h.offset.trans (Nat.zero_add _), ?_⟩
  rw [hview]
  exact Mem.holds_write _ _ _

theorem exists_forall₂_iff {α β : Type} {R : α → β → Prop} (as : List α) :
    (∃ bs, List.Forall₂ R as bs) ↔ ∀ a ∈ as, ∃ b, R a b := by
  induction as with
  | nil => exact iff_of_true ⟨[], .nil⟩ fun a ha => absurd ha List.not_mem_nil
  | cons a as ih =>
    rw [List.forall_mem_cons, ← ih]
    constructor
    · rintro ⟨_, _ | ⟨hab, hrest⟩⟩
      exact ⟨⟨_, hab⟩, _, hrest⟩
    · rintro ⟨⟨b, hab⟩, bs, hrest⟩
      exact ⟨b :: bs, .cons hab hrest⟩

theorem forall₂_comp {α β γ : Type} {R : α → β → Prop} {S : β → γ → Prop} {as : List α}
    {bs : List β} {cs : List γ} (h : List.Forall₂ R as bs) (h' : List.Forall₂ S bs cs) :
    List.Forall₂ (fun a c => ∃ b, R a b ∧ S b c) as cs := by
  induction h generalizing cs with
  | nil =>
    cases h'
    exact .nil
  | cons hab _ ih =>
    cases h' with
    | cons hbc hrest => exact .cons ⟨_, hab, hbc⟩ (ih hrest)

theorem length_turned {filter : List PropPod} {props nps : List PropPod}
    (h : List.Forall₂ (TurnedBy filter) props nps) :
    (nps.flatMap fun p => Pod.aligned p.bytes).length = (props.map (turnLength filter)).sum := by
  induction h with
  | nil => rfl
  | cons hnp _ ih =>
    rw [List.flatMap_cons, List.length_append, hnp.length_bytes, ih, List.map_cons, List.sum_cons]

/-- What `spa_format_filter` appends for a filter. -/
theorem formatFilter_turned {filter format : SpaFormat}
    (hok : ((init buffer size.toNat).formatFilter (some filter) format).2 = .ok)
    (hroom : filteredLength (some filter) format ≤ size.toNat) :
    ∃ nps, List.Forall₂ (TurnedBy filter.props) format.props nps ∧
      Appends (init buffer size.toNat) ((init buffer size.toNat).formatFilter (some filter) format).1
        (formatBytes 0 filter.type format.mediaType format.mediaSubtype (nps.map .prop)) := by
  have hmedia : ¬ (filter.mediaType ≠ format.mediaType ∨
      filter.mediaSubtype ≠ format.mediaSubtype) := by
    intro hne
    rw [formatFilter] at hok
    dsimp only at hok
    rw [if_pos hne] at hok
    exact absurd hok (show SpaResult.invalidMediaType ≠ .ok by decide)
  obtain ⟨htype, hsubtype⟩ := not_or.mp hmedia
  rw [not_not] at htype hsubtype
  have hready : Value.Ready (init buffer size.toNat) := ⟨rfl, rfl, rfl⟩
  have hfields := length_formatFields 0 filter.type filter.mediaType filter.mediaSubtype
  have hroom' : (init buffer size.toNat).Room
      (8 + ((formatFields 0 filter.type filter.mediaType filter.mediaSubtype).length +
        (format.props.map (turnLength filter.props)).sum)) := by
    rw [filteredLength] at hroom
    rw [hfields]
    exact room_init (by omega) size.toNat_lt
  obtain ⟨hready', hafter⟩ := Value.container_ready .object _ (by rw [hfields]; rfl) hready hroom'
    (by rw [hfields])
  rw [formatFilter] at hok ⊢
  dsimp only at hok ⊢
  rw [if_neg hmedia, pushFormat_eq] at hok ⊢
  -- the properties, in the container that has been pushed
  obtain ⟨nps, hnps, happends⟩ := propsFilter_turned hready' format.wellFormed_props
    filter.wellFormed_props hok hafter
  refine ⟨nps, hnps, ?_⟩
  have hcontents : (formatBytes 0 filter.type format.mediaType format.mediaSubtype
      (nps.map .prop)) = Pod.withHeader .object
        (formatFields 0 filter.type filter.mediaType filter.mediaSubtype ++
          nps.flatMap fun p => Pod.aligned p.bytes) := by
    rw [formatBytes, ← htype, ← hsubtype, List.flatMap_map]
    rfl
  rw [hcontents, drop_stack happends (length_pushContainer _ _)]
  refine Value.build_container .object _ (by rw [hfields]; rfl) hready ?_ (by rw [hfields])
    (length_flatMap_mod PropPod.bytes nps) fun _ _ => happends
  rw [List.length_append, length_turned hnps]
  exact hroom'

/-- A format that has been written is a format with properties of these bytes. -/
theorem formatAt_iff {m : Mem} {t : UInt32} {nps : List PropPod}
    (h : m.Holds 0 (formatBytes 0 t format.mediaType format.mediaSubtype (nps.map .prop)))
    (hlt : (formatBytes 0 t format.mediaType format.mediaSubtype (nps.map .prop)).length < 2 ^ 32)
    (hkeys : List.Forall₂ (fun p np : PropPod => np.key = p.key ∧ np.type = p.type) format.props
      nps) :
    (∃ id type contents, FormatAt m
        (formatBytes 0 t format.mediaType format.mediaSubtype (nps.map .prop)).length format id type
        contents) ↔
      ∀ np ∈ nps, ∃ q, SameBytes np q ∧ q.Regular := by
  have hvalues : ∀ np ∈ nps, np.values.length < 2 ^ 32 := by
    intro np hnp
    obtain ⟨front, behind, hsplit⟩ := List.append_of_mem hnp
    rw [length_formatBytes, hsplit, List.map_append, List.map_cons, List.flatMap_append,
      List.flatMap_cons, List.length_append, List.length_append] at hlt
    have hlength : (Pod.aligned (FormatPod.prop np).bytes).length =
        np.bytes.length + padLength np.bytes.length := Pod.length_aligned _
    rw [PropPod.length_bytes] at hlength
    rw [PropPod.length_values]
    omega
  constructor
  · rintro ⟨id, type, contents, hat⟩
    have hbytes : formatBytes id type format.mediaType format.mediaSubtype contents =
        formatBytes 0 t format.mediaType format.mediaSubtype (nps.map .prop) :=
      hat.bytes.symm.trans h
    have hpods := formatPods_inj hbytes.symm hlt
    have hblocks := (List.cons.inj (List.cons.inj hpods).2).2
    rw [List.map_map] at hblocks
    have hsame := forall₂_of_blocks hblocks.symm hat.typed hvalues
    have hall := (List.forall₂_and_left (contents.filterMap FormatPod.prop?) nps).mpr
      ⟨hat.regular, hsame.flip⟩
    exact (exists_forall₂_iff _).mp ⟨_, (hall.imp fun q np hq => And.intro hq.2 hq.1).flip⟩
  · intro hregular
    -- the properties with their alternatives cut into values
    obtain ⟨qs, hqs⟩ := (exists_forall₂_iff _).mpr hregular
    have hblocks : (qs.map FormatPod.prop).map FormatPod.block =
        (nps.map FormatPod.prop).map FormatPod.block := by
      rw [List.map_map, List.map_map]
      refine (List.forall₂_eq_eq_eq ▸ List.forall₂_map_left_iff.mpr
        (List.forall₂_map_right_iff.mpr (hqs.flip.imp fun q np hq => ?_)))
      exact hq.1.block
    have hbytes := @formatBytes_congr 0 t format.mediaType format.mediaSubtype _ _ hblocks
    have hprops : (qs.map FormatPod.prop).filterMap FormatPod.prop? = qs := by
      rw [List.filterMap_map]
      exact List.filterMap_some
    refine ⟨0, t, qs.map .prop, ?_⟩
    rw [← hbytes] at h hlt ⊢
    refine ⟨h, ?_, ?_, ?_, ⟨_, (remaining_formatPods h hlt (Nat.lt_succ_self _)).2⟩⟩
    · rw [hprops]
      have hflip : List.Forall₂ (fun q np => q.Regular ∧ SameBytes np q) qs nps :=
        hqs.flip.imp fun q np hq => And.intro hq.2 hq.1
      exact ((List.forall₂_and_left qs nps).mp hflip).1
    · intro type body hmem
      obtain ⟨q, -, hq⟩ := List.mem_map.mp hmem
      cases hq
    · rw [hprops]
      exact (forall₂_comp hkeys hqs).imp fun p q ⟨np, hp, hq⟩ =>
        ⟨hq.1.key.trans hp.1, hq.1.type.trans hp.2⟩

/-- The properties that the loop leaves are there with whole values exactly if it has taken
whole values from the filter. -/
theorem regular_iff {filter props nps : List PropPod}
    (h : List.Forall₂ (TurnedBy filter) props nps) (h1 : ∀ p ∈ props, p.WellFormed) :
    (∀ np ∈ nps, ∃ q, SameBytes np q ∧ q.Regular) ↔
      ∀ p1 ∈ props, ∀ p2 ∈ PropPod.findProp filter p1.key, WholeValues p1 p2 := by
  induction h with
  | nil => simp
  | @cons p1 np props nps hnp _ ih =>
    have hwf := h1 p1 List.mem_cons_self
    rw [List.forall_mem_cons, List.forall_mem_cons, ih fun p hp => h1 p (List.mem_cons_of_mem _ hp)]
    refine and_congr_left fun _ => ?_
    rw [TurnedBy] at hnp
    cases hfind : PropPod.findProp filter p1.key with
    | none =>
      rw [hfind] at hnp
      obtain rfl : np = p1 := hnp
      exact iff_of_true ⟨np, ⟨rfl, rfl, rfl, rfl, rfl⟩, hwf.regular⟩ fun p2 hp2 => nomatch hp2
    | some p2 =>
      rw [hfind] at hnp
      rw [PropPod.Turned.regular_iff hnp hwf]
      exact ⟨fun hwhole p hp => Option.some.inj hp ▸ hwhole, fun hwhole => hwhole p2 rfl⟩

theorem keys_turned {filter props nps : List PropPod}
    (h : List.Forall₂ (TurnedBy filter) props nps) :
    List.Forall₂ (fun p np : PropPod => np.key = p.key ∧ np.type = p.type) props nps := by
  refine h.imp fun p1 np hnp => ?_
  rw [TurnedBy] at hnp
  cases hfind : PropPod.findProp filter p1.key with
  | none =>
    rw [hfind] at hnp
    obtain rfl : np = p1 := hnp
    exact ⟨rfl, rfl⟩
  | some p2 =>
    rw [hfind] at hnp
    exact ⟨PropPod.Turned.key hnp, PropPod.Turned.type hnp⟩

theorem keepsForm_some_iff {filter format : SpaFormat}
    (hok : ((init buffer size.toNat).formatFilter (some filter) format).2 = .ok)
    (hroom : filteredLength (some filter) format ≤ size.toNat) :
    FilterKeepsForm buffer size (some filter) format ↔
      ∀ p1 ∈ format.props, ∀ p2 ∈ PropPod.findProp filter.props p1.key, WholeValues p1 p2 := by
  have hsize := size.toNat_lt
  obtain ⟨nps, hnps, happends⟩ := formatFilter_turned hok hroom
  obtain ⟨hoffset, hholds⟩ := read_of_appends happends
  have hlength : (formatBytes 0 filter.type format.mediaType format.mediaSubtype
      (nps.map .prop)).length = filteredLength (some filter) format := by
    rw [length_formatBytes, filteredLength, ← length_turned hnps, List.flatMap_map]
    rfl
  have hat := formatAt_iff hholds (by omega) (keys_turned hnps)
  have hwhole := regular_iff hnps format.wellFormed_props
  rw [← hoffset] at hat
  constructor
  · exact fun h => hwhole.mp (hat.mp h.wellFormed)
  · exact fun h => ⟨hat.mpr (hwhole.mpr h), fun hnone => nomatch hnone⟩

/-- `spa_format_filter` leaves a format exactly if, in each property that it narrows, the values
that it takes from the filter make up whole values of the property. -/
theorem filterKeepsForm_iff (buffer : PodBuffer) (size : UInt32) (filter : Option SpaFormat)
    (format : SpaFormat) (hok : ((init buffer size.toNat).formatFilter filter format).2 = .ok)
    (hroom : filteredLength filter format ≤ size.toNat) :
    FilterKeepsForm buffer size filter format ↔
      ∀ φ ∈ filter, ∀ p1 ∈ format.props, ∀ p2 ∈ PropPod.findProp φ.props p1.key,
        WholeValues p1 p2 := by
  have hsize := size.toNat_lt
  cases filter with
  | none =>
    have hmod : format.bytes.length % 8 = 0 := by
      have := length_flatMap_mod FormatPod.bytes format.contents
      rw [format.length_bytes]
      omega
    have haligned := Pod.aligned_of_mod hmod
    have happends : Appends (init buffer size.toNat)
        ((init buffer size.toNat).formatFilter none format).1 format.bytes := by
      have hroom' : (init buffer size.toNat).Room (Pod.aligned format.bytes).length :=
        room_init (by rw [haligned]; exact hroom) size.toNat_lt
      have hraw := rawPadded_appends hroom'
      rw [haligned] at hraw
      rw [formatFilter]
      dsimp only
      exact hraw
    obtain ⟨hoffset, hholds⟩ := read_of_appends happends
    have hlt : format.bytes.length < 2 ^ 32 := by
      rw [filteredLength] at hroom
      omega
    refine iff_of_true ⟨⟨format.id, format.type, format.contents, ?_⟩, fun _ => ?_⟩
      (fun φ hφ => (Option.not_mem_none φ hφ).elim)
    · rw [hoffset]
      refine ⟨hholds, fun p hp => (format.props_wellFormed p hp).regular, format.others_typed,
        List.forall₂_same.mpr fun p _ => ⟨rfl, rfl⟩,
        ⟨_, (remaining_formatPods hholds hlt (Nat.lt_succ_self _)).2⟩⟩
    · rw [hoffset]
      exact hholds
  | some filter =>
    have hsome := keepsForm_some_iff hok hroom
    constructor
    · intro h φ hφ
      obtain rfl : filter = φ := Option.some.inj hφ
      exact hsome.mp h
    · exact fun h => hsome.mpr (h filter rfl)

section OneProp

variable (p : PropPod)

theorem oneProp_wellFormed (hwf : p.WellFormed) :
    ∀ q ∈ [FormatPod.prop p].filterMap FormatPod.prop?, q.WellFormed := by
  intro q hq
  obtain rfl : q = p := by simpa [FormatPod.prop?] using hq
  exact hwf

theorem oneProp_typed : ∀ type body, .other type body ∈ [FormatPod.prop p] → type ≠ .prop := by
  intro type body hmem
  simp at hmem

theorem oneProp_small (hsmall : p.bytes.length < 2 ^ 16) :
    48 + ([FormatPod.prop p].flatMap fun pod => Pod.aligned pod.bytes).length < 2 ^ 32 := by
  have hlength : (Pod.aligned (FormatPod.prop p).bytes).length =
      p.bytes.length + padLength p.bytes.length := Pod.length_aligned _
  have hpad := padLength_eq p.bytes.length
  simp only [List.flatMap_cons, List.flatMap_nil, List.append_nil]
  omega

end OneProp

/-- A format with one property. -/
def oneProp (p : PropPod) (hwf : p.WellFormed) (hsmall : p.bytes.length < 2 ^ 16) : SpaFormat where
  id := 0
  type := 1
  mediaType := 2
  mediaSubtype := 3
  contents := [.prop p]
  props_wellFormed := oneProp_wellFormed p hwf
  others_typed := oneProp_typed p
  small := oneProp_small p hsmall

/-- Words from a to z, the default b. -/
def wordRange : PropPod := ⟨1, .string, ⟨1 ||| flagUnset, [98, 0], [[97, 0], [122, 0]]⟩⟩

/-- One word only. -/
def wordOf (word : List UInt8) : PropPod := ⟨1, .string, ⟨3 ||| flagUnset, word, [word]⟩⟩

theorem wellFormed_wordRange : wordRange.WellFormed where
  pos := by decide
  sized := by decide
  few := by decide
  bounds _ := by decide

theorem wellFormed_wordOf {word : List UInt8} (h : 0 < word.length) : (wordOf word).WellFormed where
  pos := h
  sized a ha := by rw [List.mem_singleton.mp ha]; rfl
  few := by show 1 < _; decide
  bounds hrange := by
    have henum : (wordOf word).body.range = .enum := by
      show SpaPropRange.of (3 ||| flagUnset) = .enum
      decide
    rw [henum] at hrange
    cases hrange

def wordRangeFormat : SpaFormat := oneProp wordRange wellFormed_wordRange (by decide)

/-- The word b. -/
def shortWordFormat : SpaFormat := oneProp (wordOf [98, 0]) (wellFormed_wordOf (by decide)) (by decide)

/-- The word bc. -/
def longWordFormat : SpaFormat :=
  oneProp (wordOf [98, 99, 0]) (wellFormed_wordOf (by decide)) (by decide)

theorem filterKeepsForm_shortWord :
    FilterKeepsForm ⟨fun _ => 0, 0⟩ 1024 (some shortWordFormat) wordRangeFormat := by
  refine (filterKeepsForm_iff _ _ _ _ (formatFilter_snd.mpr (by decide)) (by decide)).mpr ?_
  intro φ hφ p1 hp1 p2 hp2
  obtain rfl : shortWordFormat = φ := Option.some.inj hφ
  obtain rfl : p1 = wordRange := List.mem_singleton.mp hp1
  obtain rfl : wordOf [98, 0] = p2 := Option.some.inj hp2
  exact ⟨by decide, by decide⟩

/-- A word of another length is taken into the range. -/
theorem not_filterKeepsForm :
    ((init ⟨fun _ => 0, 0⟩ 1024).formatFilter (some longWordFormat) wordRangeFormat).2 = .ok ∧
      filteredLength (some longWordFormat) wordRangeFormat ≤ 1024 ∧
        ¬ FilterKeepsForm ⟨fun _ => 0, 0⟩ 1024 (some longWordFormat) wordRangeFormat := by
  have hok : ((init ⟨fun _ => 0, 0⟩ 1024).formatFilter (some longWordFormat) wordRangeFormat).2 =
      .ok := formatFilter_snd.mpr (by decide)
  have hroom : filteredLength (some longWordFormat) wordRangeFormat ≤ 1024 := by decide
  refine ⟨hok, hroom, fun h => ?_⟩
  have hwhole := (keepsForm_some_iff hok hroom).mp h wordRange (List.mem_singleton_self _)
    (wordOf [98, 99, 0]) rfl
  exact absurd hwhole.1 (by decide)

end Format
end SpaPODBuilder

end Pinos

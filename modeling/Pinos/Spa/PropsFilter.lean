import Mathlib.Data.List.Forall2
import Pinos.Spa.Props

/-
What properties admit, and when `spa_props_filter` builds the properties that admit what
both of two admit.
-/

namespace Pinos

namespace PropBody

section Order

variable {α : Type} [Preorder α]

/-- Two values that no range tells apart. -/
def Same (a b : α) : Prop := a ≤ b ∧ b ≤ a

theorem Same.refl (a : α) : Same a a := ⟨le_refl a, le_refl a⟩

theorem Same.symm {a b : α} (h : Same a b) : Same b a := ⟨h.2, h.1⟩

theorem Same.trans {a b c : α} (h : Same a b) (h' : Same b c) : Same a c :=
  ⟨le_trans h.1 h'.1, le_trans h'.2 h.2⟩

/-- What is asked of a comparison: that it takes the same values for the same. -/
structure Compares (compare : α → α → Int32) : Prop where
  same : ∀ {a b : α}, Same a b → compare a b = 0
  congr : ∀ {a a' : α}, Same a a' → ∀ b, compare a b = compare a' b

variable (b : PropBody α)

/-- The values that a property stands for. -/
def Admits (v : α) : Prop :=
  if b.unset then
    match b.range, b.alternatives with
    | .minMax, [lo, hi] => lo ≤ v ∧ v ≤ hi
    | .enum, alternatives => ∃ a ∈ alternatives, Same v a
    | _, _ => False
  else Same v b.value

/-- A property has no range, a list or two bounds, and one of the last two when it is unset. -/
structure WellFormed : Prop where
  range : b.range = .none ∨ b.range = .enum ∨ b.range = .minMax
  unset : b.unset = true → b.range ≠ .none
  bounds : b.range = .minMax → ∃ lo hi, b.alternatives = [lo, hi]

/-- The highest value that a property with two bounds admits. -/
def top : α := if b.unset then b.high else b.value

end Order

section Admits

variable {α : Type} [Preorder α] {b b1 b2 : PropBody α} {v v' : α} {compare : α → α → Int32}

omit [Preorder α] in
theorem isList_iff {range : SpaPropRange} :
    isList range = true ↔ range = .none ∨ range = .enum := by
  rw [isList, Bool.or_eq_true, decide_eq_true_iff, decide_eq_true_iff]

theorem admits_list (h : b.WellFormed) (hlist : isList b.range = true) :
    b.Admits v ↔ ∃ a ∈ b.choices, Same v a := by
  unfold Admits choices
  cases hunset : b.unset with
  | true =>
    have hrange := (isList_iff.mp hlist).resolve_left (h.unset hunset)
    rw [hrange]
    rfl
  | false => simp

theorem admits_range (h : b.WellFormed) (hrange : b.range = .minMax) :
    b.Admits v ↔ b.low ≤ v ∧ v ≤ b.top := by
  obtain ⟨lo, hi, halts⟩ := h.bounds hrange
  unfold Admits low top high read
  cases hunset : b.unset with
  | true =>
    rw [hrange, halts]
    rfl
  | false => exact and_comm

theorem Admits.congr (h : b.Admits v) (hsame : Same v' v) : b.Admits v' := by
  unfold Admits at h ⊢
  split at h
  · next hunset =>
    rw [if_pos hunset]
    split at h
    · exact ⟨le_trans h.1 hsame.2, le_trans hsame.1 h.2⟩
    · obtain ⟨a, ha, hv⟩ := h
      exact ⟨a, ha, hsame.trans hv⟩
    · cases h
  · next hunset =>
    rw [if_neg hunset]
    exact hsame.trans h

/-! ## What is built -/

/-- The default that `fix_default` chooses from a list. -/
def chosen (compare : α → α → Int32) (value : α) (alternatives : List α) : α :=
  ((alternatives.find? fun alt => compare value alt = 0) <|> alternatives.head?).getD value

omit [Preorder α] in
theorem chosen_mem {value : α} {alternatives : List α} (h : alternatives ≠ []) :
    chosen compare value alternatives ∈ alternatives := by
  unfold chosen
  cases hfind : alternatives.find? fun alt => compare value alt = 0 with
  | some a => exact List.mem_of_find?_eq_some hfind
  | none =>
    obtain ⟨a, rest, rfl⟩ := List.exists_cons_of_ne_nil h
    exact List.mem_cons_self

omit [Preorder α] in
theorem build_enum {alternatives : List α} :
    b.build compare 3 alternatives =
      { flags := if alternatives.length = 1 then 0 else 0x13
        value := chosen compare b.value alternatives
        alternatives := alternatives } := by
  have hrange : range { b with flags := 3 ||| flagUnset, alternatives := alternatives } = .enum := by
    show SpaPropRange.of (3 ||| 0x10) = .enum
    decide
  have hset : (3 ||| flagUnset) = 0x13 := by decide
  have hfixed : (0x13 : UInt32) &&& ~~~flagUnset &&& ~~~0xF = 0 := by decide
  rw [build, fixDefault, hrange]
  dsimp only
  rw [hset, hfixed]
  rfl

/-- A list of values that is built admits these, and its default is one of them. -/
theorem build_list {alternatives : List α} (h : alternatives ≠ []) :
    (∀ v, (b.build compare 3 alternatives).Admits v ↔ ∃ a ∈ alternatives, Same v a) ∧
      (b.build compare 3 alternatives).value ∈ alternatives := by
  rw [build_enum]
  refine ⟨fun v => ?_, chosen_mem h⟩
  have hchosen : chosen compare b.value alternatives ∈ alternatives := chosen_mem h
  generalize chosen compare b.value alternatives = value at hchosen
  by_cases hone : alternatives.length = 1
  · obtain ⟨a, rfl⟩ := List.length_eq_one_iff.mp hone
    obtain rfl := List.mem_singleton.mp hchosen
    have hunset : unset (⟨0, value, [value]⟩ : PropBody α) = false := by
      show decide (0 &&& 0x10 ≠ (0 : UInt32)) = false
      decide
    simp [Admits, hunset]
  · have hunset : unset (⟨0x13, value, alternatives⟩ : PropBody α) = true := by
      show decide (0x13 &&& 0x10 ≠ (0 : UInt32)) = true
      decide
    have hrange : range (⟨0x13, value, alternatives⟩ : PropBody α) = .enum := by
      show SpaPropRange.of 0x13 = .enum
      decide
    rw [if_neg hone, Admits, hunset, hrange]
    rfl

theorem build_range {lo hi : α} :
    (∀ v, (b.build compare 1 [lo, hi]).Admits v ↔ lo ≤ v ∧ v ≤ hi) ∧
      (b.build compare 1 [lo, hi]).value =
        if compare b.value lo < 0 then if 0 < compare lo hi then hi else lo
        else if 0 < compare b.value hi then hi
        else b.value := by
  have hrange : range { b with flags := 1 ||| flagUnset, alternatives := [lo, hi] } = .minMax := by
    show SpaPropRange.of (1 ||| 0x10) = .minMax
    decide
  have hbuild : b.build compare 1 [lo, hi] =
      { flags := 1 ||| flagUnset
        value :=
          let value := if compare b.value lo < 0 then lo else b.value
          if 0 < compare value hi then hi else value
        alternatives := [lo, hi] } := by
    rw [build, fixDefault, hrange]
  rw [hbuild]
  refine ⟨fun v => ?_, ?_⟩
  · generalize (let value := if compare b.value lo < 0 then lo else b.value
      if 0 < compare value hi then hi else value) = value
    have hunset : unset { flags := 1 ||| flagUnset, value := value, alternatives := [lo, hi] } =
        true := by
      show decide ((1 ||| 0x10) &&& 0x10 ≠ (0 : UInt32)) = true
      decide
    have hbounds : range { flags := 1 ||| flagUnset, value := value, alternatives := [lo, hi] } =
        .minMax := hrange
    rw [Admits, hunset, hbounds]
    rfl
  · dsimp only
    split <;> rfl

/-! ## Two properties of one type -/

/-- A result is right for two properties: they are refused when they admit nothing in common,
and else what is built admits what both admit, its default among it. -/
def Meets (b1 b2 : PropBody α) : Except SpaResult (PropBody α) → Prop
  | .error res => res = .incompatibleProps ∧ ∀ v, ¬ (b1.Admits v ∧ b2.Admits v)
  | .ok out => (∃ v, b1.Admits v ∧ b2.Admits v) ∧
      (∀ v, out.Admits v ↔ b1.Admits v ∧ b2.Admits v) ∧ out.Admits out.value

/-- What is asked of two properties with bounds: of the lower bounds the code takes the one
that is above the other, of the upper bounds the one that is below what either admits, they
are in order, and the default is between them or taken for outside. -/
structure BoundsMeet (compare : α → α → Int32) (b1 b2 : PropBody α) (lo hi : α) : Prop where
  order : lo ≤ hi
  low : b1.low ≤ lo ∧ b2.low ≤ lo
  high : hi ≤ b1.top ∧ hi ≤ b2.top
  default : compare b1.value lo < 0 ∨ 0 < compare b1.value hi ∨ lo ≤ b1.value ∧ b1.value ≤ hi

/-- The lower bound that the code takes. -/
def meetLow (compare : α → α → Int32) (b1 b2 : PropBody α) : α :=
  if compare b1.low b2.low < 0 then b2.low else b1.low

def meetHigh (compare : α → α → Int32) (b1 b2 : PropBody α) : α :=
  if compare b1.high b2.high < 0 then b1.high else b2.high

/-- The comparisons that the code makes with the values of two properties say what these
admit. -/
def Right (compare : α → α → Int32) (b1 b2 : PropBody α) : Prop :=
  if isList b1.range ∧ isList b2.range then
    ∀ a1 ∈ b1.choices, ∀ a2 ∈ b2.choices, compare a1 a2 = 0 → b2.Admits a1
  else if isList b1.range then ∀ a ∈ b1.choices, b2.Within compare a ↔ b2.Admits a
  else if isList b2.range then ∀ a ∈ b2.choices, b1.Within compare a ↔ b1.Admits a
  else BoundsMeet compare b1 b2 (meetLow compare b1 b2) (meetHigh compare b1 b2)

/-- No value of a list passes the comparisons. -/
def Refused (compare : α → α → Int32) (b1 b2 : PropBody α) : Prop :=
  if isList b1.range ∧ isList b2.range then
    ∀ a1 ∈ b1.choices, ∀ a2 ∈ b2.choices, compare a1 a2 ≠ 0
  else if isList b1.range then ∀ a ∈ b1.choices, ¬ b2.Within compare a
  else if isList b2.range then ∀ a ∈ b2.choices, ¬ b1.Within compare a
  else False

/-- Values of a list that pass a test are what the list and a property have in common if and
only if the test says what the property admits. -/
theorem passing_iff {choices passing : List α} {Passes Fits : α → Prop}
    (hmem : ∀ a, a ∈ passing ↔ a ∈ choices ∧ Passes a)
    (hpasses : ∀ a a', Same a' a → Passes a → Passes a')
    (hfits : ∀ a a', Same a' a → Fits a → Fits a') :
    (∀ v, (∃ a ∈ passing, Same v a) ↔ (∃ a ∈ choices, Same v a) ∧ Fits v) ↔
      ∀ a ∈ choices, Passes a ↔ Fits a := by
  constructor
  · intro h a ha
    constructor
    · intro hpass
      exact ((h a).mp ⟨a, (hmem a).mpr ⟨ha, hpass⟩, Same.refl a⟩).2
    · intro hfit
      obtain ⟨a', ha', hsame⟩ := (h a).mpr ⟨⟨a, ha, Same.refl a⟩, hfit⟩
      exact hpasses a' a hsame ((hmem a').mp ha').2
  · intro h v
    constructor
    · intro ⟨a, ha, hsame⟩
      obtain ⟨hchoice, hpass⟩ := (hmem a).mp ha
      exact ⟨⟨a, hchoice, hsame⟩, hfits a v hsame ((h a hchoice).mp hpass)⟩
    · intro ⟨⟨a, ha, hsame⟩, hfit⟩
      exact ⟨a, (hmem a).mpr ⟨ha, (h a ha).mpr (hfits v a hsame.symm hfit)⟩, hsame⟩

theorem meets_copied {alternatives : List α} :
    Meets b1 b2 (b1.copied compare alternatives) ↔
      ∀ v, (∃ a ∈ alternatives, Same v a) ↔ b1.Admits v ∧ b2.Admits v := by
  unfold copied
  cases alternatives with
  | nil =>
    constructor
    · intro h v
      exact iff_of_false (fun ⟨_, ha, _⟩ => List.not_mem_nil ha) (h.2 v)
    · intro h
      exact ⟨rfl, fun v hboth => by simpa using (h v).mpr hboth⟩
  | cons a rest =>
    obtain ⟨hadmits, hvalue⟩ := @build_list α _ b1 compare (a :: rest) (List.cons_ne_nil a rest)
    constructor
    · intro h v
      rw [← hadmits v]
      exact h.2.1 v
    · intro h
      refine ⟨⟨a, (h a).mp ⟨a, List.mem_cons_self, Same.refl a⟩⟩, ?_, ?_⟩
      · exact fun v => (hadmits v).trans (h v)
      · exact (hadmits _).mpr ⟨_, hvalue, Same.refl _⟩

theorem Within.congr (hc : Compares compare) {a a' : α} (hsame : Same a' a)
    (h : b.Within compare a) : b.Within compare a' := by
  rw [Within, hc.congr hsame, hc.congr hsame]
  exact h

omit [Preorder α] in
theorem range_cases (h : b.WellFormed) :
    isList b.range = true ∨ isList b.range = false ∧ b.range = .minMax := by
  rcases h.range with hr | hr | hr
  · exact .inl (isList_iff.mpr (.inl hr))
  · exact .inl (isList_iff.mpr (.inr hr))
  · rw [hr]
    exact .inr ⟨rfl, rfl⟩

section Kinds

omit [Preorder α]

theorem filterBody_lists (hlist1 : isList b1.range = true) (hlist2 : isList b2.range = true) :
    filterBody compare b1 b2 = b1.copied compare (b1.choices.flatMap fun a1 =>
      (b2.choices.filter fun a2 => compare a1 a2 = 0).map fun _ => a1) := by
  rw [filterBody, if_pos ⟨hlist1, hlist2⟩]

theorem filterBody_list_range (hlist1 : isList b1.range = true) (hlist2 : isList b2.range = false)
    (hrange2 : b2.range = .minMax) :
    filterBody compare b1 b2 =
      b1.copied compare (b1.choices.filter fun a1 => b2.Within compare a1) := by
  have hfalse2 : ¬ isList b2.range = true := Bool.eq_false_iff.mp hlist2
  rw [filterBody, if_neg (fun hboth => hfalse2 hboth.2), if_pos ⟨hlist1, hrange2⟩]

theorem filterBody_range_list (hlist1 : isList b1.range = false) (hrange1 : b1.range = .minMax)
    (hlist2 : isList b2.range = true) :
    filterBody compare b1 b2 =
      b1.copied compare (b2.choices.filter fun a2 => b1.Within compare a2) := by
  have hfalse1 : ¬ isList b1.range = true := Bool.eq_false_iff.mp hlist1
  rw [filterBody, if_neg (fun hboth => hfalse1 hboth.1), if_neg (fun hboth => hfalse1 hboth.1),
    if_pos ⟨hrange1, hlist2⟩]

theorem filterBody_ranges (hlist1 : isList b1.range = false) (hrange1 : b1.range = .minMax)
    (hlist2 : isList b2.range = false) (hrange2 : b2.range = .minMax) :
    filterBody compare b1 b2 =
      .ok (b1.build compare 1 [meetLow compare b1 b2, meetHigh compare b1 b2]) := by
  have hfalse1 : ¬ isList b1.range = true := Bool.eq_false_iff.mp hlist1
  have hfalse2 : ¬ isList b2.range = true := Bool.eq_false_iff.mp hlist2
  rw [filterBody, if_neg (fun hboth => hfalse1 hboth.1), if_neg (fun hboth => hfalse1 hboth.1),
    if_neg (fun hboth => hfalse2 hboth.2), if_pos ⟨hrange1, hrange2⟩]
  rfl

end Kinds

/-- Two lists. -/
theorem meets_lists (hc : Compares compare) (h1 : b1.WellFormed) (h2 : b2.WellFormed)
    (hlist1 : isList b1.range = true) (hlist2 : isList b2.range = true) :
    Meets b1 b2 (filterBody compare b1 b2) ↔ Right compare b1 b2 := by
  have hpass := @passing_iff α _ b1.choices
    (b1.choices.flatMap fun a1 => (b2.choices.filter fun a2 => compare a1 a2 = 0).map fun _ => a1)
    (fun a1 => ∃ a2 ∈ b2.choices, compare a1 a2 = 0) b2.Admits (by simp)
    (fun a a' hsame ⟨a2, ha2, heq⟩ => ⟨a2, ha2, (hc.congr hsame a2).trans heq⟩)
    (fun a a' hsame hfit => hfit.congr hsame)
  rw [filterBody_lists hlist1 hlist2, meets_copied, Right, if_pos ⟨hlist1, hlist2⟩]
  simp only [admits_list h1 hlist1]
  rw [hpass]
  constructor
  · exact fun h a1 ha1 a2 ha2 heq => (h a1 ha1).mp ⟨a2, ha2, heq⟩
  · intro h a1 ha1
    refine ⟨fun ⟨a2, ha2, heq⟩ => h a1 ha1 a2 ha2 heq, fun hfit => ?_⟩
    obtain ⟨a2, ha2, hsame⟩ := (admits_list h2 hlist2).mp hfit
    exact ⟨a2, ha2, hc.same hsame⟩

/-- The values of a list inside bounds. -/
theorem meets_list_range (hc : Compares compare) (h1 : b1.WellFormed)
    (hlist1 : isList b1.range = true) (hlist2 : isList b2.range = false)
    (hrange2 : b2.range = .minMax) :
    Meets b1 b2 (filterBody compare b1 b2) ↔ Right compare b1 b2 := by
  have hnot : ¬ (isList b1.range = true ∧ isList b2.range = true) :=
    fun hboth => Bool.noConfusion (hlist2.symm.trans hboth.2)
  have hpass := @passing_iff α _ b1.choices (b1.choices.filter fun a => b2.Within compare a)
    (b2.Within compare) b2.Admits (by simp)
    (fun a a' hsame hpass => hpass.congr hc hsame) (fun a a' hsame hfit => hfit.congr hsame)
  rw [filterBody_list_range hlist1 hlist2 hrange2, meets_copied, Right, if_neg hnot, if_pos hlist1]
  simp only [admits_list h1 hlist1]
  exact hpass

theorem meets_range_list (hc : Compares compare) (h2 : b2.WellFormed)
    (hlist1 : isList b1.range = false) (hrange1 : b1.range = .minMax)
    (hlist2 : isList b2.range = true) :
    Meets b1 b2 (filterBody compare b1 b2) ↔ Right compare b1 b2 := by
  have hnot : ¬ (isList b1.range = true ∧ isList b2.range = true) :=
    fun hboth => Bool.noConfusion (hlist1.symm.trans hboth.1)
  have hpass := @passing_iff α _ b2.choices (b2.choices.filter fun a => b1.Within compare a)
    (b1.Within compare) b1.Admits (by simp)
    (fun a a' hsame hpass => hpass.congr hc hsame) (fun a a' hsame hfit => hfit.congr hsame)
  rw [filterBody_range_list hlist1 hrange1 hlist2, meets_copied, Right, if_neg hnot,
    if_neg (Bool.eq_false_iff.mp hlist1), if_pos hlist2, ← hpass]
  simp only [admits_list h2 hlist2]
  exact forall_congr' fun v => iff_congr Iff.rfl and_comm

omit [Preorder α] in
theorem meetLow_cases : meetLow compare b1 b2 = b1.low ∨ meetLow compare b1 b2 = b2.low := by
  rw [meetLow]
  split
  · exact .inr rfl
  · exact .inl rfl

omit [Preorder α] in
theorem meetHigh_cases : meetHigh compare b1 b2 = b1.high ∨ meetHigh compare b1 b2 = b2.high := by
  rw [meetHigh]
  split
  · exact .inl rfl
  · exact .inr rfl

/-- What is not above what a property admits is below the bound that is read when this one is
not below the lower bound. -/
theorem le_high_of_le_top (htop : v ≤ b.top) (hlow : b.low ≤ b.high) : v ≤ b.high := by
  unfold top at htop
  split at htop
  · exact htop
  · next hunset =>
    have hvalue : b.low = b.value := by
      rw [low, read, if_neg hunset]
      rfl
    exact le_trans htop (hvalue ▸ hlow)

/-- Two properties with bounds. -/
theorem meets_ranges (h1 : b1.WellFormed) (h2 : b2.WellFormed)
    (hlist1 : isList b1.range = false) (hrange1 : b1.range = .minMax)
    (hlist2 : isList b2.range = false) (hrange2 : b2.range = .minMax) :
    Meets b1 b2 (filterBody compare b1 b2) ↔ Right compare b1 b2 := by
  have hfalse1 : ¬ isList b1.range = true := Bool.eq_false_iff.mp hlist1
  rw [filterBody_ranges hlist1 hrange1 hlist2 hrange2, Right,
    if_neg (fun hboth => hfalse1 hboth.1), if_neg hfalse1, if_neg (Bool.eq_false_iff.mp hlist2)]
  have hlow := @meetLow_cases α b1 b2 compare
  have hhigh := @meetHigh_cases α b1 b2 compare
  generalize meetLow compare b1 b2 = lo at hlow ⊢
  generalize meetHigh compare b1 b2 = hi at hhigh ⊢
  obtain ⟨hadmits, hvalue⟩ := @build_range α _ b1 compare lo hi
  have hboth : ∀ v, b1.Admits v ∧ b2.Admits v ↔
      (b1.low ≤ v ∧ v ≤ b1.top) ∧ b2.low ≤ v ∧ v ≤ b2.top :=
    fun v => and_congr (admits_range h1 hrange1) (admits_range h2 hrange2)
  constructor
  · intro ⟨⟨v, hv⟩, hset, hdefault⟩
    obtain ⟨hlov, hvhi⟩ := (hadmits v).mp ((hset v).mpr hv)
    have horder : lo ≤ hi := le_trans hlov hvhi
    have hlo := (hboth lo).mp ((hset lo).mp ((hadmits lo).mpr ⟨le_refl lo, horder⟩))
    have hhi := (hboth hi).mp ((hset hi).mp ((hadmits hi).mpr ⟨horder, le_refl hi⟩))
    refine ⟨horder, ⟨hlo.1.1, hlo.2.1⟩, ⟨hhi.1.2, hhi.2.2⟩, ?_⟩
    rw [hadmits, hvalue] at hdefault
    by_cases hbelow : compare b1.value lo < 0
    · exact .inl hbelow
    · by_cases habove : 0 < compare b1.value hi
      · exact .inr (.inl habove)
      · rw [if_neg hbelow, if_neg habove] at hdefault
        exact .inr (.inr hdefault)
  · intro h
    refine ⟨⟨lo, (hboth lo).mpr ⟨⟨h.low.1, le_trans h.order h.high.1⟩,
      h.low.2, le_trans h.order h.high.2⟩⟩, ?_, ?_⟩
    · intro v
      rw [hadmits, hboth]
      constructor
      · intro ⟨hlov, hvhi⟩
        exact ⟨⟨le_trans h.low.1 hlov, le_trans hvhi h.high.1⟩,
          le_trans h.low.2 hlov, le_trans hvhi h.high.2⟩
      · intro ⟨hv1, hv2⟩
        constructor
        · rcases hlow with rfl | rfl
          · exact hv1.1
          · exact hv2.1
        · rcases hhigh with rfl | rfl
          · exact le_high_of_le_top hv1.2 (le_trans h.low.1 h.order)
          · exact le_high_of_le_top hv2.2 (le_trans h.low.2 h.order)
    · rw [hadmits, hvalue]
      split
      · split
        · exact ⟨h.order, le_refl hi⟩
        · exact ⟨le_refl lo, h.order⟩
      · next hbelow =>
        split
        · exact ⟨h.order, le_refl hi⟩
        · next habove => exact (h.default.resolve_left hbelow).resolve_left habove

/-- The result for two properties of one type is right if and only if the comparisons are. -/
theorem meets_filterBody_iff (hc : Compares compare) (h1 : b1.WellFormed) (h2 : b2.WellFormed) :
    Meets b1 b2 (filterBody compare b1 b2) ↔ Right compare b1 b2 := by
  rcases range_cases h1 with hlist1 | ⟨hlist1, hrange1⟩
  · rcases range_cases h2 with hlist2 | ⟨hlist2, hrange2⟩
    · exact meets_lists hc h1 h2 hlist1 hlist2
    · exact meets_list_range hc h1 hlist1 hlist2 hrange2
  · rcases range_cases h2 with hlist2 | ⟨hlist2, hrange2⟩
    · exact meets_range_list hc h2 hlist1 hrange1 hlist2
    · exact meets_ranges h1 h2 hlist1 hrange1 hlist2 hrange2

omit [Preorder α] in
/-- A list of values is refused when it is empty. -/
theorem copied_cases {alternatives : List α} {Refuses : Prop}
    (h : alternatives = [] ↔ Refuses) :
    (b1.copied compare alternatives = .error .incompatibleProps ∧ Refuses) ∨
      ((∃ out, b1.copied compare alternatives = .ok out) ∧ ¬ Refuses) := by
  rw [← h]
  unfold copied
  cases alternatives with
  | nil => exact .inl ⟨rfl, rfl⟩
  | cons a rest => exact .inr ⟨⟨_, rfl⟩, List.cons_ne_nil a rest⟩

omit [Preorder α] in
/-- Two properties of one type are refused, or one is built. -/
theorem filterBody_cases (h1 : b1.WellFormed) (h2 : b2.WellFormed) :
    (filterBody compare b1 b2 = .error .incompatibleProps ∧ Refused compare b1 b2) ∨
      ((∃ out, filterBody compare b1 b2 = .ok out) ∧ ¬ Refused compare b1 b2) := by
  rcases range_cases h1 with hlist1 | ⟨hlist1, hrange1⟩
  · rcases range_cases h2 with hlist2 | ⟨hlist2, hrange2⟩
    · rw [filterBody_lists hlist1 hlist2]
      exact copied_cases (by simp [Refused, hlist1, hlist2])
    · rw [filterBody_list_range hlist1 hlist2 hrange2]
      exact copied_cases (by simp [Refused, hlist1, hlist2])
  · rcases range_cases h2 with hlist2 | ⟨hlist2, hrange2⟩
    · rw [filterBody_range_list hlist1 hrange1 hlist2]
      exact copied_cases (by simp [Refused, hlist1, hlist2])
    · rw [filterBody_ranges hlist1 hrange1 hlist2 hrange2]
      exact .inr ⟨⟨_, rfl⟩, by simp [Refused, hlist1, hlist2]⟩

end Admits
end PropBody

/-! ## The values of the types -/

namespace SpaPropType

open PropBody

theorem eq_of_same {t : SpaPropType} {a b : t.Value} (h : Same a b) (ht : t ≠ .fraction) :
    a = b := by
  cases t with
  | id => exact h.1
  | int => exact Int32.toInt_inj.mp (Int.le_antisymm h.1 h.2)
  | long => exact Int64.toInt_inj.mp (Int.le_antisymm h.1 h.2)
  | rectangle =>
    obtain ⟨⟨hw, hh⟩, hw', hh'⟩ := h
    have hwidth := UInt32.toNat_inj.mp (Nat.le_antisymm hw hw')
    have hheight := UInt32.toNat_inj.mp (Nat.le_antisymm hh hh')
    cases a
    cases b
    cases hwidth
    cases hheight
    rfl
  | fraction => exact absurd rfl ht

/-- The products of `compare_value` do not overflow. -/
theorem toNat_product (a b : UInt32) :
    (a.toUInt64 * b.toUInt64).toNat = a.toNat * b.toNat := by
  rw [UInt64.toNat_mul, UInt32.toNat_toUInt64, UInt32.toNat_toUInt64]
  apply Nat.mod_eq_of_lt
  have ha := a.toNat_lt
  have hb := b.toNat_lt
  calc a.toNat * b.toNat ≤ (2 ^ 32 - 1) * (2 ^ 32 - 1) := Nat.mul_le_mul (by omega) (by omega)
    _ < 2 ^ 64 := by decide

theorem fraction_lt_iff (a b : SpaFraction) :
    a.num.toUInt64 * b.denom.toUInt64 < b.num.toUInt64 * a.denom.toUInt64 ↔
      ¬ LE .fraction b a := by
  have ha : (0 : ℚ) < a.denom.toNat := by
    exact_mod_cast a.denom_pos
  have hb : (0 : ℚ) < b.denom.toNat := by
    exact_mod_cast b.denom_pos
  rw [UInt64.lt_iff_toNat_lt, toNat_product, toNat_product]
  show _ ↔ ¬ ((b.num.toNat : ℚ) / b.denom.toNat ≤ (a.num.toNat : ℚ) / a.denom.toNat)
  rw [not_le, div_lt_div_iff₀ ha hb]
  exact_mod_cast Iff.rfl

theorem compareValue_fraction (a b : Value .fraction) :
    compareValue .fraction a b =
      open Classical in if ¬ b ≤ a then -1 else if ¬ a ≤ b then 1 else 0 := by
  classical
  show (if _ then _ else if _ then _ else _) = _
  exact if_congr (fraction_lt_iff a b) rfl (if_congr (fraction_lt_iff b a) rfl rfl)

theorem compares (t : SpaPropType) : Compares t.compareValue where
  same {a b} h := by
    cases t with
    | id => exact if_pos h.1
    | int =>
      rw [eq_of_same h SpaPropType.noConfusion]
      exact Int32.sub_self _
    | long =>
      rw [eq_of_same h SpaPropType.noConfusion]
      exact congrArg Int64.toInt32 (Int64.sub_self _)
    | rectangle =>
      rw [eq_of_same h SpaPropType.noConfusion]
      exact if_pos ⟨rfl, rfl⟩
    | fraction =>
      rw [compareValue_fraction, if_neg (not_not_intro h.2), if_neg (not_not_intro h.1)]
  congr {a a'} h b := by
    classical
    by_cases ht : t = .fraction
    · subst ht
      have hbelow : b ≤ a ↔ b ≤ a' := ⟨fun hba => hba.trans h.1, fun hba => hba.trans h.2⟩
      have habove : a ≤ b ↔ a' ≤ b := ⟨h.2.trans, h.1.trans⟩
      rw [compareValue_fraction, compareValue_fraction]
      exact if_congr (not_congr hbelow) rfl (if_congr (not_congr habove) rfl rfl)
    · rw [eq_of_same h ht]

end SpaPropType

/-! ## Properties with keys -/

namespace SpaPODProp

/-- A property admits values of its type only. -/
def Admits (p : SpaPODProp) (v : (t : SpaPropType) × t.Value) : Prop :=
  ∃ a, v = ⟨p.type, a⟩ ∧ p.body.Admits a

/-- The comparisons of the two properties say what these admit. -/
def Right (p1 p2 : SpaPODProp) : Prop :=
  ∀ b2 ∈ p2.bodyAs p1.type, PropBody.Right p1.type.compareValue p1.body b2

def Refused (p1 p2 : SpaPODProp) : Prop :=
  ∀ b2 ∈ p2.bodyAs p1.type, PropBody.Refused p1.type.compareValue p1.body b2

/-- What is built has the key of the property and admits what both admit, its default among
it. -/
structure Meets (p1 p2 np : SpaPODProp) : Prop where
  key : np.key = p1.key
  admits : ∀ v, np.Admits v ↔ p1.Admits v ∧ p2.Admits v
  default : np.Admits ⟨np.type, np.body.value⟩

variable {p1 p2 np : SpaPODProp}

theorem admits_mk {key : UInt32} {t : SpaPropType} {b : PropBody t.Value} {a : t.Value} :
    Admits ⟨key, t, b⟩ ⟨t, a⟩ ↔ b.Admits a := by
  constructor
  · intro ⟨a', heq, hadmits⟩
    cases heq
    exact hadmits
  · exact fun h => ⟨a, rfl, h⟩

/-- Two properties of different types are refused, and admit nothing in common. -/
theorem filter_of_ne (h : p2.type ≠ p1.type) :
    p1.filter p2 = .error .incompatibleProps ∧ Refused p1 p2 ∧ Right p1 p2 ∧
      ∀ v, ¬ (p1.Admits v ∧ p2.Admits v) := by
  have hnone : p2.bodyAs p1.type = none := dif_neg h
  refine ⟨?_, ?_, ?_, ?_⟩
  · rw [filter, hnone]
  · rw [Refused, hnone]
    exact fun _ hb => by cases hb
  · rw [Right, hnone]
    exact fun _ hb => by cases hb
  · intro v ⟨⟨a, hv, _⟩, a', hv', _⟩
    rw [hv] at hv'
    exact h (Sigma.mk.inj hv').1.symm

/-- The result for two properties. -/
theorem filter_cases (h1 : p1.body.WellFormed) (h2 : p2.body.WellFormed) :
    (p1.filter p2 = .error .incompatibleProps ∧ Refused p1 p2 ∧
        (Right p1 p2 ↔ ∀ v, ¬ (p1.Admits v ∧ p2.Admits v))) ∨
      ∃ np, p1.filter p2 = .ok np ∧ ¬ Refused p1 p2 ∧
        (Right p1 p2 ↔ (∃ v, p1.Admits v ∧ p2.Admits v) ∧ Meets p1 p2 np) := by
  by_cases ht : p2.type = p1.type
  · obtain ⟨key1, t, b1⟩ := p1
    obtain ⟨key2, t2, b2⟩ := p2
    obtain rfl : t2 = t := ht
    have hsome : bodyAs ⟨key2, t2, b2⟩ t2 = some b2 := dif_pos rfl
    have hmeets := PropBody.meets_filterBody_iff t2.compares h1 h2
    have hboth : ∀ v, Admits ⟨key1, t2, b1⟩ v ∧ Admits ⟨key2, t2, b2⟩ v ↔
        ∃ a, v = ⟨t2, a⟩ ∧ b1.Admits a ∧ b2.Admits a := by
      intro v
      constructor
      · intro ⟨⟨a, hv, ha⟩, hv2⟩
        subst hv
        exact ⟨a, rfl, ha, admits_mk.mp hv2⟩
      · intro ⟨a, hv, ha, ha'⟩
        exact ⟨⟨a, hv, ha⟩, ⟨a, hv, ha'⟩⟩
    have hright : Right ⟨key1, t2, b1⟩ ⟨key2, t2, b2⟩ ↔
        PropBody.Right t2.compareValue b1 b2 := by
      simp only [Right, hsome, Option.mem_some_iff, forall_eq']
    rcases @PropBody.filterBody_cases _ b1 b2 t2.compareValue h1 h2 with
      ⟨hresult, hrefused⟩ | ⟨⟨out, hresult⟩, hrefused⟩
    · left
      refine ⟨?_, ?_, ?_⟩
      · rw [filter, hsome]
        dsimp only
        rw [hresult]
        rfl
      · intro b hb
        cases hsome.symm.trans hb
        exact hrefused
      · rw [hresult] at hmeets
        rw [hright, ← hmeets]
        constructor
        · intro h v hv
          obtain ⟨a, -, ha⟩ := (hboth v).mp hv
          exact h.2 a ha
        · exact fun h => ⟨rfl, fun a ha => h ⟨t2, a⟩ ((hboth _).mpr ⟨a, rfl, ha⟩)⟩
    · right
      refine ⟨⟨key1, t2, out⟩, ?_, ?_, ?_⟩
      · rw [filter, hsome]
        dsimp only
        rw [hresult]
        rfl
      · exact fun h => hrefused (h b2 hsome)
      · rw [hresult] at hmeets
        rw [hright, ← hmeets]
        constructor
        · intro ⟨⟨a, ha⟩, hadmits, hdefault⟩
          refine ⟨⟨⟨t2, a⟩, (hboth _).mpr ⟨a, rfl, ha⟩⟩, rfl, fun v => ?_, admits_mk.mpr hdefault⟩
          rw [hboth]
          constructor
          · intro ⟨a, hv, ha⟩
            exact ⟨a, hv, (hadmits a).mp ha⟩
          · intro ⟨a, hv, ha⟩
            exact ⟨a, hv, (hadmits a).mpr ha⟩
        · intro ⟨⟨v, hv⟩, hmeet⟩
          obtain ⟨a, -, ha⟩ := (hboth v).mp hv
          refine ⟨⟨a, ha⟩, fun a => ?_, admits_mk.mp hmeet.default⟩
          rw [← admits_mk, hmeet.admits, hboth]
          constructor
          · intro ⟨a', heq, ha'⟩
            cases heq
            exact ha'
          · exact fun ha' => ⟨a, rfl, ha'⟩
  · obtain ⟨hfilter, hrefused, hright, hnone⟩ := filter_of_ne ht
    exact .inl ⟨hfilter, hrefused, iff_of_true hright hnone⟩

end SpaPODProp

/-! ## The properties of two objects -/

/-- The properties of the first and of the filter with one key. -/
def Shared (props filter : List SpaPODProp) (p1 p2 : SpaPODProp) : Prop :=
  p1 ∈ props ∧ p2 ∈ filter ∧ p2.key = p1.key

/-- What `spa_props_filter` has to return: it refuses exactly when two properties with one key
have no value in common, and else it builds for each property of the first the property
itself or one that admits what both admit. -/
structure Intersects (props filter : List SpaPODProp)
    (result : Except SpaResult (List SpaPODProp)) : Prop where
  refuses : result = .error .incompatibleProps ↔
    ∃ p1 p2, Shared props filter p1 p2 ∧ ∀ v, ¬ (p1.Admits v ∧ p2.Admits v)
  builds : (∀ p1 p2, Shared props filter p1 p2 → ∃ v, p1.Admits v ∧ p2.Admits v) →
    ∃ out, result = .ok out ∧ List.Forall₂ (fun p1 np =>
      ((∀ p2 ∈ filter, p2.key ≠ p1.key) → np = p1) ∧
        ∀ p2 ∈ filter, p2.key = p1.key → p1.Meets p2 np) props out

section Lists

variable {props filter : List SpaPODProp} {p1 p2 np : SpaPODProp} {key : UInt32}

theorem findProp_eq_some (hkeys : (filter.map SpaPODProp.key).Nodup) (hp : p2 ∈ filter)
    (hkey : p2.key = key) : findProp filter key = some p2 := by
  rw [findProp]
  induction filter with
  | nil => cases hp
  | cons p rest ih =>
    rw [List.map_cons, List.nodup_cons] at hkeys
    rcases List.mem_cons.mp hp with rfl | hrest
    · exact List.find?_cons_of_pos (decide_eq_true hkey)
    · have hne : ¬ decide (p.key = key) = true := by
        intro heq
        apply hkeys.1
        rw [of_decide_eq_true heq, ← hkey]
        exact List.mem_map_of_mem hrest
      exact (@List.find?_cons_of_neg _ (fun p => decide (p.key = key)) p rest hne).trans
        (ih hkeys.2 hrest)

theorem findProp_eq_none (h : ∀ p2 ∈ filter, p2.key ≠ key) : findProp filter key = none := by
  rw [findProp, List.find?_eq_none]
  exact fun p hp heq => h p hp (of_decide_eq_true heq)

/-- The result is that of the properties one by one, or the first error of these. -/
theorem spaPropsFilter_cases (filter : Option (List SpaPODProp)) (props : List SpaPODProp) :
    (∃ out, spaPropsFilter props filter = .ok out ∧
        List.Forall₂ (fun p1 np => p1.filterBy filter = .ok np) props out) ∨
      ∃ p1 ∈ props, ∃ res, p1.filterBy filter = .error res ∧
        spaPropsFilter props filter = .error res := by
  induction props with
  | nil => exact .inl ⟨[], rfl, .nil⟩
  | cons p1 props ih =>
    rw [spaPropsFilter]
    cases hp : p1.filterBy filter with
    | error res => exact .inr ⟨p1, List.mem_cons_self, res, hp, rfl⟩
    | ok np =>
      rcases ih with ⟨out, hout, hall⟩ | ⟨p, hmem, res, hres, hout⟩
      · rw [hout]
        exact .inl ⟨np :: out, rfl, .cons hp hall⟩
      · rw [hout]
        exact .inr ⟨p, List.mem_cons_of_mem p1 hmem, res, hres, rfl⟩

theorem forall₂_mem {α β : Type} {R S : α → β → Prop} {l : List α} {l' : List β}
    (h : List.Forall₂ R l l') (himp : ∀ a ∈ l, ∀ b, R a b → S a b) : List.Forall₂ S l l' := by
  induction h with
  | nil => exact .nil
  | cons hab _ ih =>
    exact .cons (himp _ List.mem_cons_self _ hab)
      (ih fun a ha => himp a (List.mem_cons_of_mem _ ha))

theorem forall₂_both {α β : Type} {R S : α → β → Prop} {l : List α} {l' : List β} {a : α}
    (h : List.Forall₂ R l l') (h' : List.Forall₂ S l l') (ha : a ∈ l) : ∃ b, R a b ∧ S a b := by
  induction h with
  | nil => cases ha
  | cons hab _ ih =>
    cases h' with
    | cons hab' hrest' =>
      rcases List.mem_cons.mp ha with rfl | hrest
      · exact ⟨_, hab, hab'⟩
      · exact ih hrest' hrest

section Results

variable (hprops : ∀ p ∈ props, p.body.WellFormed) (hfilter : ∀ p ∈ filter, p.body.WellFormed)
  (hkeys : (filter.map SpaPODProp.key).Nodup)

include hkeys in
theorem filterBy_shared (h : Shared props filter p1 p2) :
    p1.filterBy (some filter) = p1.filter p2 := by
  rw [SpaPODProp.filterBy, Option.bind_some, findProp_eq_some hkeys h.2.1 h.2.2]

theorem filterBy_alone (h : ∀ p2 ∈ filter, p2.key ≠ p1.key) :
    p1.filterBy (some filter) = .ok p1 := by
  rw [SpaPODProp.filterBy, Option.bind_some, findProp_eq_none h]

include hprops hfilter hkeys

/-- An error is one of two properties that are refused. -/
theorem exists_refused {res : SpaResult} (hp : p1 ∈ props)
    (herr : p1.filterBy (some filter) = .error res) :
    res = .incompatibleProps ∧ ∃ p2, Shared props filter p1 p2 ∧ p1.Refused p2 ∧
      (p1.Right p2 ↔ ∀ v, ¬ (p1.Admits v ∧ p2.Admits v)) := by
  by_cases halone : ∀ p2 ∈ filter, p2.key ≠ p1.key
  · rw [filterBy_alone halone] at herr
    cases herr
  · obtain ⟨p2, hnot⟩ := not_forall.mp halone
    obtain ⟨hp2, hne⟩ := Classical.not_imp.mp hnot
    have hkey : p2.key = p1.key := not_not.mp hne
    have hshared : Shared props filter p1 p2 := ⟨hp, hp2, hkey⟩
    rw [filterBy_shared hkeys hshared] at herr
    rcases SpaPODProp.filter_cases (hprops p1 hp) (hfilter p2 hp2) with
      ⟨hresult, hrefused, hright⟩ | ⟨np, hresult, -⟩
    · rw [hresult] at herr
      cases herr
      exact ⟨rfl, p2, hshared, hrefused, hright⟩
    · rw [hresult] at herr
      cases herr

/-- Two properties that are refused make the whole refused. -/
theorem spaPropsFilter_refused (h : Shared props filter p1 p2) (hrefused : p1.Refused p2) :
    spaPropsFilter props (some filter) = .error .incompatibleProps := by
  have herr : p1.filterBy (some filter) = .error .incompatibleProps := by
    rw [filterBy_shared hkeys h]
    rcases SpaPODProp.filter_cases (hprops p1 h.1) (hfilter p2 h.2.1) with
      ⟨hresult, -⟩ | ⟨np, -, hnot, -⟩
    · exact hresult
    · exact absurd hrefused hnot
  rcases spaPropsFilter_cases (some filter) props with ⟨out, -, hall⟩ | ⟨p, hp, res, hres, hout⟩
  · obtain ⟨np, hok, -⟩ := forall₂_both hall hall h.1
    rw [herr] at hok
    cases hok
  · rw [hout, (exists_refused hprops hfilter hkeys hp hres).1]

end Results

/-- An integer that is unset, with bounds or with a list of values. -/
def exampleInt (range : UInt32) (alternatives : List Int32) : SpaPODProp where
  key := 1
  type := .int
  body := ⟨range ||| flagUnset, (5 : Int32), alternatives⟩

theorem range_exampleInt_enum (alternatives : List Int32) :
    (exampleInt 3 alternatives).body.range = .enum := by
  show SpaPropRange.of (3 ||| 0x10) = .enum
  decide

theorem wellFormed_exampleInt_enum (alternatives : List Int32) :
    (exampleInt 3 alternatives).body.WellFormed := by
  have hrange := range_exampleInt_enum alternatives
  refine ⟨.inr (.inl hrange), fun _ => ?_, fun h => ?_⟩
  · rw [hrange]
    exact SpaPropRange.noConfusion
  · rw [hrange] at h
    cases h

theorem wellFormed_exampleInt_minMax (lo hi : Int32) :
    (exampleInt 1 [lo, hi]).body.WellFormed := by
  have hrange : (exampleInt 1 [lo, hi]).body.range = .minMax := by
    show SpaPropRange.of (1 ||| 0x10) = .minMax
    decide
  refine ⟨.inr (.inr hrange), fun _ => ?_, fun _ => ⟨lo, hi, rfl⟩⟩
  rw [hrange]
  exact SpaPropRange.noConfusion

/-- Two lists of integers are compared for what they are. -/
theorem right_exampleInt_enum (alternatives alternatives' : List Int32) :
    (exampleInt 3 alternatives).Right (exampleInt 3 alternatives') := by
  intro b2 hb
  obtain rfl : (exampleInt 3 alternatives').body = b2 := Option.some.inj hb
  have hwf := wellFormed_exampleInt_enum alternatives'
  have hlist1 : PropBody.isList (exampleInt 3 alternatives).body.range = true :=
    PropBody.isList_iff.mpr (.inr (range_exampleInt_enum _))
  have hlist2 : PropBody.isList (exampleInt 3 alternatives').body.range = true :=
    PropBody.isList_iff.mpr (.inr (range_exampleInt_enum _))
  unfold PropBody.Right
  rw [if_pos ⟨hlist1, hlist2⟩]
  intro (a1 : Int32) _ (a2 : Int32) ha2 (heq : a1 - a2 = 0)
  have hsame : a1 = a2 := by
    rw [← Int32.sub_add_cancel a1 a2, heq, Int32.zero_add]
  exact (PropBody.admits_list hwf hlist2).mpr ⟨a2, ha2, hsame ▸ PropBody.Same.refl _⟩

end Lists
end Pinos

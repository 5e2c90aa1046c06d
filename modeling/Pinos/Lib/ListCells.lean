import Mathlib.Logic.Function.Basic
import Mathlib.Data.List.Basic

/-
Doubly linked lists that go through cells of memory: a list is known by the cell it starts
from, and an element is put in and taken out by what its neighbours point to.

Nothing stops an element from being put in one list while it is in another.  `Holds` says
that the cells of a list are linked as they should be, and the frame lemmas say which lists
an operation leaves alone.
-/

structure ListCells (α : Type) where
  next : α → α
  prev : α → α

namespace ListCells

variable {α : Type}

section Operations

variable [DecidableEq α]

/-- A list without elements, or an element in no list. -/
def init (m : ListCells α) (c : α) : ListCells α where
  next := Function.update m.next c c
  prev := Function.update m.prev c c

/-- An element is put after another. -/
def insert (m : ListCells α) (list elem : α) : ListCells α :=
  let next := Function.update m.next elem (m.next list)
  { next := Function.update next list elem
    prev := Function.update (Function.update m.prev elem list)
      (Function.update next list elem elem) elem }

def remove (m : ListCells α) (elem : α) : ListCells α :=
  let next := Function.update m.next (m.prev elem) (m.next elem)
  { next := next
    prev := Function.update m.prev (next elem) (m.prev elem) }

end Operations

/-- The cells from one to another are linked both ways. -/
def Path (m : ListCells α) : α → List α → α → Prop
  | a, [], b => m.next a = b ∧ m.prev b = a
  | a, x :: xs, b => (m.next a = x ∧ m.prev x = a) ∧ Path m x xs b

/-- The list that starts from a cell has these elements. -/
structure Holds (m : ListCells α) (head : α) (xs : List α) : Prop where
  path : m.Path head xs head
  nodup : (head :: xs).Nodup

/-- Going on from a cell, another one is reached before the head. -/
inductive Reaches (m : ListCells α) (head : α) : α → α → Prop where
  | here {c : α} : c ≠ head → Reaches m head c c
  | next {b c : α} : b ≠ head → Reaches m head (m.next b) c → Reaches m head b c

/-- Only some cells change. -/
def Frame (cells : α → Prop) (m m' : ListCells α) : Prop :=
  ∀ c, ¬ cells c → m'.next c = m.next c ∧ m'.prev c = m.prev c

/-- A cell is met when the list that starts from `head` is gone through. -/
def Member (m : ListCells α) (head c : α) : Prop := m.Reaches head (m.next head) c

variable {m m' : ListCells α} {a b c head x : α} {xs ys : List α}

theorem path_append : m.Path a (xs ++ x :: ys) b ↔ m.Path a xs x ∧ m.Path x ys b := by
  induction xs generalizing a with
  | nil => exact Iff.rfl
  | cons y xs ih =>
    show (m.next a = y ∧ m.prev y = a) ∧ m.Path y (xs ++ x :: ys) b ↔
      ((m.next a = y ∧ m.prev y = a) ∧ m.Path y xs x) ∧ m.Path x ys b
    rw [ih, and_assoc (b := m.Path y xs x)]

/-- Only the cells of a path matter. -/
theorem Path.congr (h : m.Path a xs b) (hnext : ∀ c ∈ a :: xs, m'.next c = m.next c)
    (hprev : ∀ c ∈ xs ++ [b], m'.prev c = m.prev c) : m'.Path a xs b := by
  induction xs generalizing a with
  | nil =>
    exact ⟨(hnext a List.mem_cons_self).trans h.1, (hprev b List.mem_cons_self).trans h.2⟩
  | cons x xs ih =>
    refine ⟨⟨(hnext a List.mem_cons_self).trans h.1.1, (hprev x List.mem_cons_self).trans h.1.2⟩, ?_⟩
    exact ih h.2 (fun c hc => hnext c (List.mem_cons_of_mem a hc))
      fun c hc => hprev c (List.mem_cons_of_mem x hc)

theorem Path.prev_mem (h : m.Path a xs b) : m.prev b ∈ a :: xs := by
  induction xs generalizing a with
  | nil => exact h.2 ▸ List.mem_cons_self
  | cons x xs ih => exact List.mem_cons_of_mem a (ih h.2)

theorem Path.next_prev (h : m.Path a xs b) : m.next (m.prev b) = b := by
  induction xs generalizing a with
  | nil => rw [h.2, h.1]
  | cons x xs ih => exact ih h.2

/-- What the first cell of a path points to. -/
theorem Path.next_eq (h : m.Path a xs b) : m.next a = xs.head?.getD b := by
  cases xs with
  | nil => exact h.1
  | cons x xs => exact h.1.1

/-- A list holds one sequence of elements only. -/
theorem Path.unique (h : m.Path a xs b) (h' : m.Path a ys b) (hb : b ∉ xs) (hb' : b ∉ ys) :
    xs = ys := by
  induction xs generalizing a ys with
  | nil =>
    cases ys with
    | nil => rfl
    | cons y ys => exact absurd (h'.1.1.symm.trans h.1 ▸ List.mem_cons_self) hb'
  | cons x xs ih =>
    cases ys with
    | nil => exact absurd (h.1.1.symm.trans h'.1 ▸ List.mem_cons_self) hb
    | cons y ys =>
      have hxy : x = y := h.1.1.symm.trans h'.1.1
      subst hxy
      rw [ih h.2 h'.2 (fun hmem => hb (List.mem_cons_of_mem x hmem))
        fun hmem => hb' (List.mem_cons_of_mem x hmem)]

theorem Holds.unique (h : m.Holds head xs) (h' : m.Holds head ys) : xs = ys :=
  h.path.unique h'.path (List.nodup_cons.mp h.nodup).1 (List.nodup_cons.mp h'.nodup).1

/-- The last cell of a path is linked to another one. -/
theorem Path.retarget (h : m.Path a xs b) (hnodup : (a :: xs).Nodup)
    (hlink : m'.next (m.prev b) = c ∧ m'.prev c = m.prev b)
    (hnext : ∀ d ∈ a :: xs, d ≠ m.prev b → m'.next d = m.next d)
    (hprev : ∀ d ∈ xs, m'.prev d = m.prev d) : m'.Path a xs c := by
  induction xs generalizing a with
  | nil =>
    rw [h.2] at hlink
    exact hlink
  | cons x xs ih =>
    obtain ⟨ha, hnodup⟩ := List.nodup_cons.mp hnodup
    have hne : a ≠ m.prev b := fun he => ha (he ▸ h.2.prev_mem)
    refine ⟨⟨(hnext a List.mem_cons_self hne).trans h.1.1,
      (hprev x List.mem_cons_self).trans h.1.2⟩, ?_⟩
    exact ih h.2 hnodup (fun d hd => hnext d (List.mem_cons_of_mem a hd))
      fun d hd => hprev d (List.mem_cons_of_mem x hd)

theorem Holds.congr (h : m.Holds head xs) (hnext : ∀ c ∈ head :: xs, m'.next c = m.next c)
    (hprev : ∀ c ∈ head :: xs, m'.prev c = m.prev c) : m'.Holds head xs := by
  refine ⟨h.path.congr hnext fun c hc => hprev c ?_, h.nodup⟩
  rcases List.mem_append.mp hc with hc | hc
  · exact List.mem_cons_of_mem head hc
  · exact List.mem_singleton.mp hc ▸ List.mem_cons_self

theorem Frame.trans {cells : α → Prop} {m₁ m₂ m₃ : ListCells α} (h : Frame cells m₁ m₂)
    (h' : Frame cells m₂ m₃) : Frame cells m₁ m₃ :=
  fun c hc => ⟨(h' c hc).1.trans (h c hc).1, (h' c hc).2.trans (h c hc).2⟩

/-- Lists of other cells stay as they are. -/
theorem Holds.frame (h : m.Holds head xs) {cells : α → Prop} (hframe : Frame cells m m')
    (hcells : ∀ c ∈ head :: xs, ¬ cells c) : m'.Holds head xs :=
  h.congr (fun c hc => (hframe c (hcells c hc)).1) fun c hc => (hframe c (hcells c hc)).2

theorem holds_nil : m.Holds head [] ↔ m.next head = head ∧ m.prev head = head :=
  ⟨fun h => h.path, fun h => ⟨h, by simp⟩⟩

theorem holds_singleton :
    m.Holds head [x] ↔ (m.next head = x ∧ m.prev x = head) ∧ (m.next x = head ∧ m.prev head = x) ∧
      x ≠ head := by
  constructor
  · exact fun h => ⟨h.path.1, h.path.2, fun he => (List.nodup_cons.mp h.nodup).1 (by simp [he])⟩
  · exact fun ⟨h, h', hne⟩ => ⟨⟨h, h'⟩, by simp [hne.symm]⟩

/-! ## Going through a list -/

theorem Path.reaches_iff (h : m.Path a xs b) (hb : b ∉ a :: xs) :
    m.Reaches b a c ↔ c ∈ a :: xs := by
  induction xs generalizing a with
  | nil =>
    have hne : a ≠ b := fun he => hb (by simp [he])
    constructor
    · intro hc
      cases hc with
      | here => exact List.mem_cons_self
      | next _ hc =>
        rw [h.1] at hc
        cases hc with
        | here hne => exact absurd rfl hne
        | next hne => exact absurd rfl hne
    · intro hc
      cases List.mem_singleton.mp hc
      exact .here hne
  | cons x xs ih =>
    have hne : a ≠ b := fun he => hb (by simp [he])
    have hx : b ∉ x :: xs := fun hmem => hb (List.mem_cons_of_mem a hmem)
    rw [List.mem_cons, ← ih h.2 hx]
    constructor
    · intro hc
      cases hc with
      | here => exact .inl rfl
      | next _ hc =>
        rw [h.1.1] at hc
        exact .inr hc
    · rintro (rfl | hc)
      · exact .here hne
      · exact .next hne (by rwa [h.1.1])

theorem Holds.member_iff (h : m.Holds head xs) : m.Member head c ↔ c ∈ xs := by
  have hpath := h.path
  unfold Member
  cases xs with
  | nil =>
    rw [hpath.1]
    refine iff_of_false (fun hc => ?_) List.not_mem_nil
    cases hc with
    | here hne => exact absurd rfl hne
    | next hne => exact absurd rfl hne
  | cons x xs =>
    rw [hpath.1.1]
    exact hpath.2.reaches_iff (List.nodup_cons.mp h.nodup).1

/-- What the head points to is met, unless it is the head. -/
theorem member_next (hne : m.next head ≠ head) : m.Member head (m.next head) := .here hne

variable [DecidableEq α]

/-! ## Lists without elements -/

theorem holds_init : (m.init head).Holds head [] :=
  holds_nil.mpr ⟨Function.update_self .., Function.update_self ..⟩

theorem init_frame {cells : α → Prop} (h : cells c) : Frame cells m (m.init c) := by
  intro d hd
  have hne : d ≠ c := fun he => hd (he ▸ h)
  exact ⟨Function.update_of_ne hne .., Function.update_of_ne hne ..⟩

/-! ## Elements that are put in -/

theorem next_insert_self (hne : x ≠ c) : (m.insert c x).next x = m.next c := by
  show Function.update (Function.update m.next x (m.next c)) c x x = _
  rw [Function.update_of_ne hne, Function.update_self]

theorem next_insert : (m.insert c x).next c = x := Function.update_self ..

theorem next_insert_of_ne (ha : a ≠ c) (hx : a ≠ x) : (m.insert c x).next a = m.next a := by
  show Function.update (Function.update m.next x (m.next c)) c x a = _
  rw [Function.update_of_ne ha, Function.update_of_ne hx]

theorem prev_insert : (m.insert c x).prev ((m.insert c x).next x) = x := Function.update_self ..

theorem prev_insert_self (hne : x ≠ (m.insert c x).next x) : (m.insert c x).prev x = c := by
  show Function.update (Function.update m.prev x c) ((m.insert c x).next x) x x = _
  rw [Function.update_of_ne hne, Function.update_self]

theorem prev_insert_of_ne (ha : a ≠ (m.insert c x).next x) (hx : a ≠ x) :
    (m.insert c x).prev a = m.prev a := by
  show Function.update (Function.update m.prev x c) ((m.insert c x).next x) x a = _
  rw [Function.update_of_ne ha, Function.update_of_ne hx]

/-- An element is put at the end of a list. -/
theorem Holds.insert (h : m.Holds head xs) (hx : x ∉ head :: xs) :
    (m.insert (m.prev head) x).Holds head (xs ++ [x]) := by
  obtain ⟨hhead, hxs⟩ := List.nodup_cons.mp h.nodup
  have hlast : x ≠ m.prev head := fun he => hx (he ▸ h.path.prev_mem)
  have hxhead : x ≠ head := fun he => hx (he ▸ List.mem_cons_self)
  have hnext : (m.insert (m.prev head) x).next x = head :=
    (next_insert_self hlast).trans h.path.next_prev
  have hprev : (m.insert (m.prev head) x).prev head = x := by
    have hself := @prev_insert _ m (m.prev head) x _
    rwa [hnext] at hself
  have hprevx : (m.insert (m.prev head) x).prev x = m.prev head := by
    apply prev_insert_self
    rwa [hnext]
  refine ⟨path_append.mpr ⟨?_, hnext, hprev⟩, ?_⟩
  · refine h.path.retarget h.nodup ⟨next_insert, hprevx⟩ ?_ ?_
    · exact fun d hd hne => next_insert_of_ne hne fun he => hx (he ▸ hd)
    · refine fun d hd => prev_insert_of_ne ?_ fun he => hx (he ▸ List.mem_cons_of_mem head hd)
      rw [hnext]
      exact fun he => hhead (he ▸ hd)
  · show (head :: xs ++ [x]).Nodup
    rw [List.nodup_append]
    exact ⟨h.nodup, by simp, fun d hd e he hde =>
      hx (List.mem_singleton.mp he ▸ hde ▸ hd)⟩

/-- Only the element and cells of the list change. -/
theorem Holds.insert_frame (h : m.Holds head xs) {cells : α → Prop} (hx : x ∉ head :: xs)
    (hcells : ∀ c ∈ x :: head :: xs, cells c) : Frame cells m (m.insert (m.prev head) x) := by
  intro d hd
  have hne : ∀ c ∈ x :: head :: xs, d ≠ c := fun c hc he => hd (he ▸ hcells c hc)
  have hlast := h.path.prev_mem
  have hxlast : x ≠ m.prev head := fun he => hx (he ▸ hlast)
  have hdx := hne x List.mem_cons_self
  refine ⟨next_insert_of_ne (hne _ (List.mem_cons_of_mem x hlast)) hdx, prev_insert_of_ne ?_ hdx⟩
  rw [next_insert_self hxlast, h.path.next_prev]
  exact hne head (List.mem_cons_of_mem x List.mem_cons_self)

/-- The first element of a list, and what changes with it. -/
theorem Holds.insert_first (h : m.Holds head []) (hne : x ≠ head) {cells : α → Prop}
    (hhead : cells head) (hx : cells x) : (m.insert (m.prev head) x).Holds head [x] ∧
      Frame cells m (m.insert (m.prev head) x) := by
  have hmem : x ∉ [head] := fun he => hne (List.mem_singleton.mp he)
  refine ⟨h.insert hmem, h.insert_frame hmem fun c hc => ?_⟩
  rcases List.mem_cons.mp hc with rfl | hc
  · exact hx
  · exact List.mem_singleton.mp hc ▸ hhead

/-- What is put in behind the first cell of a path is its first element. -/
theorem Path.insert_first (h : m.Path a xs b) (ha : a ∉ xs) (hb : b ∉ xs) (hnodup : xs.Nodup)
    (hx : x ∉ a :: (xs ++ [b])) : (m.insert a x).Path a (x :: xs) b := by
  obtain ⟨hxa, hx⟩ := List.ne_and_not_mem_of_not_mem_cons hx
  have hnext : (m.insert a x).next x = m.next a := next_insert_self hxa
  have hfirst : x ≠ m.next a := by
    intro he
    cases xs with
    | nil => exact hx (he ▸ h.1 ▸ List.mem_cons_self)
    | cons y xs => exact hx (he ▸ h.1.1 ▸ List.mem_cons_self)
  have hprev := @prev_insert _ m a x _
  refine ⟨⟨next_insert, prev_insert_self (hnext ▸ hfirst)⟩, ?_⟩
  rw [hnext] at hprev
  cases xs with
  | nil =>
    rw [h.1] at hnext hprev
    exact ⟨hnext, hprev⟩
  | cons y xs =>
    rw [h.1.1] at hnext hprev
    refine ⟨⟨hnext, hprev⟩, h.2.congr (fun c hc => ?_) fun c hc => ?_⟩
    · exact next_insert_of_ne (fun he => ha (he ▸ hc)) fun he => hx (he ▸ List.mem_append_left _ hc)
    · apply prev_insert_of_ne
      · rw [hnext]
        intro he
        rcases List.mem_append.mp hc with hc | hc
        · exact (List.nodup_cons.mp hnodup).1 (he ▸ hc)
        · exact hb (List.mem_singleton.mp hc ▸ he ▸ List.mem_cons_self)
      · exact fun he => hx (he ▸ List.mem_cons_of_mem y hc)

/-- An element is put behind the head of a list. -/
theorem Holds.insert_head (h : m.Holds head xs) (hx : x ∉ head :: xs) :
    (m.insert head x).Holds head (x :: xs) := by
  obtain ⟨hhead, hxs⟩ := List.nodup_cons.mp h.nodup
  obtain ⟨hne, hmem⟩ := List.ne_and_not_mem_of_not_mem_cons hx
  refine ⟨h.path.insert_first hhead hhead hxs ?_, ?_⟩
  · simp [hne, hmem]
  · simp [Ne.symm hne, hmem, hhead, hxs]

/-- An element is put behind another one of a list. -/
theorem Holds.insert_next (h : m.Holds head (xs ++ c :: ys)) (hx : x ∉ head :: (xs ++ c :: ys)) :
    (m.insert c x).Holds head (xs ++ c :: x :: ys) := by
  obtain ⟨hpath, hrest⟩ := path_append.mp h.path
  have hnodup : (head :: xs ++ c :: ys).Nodup := h.nodup
  rw [List.nodup_append] at hnodup
  obtain ⟨hxs, hcys, hdisj⟩ := hnodup
  obtain ⟨hc, hys⟩ := List.nodup_cons.mp hcys
  have hhead : head ∉ ys := fun hmem =>
    hdisj head List.mem_cons_self head (List.mem_cons_of_mem c hmem) rfl
  have hne : ∀ d ∈ head :: (xs ++ c :: ys), d ≠ x := fun d hd he => hx (he ▸ hd)
  have hxc : x ≠ c := fun he => hne c (by simp) he.symm
  have hnext : (m.insert c x).next x = m.next c := next_insert_self hxc
  refine ⟨path_append.mpr ⟨hpath.congr (fun d hd => ?_) fun d hd => ?_, ?_⟩, ?_⟩
  · refine next_insert_of_ne (hdisj d hd c List.mem_cons_self) (hne d ?_)
    rcases List.mem_cons.mp hd with rfl | hd
    · exact List.mem_cons_self
    · exact List.mem_cons_of_mem head (List.mem_append_left _ hd)
  · refine prev_insert_of_ne ?_ (hne d ?_)
    · rw [hnext]
      intro he
      have hd' : d ∈ head :: xs ∨ d = c := by
        rcases List.mem_append.mp hd with hd | hd
        · exact .inl (List.mem_cons_of_mem head hd)
        · exact .inr (List.mem_singleton.mp hd)
      cases ys with
      | nil =>
        have hd'' : d = head := he.trans hrest.1
        rcases List.mem_append.mp hd with hd | hd
        · exact (List.nodup_cons.mp hxs).1 (hd'' ▸ hd)
        · exact hdisj head List.mem_cons_self c List.mem_cons_self
            (hd''.symm.trans (List.mem_singleton.mp hd))
      | cons y ys =>
        have hd'' : d = y := he.trans hrest.1.1
        rcases hd' with hd' | rfl
        · exact hdisj d hd' y (by simp) hd''
        · exact hc (hd'' ▸ List.mem_cons_self)
    · rcases List.mem_append.mp hd with hd | hd
      · exact List.mem_cons_of_mem head (List.mem_append_left _ hd)
      · rw [List.mem_singleton.mp hd]
        simp
  · refine hrest.insert_first hc hhead hys ?_
    intro hmem
    apply hx
    rcases List.mem_cons.mp hmem with rfl | hmem
    · simp
    · rcases List.mem_append.mp hmem with hmem | hmem
      · simp [hmem]
      · rw [List.mem_singleton.mp hmem]
        exact List.mem_cons_self
  · have hperm : (head :: (xs ++ c :: x :: ys)).Perm (x :: head :: (xs ++ c :: ys)) := by
      have hmid : (xs ++ c :: x :: ys).Perm (x :: (xs ++ c :: ys)) := by
        have happend : xs ++ c :: x :: ys = (xs ++ [c]) ++ x :: ys := by simp
        rw [happend]
        refine List.perm_middle.trans ?_
        simp
      exact (hmid.cons head).trans (.swap ..)
    exact hperm.nodup_iff.mpr (List.nodup_cons.mpr ⟨hx, h.nodup⟩)

/-! ## Elements that are taken out -/

theorem next_remove : (m.remove x).next (m.prev x) = m.next x := Function.update_self ..

theorem next_remove_of_ne (h : a ≠ m.prev x) : (m.remove x).next a = m.next a :=
  Function.update_of_ne h ..

theorem next_remove_self : (m.remove x).next x = m.next x := by
  by_cases h : x = m.prev x
  · exact (congrArg _ h).trans next_remove
  · exact next_remove_of_ne h

theorem prev_remove : (m.remove x).prev (m.next x) = m.prev x := by
  rw [← @next_remove_self _ m x]
  exact Function.update_self ..

theorem prev_remove_of_ne (h : a ≠ m.next x) : (m.remove x).prev a = m.prev a := by
  rw [← @next_remove_self _ m x] at h
  exact Function.update_of_ne h ..

/-- An element is taken out of a list. -/
theorem Holds.remove (h : m.Holds head (xs ++ x :: ys)) : (m.remove x).Holds head (xs ++ ys) := by
  obtain ⟨hpath, hrest⟩ := path_append.mp h.path
  have hnodup : (head :: xs ++ x :: ys).Nodup := h.nodup
  rw [List.nodup_append] at hnodup
  obtain ⟨hxs, hys, hdisj⟩ := hnodup
  have hlast := hpath.prev_mem
  have hnext : ∀ d ∈ head :: xs, d ≠ m.prev x → (m.remove x).next d = m.next d :=
    fun d _ hne => next_remove_of_ne hne
  refine ⟨?_, h.nodup.sublist ?_⟩
  · cases ys with
    | nil =>
      rw [List.append_nil]
      refine hpath.retarget hxs ⟨next_remove.trans hrest.1, ?_⟩ hnext fun d hd =>
        prev_remove_of_ne ?_
      · rw [← hrest.1]
        exact prev_remove
      · rw [hrest.1]
        exact fun he => (List.nodup_cons.mp hxs).1 (he ▸ hd)
    | cons y ys =>
      refine path_append.mpr ⟨?_, ?_⟩
      · refine hpath.retarget hxs ⟨next_remove.trans hrest.1.1, ?_⟩ hnext fun d hd =>
          prev_remove_of_ne ?_
        · rw [← hrest.1.1]
          exact prev_remove
        · rw [hrest.1.1]
          exact hdisj d (List.mem_cons_of_mem head hd) y
            (List.mem_cons_of_mem x List.mem_cons_self)
      · refine hrest.2.congr (fun d hd => next_remove_of_ne ?_) fun d hd => prev_remove_of_ne ?_
        · exact fun he => hdisj _ hlast d (List.mem_cons_of_mem x hd) he.symm
        · rw [hrest.1.1]
          have hy := (List.nodup_cons.mp (List.nodup_cons.mp hys).2).1
          rcases List.mem_append.mp hd with hd | hd
          · exact fun he => hy (he ▸ hd)
          · rw [List.mem_singleton.mp hd]
            exact hdisj head List.mem_cons_self y (List.mem_cons_of_mem x List.mem_cons_self)
  · exact List.Sublist.cons_cons head
      (List.Sublist.append (List.Sublist.refl xs) (List.sublist_cons_self x ys))

/-- An element whose neighbours are one cell leaves a list without elements there. -/
theorem remove_between (hprev : m.prev x = c) (hnext : m.next x = c) {cells : α → Prop}
    (hc : cells c) : (m.remove x).Holds c [] ∧ Frame cells m (m.remove x) := by
  refine ⟨holds_nil.mpr ⟨?_, ?_⟩, fun d hd => ?_⟩
  · have hself := @next_remove _ m x _
    rwa [hprev, hnext] at hself
  · have hself := @prev_remove _ m x _
    rwa [hprev, hnext] at hself
  · have hne : d ≠ c := fun he => hd (he ▸ hc)
    exact ⟨next_remove_of_ne (hprev ▸ hne), prev_remove_of_ne (hnext ▸ hne)⟩

end ListCells

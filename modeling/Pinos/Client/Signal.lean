import Mathlib.Data.List.Nodup
import Pinos.Lib.ListCells
import Pinos.Lib.Run

/-
Signals, of `client/sig.h`: listeners are notified while the callbacks change their list.

Signals and listeners are cells.  What the callbacks do is given as a list of scripts, one for each
listener that is notified.
-/

namespace Pinos

/-- What a callback does to the listeners of the signal. -/
inductive SignalChange (α : Type) where
  | add (listener : α)
  | remove (listener : α)
  deriving DecidableEq

/-- `pinos_signal_emit` between two listeners.  `next` is the listener whose turn it is, and the
signal itself at the end. -/
structure SignalEmission (α : Type) where
  mem : ListCells α
  next : α
  called : List α
  /-- The listeners that callbacks have removed. -/
  removed : List α

namespace SignalEmission

variable {α : Type} [DecidableEq α]

/-- `pinos_signal_add` and `pinos_signal_remove`. -/
def change (signal : α) (m : ListCells α) : SignalChange α → ListCells α
  | .add listener => m.insert (m.prev signal) listener
  | .remove listener => m.remove listener

def changes (signal : α) (m : ListCells α) (script : List (SignalChange α)) : ListCells α :=
  script.foldl (change signal) m

def removals (script : List (SignalChange α)) : List α :=
  script.filterMap fun c =>
    match c with
    | .add _ => none
    | .remove listener => some listener

/-- The emission starts: the first listener is next. -/
def start (m : ListCells α) (signal : α) : SignalEmission α where
  mem := m
  next := m.next signal
  called := []
  removed := []

/-- A turn of `spa_list_for_each_safe`: the listener after the one that is notified is read
before its callback runs. -/
def turn (signal : α) (e : SignalEmission α) (script : List (SignalChange α)) : SignalEmission α :=
  if e.next = signal then e
  else
    { mem := changes signal e.mem script
      next := e.mem.next e.next
      called := e.called ++ [e.next]
      removed := e.removed ++ removals script }

/-- Only a listener that is not in the list is added, and only one that is in it removed. -/
def Legal (signal : α) : ListCells α → List (SignalChange α) → Prop
  | _, [] => True
  | m, .add listener :: script =>
    (listener ≠ signal ∧ ¬ m.Member signal listener) ∧
      Legal signal (change signal m (.add listener)) script
  | m, .remove listener :: script =>
    m.Member signal listener ∧ Legal signal (change signal m (.remove listener)) script

/-- The callback that runs, if any, does what is legal. -/
def Admits (signal : α) (e : SignalEmission α) (script : List (SignalChange α)) : Prop :=
  e.next ≠ signal → Legal signal e.mem script

/-- The callback does not remove the listener after its own, and adds none that was notified. -/
def Gentle (signal : α) (e : SignalEmission α) (script : List (SignalChange α)) : Prop :=
  e.next ≠ signal →
    .remove (e.mem.next e.next) ∉ script ∧ ∀ c ∈ e.called ++ [e.next], .add c ∉ script

/-- The callback adds no listener that was notified or removed before. -/
def Fresh (signal : α) (e : SignalEmission α) (script : List (SignalChange α)) : Prop :=
  e.next ≠ signal →
    ∀ c ∈ e.called ++ [e.next] ++ e.removed ++ removals script, .add c ∉ script

/-- No listener was notified twice, the one whose turn it is is in the list, and at the end every
listener that was there from the start was notified. -/
structure Tolerates (signal : α) (listeners : List α) (e : SignalEmission α) : Prop where
  once : e.called.Nodup
  inList : e.next ≠ signal → e.mem.Member signal e.next
  complete : e.next = signal → ∀ c ∈ listeners, c ∉ e.removed → c ∈ e.called

/-- `rest` are the last listeners of the list, from the next one on. -/
def Ends (signal : α) (m : ListCells α) (next : α) (rest : List α) : Prop :=
  ∃ before, m.Holds signal (before ++ rest) ∧ next = rest.head?.getD signal

variable {signal next c listener : α} {m : ListCells α} {rest listeners : List α}
  {script : List (SignalChange α)} {e : SignalEmission α}

/-! ## One change -/

theorem Ends.add (h : Ends signal m next rest) (hne : listener ≠ signal)
    (hnew : ¬ m.Member signal listener) :
    ∃ rest', Ends signal (change signal m (.add listener)) next rest' ∧
      ∀ d, (d ∈ rest' → d ∈ rest ∨ d = listener) ∧ (d ∈ rest → d ∈ rest') := by
  obtain ⟨before, hholds, rfl⟩ := h
  rw [hholds.member_iff] at hnew
  have hfresh : listener ∉ signal :: (before ++ rest) := by
    rw [List.mem_cons, not_or]
    exact ⟨hne, hnew⟩
  have hadded := hholds.insert hfresh
  cases rest with
  | nil =>
    refine ⟨[], ⟨before ++ [listener], ?_, rfl⟩, fun d => ⟨nofun, nofun⟩⟩
    rw [List.append_nil] at hadded ⊢
    exact hadded
  | cons c rest =>
    refine ⟨c :: rest ++ [listener], ⟨before, ?_, rfl⟩, fun d => ⟨fun hd => ?_, fun hd => ?_⟩⟩
    · rw [List.append_assoc] at hadded
      exact hadded
    · exact (List.mem_append.mp hd).imp_right List.mem_singleton.mp
    · exact List.mem_append_left _ hd

theorem Ends.remove (h : Ends signal m next rest) (hmem : m.Member signal listener)
    (hne : listener ≠ next) :
    ∃ rest', Ends signal (change signal m (.remove listener)) next rest' ∧
      ∀ d, (d ∈ rest' → d ∈ rest) ∧ (d ∈ rest → d ≠ listener → d ∈ rest') := by
  obtain ⟨before, hholds, rfl⟩ := h
  rw [hholds.member_iff] at hmem
  by_cases hbefore : listener ∈ before
  · obtain ⟨xs, ys, rfl⟩ := List.append_of_mem hbefore
    rw [List.append_assoc, List.cons_append] at hholds
    have hremoved := hholds.remove
    rw [← List.append_assoc] at hremoved
    exact ⟨rest, ⟨xs ++ ys, hremoved, rfl⟩, fun d => ⟨id, fun hd _ => hd⟩⟩
  · have hrest := (List.mem_append.mp hmem).resolve_left hbefore
    cases rest with
    | nil => cases hrest
    | cons c rest =>
      have hlater := (List.mem_cons.mp hrest).resolve_left hne
      obtain ⟨xs, ys, rfl⟩ := List.append_of_mem hlater
      have hsplit : before ++ c :: (xs ++ listener :: ys) =
          (before ++ c :: xs) ++ listener :: ys := by simp
      rw [hsplit] at hholds
      refine ⟨c :: (xs ++ ys), ⟨before, ?_, rfl⟩, fun d => ⟨fun hd => ?_, fun hd hdne => ?_⟩⟩
      · have hremoved := hholds.remove
        rw [List.append_assoc, List.cons_append] at hremoved
        exact hremoved
      · simp only [List.mem_cons, List.mem_append] at hd ⊢
        tauto
      · simp only [List.mem_cons, List.mem_append] at hd ⊢
        tauto

/-! ## A callback -/

/-- While a callback runs, the listeners from the next one on stay, but for those that it
removes; others are only added. -/
theorem Ends.changes (h : Ends signal m next rest) (hlegal : Legal signal m script)
    (hnext : .remove next ∉ script) :
    ∃ rest', Ends signal (changes signal m script) next rest' ∧
      ∀ d, (d ∈ rest' → d ∈ rest ∨ .add d ∈ script) ∧
        (d ∈ rest → d ∉ removals script → d ∈ rest') := by
  induction script generalizing m rest with
  | nil => exact ⟨rest, h, fun d => ⟨.inl, fun hd _ => hd⟩⟩
  | cons c script ih =>
    obtain ⟨hhead, htail⟩ := List.ne_and_not_mem_of_not_mem_cons hnext
    cases c with
    | add listener =>
      obtain ⟨⟨hne, hnew⟩, hlegal⟩ := hlegal
      obtain ⟨rest₁, h₁, hrest₁⟩ := h.add hne hnew
      obtain ⟨rest₂, h₂, hrest₂⟩ := ih h₁ hlegal htail
      refine ⟨rest₂, h₂, fun d => ⟨fun hd => ?_, fun hd hkeep => ?_⟩⟩
      · rcases (hrest₂ d).1 hd with hd | hd
        · rcases (hrest₁ d).1 hd with hd | rfl
          · exact .inl hd
          · exact .inr List.mem_cons_self
        · exact .inr (List.mem_cons_of_mem _ hd)
      · exact (hrest₂ d).2 ((hrest₁ d).2 hd) hkeep
    | remove listener =>
      obtain ⟨hmem, hlegal⟩ := hlegal
      obtain ⟨rest₁, h₁, hrest₁⟩ := h.remove hmem fun he => hhead (he ▸ rfl)
      obtain ⟨rest₂, h₂, hrest₂⟩ := ih h₁ hlegal htail
      refine ⟨rest₂, h₂, fun d => ⟨fun hd => ?_, fun hd hkeep => ?_⟩⟩
      · rcases (hrest₂ d).1 hd with hd | hd
        · exact .inl ((hrest₁ d).1 hd)
        · exact .inr (List.mem_cons_of_mem _ hd)
      · obtain ⟨hdne, hkeep⟩ : d ≠ listener ∧ d ∉ removals script :=
          List.ne_and_not_mem_of_not_mem_cons hkeep
        exact (hrest₂ d).2 ((hrest₁ d).2 hd hdne) hkeep

omit [DecidableEq α] in
theorem mem_removals : listener ∈ removals script ↔ .remove listener ∈ script := by
  rw [removals, List.mem_filterMap]
  constructor
  · rintro ⟨c, hc, he⟩
    cases c with
    | add d => cases he
    | remove d => exact Option.some.inj he ▸ hc
  · exact fun h => ⟨_, h, rfl⟩

/-- A list that is changed as is legal stays one.  What is removed is a listener, and what is
removed and not added is not in the list. -/
theorem holds_changes (h : m.Holds signal listeners) (hlegal : Legal signal m script) :
    ∃ listeners', (changes signal m script).Holds signal listeners' ∧ .remove signal ∉ script ∧
      ∀ d, .add d ∉ script → .remove d ∈ script ∨ d ∉ listeners → d ∉ listeners' := by
  induction script generalizing m listeners with
  | nil => exact ⟨listeners, h, List.not_mem_nil, fun d _ hd => hd.resolve_left List.not_mem_nil⟩
  | cons c script ih =>
    cases c with
    | add listener =>
      obtain ⟨⟨hne, hnew⟩, hlegal⟩ := hlegal
      rw [h.member_iff] at hnew
      have hadded := h.insert fun hmem => (List.mem_cons.mp hmem).elim hne hnew
      obtain ⟨ys, hys, hsignal, hout⟩ := ih hadded hlegal
      have hlater : ∀ d, .remove d ∈ .add listener :: script → .remove d ∈ script :=
        fun d hd => (List.mem_cons.mp hd).resolve_left fun he => nomatch he
      refine ⟨ys, hys, fun hin => hsignal (hlater signal hin), fun d hadd hd => ?_⟩
      obtain ⟨hdne, hadd⟩ := List.ne_and_not_mem_of_not_mem_cons hadd
      refine hout d hadd (hd.imp (hlater d) fun hd => ?_)
      rw [List.mem_append, not_or, List.mem_singleton]
      exact ⟨hd, fun he => hdne (he ▸ rfl)⟩
    | remove listener =>
      obtain ⟨hmem, hlegal⟩ := hlegal
      rw [h.member_iff] at hmem
      obtain ⟨hsignal', hnodup⟩ := List.nodup_cons.mp h.nodup
      obtain ⟨xs, zs, rfl⟩ := List.append_of_mem hmem
      obtain ⟨ys, hys, hsignal, hout⟩ := ih h.remove hlegal
      have hgone : ∀ d, d = listener ∨ d ∉ xs ++ listener :: zs → d ∉ xs ++ zs := by
        intro d hd hin
        rcases hd with rfl | hd
        · exact (List.nodup_cons.mp (List.nodup_middle.mp hnodup)).1 hin
        · refine hd (List.mem_append.mpr ?_)
          exact (List.mem_append.mp hin).imp_right (List.mem_cons_of_mem listener)
      refine ⟨ys, hys, fun hin => ?_, fun d hadd hd => ?_⟩
      · rcases List.mem_cons.mp hin with he | hin
        · exact hsignal' (SignalChange.remove.inj he ▸ hmem)
        · exact hsignal hin
      refine hout d (fun hin => hadd (List.mem_cons_of_mem _ hin)) ?_
      rcases hd with hd | hd
      · rcases List.mem_cons.mp hd with he | hd
        · exact .inr (hgone d (.inl (SignalChange.remove.inj he)))
        · exact .inl hd
      · exact .inr (hgone d (.inr hd))

/-! ## Runs -/

/-- Between two turns: the listeners that are to be notified were not, and those that were there
from the start were or are to be. -/
structure Inv (signal : α) (listeners : List α) (e : SignalEmission α) : Prop where
  once : e.called.Nodup
  ends : ∃ rest, Ends signal e.mem e.next rest ∧ (∀ c ∈ e.called, c ∉ rest) ∧
    ∀ c ∈ listeners, c ∉ e.removed → c ∈ e.called ∨ c ∈ rest

omit [DecidableEq α] in
theorem inv_start (h : m.Holds signal listeners) : Inv signal listeners (start m signal) where
  once := List.nodup_nil
  ends := ⟨listeners, ⟨[], h, h.path.next_eq⟩, nofun, fun _ hc _ => .inr hc⟩

theorem Inv.turn (h : Inv signal listeners e) (hlegal : Admits signal e script)
    (hgentle : Gentle signal e script) : Inv signal listeners (turn signal e script) := by
  unfold SignalEmission.turn
  split
  · exact h
  next hne =>
    obtain ⟨hnext, hadds⟩ := hgentle hne
    obtain ⟨rest, ⟨before, hholds, hhead⟩, hcalled, hall⟩ := h.ends
    cases rest with
    | nil => exact absurd hhead hne
    | cons c rest =>
      have hc : e.next = c := hhead
      rw [hc] at hne hnext hadds ⊢
      obtain ⟨-, hpath⟩ := ListCells.path_append.mp hholds.path
      have hends : Ends signal e.mem (e.mem.next c) rest :=
        ⟨before ++ [c], by rwa [List.append_assoc, List.singleton_append], hpath.next_eq⟩
      obtain ⟨rest', hends', hrest'⟩ := hends.changes (hlegal (hc ▸ hne)) hnext
      have hnodup : (c :: rest).Nodup :=
        (List.nodup_append.mp (List.nodup_cons.mp hholds.nodup).2).2.1
      have hfresh : ∀ d ∈ e.called ++ [c], d ∉ rest := by
        intro d hd
        rcases List.mem_append.mp hd with hd | hd
        · exact fun hmem => hcalled d hd (List.mem_cons_of_mem c hmem)
        · rw [List.mem_singleton.mp hd]
          exact (List.nodup_cons.mp hnodup).1
      refine ⟨?_, rest', hends', fun d hd hmem => ?_, fun d hd hkeep => ?_⟩
      · refine List.nodup_append.mpr ⟨h.once, List.nodup_singleton c, fun a ha b hb hab => ?_⟩
        rw [hab, List.mem_singleton.mp hb] at ha
        exact hcalled c ha List.mem_cons_self
      · rcases (hrest' d).1 hmem with hmem | hadd
        · exact hfresh d hd hmem
        · exact hadds d hd hadd
      · have hkeep' : d ∉ e.removed ∧ d ∉ removals script := by
          rw [← not_or, ← List.mem_append]
          exact hkeep
        rcases hall d hd hkeep'.1 with hd | hd
        · exact .inl (List.mem_append_left _ hd)
        · rcases List.mem_cons.mp hd with rfl | hd
          · exact .inl (List.mem_append_right _ List.mem_cons_self)
          · exact .inr ((hrest' d).2 hd hkeep'.2)

omit [DecidableEq α] in
theorem Inv.tolerates (h : Inv signal listeners e) : Tolerates signal listeners e := by
  obtain ⟨rest, ⟨before, hholds, hhead⟩, -, hall⟩ := h.ends
  refine ⟨h.once, fun hne => ?_, fun hend c hc hkeep => ?_⟩
  · rw [hholds.member_iff]
    cases rest with
    | nil => exact absurd hhead hne
    | cons c rest =>
      rw [hhead]
      exact List.mem_append_right _ List.mem_cons_self
  · rcases hall c hc hkeep with hc | hc
    · exact hc
    · cases rest with
      | nil => cases hc
      | cons d rest =>
        have hd : signal = d := hend.symm.trans hhead
        have hmem : signal ∈ before ++ d :: rest :=
          List.mem_append_right _ (hd ▸ List.mem_cons_self)
        exact absurd hmem (List.nodup_cons.mp hholds.nodup).1

/-- Where no listener is added again, a callback has to leave the next listener in the list. -/
theorem Inv.gentle (h : Inv signal listeners e) (hlegal : Admits signal e script)
    (hfresh : Fresh signal e script)
    (htol : Tolerates signal listeners (SignalEmission.turn signal e script)) :
    Gentle signal e script := by
  intro hne
  have hadds := hfresh hne
  refine ⟨fun hremove => ?_, fun c hc => hadds c ?_⟩
  · obtain ⟨rest, ⟨before, hholds, -⟩, -⟩ := h.ends
    obtain ⟨after, hafter, hsignal, hout⟩ := holds_changes hholds (hlegal hne)
    have hgone : e.mem.next e.next ∉ after := by
      refine hout _ (hadds _ ?_) (.inl hremove)
      exact List.mem_append_right _ (mem_removals.mpr hremove)
    have hin := htol.inList
    rw [SignalEmission.turn, if_neg hne] at hin
    dsimp only at hin
    rw [hafter.member_iff] at hin
    exact hgone (hin fun hend => hsignal (hend ▸ hremove))
  · exact List.mem_append_left _ (List.mem_append_left _ hc)

/-- An emission whose callbacks do not remove the listener that is next, and add none that was
notified, notifies every listener once.  Where no listener is added again, none may be removed
when it is next. -/
theorem emit_tolerates (h : m.Holds signal listeners) {scripts : List (List (SignalChange α))}
    (hlegal : Run.Along (turn signal) (Admits signal) (start m signal) scripts) :
    (Run.Along (turn signal) (Gentle signal) (start m signal) scripts →
      Run.Along (turn signal) (fun e script => Tolerates signal listeners (turn signal e script))
        (start m signal) scripts) ∧
    (Run.Along (turn signal) (Fresh signal) (start m signal) scripts →
      Run.Along (turn signal) (fun e script => Tolerates signal listeners (turn signal e script))
        (start m signal) scripts →
      Run.Along (turn signal) (Gentle signal) (start m signal) scripts) := by
  constructor
  · intro hgentle
    refine Run.along_of (Inv signal listeners) (fun e script he hok => ?_) (inv_start h)
      (Run.along_and.mpr ⟨hlegal, hgentle⟩)
    have hnext := he.turn hok.1 hok.2
    exact ⟨hnext.tolerates, hnext⟩
  · intro hfresh
    have hiff := Run.along_iff (Inv signal listeners)
      (fun e script he hok => ⟨fun htol => he.gentle hok.1 hok.2 htol,
        fun hgentle => (he.turn hok.1 hgentle).tolerates⟩)
      (fun e script he hok hgentle => he.turn hok.1 hgentle) (inv_start h)
      (Run.along_and.mpr ⟨hlegal, hfresh⟩)
    exact hiff.mp

section Example

/-- A signal, `0`, with the listeners `1` and `2`. -/
def twoListeners : ListCells Nat := changes 0 (ListCells.init ⟨id, id⟩ 0) [.add 1, .add 2]

theorem holds_twoListeners : twoListeners.Holds 0 [1, 2] :=
  ⟨⟨⟨rfl, rfl⟩, ⟨rfl, rfl⟩, rfl, rfl⟩, by decide⟩

/-- The first listener removes itself and adds another one. -/
theorem emit_tolerates_itself :
    Run.Along (turn 0) (fun e script => Tolerates 0 [1, 2] (turn 0 e script))
      (start twoListeners 0) [[.remove 1, .add 3], [], []] := by
  have hone : (twoListeners.remove 1).Holds 0 [2] :=
    @ListCells.Holds.remove _ _ _ _ [] _ _ holds_twoListeners
  have hnew : ¬ (twoListeners.remove 1).Member 0 3 := by
    rw [hone.member_iff]
    decide
  have hlegal : Run.Along (turn 0) (Admits 0) (start twoListeners 0)
      [[.remove 1, .add 3], [], []] :=
    ⟨fun _ => ⟨holds_twoListeners.member_iff.mpr List.mem_cons_self, ⟨by decide, hnew⟩, trivial⟩,
      fun _ => trivial, fun _ => trivial, trivial⟩
  exact (emit_tolerates holds_twoListeners hlegal).1
    ⟨fun _ => by decide, fun _ => by decide, fun _ => by decide, trivial⟩

/-- The first listener removes the second one, which is notified all the same. -/
theorem not_emit_tolerates :
    ¬ ∀ (m : ListCells Nat) (listeners : List Nat) (scripts : List (List (SignalChange Nat))),
      m.Holds 0 listeners → Run.Along (turn 0) (Admits 0) (start m 0) scripts →
        Run.Along (turn 0) (fun e script => Tolerates 0 listeners (turn 0 e script)) (start m 0)
          scripts := by
  intro h
  have hmem : twoListeners.Member 0 2 := holds_twoListeners.member_iff.mpr (by decide)
  have htol := (h twoListeners [1, 2] [[.remove 2]] holds_twoListeners
    ⟨fun _ => ⟨hmem, trivial⟩, trivial⟩).1
  have hone : (twoListeners.remove 2).Holds 0 [1] :=
    @ListCells.Holds.remove _ _ _ _ [1] [] _ holds_twoListeners
  have hcalled : (twoListeners.remove 2).Member 0 2 := htol.inList (by decide)
  exact absurd (hone.member_iff.mp hcalled) (by decide)

end Example

end SignalEmission
end Pinos

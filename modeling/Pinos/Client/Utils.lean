import Mathlib.Data.List.DropRight
import Pinos.Lib.CSpan

/-
Strings that are split and stripped, of `client/utils.c`.

A string is the list of its characters, and a pointer into one is what comes from there on.
-/

namespace Pinos

open CSpan

/-- A token of `pinos_split_walk`: where it starts, its length, and the state behind it. -/
structure SplitWalk where
  s : List UInt8
  len : Nat
  state : List UInt8

/-- `pinos_split_walk`. -/
def splitWalk (str delimiter : List UInt8) (state : Option (List UInt8)) : Option SplitWalk :=
  let s := state.getD str
  if s = [] then none
  else
    let len := strcspn s delimiter
    let state := s.drop len
    some { s, len, state := state.drop (strspn state delimiter) }

section Walk

variable {str delimiter : List UInt8} {state : Option (List UInt8)} {w : SplitWalk}

/-- The state moves on. -/
theorem state_splitWalk (h : splitWalk str delimiter state = some w) :
    w.state.length < w.s.length := by
  unfold splitWalk at h
  dsimp only at h
  split at h
  · cases h
  next hne =>
    obtain rfl := Option.some.inj h
    dsimp only
    rw [List.length_drop, List.length_drop]
    generalize state.getD str = s at hne
    have hpos := List.length_pos_iff.mpr hne
    by_cases hlen : strcspn s delimiter = 0
    · obtain ⟨c, rest, rfl⟩ := List.exists_cons_of_ne_nil hne
      have hc : c ∈ delimiter := by
        apply @mem_of_drop_strcspn _ _ (c :: rest)
        rw [hlen]
        rfl
      have hspan := @strspn_pos _ _ ((c :: rest).drop (strcspn (c :: rest) delimiter)) _ _
        (by rw [hlen]; rfl) hc
      omega
    · omega

theorem s_splitWalk {s : List UInt8} (h : splitWalk str delimiter (some s) = some w) : w.s = s := by
  unfold splitWalk at h
  dsimp only [Option.getD_some] at h
  split at h
  · cases h
  · exact Option.some.inj h ▸ rfl

end Walk

/-- The loop of `pinos_split_strv` from a walk on, with the tokens so far. -/
def splitFrom (str delimiter : List UInt8) (maxTokens : Int) (walk : Option SplitWalk) (n : Nat)
    (arr : List (List UInt8)) : List (List UInt8) × Nat :=
  match walk with
  | none => (arr, n)
  | some w =>
    if n + 1 < maxTokens then
      splitFrom str delimiter maxTokens (splitWalk str delimiter (some w.state)) (n + 1)
        (arr ++ [w.s.take w.len])
    else (arr ++ [w.s], n + 1)
termination_by walk.elim 0 fun w => w.state.length + 1
decreasing_by
  cases hnext : splitWalk str delimiter (some w.state) with
  | none => exact Nat.succ_pos _
  | some w' =>
    have hlt := state_splitWalk hnext
    rw [s_splitWalk hnext] at hlt
    exact Nat.succ_lt_succ hlt

/-- `pinos_split_strv`: the array with the null pointer at its end, and the number of tokens. -/
def splitStrv (str delimiter : List UInt8) (maxTokens : Int) :
    List (Option (List UInt8)) × Nat :=
  let (arr, n) := splitFrom str delimiter maxTokens (splitWalk str delimiter none) 0 []
  (arr.map some ++ [none], n)

/-! ## Tokens and what is between them -/

/-- A string in parts, each a token with the delimiters behind it. -/
structure Parts (delimiter s : List UInt8) (parts : List (List UInt8 × List UInt8)) : Prop where
  whole : s = parts.flatMap fun p => p.1 ++ p.2
  gaps : ∀ p ∈ parts, ∀ c ∈ p.2, c ∈ delimiter
  between : ∀ p ∈ parts.dropLast, p.2 ≠ []
  later : ∀ p ∈ parts.tail, p.1 ≠ []
  clean : ∀ p ∈ parts.dropLast, ∀ c ∈ p.1, c ∉ delimiter

variable {str delimiter s : List UInt8} {maxTokens : Int} {n : Nat}

theorem splitWalk_some (hne : s ≠ []) : splitWalk str delimiter (some s) = some
    { s
      len := strcspn s delimiter
      state := (s.drop (strcspn s delimiter)).drop
        (strspn (s.drop (strcspn s delimiter)) delimiter) } :=
  if_neg hne

theorem Parts.cons {t d s' : List UInt8} {ps : List (List UInt8 × List UInt8)}
    (h : Parts delimiter s' ps) (hlater : ∀ p ∈ ps, p.1 ≠ []) (ht : ∀ c ∈ t, c ∉ delimiter)
    (hd : ∀ c ∈ d, c ∈ delimiter) (hgap : ps ≠ [] → d ≠ []) :
    Parts delimiter (t ++ d ++ s') ((t, d) :: ps) where
  whole := by rw [List.flatMap_cons, ← h.whole]
  gaps p hp := by
    rcases List.mem_cons.mp hp with rfl | hp
    · exact hd
    · exact h.gaps p hp
  between p hp := by
    cases ps with
    | nil => cases hp
    | cons q ps =>
      rcases List.mem_cons.mp hp with rfl | hp
      · exact hgap (List.cons_ne_nil q ps)
      · exact h.between p hp
  later := hlater
  clean p hp := by
    cases ps with
    | nil => cases hp
    | cons q ps =>
      rcases List.mem_cons.mp hp with rfl | hp
      · exact ht
      · exact h.clean p hp

theorem Parts.singleton (delimiter t : List UInt8) : Parts delimiter t [(t, [])] where
  whole := by simp
  gaps p hp := by
    rw [List.mem_singleton.mp hp]
    exact fun c hc => nomatch hc
  between _ hp := nomatch hp
  later _ hp := nomatch hp
  clean _ hp := nomatch hp

/-- The parts that the loop comes to from a place in the string on: how many, and that only the
last can have a delimiter in its token, when there are as many as may be. -/
theorem splitFrom_parts (str delimiter : List UInt8) (maxTokens : Int) (s : List UInt8) (n : Nat)
    (arr : List (List UInt8)) :
    ∃ parts, splitFrom str delimiter maxTokens (splitWalk str delimiter (some s)) n arr =
        (arr ++ parts.map Prod.fst, n + parts.length) ∧
      Parts delimiter s parts ∧
      ((∀ c ∈ s.head?, c ∉ delimiter) → ∀ p ∈ parts, p.1 ≠ []) ∧
      n + parts.length ≤ max maxTokens (n + 1) ∧
      (n + parts.length < max maxTokens (n + 1) → ∀ p ∈ parts, ∀ c ∈ p.1, c ∉ delimiter) := by
  induction hlen : s.length using Nat.strongRecOn generalizing s n arr with
  | _ length ih =>
    subst hlen
    by_cases hne : s = []
    · subst hne
      refine ⟨[], ?_, ⟨rfl, nofun, nofun, nofun, nofun⟩, fun _ => nofun, ?_, fun _ => nofun⟩
      · rw [show splitWalk str delimiter (some []) = none from rfl, splitFrom]
        exact congrArg (·, n) (List.append_nil arr).symm
      · rw [List.length_nil]
        omega
    have hwalk := @splitWalk_some str delimiter s hne
    have hshorter := state_splitWalk hwalk
    rw [hwalk, splitFrom]
    dsimp only at hshorter ⊢
    by_cases hroom : (n : Int) + 1 < maxTokens
    · rw [if_pos hroom]
      obtain ⟨tail, htail⟩ : ∃ tail, tail = s.drop (strcspn s delimiter) := ⟨_, rfl⟩
      rw [← htail] at hshorter ⊢
      obtain ⟨ps, heq, hparts, hlater, hmax, hclean⟩ := ih _ hshorter
        (tail.drop (strspn tail delimiter)) (n + 1) (arr ++ [s.take (strcspn s delimiter)]) rfl
      have htoken : ∀ p ∈ ps, p.1 ≠ [] :=
        hlater fun c hc => not_mem_of_drop_strspn hc
      have hwhole : s.take (strcspn s delimiter) ++ tail.take (strspn tail delimiter) ++
          tail.drop (strspn tail delimiter) = s := by
        rw [List.append_assoc, List.take_append_drop, htail, List.take_append_drop]
      have hgap : ps ≠ [] → tail.take (strspn tail delimiter) ≠ [] := by
        intro hps
        cases hhead : tail.head? with
        | none =>
          rw [List.head?_eq_none_iff.mp hhead, List.drop_nil] at hparts
          obtain ⟨p, ps, rfl⟩ := List.exists_cons_of_ne_nil hps
          have hnil := List.append_eq_nil_iff.mp (List.append_eq_nil_iff.mp hparts.whole.symm).1
          exact absurd hnil.1 (htoken p List.mem_cons_self)
        | some c =>
          have hc : c ∈ delimiter := mem_of_drop_strcspn (htail ▸ hhead)
          have hpos := strspn_pos hhead hc
          have hlength := List.length_pos_of_mem (List.mem_of_head? hhead)
          rw [Ne, ← List.length_eq_zero_iff, List.length_take]
          omega
      refine ⟨(s.take (strcspn s delimiter), tail.take (strspn tail delimiter)) :: ps, ?_, ?_, ?_,
        ?_, ?_⟩
      · rw [heq, List.map_cons, List.append_assoc, List.singleton_append, List.length_cons,
          Nat.add_right_comm, Nat.add_assoc]
      · have hcons := @Parts.cons _ (s.take (strcspn s delimiter)) _ _ _ hparts htoken
          (fun c hc => not_mem_of_take_strcspn hc) (fun c hc => mem_of_take_strspn hc) hgap
        rw [hwhole] at hcons
        exact hcons
      · intro hfirst p hp
        rcases List.mem_cons.mp hp with rfl | hp
        · obtain ⟨c, rest, rfl⟩ := List.exists_cons_of_ne_nil hne
          have hc := hfirst c rfl
          have hpos := @strcspn_pos _ _ (c :: rest) delimiter c rfl hc
          rw [Ne, ← List.length_eq_zero_iff, List.length_take, List.length_cons]
          omega
        · exact htoken p hp
      · rw [List.length_cons]
        push_cast at hmax ⊢
        omega
      · intro hless p hp
        rcases List.mem_cons.mp hp with rfl | hp
        · exact fun c hc => not_mem_of_take_strcspn hc
        · refine hclean ?_ p hp
          rw [List.length_cons] at hless
          push_cast at hless ⊢
          omega
    · rw [if_neg hroom]
      refine ⟨[(s, [])], rfl, Parts.singleton delimiter s, ?_, ?_, ?_⟩
      · intro _ p hp
        rw [List.mem_singleton.mp hp]
        exact hne
      · rw [List.length_singleton]
        push_cast
        omega
      · intro hless
        rw [List.length_singleton] at hless
        push_cast at hless
        omega

/-- `pinos_split_strv` gives the tokens of the string, at most `max_tokens` and at least one. -/
theorem splitStrv_parts (str delimiter : List UInt8) (maxTokens : Int) :
    ∃ parts, splitStrv str delimiter maxTokens =
        (parts.map (fun p => some p.1) ++ [none], parts.length) ∧
      Parts delimiter str parts ∧
      parts.length ≤ max maxTokens 1 ∧
      (parts.length < max maxTokens 1 → ∀ p ∈ parts, ∀ c ∈ p.1, c ∉ delimiter) := by
  obtain ⟨parts, heq, hparts, -, hmax, hclean⟩ :=
    splitFrom_parts str delimiter maxTokens str 0 []
  have hstart : splitWalk str delimiter none = splitWalk str delimiter (some str) := rfl
  refine ⟨parts, ?_, hparts, ?_, fun hless => hclean ?_⟩
  · rw [splitStrv, hstart, heq]
    dsimp only
    rw [List.nil_append, List.map_map, Nat.zero_add]
    rfl
  · push_cast at hmax
    omega
  · push_cast
    omega

/-! ## Stripping -/

/-- The loop of `pinos_strip`: where the last character is that is not of `whitespace`. -/
def lastFrom (whitespace : List UInt8) : Nat → Option Nat → List UInt8 → Option Nat
  | _, l, [] => l
  | i, l, e :: str => lastFrom whitespace (i + 1) (if e ∉ whitespace then some i else l) str

/-- `pinos_strip`: the string that is left in place, and how far the pointer that is returned is
behind its start. -/
def strip (str whitespace : List UInt8) : List UInt8 × Nat :=
  let start := strspn str whitespace
  match lastFrom whitespace 0 none (str.drop start) with
  | some l => (str.take (start + l + 1), start)
  | none => (str.take start, start)

theorem lastFrom_concat (whitespace s : List UInt8) (c : UInt8) (i : Nat) (l : Option Nat) :
    lastFrom whitespace i l (s ++ [c]) =
      if c ∉ whitespace then some (i + s.length) else lastFrom whitespace i l s := by
  induction s generalizing i l with
  | nil => rfl
  | cons e s ih =>
    rw [List.cons_append, lastFrom, ih, lastFrom, List.length_cons, Nat.add_right_comm,
      Nat.add_assoc]

theorem lastFrom_lt {whitespace s : List UInt8} {l : Nat}
    (h : lastFrom whitespace 0 none s = some l) : l < s.length := by
  induction s using List.reverseRecOn with
  | nil => cases h
  | append_singleton s c ih =>
    rw [lastFrom_concat] at h
    rw [List.length_append, List.length_singleton]
    split at h
    · have hl := Option.some.inj h
      omega
    · exact Nat.lt_succ_of_lt (ih h)

/-- What ends with the last character is the string without the whitespace at its end. -/
theorem take_lastFrom (whitespace s : List UInt8) :
    (match lastFrom whitespace 0 none s with
      | some l => s.take (l + 1)
      | none => []) = s.rdropWhile fun c => decide (c ∈ whitespace) := by
  induction s using List.reverseRecOn with
  | nil => rfl
  | append_singleton s c ih =>
    rw [lastFrom_concat]
    by_cases hc : c ∈ whitespace
    · rw [if_neg (not_not.mpr hc), List.rdropWhile_concat_pos (fun c => decide (c ∈ whitespace)) s c
        (decide_eq_true hc), ← ih]
      cases hlast : lastFrom whitespace 0 none s with
      | none => rfl
      | some l => exact List.take_append_of_le_length (lastFrom_lt hlast)
    · rw [if_pos hc, List.rdropWhile_concat_neg (fun c => decide (c ∈ whitespace)) s c
        (by rwa [decide_eq_true_iff])]
      exact List.take_of_length_le (by simp)

/-- A string that does not start with whitespace loses the whitespace at its end. -/
theorem strip_eq {str whitespace : List UInt8} (h : ∀ c ∈ str.head?, c ∉ whitespace) :
    strip str whitespace = (str.rdropWhile fun c => decide (c ∈ whitespace), 0) := by
  have hstart : strspn str whitespace = 0 := by
    cases str with
    | nil => rfl
    | cons c str =>
      rw [strspn, List.findIdx_cons, decide_eq_true (h c rfl)]
      rfl
  rw [strip, hstart, List.drop_zero, ← take_lastFrom]
  cases lastFrom whitespace 0 none str with
  | none => exact congrArg (·, 0) (List.take_zero)
  | some l =>
    show (str.take (0 + l + 1), 0) = (str.take (l + 1), 0)
    rw [Nat.zero_add]

/-- A string that starts with whitespace keeps its first character. -/
theorem head_strip {str whitespace : List UInt8} {c : UInt8} (hhead : str.head? = some c)
    (hc : c ∈ whitespace) : (strip str whitespace).1.head? = some c := by
  have hpos := strspn_pos hhead hc
  rw [strip]
  split
  · rw [List.head?_take, if_neg (by omega), hhead]
  · rw [List.head?_take, if_neg (by omega), hhead]

end Pinos

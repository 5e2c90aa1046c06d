import Pinos.Client.RemapTree

/-
What `pinos_pod_remap` turns a value into.

`translated f` replaces the ids of a tree that are visited, and `turns` says that this is what
the translation in place leaves in memory when `f` gives the images of these ids.
-/

namespace Pinos

open ByteMem

namespace Leaf

/-- The body of a leaf, with the id in it replaced. -/
def translatedBody (f : UInt32 → UInt32) (l : Leaf) : List UInt8 :=
  if l.type = .id then toLE 4 (f (.ofNat (ofLE l.body))).toNat else l.body

theorem translatedBody_sized (f : UInt32 → UInt32) (l : Leaf) :
    ∀ n, l.type.bodySize? = some n → (translatedBody f l).length = n := by
  intro n hn
  unfold translatedBody
  split
  · next hid =>
    rw [hid] at hn
    cases hn
    rfl
  · exact l.sized n hn

def translated (f : UInt32 → UInt32) (l : Leaf) : Leaf :=
  ⟨l.type, translatedBody f l, l.isLeaf, translatedBody_sized f l⟩

end Leaf

namespace Pod

mutual
/-- A value with the ids replaced that `pinos_pod_remap_data` visits. -/
def translated (f : UInt32 → UInt32) : Pod → Pod
  | leaf l => leaf (l.translated f)
  | array t size elems => array t size elems
  | struct contents => struct (translatedContents f contents)
  | object id type contents => object id (f type) (translatedContents f contents)
  | prop key flags value alternatives =>
      if value.type = .id then
        prop (f key) flags (translated f value) (alternatives.map (Leaf.translated f))
      else prop (f key) flags value alternatives

def translatedContents (f : UInt32 → UInt32) : List Pod → List Pod
  | [] => []
  | p :: rest => translated f p :: translatedContents f rest
end

@[simp] theorem type_translated (f : UInt32 → UInt32) (p : Pod) :
    (p.translated f).type = p.type := by
  cases p with
  | prop key flags value alternatives =>
    rw [translated]
    split <;> rfl
  | _ => rfl

end Pod

/-! ## Words that are replaced -/

namespace PinosMap

/-- Translating the words at `ws` turns the bytes `bs` at `a` into `cs`. -/
structure Turns (types : PinosMap) (ws : List Nat) (a : Nat) (bs cs : List UInt8) : Prop where
  length : cs.length = bs.length
  inside : ∀ w ∈ ws, a ≤ w ∧ w + 4 ≤ a + bs.length
  turns : ∀ m : Mem, m.Holds a bs →
    (types.remapIds ws m).1 = true ∧ (types.remapIds ws m).2.Holds a cs

variable {types : PinosMap} {ws ws' : List Nat} {a b : Nat} {bs bs' cs cs' : List UInt8}

theorem Turns.refl (types : PinosMap) (a : Nat) (bs : List UInt8) : Turns types [] a bs bs :=
  ⟨rfl, by simp, fun _ h => ⟨rfl, h⟩⟩

theorem Turns.word {id id' : UInt32} (h : types.image id.toNat = some id') :
    Turns types [a] a (toLE 4 id.toNat) (toLE 4 id'.toNat) := by
  rw [image] at h
  split at h
  · cases h
  next hknown =>
  refine ⟨by simp, by simp, fun m hm => ?_⟩
  have hid : m.u32 a = id.toNat := by
    rw [hm.u32, Nat.mod_eq_of_lt id.toNat_lt]
  rw [remapIds, hid, if_neg hknown, Option.some.inj h]
  exact ⟨rfl, Mem.holds_write _ _ _⟩

/-- Bytes apart from the words stay. -/
theorem holds_remapIds {m : Mem} (h : m.Holds b bs)
    (hws : ∀ w ∈ ws, b + bs.length ≤ w ∨ w + 4 ≤ b) :
    (types.remapIds ws m).2.Holds b bs := by
  apply h.congr
  intro i hlo hhi
  refine (remapIds_outside fun w hw => ?_).symm
  have := hws w hw
  omega

theorem Turns.append (h : Turns types ws a bs cs) (h' : Turns types ws' (a + bs.length) bs' cs') :
    Turns types (ws ++ ws') a (bs ++ bs') (cs ++ cs') := by
  refine ⟨?_, ?_, fun m hm => ?_⟩
  · rw [List.length_append, List.length_append, h.length, h'.length]
  · intro w hw
    rw [List.length_append]
    rcases List.mem_append.mp hw with hw | hw
    · have := h.inside w hw
      omega
    · have := h'.inside w hw
      omega
  obtain ⟨hok, hfirst⟩ := h.turns m hm.left
  have hsecond : (types.remapIds ws m).2.Holds (a + bs.length) bs' := by
    apply holds_remapIds hm.right
    intro w hw
    have := h.inside w hw
    omega
  obtain ⟨hok', hlast⟩ := h'.turns _ hsecond
  rw [remapIds_append_true hok]
  refine ⟨hok', Mem.holds_append.mpr ⟨?_, ?_⟩⟩
  · apply holds_remapIds hfirst
    intro w hw
    have := h'.inside w hw
    have := h.length
    omega
  · rw [h.length]
    exact hlast

/-- Bytes in front that stay. -/
theorem Turns.after {front : List UInt8} (h : Turns types ws (a + front.length) bs cs) :
    Turns types ws a (front ++ bs) (front ++ cs) :=
  (Turns.refl types a front).append h

/-- Bytes behind that stay. -/
theorem Turns.before (h : Turns types ws a bs cs) (rest : List UInt8) :
    Turns types ws a (bs ++ rest) (cs ++ rest) := by
  have happ := h.append (Turns.refl types (a + bs.length) rest)
  rwa [List.append_nil] at happ

/-- A value with its header, in front of which nothing is translated. -/
theorem Turns.header {type : SpaPODType} (h : Turns types ws (a + 8) bs cs) :
    Turns types ws a (Pod.withHeader type bs) (Pod.withHeader type cs) := by
  rw [Pod.withHeader, Pod.withHeader, h.length]
  apply Turns.after
  rw [SpaPOD.length_bytes]
  exact h

theorem Turns.aligned (h : Turns types ws a bs cs) :
    Turns types ws a (Pod.aligned bs) (Pod.aligned cs) := by
  rw [Pod.aligned, Pod.aligned, h.length]
  exact h.before _

end PinosMap

/-! ## Values that are translated -/

/-- `f` gives the images of the ids that are visited. -/
def IdWord.Known (types : PinosMap) (f : UInt32 → UInt32) (ws : List IdWord) : Prop :=
  ∀ w ∈ ws, w.visited = true → types.image w.id.toNat = some (f w.id)

namespace IdWord

variable {types : PinosMap} {f : UInt32 → UInt32} {ws ws' : List IdWord}

@[simp] theorem known_append : Known types f (ws ++ ws') ↔ Known types f ws ∧ Known types f ws' :=
  List.forall_mem_append

@[simp] theorem known_cons {w : IdWord} :
    Known types f (w :: ws) ↔
      (w.visited = true → types.image w.id.toNat = some (f w.id)) ∧ Known types f ws :=
  List.forall_mem_cons

end IdWord

namespace Leaf

variable {types : PinosMap} {f : UInt32 → UInt32}

/-- A leaf with an id. -/
theorem turns {l : Leaf} {a : Nat} (hid : l.type = .id)
    (hknown : types.image (UInt32.ofNat (ofLE l.body)).toNat =
      some (f (.ofNat (ofLE l.body)))) :
    PinosMap.Turns types [a] a l.body (l.translated f).body := by
  have hlen := Pod.length_id hid
  have hlt : ofLE l.body < 2 ^ 32 := by
    have := ofLE_lt l.body
    rwa [hlen] at this
  have hbody : l.body = toLE 4 (UInt32.ofNat (ofLE l.body)).toNat := by
    rw [UInt32.toNat_ofNat', Nat.mod_eq_of_lt hlt]
    have := toLE_ofLE l.body
    rw [hlen] at this
    exact this.symm
  have hbody' : (l.translated f).body = toLE 4 (f (.ofNat (ofLE l.body))).toNat := if_pos hid
  rw [hbody']
  have hword := PinosMap.Turns.word (a := a) hknown
  rwa [← hbody] at hword

/-- Ids without headers that follow each other. -/
theorem turns_all : ∀ (ls : List Leaf) (a : Nat), (∀ l ∈ ls, l.type = .id) →
    IdWord.Known types f (idWords true ls a) →
    PinosMap.Turns types ((idWords true ls a).map IdWord.address) a (ls.flatMap Leaf.body)
      ((ls.map (Leaf.translated f)).flatMap Leaf.body)
  | [], a, _, _ => .refl types a []
  | l :: rest, a, hid, hknown => by
    obtain ⟨hfirst, hrest⟩ := IdWord.known_cons.mp hknown
    have hl := turns (a := a) (hid l List.mem_cons_self) (hfirst rfl)
    exact hl.append (turns_all rest _ (fun k hk => hid k (List.mem_cons_of_mem l hk)) hrest)

end Leaf

namespace Pod

variable {types : PinosMap} {f : UInt32 → UInt32}

theorem visitedWords_key (a : Nat) (key : UInt32) (ws : List IdWord) :
    visitedWords (⟨a, key, true⟩ :: ws) = [a] ++ visitedWords ws := rfl

mutual
/-- Translating a value in place leaves the translated value. -/
theorem turns : ∀ (p : Pod) (a : Nat), p.WellFormed → IdWord.Known types f (p.idWords a) →
    PinosMap.Turns types (visitedWords (p.idWords a)) a p.body (p.translated f).body
  | leaf l, a, _, hknown => by
    rw [idWords] at hknown ⊢
    rw [translated, body, body]
    by_cases hid : l.type = .id
    · rw [if_pos hid] at hknown ⊢
      exact Leaf.turns hid ((IdWord.known_cons.mp hknown).1 rfl)
    · rw [if_neg hid]
      have hsame : (l.translated f).body = l.body := if_neg hid
      rw [hsame]
      exact .refl types a _
  | array t size elems, a, _, _ => by
    have hnone : visitedWords (idWords (array t size elems) a) = [] := by
      apply visitedWords_none
      intro w hw
      rw [idWords] at hw
      split at hw
      · exact Leaf.idWords_visited false elems _ w hw
      · cases hw
    rw [hnone]
    exact .refl types a _
  | struct contents, a, hwf, hknown => by
    cases hwf with
    | struct _ hall _ =>
      rw [idWords] at hknown ⊢
      rw [translated, body, body]
      exact turns_contents contents a hall hknown
  | object objectId type contents, a, hwf, hknown => by
    cases hwf with
    | object _ _ _ hall _ =>
      rw [idWords] at hknown ⊢
      obtain ⟨htype, hcontents⟩ := IdWord.known_cons.mp hknown
      rw [translated, body, body, List.append_assoc, List.append_assoc]
      apply PinosMap.Turns.after
      rw [length_toLE]
      have hword := PinosMap.Turns.word (a := a + 4) (htype rfl)
      have hrest := turns_contents contents (a + 8) hall hcontents
      exact hword.append hrest
  | prop key flags value alternatives, a, hwf, hknown => by
    cases hwf with
    | prop _ _ _ _ hvalue _ halts _ =>
      rw [idWords] at hknown ⊢
      rw [translated]
      by_cases hid : value.type = .id
      · rw [if_pos hid] at hknown ⊢
        rw [if_pos hid]
        obtain ⟨hkey, hwords⟩ := IdWord.known_cons.mp hknown
        obtain ⟨hvalueKnown, haltsKnown⟩ := IdWord.known_append.mp hwords
        have hword := PinosMap.Turns.word (a := a) (hkey rfl)
        have hone := turns value (a + 16) hvalue hvalueKnown
        have hall := Leaf.turns_all alternatives (a + 16 + value.body.length)
          (fun l hl => (halts l hl).1.symm.trans hid) haltsKnown
        have hvisited : visitedWords (Leaf.idWords true alternatives (a + 16 + value.body.length)) =
            (Leaf.idWords true alternatives (a + 16 + value.body.length)).map IdWord.address :=
          visitedWords_all (Leaf.idWords_visited true _ _)
        rw [visitedWords_key, visitedWords_append, hvisited, body, body, type_translated,
          List.append_assoc, List.append_assoc, List.append_assoc, List.append_assoc]
        refine hword.append (.after ?_)
        rw [length_toLE, length_toLE]
        refine (PinosMap.Turns.header ?_).append ?_
        · exact hone
        · rw [length_withHeader, ← Nat.add_assoc]
          exact hall
      · rw [if_neg hid] at hknown ⊢
        rw [if_neg hid]
        obtain ⟨hkey, -⟩ := IdWord.known_cons.mp hknown
        have hnone : visitedWords ((idWords value (a + 16)).map IdWord.skip) = [] := by
          apply visitedWords_none
          intro w hw
          obtain ⟨v, -, rfl⟩ := List.mem_map.mp hw
          rfl
        rw [visitedWords_key, hnone, List.append_nil, body, body, List.append_assoc,
          List.append_assoc, List.append_assoc, List.append_assoc]
        exact (PinosMap.Turns.word (hkey rfl)).before _

theorem turns_contents : ∀ (ps : List Pod) (a : Nat), (∀ p ∈ ps, WellFormed p) →
    IdWord.Known types f (contentsWords ps a) →
    PinosMap.Turns types (visitedWords (contentsWords ps a)) a (contentsBytes ps)
      (contentsBytes (translatedContents f ps))
  | [], a, _, _ => .refl types a _
  | p :: rest, a, hwf, hknown => by
    rw [contentsWords] at hknown ⊢
    obtain ⟨hfirst, hothers⟩ := IdWord.known_append.mp hknown
    have hp := turns p (a + 8) (hwf p List.mem_cons_self) hfirst
    have hrest := turns_contents rest _ (fun q hq => hwf q (List.mem_cons_of_mem p hq)) hothers
    rw [visitedWords_append, translatedContents, contentsBytes, contentsBytes, type_translated]
    refine hp.header.aligned.append ?_
    rw [length_aligned, length_withHeader, ← roundUpN_eight]
    exact hrest
end

end Pod
end Pinos

import Pinos.Client.MapIds
import Pinos.Client.Remap
import Mathlib.Data.List.Pairwise

/-
Translating the ids of a well-formed value.

`idWords` lists every place in the bytes of a value where a type id stands,
whether or not `pinos_pod_remap_data` looks there.
-/

namespace Pinos

open ByteMem

/-- A type id of a value: where it stands, what it is, and whether it is among those
that `pinos_pod_remap_data` visits. -/
structure IdWord where
  address : Nat
  id : UInt32
  visited : Bool
  deriving DecidableEq

namespace IdWord

def skip (w : IdWord) : IdWord := { w with visited := false }

def Apart (v w : IdWord) : Prop := v.address + 4 ≤ w.address ∨ w.address + 4 ≤ v.address

instance : Std.Symm Apart := ⟨fun _ _ => Or.symm⟩

/-- The ids stand where the list says, one behind the other from `lo` to `hi`. -/
structure Spells (m : Mem) (lo hi : Nat) (ws : List IdWord) : Prop where
  inside : ∀ w ∈ ws, lo ≤ w.address ∧ w.address + 4 ≤ hi
  apart : ws.Pairwise Apart
  holds : ∀ w ∈ ws, m.u32 w.address = w.id.toNat

variable {m : Mem} {lo mid hi : Nat} {ws ws' : List IdWord}

theorem Spells.nil (m : Mem) (lo hi : Nat) : Spells m lo hi [] :=
  ⟨by simp, List.Pairwise.nil, by simp⟩

theorem Spells.single (hi : Nat) {w : IdWord} (hlo : lo ≤ w.address) (hhi : w.address + 4 ≤ hi)
    (h : m.u32 w.address = w.id.toNat) : Spells m lo hi [w] := by
  refine ⟨?_, List.pairwise_singleton _ w, ?_⟩
  · intro v hv
    rw [List.mem_singleton.mp hv]
    exact ⟨hlo, hhi⟩
  · intro v hv
    rw [List.mem_singleton.mp hv]
    exact h

theorem Spells.append (h : Spells m lo mid ws) (h' : Spells m mid hi ws') (hlo : lo ≤ mid)
    (hhi : mid ≤ hi) : Spells m lo hi (ws ++ ws') := by
  refine ⟨?_, ?_, ?_⟩
  · intro w hw
    rcases List.mem_append.mp hw with hw | hw
    · have := h.inside w hw
      omega
    · have := h'.inside w hw
      omega
  · apply List.pairwise_append.mpr ⟨h.apart, h'.apart, ?_⟩
    intro v hv w hw
    have hv' := h.inside v hv
    have hw' := h'.inside w hw
    exact Or.inl (by omega)
  · intro w hw
    rcases List.mem_append.mp hw with hw | hw
    · exact h.holds w hw
    · exact h'.holds w hw

theorem Spells.mono {lo' hi' : Nat} (h : Spells m lo hi ws) (hlo : lo' ≤ lo) (hhi : hi ≤ hi') :
    Spells m lo' hi' ws := by
  refine ⟨?_, h.apart, h.holds⟩
  intro w hw
  have := h.inside w hw
  omega

theorem Spells.skip (h : Spells m lo hi ws) : Spells m lo hi (ws.map IdWord.skip) := by
  refine ⟨?_, ?_, ?_⟩
  · intro w hw
    obtain ⟨v, hv, rfl⟩ := List.mem_map.mp hw
    exact h.inside v hv
  · exact List.pairwise_map.mpr h.apart
  · intro w hw
    obtain ⟨v, hv, rfl⟩ := List.mem_map.mp hw
    exact h.holds v hv

end IdWord

/-! ## The ids of a value -/

namespace Leaf

/-- The ids of leaves that follow each other without headers. -/
def idWords (visited : Bool) : List Leaf → Nat → List IdWord
  | [], _ => []
  | l :: rest, a =>
      ⟨a, .ofNat (ofLE l.body), visited⟩ :: idWords visited rest (a + l.body.length)

end Leaf

namespace Pod

mutual
/-- The type ids in a value whose body stands at address `a`. -/
def idWords : Pod → Nat → List IdWord
  | leaf l, a => if l.type = .id then Leaf.idWords true [l] a else []
  | array t _ elems, a => if t = .id then Leaf.idWords false elems (a + 8) else []
  | struct contents, a => contentsWords contents a
  | object _ type contents, a => ⟨a + 4, type, true⟩ :: contentsWords contents (a + 8)
  | prop key _ value alternatives, a =>
      if value.type = .id then
        ⟨a, key, true⟩ ::
          (idWords value (a + 16) ++ Leaf.idWords true alternatives (a + 16 + value.body.length))
      else ⟨a, key, true⟩ :: (idWords value (a + 16)).map IdWord.skip

def contentsWords : List Pod → Nat → List IdWord
  | [], _ => []
  | p :: rest, a => idWords p (a + 8) ++ contentsWords rest (a + roundUpN (8 + p.body.length) 8)
end

end Pod

/-- The same id further up. -/
def IdWord.shift (d : Nat) (w : IdWord) : IdWord := { w with address := w.address + d }

theorem Leaf.idWords_shift (visited : Bool) (d : Nat) : ∀ (ls : List Leaf) (a : Nat),
    idWords visited ls (a + d) = (idWords visited ls a).map (IdWord.shift d)
  | [], a => rfl
  | l :: rest, a => by
    have hnext : a + d + l.body.length = a + l.body.length + d := by omega
    rw [idWords, idWords, hnext, idWords_shift visited d rest, List.map_cons]
    rfl

namespace Pod

mutual
/-- A value that stands elsewhere has the same ids. -/
theorem idWords_shift (d : Nat) : ∀ (p : Pod) (a : Nat),
    idWords p (a + d) = (idWords p a).map (IdWord.shift d)
  | leaf l, a => by
    rw [idWords, idWords]
    by_cases hl : l.type = .id
    · rw [if_pos hl, if_pos hl, Leaf.idWords_shift]
    · rw [if_neg hl, if_neg hl, List.map_nil]
  | array t _ elems, a => by
    rw [idWords, idWords]
    by_cases ht : t = .id
    · rw [if_pos ht, if_pos ht, Nat.add_right_comm, Leaf.idWords_shift]
    · rw [if_neg ht, if_neg ht, List.map_nil]
  | struct contents, a => by
    rw [idWords, idWords, contentsWords_shift]
  | object _ type contents, a => by
    rw [idWords, idWords, Nat.add_right_comm a d 8, contentsWords_shift, List.map_cons,
      Nat.add_right_comm a d 4]
    rfl
  | prop key _ value alternatives, a => by
    have hvalue : a + d + 16 = a + 16 + d := by omega
    have halternatives : a + d + 16 + value.body.length = a + 16 + value.body.length + d := by omega
    rw [idWords, idWords, halternatives, hvalue, idWords_shift d value, Leaf.idWords_shift]
    by_cases hid : value.type = .id
    · rw [if_pos hid, if_pos hid, List.map_cons, List.map_append]
      rfl
    · rw [if_neg hid, if_neg hid, List.map_cons, List.map_map, List.map_map]
      rfl

theorem contentsWords_shift (d : Nat) : ∀ (ps : List Pod) (a : Nat),
    contentsWords ps (a + d) = (contentsWords ps a).map (IdWord.shift d)
  | [], a => by rw [contentsWords, contentsWords, List.map_nil]
  | p :: rest, a => by
    rw [contentsWords, contentsWords, Nat.add_right_comm a d 8, Nat.add_right_comm a d,
      idWords_shift d p, contentsWords_shift d rest, List.map_append]
end

end Pod
/-! ## They stand there -/

namespace Leaf

variable {m : Mem}

theorem idWords_spells (visited : Bool) : ∀ (ls : List Leaf) (a : Nat),
    (∀ l ∈ ls, l.body.length = 4) → m.Holds a (ls.flatMap Leaf.body) →
    IdWord.Spells m a (a + (ls.flatMap Leaf.body).length) (idWords visited ls a)
  | [], a, _, _ => .nil m a _
  | l :: rest, a, hlen, h => by
      have hl := hlen l List.mem_cons_self
      rw [List.flatMap_cons] at h ⊢
      rw [idWords, List.length_append]
      have hword : m.u32 a = (UInt32.ofNat (ofLE l.body)).toNat := by
        have hread : m.read a l.body.length = l.body := h.left
        have hlt := ofLE_lt l.body
        rw [hl] at hread hlt
        rw [Mem.u32, hread, UInt32.toNat_ofNat']
        exact (Nat.mod_eq_of_lt hlt).symm
      have hrest := idWords_spells visited rest (a + l.body.length)
        (fun k hk => hlen k (List.mem_cons_of_mem l hk)) h.right
      rw [Nat.add_assoc] at hrest
      exact (IdWord.Spells.single (a + l.body.length) (Nat.le_refl a) (by simp [hl]) hword
        ).append hrest (Nat.le_add_right _ _) (by omega)

/-- Their addresses are one body apart. -/
theorem idWords_addresses (visited : Bool) (n : Nat) : ∀ (ls : List Leaf) (a : Nat),
    (∀ l ∈ ls, l.body.length = n) →
    (idWords visited ls a).map IdWord.address = PinosMap.strided a n ls.length
  | [], _, _ => rfl
  | l :: rest, a, hlen => by
      have hl := hlen l List.mem_cons_self
      have hrest := idWords_addresses visited n rest (a + n)
        fun k hk => hlen k (List.mem_cons_of_mem l hk)
      rw [idWords, List.map_cons, hl, hrest, List.length_cons, PinosMap.strided]

theorem length_bodies {n : Nat} : ∀ {ls : List Leaf}, (∀ l ∈ ls, l.body.length = n) →
    (ls.flatMap Leaf.body).length = ls.length * n
  | [], _ => by simp
  | l :: rest, hlen => by
      have hrest := length_bodies fun k hk => hlen k (List.mem_cons_of_mem l hk)
      rw [List.flatMap_cons, List.length_append, hlen l List.mem_cons_self, hrest,
        List.length_cons, Nat.succ_mul, Nat.add_comm]

theorem idWords_visited (visited : Bool) (ls : List Leaf) (a : Nat) :
    ∀ w ∈ idWords visited ls a, w.visited = visited := by
  induction ls generalizing a with
  | nil => simp [idWords]
  | cons l rest ih =>
    intro w hw
    rcases List.mem_cons.mp hw with rfl | hw
    · rfl
    · exact ih _ w hw

end Leaf

namespace Pod

variable {m : Mem}

theorem length_id {l : Leaf} (h : l.type = .id) : l.body.length = 4 :=
  l.sized 4 (by rw [h]; rfl)

theorem length_body_prop (key flags : UInt32) (value : Pod) (alternatives : List Leaf) :
    (body (prop key flags value alternatives)).length =
      16 + value.body.length + (alternatives.flatMap Leaf.body).length := by
  rw [body]
  simp only [List.length_append, length_toLE, length_withHeader]
  omega

/-- Where the parts of a property stand. -/
theorem holds_prop {key flags : UInt32} {value : Pod} {alternatives : List Leaf} {a : Nat}
    (h : m.Holds a (body (prop key flags value alternatives)))
    (hlen : value.body.length < 2 ^ 32) :
    m.u32 a = key.toNat ∧
      (m.u32 (a + 8) = value.body.length ∧ m.u32 (a + 12) = value.type.code) ∧
      m.Holds (a + 16) value.body ∧
      m.Holds (a + 16 + value.body.length) (alternatives.flatMap Leaf.body) := by
  rw [body] at h
  have hkey := h.left.left.left.u32
  have hvalue := h.left.right
  have halts := h.right
  simp only [List.length_append, length_toLE, length_withHeader] at hvalue halts
  obtain ⟨hsize, htype, hbody⟩ := holds_withHeader hvalue hlen
  rw [Nat.mod_eq_of_lt key.toNat_lt] at hkey
  have haddr : a + (4 + 4 + (8 + value.body.length)) = a + 16 + value.body.length := by omega
  rw [haddr] at halts
  exact ⟨hkey, ⟨hsize, htype⟩, hbody, halts⟩

theorem length_cons_contents (p : Pod) (rest : List Pod) :
    (contentsBytes (p :: rest)).length =
      roundUpN (8 + p.body.length) 8 + (contentsBytes rest).length := by
  rw [contentsBytes_cons, List.length_append, length_aligned, length_encode, roundUpN_eight]

/-- Where the parts of a container's contents stand. -/
theorem holds_cons_contents {p : Pod} {rest : List Pod} {a : Nat}
    (h : m.Holds a (contentsBytes (p :: rest))) (hlen : p.body.length < 2 ^ 32) :
    (podBodySize m a = p.body.length ∧ podType m a = p.type.code) ∧
      m.Holds (a + 8) p.body ∧
      m.Holds (a + roundUpN (8 + p.body.length) 8) (contentsBytes rest) := by
  rw [contentsBytes_cons] at h
  have hrest := h.right
  rw [length_aligned, length_encode, ← roundUpN_eight] at hrest
  have hp := h.left
  rw [aligned, encode] at hp
  obtain ⟨hsize, htype, hbody⟩ := holds_withHeader hp.left hlen
  exact ⟨⟨hsize, htype⟩, hbody, hrest⟩

theorem alternatives_length {value : Pod} {alternatives : List Leaf} (ht : value.type = .id)
    (halts : ∀ l ∈ alternatives, value.type = l.type ∧ l.body.length = value.body.length) :
    ∀ l ∈ alternatives, l.body.length = 4 := by
  intro l hl
  exact length_id ((halts l hl).1.symm.trans ht)

mutual
theorem idWords_spells : ∀ (p : Pod) (a : Nat), WellFormed p → m.Holds a p.body →
    IdWord.Spells m a (a + p.body.length) (p.idWords a)
  | leaf l, a, _, h => by
      rw [idWords]
      split
      · next ht =>
        have hall := Leaf.idWords_spells (m := m) true [l] a (by simp [length_id ht]) (by simpa [body] using h)
        simpa [body] using hall
      · exact .nil m a _
  | array t size elems, a, hwf, h => by
      cases hwf with
      | array _ _ _ helems _ =>
        rw [idWords]
        split
        · next ht =>
          rw [body] at h ⊢
          have hlen : ∀ l ∈ elems, l.body.length = 4 := by
            intro l hl
            exact length_id ((helems l hl).1.trans ht)
          have hall := Leaf.idWords_spells (m := m) false elems (a + 8) hlen (by simpa using h.right)
          rw [List.length_append, SpaPOD.length_bytes, ← Nat.add_assoc]
          exact hall.mono (Nat.le_add_right _ _) (Nat.le_refl _)
        · exact .nil m a _
  | struct contents, a, hwf, h => by
      cases hwf with
      | struct _ hall _ =>
        rw [idWords]
        rw [body] at h ⊢
        exact contentsWords_spells contents a hall h
  | object objectId type contents, a, hwf, h => by
      cases hwf with
      | object _ _ _ hall _ =>
        rw [body, List.append_assoc] at h
        have htype := h.right.left.u32
        have hcontents := h.right.right
        simp only [length_toLE, Nat.add_assoc] at htype hcontents
        rw [Nat.mod_eq_of_lt type.toNat_lt] at htype
        rw [idWords, body, List.length_append, List.length_append, length_toLE, length_toLE]
        have hrest := contentsWords_spells contents (a + 8) hall hcontents
        rw [Nat.add_assoc] at hrest
        exact (IdWord.Spells.single (a + 8) (by simp) (by simp) htype).append hrest (by omega) (by omega)
  | prop key flags value alternatives, a, hwf, h => by
      cases hwf with
      | prop _ _ _ _ hvalue _ halts _ =>
        obtain ⟨hkey, -, hbody, hrest⟩ := holds_prop h hvalue.length_body
        have hspells := idWords_spells value (a + 16) hvalue hbody
        rw [idWords, length_body_prop]
        split
        · next ht =>
          have hall := hspells.append
            (Leaf.idWords_spells true alternatives _ (alternatives_length ht halts) hrest)
            (Nat.le_add_right _ _) (Nat.le_add_right _ _)
          refine (IdWord.Spells.single (a + 16) (Nat.le_refl a) (by simp) hkey).append
            (hall.mono (Nat.le_refl _) ?_) (Nat.le_add_right _ _) (by omega)
          omega
        · refine (IdWord.Spells.single (a + 16) (Nat.le_refl a) (by simp) hkey).append
            (hspells.skip.mono (Nat.le_refl _) ?_) (Nat.le_add_right _ _) (by omega)
          omega

theorem contentsWords_spells : ∀ (ps : List Pod) (a : Nat), (∀ p ∈ ps, WellFormed p) →
    m.Holds a (contentsBytes ps) →
    IdWord.Spells m a (a + (contentsBytes ps).length) (contentsWords ps a)
  | [], a, _, _ => .nil m a _
  | p :: rest, a, hwf, h => by
      have hp := hwf p List.mem_cons_self
      obtain ⟨-, hbody, hrest⟩ := holds_cons_contents h hp.length_body
      have hfirst := idWords_spells p (a + 8) hp hbody
      have hothers := contentsWords_spells rest _ (fun q hq => hwf q (List.mem_cons_of_mem p hq))
        hrest
      rw [contentsWords, length_cons_contents, ← Nat.add_assoc]
      refine (hfirst.mono (Nat.le_add_right _ _) ?_).append hothers (Nat.le_add_right _ _)
        (Nat.le_add_right _ _)
      rw [roundUpN_eight]
      omega
end

/-! ## What is visited of them -/

/-- The addresses of the ids that `pinos_pod_remap_data` translates. -/
def visitedWords (ws : List IdWord) : List Nat := (ws.filter IdWord.visited).map IdWord.address

theorem visitedWords_append (ws ws' : List IdWord) :
    visitedWords (ws ++ ws') = visitedWords ws ++ visitedWords ws' := by
  rw [visitedWords, List.filter_append, List.map_append]
  rfl

theorem visitedWords_none {ws : List IdWord} (h : ∀ w ∈ ws, w.visited = false) :
    visitedWords ws = [] := by
  have hnil : ws.filter IdWord.visited = [] := by
    apply List.filter_eq_nil_iff.mpr
    intro w hw
    rw [h w hw]
    decide
  rw [visitedWords, hnil, List.map_nil]

theorem visitedWords_all {ws : List IdWord} (h : ∀ w ∈ ws, w.visited = true) :
    visitedWords ws = ws.map IdWord.address := by
  rw [visitedWords, List.filter_eq_self.mpr h]

variable {types : PinosMap}

theorem nested_other {t : SpaPODType} {a size : Nat} (hid : t ≠ .id) (hprop : t ≠ .prop)
    (hobject : t ≠ .object) (hstruct : t ≠ .struct) :
    PinosMap.Nested types m t.code a size [] :=
  .other (fun h => hid (SpaPODType.code_inj h)) (fun h => hprop (SpaPODType.code_inj h))
    (fun h => hobject (SpaPODType.code_inj h)) (fun h => hstruct (SpaPODType.code_inj h))

theorem leaf_type_ne (l : Leaf) {t : SpaPODType} (h : t.isLeaf = false) : l.type ≠ t := by
  intro heq
  have := l.isLeaf
  rw [heq, h] at this
  cases this

/-- The ids of a property with an id for its value: the key, the value and the
alternatives, which are 4 bytes each. -/
theorem visitedWords_prop (key flags : UInt32) {value : Pod} {alternatives : List Leaf}
    (a : Nat) (ht : value.type = .id)
    (halts : ∀ l ∈ alternatives, value.type = l.type ∧ l.body.length = value.body.length) :
    value.body.length = 4 ∧
    (body (prop key flags value alternatives)).length = 20 + 4 * alternatives.length ∧
      visitedWords (idWords (prop key flags value alternatives) a) =
        a :: PinosMap.strided (a + 16) 4 (alternatives.length + 1) := by
  have hfour := alternatives_length ht halts
  cases value with
  | leaf l =>
    have hlen : l.body.length = 4 := length_id ht
    refine ⟨hlen, ?_, ?_⟩
    · rw [length_body_prop, Leaf.length_bodies hfour, body, hlen]
      omega
    · have hl : idWords (leaf l) (a + 16) = Leaf.idWords true [l] (a + 16) := by
        rw [idWords]
        exact if_pos ht
      rw [idWords, if_pos ht, hl]
      have hall : ∀ w ∈ (⟨a, key, true⟩ : IdWord) :: (Leaf.idWords true [l] (a + 16) ++
          Leaf.idWords true alternatives (a + 16 + (leaf l).body.length)), w.visited = true := by
        intro w hw
        rcases List.mem_cons.mp hw with rfl | hw
        · rfl
        rcases List.mem_append.mp hw with hw | hw
        · exact Leaf.idWords_visited true _ _ w hw
        · exact Leaf.idWords_visited true _ _ w hw
      rw [visitedWords_all hall, List.map_cons, List.map_append,
        Leaf.idWords_addresses true 4 alternatives _ hfour, body, hlen]
      rfl
  | array _ _ _ => cases ht
  | struct _ => cases ht
  | object _ _ _ => cases ht
  | prop _ _ _ _ => cases ht

mutual
theorem idWords_nested : ∀ (p : Pod) (a : Nat), WellFormed p → m.Holds a p.body →
    PinosMap.Nested types m p.type.code a p.body.length (visitedWords (p.idWords a))
  | leaf l, a, _, _ => by
      rw [idWords, body]
      split
      · next ht =>
        rw [visitedWords_all (Leaf.idWords_visited true [l] a)]
        have hid : SpaPODType.code (leaf l).type = SpaPODType.id.code := congrArg _ ht
        rw [hid, length_id ht]
        exact .id (Nat.le_refl 4)
      · next ht =>
        exact nested_other ht (leaf_type_ne l rfl) (leaf_type_ne l rfl) (leaf_type_ne l rfl)
  | array t size elems, a, _, _ => by
      have hnone : visitedWords (idWords (array t size elems) a) = [] := by
        apply visitedWords_none
        intro w hw
        rw [idWords] at hw
        split at hw
        · exact Leaf.idWords_visited false elems _ w hw
        · cases hw
      rw [hnone]
      apply nested_other <;> simp [type]
  | struct contents, a, hwf, h => by
      cases hwf with
      | struct _ hall _ =>
        rw [body] at h
        rw [idWords, body]
        exact .struct (contentsWords_nested contents a hall h)
  | object objectId type contents, a, hwf, h => by
      cases hwf with
      | object _ _ _ hall _ =>
        rw [body] at h
        have hcontents := h.right
        have hfields : (toLE 4 objectId.toNat ++ toLE 4 type.toNat).length = 8 := by
          rw [List.length_append, length_toLE, length_toLE]
        rw [hfields] at hcontents
        rw [idWords, body, List.length_append, hfields]
        have hpods := contentsWords_nested contents (a + 8) hall hcontents
        rw [Nat.add_assoc] at hpods
        exact .object (Nat.le_add_right _ _) hpods
  | prop key flags value alternatives, a, hwf, h => by
      cases hwf with
      | prop _ _ _ _ hvalue _ halts _ =>
        obtain ⟨-, ⟨hsize, htype⟩, -, -⟩ := holds_prop h hvalue.length_body
        by_cases ht : value.type = .id
        · obtain ⟨hfour, hlen, hwords⟩ := visitedWords_prop key flags a ht halts
          rw [hwords, hlen]
          have hdiv : (20 + 4 * alternatives.length - 16) / 4 = alternatives.length + 1 := by
            omega
          have hvalue : m.u32 (a + 8) = 4 := hsize.trans hfour
          rw [← hdiv, ← hvalue]
          exact .alternatives (htype.trans (congrArg _ ht)) (by omega) (by omega)
        · have hwords : visitedWords (idWords (prop key flags value alternatives) a) = [a] := by
            rw [idWords, if_neg ht]
            have hnone : visitedWords ((idWords value (a + 16)).map IdWord.skip) = [] := by
              apply visitedWords_none
              intro w hw
              obtain ⟨v, -, rfl⟩ := List.mem_map.mp hw
              rfl
            show visitedWords ([⟨a, key, true⟩] ++ _) = _
            rw [visitedWords_append, hnone]
            rfl
          rw [hwords]
          refine .prop ?_ ?_
          · rw [length_body_prop]
            omega
          · rw [htype]
            exact fun heq => ht (SpaPODType.code_inj heq)

theorem contentsWords_nested : ∀ (ps : List Pod) (a : Nat), (∀ p ∈ ps, WellFormed p) →
    m.Holds a (contentsBytes ps) →
    PinosMap.NestedPods types m a (a + (contentsBytes ps).length)
      (visitedWords (contentsWords ps a))
  | [], a, _, _ => .done (by simp [contentsBytes])
  | p :: rest, a, hwf, h => by
      have hp := hwf p List.mem_cons_self
      obtain ⟨⟨hsize, htype⟩, hbody, hrest⟩ := holds_cons_contents h hp.length_body
      have hfirst := idWords_nested p (a + 8) hp hbody
      have hothers := contentsWords_nested rest _ (fun q hq => hwf q (List.mem_cons_of_mem p hq))
        hrest
      have hpod : podSize m a = 8 + p.body.length := by rw [podSize, hsize, sizeofSpaPOD]
      rw [contentsWords, visitedWords_append, length_cons_contents, ← Nat.add_assoc]
      refine .next ?_ ?_ ?_
      · rw [hpod, roundUpN_eight]
        omega
      · rw [htype, hsize]
        exact hfirst
      · rw [hpod]
        exact hothers
end

end Pod

/-! ## Translating words that do not overlap -/

namespace PinosMap

variable {types : PinosMap} {m : Mem}

theorem remapIds_ok {ws : List Nat}
    (h : ws.Pairwise fun a b => a + 4 ≤ b ∨ b + 4 ≤ a) :
    (types.remapIds ws m).1 = true ↔ ∀ a ∈ ws, types.lookup (m.u32 a) ≠ 0 := by
  induction ws generalizing m with
  | nil => simp [remapIds]
  | cons a rest ih =>
    obtain ⟨ha, hrest⟩ := List.pairwise_cons.mp h
    rw [remapIds]
    by_cases hz : types.lookup (m.u32 a) = 0
    · simp [hz]
    · rw [if_neg hz, ih hrest, List.forall_mem_cons]
      have hframe : ∀ b ∈ rest, (m.write a (toLE 4 (ptrToId (types.lookup (m.u32 a))).toNat)).u32 b
          = m.u32 b := by
        intro b hb
        apply Mem.u32_write_outside
        rw [length_toLE]
        exact (ha b hb).symm
      constructor
      · intro hall
        refine ⟨hz, ?_⟩
        intro b hb
        rw [← hframe b hb]
        exact hall b hb
      · rintro ⟨-, hall⟩ b hb
        rw [hframe b hb]
        exact hall b hb

/-- Each word ends up as the image of what it was. -/
theorem remapIds_image {ws : List Nat}
    (h : ws.Pairwise fun a b => a + 4 ≤ b ∨ b + 4 ≤ a) (hok : (types.remapIds ws m).1 = true) :
    ∀ a ∈ ws, (types.remapIds ws m).2.u32 a = (ptrToId (types.lookup (m.u32 a))).toNat := by
  induction ws generalizing m with
  | nil => simp
  | cons a rest ih =>
    obtain ⟨ha, hrest⟩ := List.pairwise_cons.mp h
    rw [remapIds] at hok ⊢
    by_cases hz : types.lookup (m.u32 a) = 0
    · rw [if_pos hz] at hok
      cases hok
    · rw [if_neg hz] at hok ⊢
      intro b hb
      rcases List.mem_cons.mp hb with rfl | hb
      · rw [remapIds_u32 (fun c hc => ha c hc)]
        have := (Mem.holds_write m b (toLE 4 (ptrToId (types.lookup (m.u32 b))).toNat)).u32
        rwa [Nat.mod_eq_of_lt (UInt32.toNat_lt _)] at this
      · rw [ih hrest hok b hb]
        rw [Mem.u32_write_outside]
        rw [length_toLE]
        exact (ha b hb).symm

end PinosMap

/-! ## The whole value -/

/-- What a translation of the ids `ws` of a value should have done. -/
structure Translated (types : PinosMap) (m : Mem) (ws : List IdWord) (r : Bool × Mem) : Prop where
  ok : r.1 = true ↔ ∀ w ∈ ws, types.lookup w.id.toNat ≠ 0
  images : r.1 = true → ∀ w ∈ ws,
    r.2.u32 w.address = (PinosMap.ptrToId (types.lookup w.id.toNat)).toNat
  others : ∀ i, (∀ w ∈ ws, i < w.address ∨ w.address + 4 ≤ i) → r.2 i = m i

namespace IdWord

variable {types : PinosMap} {m : Mem} {lo hi : Nat} {ws : List IdWord}

theorem mem_visitedWords {a : Nat} :
    a ∈ Pod.visitedWords ws ↔ ∃ w ∈ ws, w.visited = true ∧ w.address = a := by
  simp [Pod.visitedWords, and_assoc]

theorem Spells.visited_apart (h : Spells m lo hi ws) :
    (Pod.visitedWords ws).Pairwise fun a b => a + 4 ≤ b ∨ b + 4 ≤ a :=
  List.pairwise_map.mpr (h.apart.filter IdWord.visited)

theorem Spells.ok_iff (h : Spells m lo hi ws) :
    (types.remapIds (Pod.visitedWords ws) m).1 = true ↔
      ∀ w ∈ ws, w.visited = true → types.lookup w.id.toNat ≠ 0 := by
  rw [PinosMap.remapIds_ok h.visited_apart]
  constructor
  · intro hall w hw hv
    rw [← h.holds w hw]
    exact hall w.address (mem_visitedWords.mpr ⟨w, hw, hv, rfl⟩)
  · intro hall a ha
    obtain ⟨w, hw, hv, rfl⟩ := mem_visitedWords.mp ha
    rw [h.holds w hw]
    exact hall w hw hv

/-- The word of an id that is not visited keeps it. -/
theorem Spells.skipped (h : Spells m lo hi ws) {w : IdWord} (hw : w ∈ ws)
    (hv : w.visited = false) :
    (types.remapIds (Pod.visitedWords ws) m).2.u32 w.address = w.id.toNat := by
  rw [PinosMap.remapIds_u32, h.holds w hw]
  intro a ha
  obtain ⟨v, hv', hvis, rfl⟩ := mem_visitedWords.mp ha
  have hne : w ≠ v := by
    intro heq
    rw [heq, hvis] at hv
    cases hv
  exact h.apart.forall hw hv' hne

/-- A translation is what it should be when some visited id is missing, and is then
refused, or when the ids that are not visited are their own images. -/
theorem Spells.translated_iff (h : Spells m lo hi ws) :
    Translated types m ws (types.remapIds (Pod.visitedWords ws) m) ↔
      (∃ w ∈ ws, w.visited = true ∧ types.lookup w.id.toNat = 0) ∨
        ∀ w ∈ ws, w.visited = false → types.image w.id.toNat = some w.id := by
  have hok : (types.remapIds (Pod.visitedWords ws) m).1 = true ↔ _ := h.ok_iff
  constructor
  · intro ht
    by_cases hmissing : ∃ w ∈ ws, w.visited = true ∧ types.lookup w.id.toNat = 0
    · exact Or.inl hmissing
    · right
      intro w hw hv
      have htrue : (types.remapIds (Pod.visitedWords ws) m).1 = true := by
        apply hok.mpr
        intro v hv hvis hz
        exact hmissing ⟨v, hv, hvis, hz⟩
      have himage := ht.images htrue w hw
      rw [h.skipped hw hv] at himage
      rw [PinosMap.image, if_neg (ht.ok.mp htrue w hw), UInt32.toNat_inj.mp himage.symm]
  · intro hcond
    have others : ∀ i, (∀ w ∈ ws, i < w.address ∨ w.address + 4 ≤ i) →
        (types.remapIds (Pod.visitedWords ws) m).2 i = m i := by
      intro i hi
      apply PinosMap.remapIds_outside
      intro a ha
      obtain ⟨w, hw, -, rfl⟩ := mem_visitedWords.mp ha
      exact hi w hw
    by_cases htrue : (types.remapIds (Pod.visitedWords ws) m).1 = true
    · have hseen := hok.mp htrue
      have hskip : ∀ w ∈ ws, w.visited = false → types.image w.id.toNat = some w.id := by
        rcases hcond with ⟨w, hw, hv, hz⟩ | hskip
        · exact absurd hz (hseen w hw hv)
        · exact hskip
      have hknown : ∀ w ∈ ws, w.visited = false → types.lookup w.id.toNat ≠ 0 ∧
          PinosMap.ptrToId (types.lookup w.id.toNat) = w.id := by
        intro w hw hv
        have := hskip w hw hv
        rw [PinosMap.image] at this
        split at this
        · cases this
        · next hz => exact ⟨hz, Option.some.inj this⟩
      refine ⟨?_, ?_, others⟩
      · refine ⟨?_, fun _ => htrue⟩
        intro _ w hw
        cases hv : w.visited with
        | true => exact hseen w hw hv
        | false => exact (hknown w hw hv).1
      · intro _ w hw
        cases hv : w.visited with
        | true =>
          have := PinosMap.remapIds_image h.visited_apart htrue w.address
            (mem_visitedWords.mpr ⟨w, hw, hv, rfl⟩)
          rwa [h.holds w hw] at this
        | false => rw [h.skipped hw hv, (hknown w hw hv).2]
    · refine ⟨?_, fun hyes => absurd hyes htrue, others⟩
      refine ⟨fun hyes => absurd hyes htrue, ?_⟩
      intro hall
      exact hok.mpr fun w hw _ => hall w hw

end IdWord

namespace Pod

/-- `pinos_pod_remap` of a well-formed value translates the ids it visits. -/
theorem remap_run (p : Pod) (types : PinosMap) (m : Mem) (a : Nat)
    (hwf : p.WellFormed) (h : m.Holds a p.body) :
    ∃ fuel s, types.remapData fuel p.type.code a p.body.length ⟨m, []⟩ =
        some ((types.remapIds (visitedWords (p.idWords a)) m).1, s) ∧
      s.mem = (types.remapIds (visitedWords (p.idWords a)) m).2 := by
  have hnested : PinosMap.Nested types m _ _ _ _ := idWords_nested p a hwf h
  obtain ⟨fuel, hrun⟩ := hnested.run hwf.length_body
  obtain ⟨accesses, -, hr⟩ := hrun ⟨m, []⟩ fun _ _ _ => rfl
  exact ⟨fuel, _, hr, rfl⟩

/-- `pinos_pod_remap` of a well-formed value returns, and what it has done is the
translation of all its ids exactly when one it visits is missing or those it does
not visit, in arrays and in the values of properties, are their own images. -/
theorem remap_translated_iff (p : Pod) (types : PinosMap) (m : Mem) (a : Nat)
    (hwf : p.WellFormed) (h : m.Holds a p.body) :
    ∃ fuel ok s, types.remapData fuel p.type.code a p.body.length ⟨m, []⟩ = some (ok, s) ∧
      (Translated types m (p.idWords a) (ok, s.mem) ↔
        (∃ w ∈ p.idWords a, w.visited = true ∧ types.lookup w.id.toNat = 0) ∨
          ∀ w ∈ p.idWords a, w.visited = false → types.image w.id.toNat = some w.id) := by
  obtain ⟨fuel, s, hr, hmem⟩ := remap_run p types m a hwf h
  refine ⟨fuel, _, s, hr, ?_⟩
  rw [hmem]
  exact (idWords_spells p a hwf h).translated_iff

theorem mem_idWords_shift {p : Pod} {a : Nat} {w : IdWord} :
    w ∈ p.idWords a ↔ ∃ v ∈ p.idWords 0, v.shift a = w := by
  have hshift := idWords_shift a p 0
  rw [Nat.zero_add] at hshift
  rw [hshift, List.mem_map]

/-- A value whose ids are all in the table comes out with their targets exactly when
those that are visited can be kept in the table and the others are their own targets. -/
theorem remap_words_iff {p : Pod} {types : PinosMap} {target : UInt32 → UInt32} {m : Mem} {a : Nat}
    (hwf : p.WellFormed) (h : m.Holds a p.body)
    (hlookup : ∀ w ∈ p.idWords 0, types.lookup w.id.toNat = PinosMap.idToPtr (target w.id)) :
    (∃ fuel s, types.remapData fuel p.type.code a p.body.length ⟨m, []⟩ = some (true, s) ∧
        ∀ w ∈ p.idWords a, s.mem.u32 w.address = (target w.id).toNat) ↔
      ∀ w ∈ p.idWords 0,
        if w.visited then 0 < (target w.id).toNat ∧ (target w.id).toNat < 2 ^ 31
        else target w.id = w.id := by
  have hspells := idWords_spells p a hwf h
  obtain ⟨fuel, s, hrun, hmem⟩ := remap_run p types m a hwf h
  have hat : ∀ w ∈ p.idWords a, types.lookup w.id.toNat = PinosMap.idToPtr (target w.id) := by
    intro w hw
    obtain ⟨v, hv, rfl⟩ := mem_idWords_shift.mp hw
    exact hlookup v hv
  have hword : ∀ w ∈ p.idWords a, w.visited = true →
      (types.remapIds (visitedWords (p.idWords a)) m).1 = true →
      s.mem.u32 w.address = (PinosMap.ptrToId (PinosMap.idToPtr (target w.id))).toNat := by
    intro w hw hv hok
    have himage := PinosMap.remapIds_image hspells.visited_apart hok w.address
      (IdWord.mem_visitedWords.mpr ⟨w, hw, hv, rfl⟩)
    rwa [hspells.holds w hw, hat w hw, ← hmem] at himage
  have hskipped : ∀ w ∈ p.idWords a, w.visited = false → s.mem.u32 w.address = w.id.toNat := by
    intro w hw hv
    rw [hmem]
    exact hspells.skipped hw hv
  constructor
  · rintro ⟨fuel', s', hrun', hwords⟩ v hv
    have hsame := PinosMap.remapData_unique hrun' hrun
    obtain ⟨hok, rfl⟩ := Prod.mk.inj hsame
    have hw : v.shift a ∈ p.idWords a := mem_idWords_shift.mpr ⟨v, hv, rfl⟩
    have hwanted : s'.mem.u32 (v.shift a).address = (target v.id).toNat := hwords _ hw
    by_cases hvisited : v.visited = true
    · have hkept := hword _ hw hvisited hok.symm
      have hfound := hspells.ok_iff.mp hok.symm _ hw hvisited
      rw [hat _ hw] at hfound
      rw [hkept] at hwanted
      rw [if_pos hvisited]
      exact (PinosMap.idToPtr_kept_iff _).mp ⟨hfound, UInt32.toNat_inj.mp hwanted⟩
    · rw [hskipped _ hw (Bool.eq_false_of_not_eq_true hvisited)] at hwanted
      rw [if_neg hvisited]
      exact (UInt32.toNat_inj.mp hwanted).symm
  · intro hsafe
    have hkept : ∀ w ∈ p.idWords a, w.visited = true →
        PinosMap.idToPtr (target w.id) ≠ 0 ∧
          PinosMap.ptrToId (PinosMap.idToPtr (target w.id)) = target w.id := by
      intro w hw hv
      obtain ⟨v, hv', rfl⟩ := mem_idWords_shift.mp hw
      have hone := hsafe v hv'
      have hvisited : v.visited = true := hv
      rw [if_pos hvisited] at hone
      exact (PinosMap.idToPtr_kept_iff _).mpr hone
    have hok : (types.remapIds (visitedWords (p.idWords a)) m).1 = true := by
      apply hspells.ok_iff.mpr
      intro w hw hv
      rw [hat w hw]
      exact (hkept w hw hv).1
    rw [hok] at hrun
    refine ⟨fuel, s, hrun, ?_⟩
    intro w hw
    cases hv : w.visited with
    | true => rw [hword w hw hv hok, (hkept w hw hv).2]
    | false =>
      obtain ⟨v, hv', rfl⟩ := mem_idWords_shift.mp hw
      have hone := hsafe v hv'
      have hvisited : ¬ v.visited = true := Bool.not_eq_true _ ▸ hv
      rw [if_neg hvisited] at hone
      rw [hskipped _ hw hv]
      exact congrArg UInt32.toNat hone.symm

def idLeaf (id : Nat) : Leaf where
  type := .id
  body := toLE 4 id
  isLeaf := rfl
  sized n hn := by
    cases hn
    exact length_toLE 4 id

/-- An array of the single id 0. -/
def idArray : Pod := array .id 4 [idLeaf 0]

theorem idArray_wellFormed : idArray.WellFormed := by
  refine .array .id 4 _ ?_ (by decide)
  intro e he
  rw [List.mem_singleton.mp he]
  exact ⟨rfl, rfl⟩

theorem remap_translated_iff_idArray :
    ∃ fuel ok s,
      PinosMap.remapData ⟨[PinosMap.idToPtr 5], 0⟩ fuel idArray.type.code 4096
        idArray.body.length ⟨Mem.write (fun _ => 0) 4096 idArray.body, []⟩ = some (ok, s) ∧
      (Translated ⟨[PinosMap.idToPtr 5], 0⟩ (Mem.write (fun _ => 0) 4096 idArray.body)
          (idArray.idWords 4096) (ok, s.mem) ↔
        (∃ w ∈ idArray.idWords 4096, w.visited = true ∧
          PinosMap.lookup ⟨[PinosMap.idToPtr 5], 0⟩ w.id.toNat = 0) ∨
        ∀ w ∈ idArray.idWords 4096, w.visited = false →
          PinosMap.image ⟨[PinosMap.idToPtr 5], 0⟩ w.id.toNat = some w.id) :=
  remap_translated_iff idArray _ _ 4096 idArray_wellFormed (Mem.holds_write _ _ _)

/-- The id in an array stays what it is although it has an image. -/
theorem not_translated :
    ¬ ∀ (p : Pod) (types : PinosMap) (m : Mem) (a : Nat), p.WellFormed → m.Holds a p.body →
      ∃ fuel ok s, types.remapData fuel p.type.code a p.body.length ⟨m, []⟩ = some (ok, s) ∧
        Translated types m (p.idWords a) (ok, s.mem) := by
  intro h
  let types : PinosMap := ⟨[PinosMap.idToPtr 5], 0⟩
  let m : Mem := Mem.write (fun _ => 0) 4096 idArray.body
  obtain ⟨fuel, ok, s, hrun, ht⟩ :=
    h idArray types m 4096 idArray_wellFormed (Mem.holds_write _ _ _)
  have hone : types.remapData 1 idArray.type.code 4096 idArray.body.length ⟨m, []⟩ =
      some (true, ⟨m, []⟩) := rfl
  obtain ⟨rfl, rfl⟩ := Prod.mk.inj (PinosMap.remapData_unique hrun hone)
  have := ht.images rfl ⟨4104, 0, false⟩ (by decide)
  exact absurd this (by decide)

end Pod
end Pinos

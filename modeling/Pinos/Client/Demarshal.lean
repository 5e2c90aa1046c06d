import Pinos.Client.RemapTree
import Pinos.Spa.PodStruct

/-
What the demarshal functions of `client/protocol-native.c` and
`server/protocol-native.c` have in common: they open the message, translate its type
ids when there are any and get the values.

With a type map that maps every id in the message to itself the translation changes
nothing, and a demarshal function does what its `Get` makes of the values.
-/

namespace Pinos

open ByteMem

/-- A demarshal function: whether it calls `pinos_pod_remap_data`, and what it gets. -/
structure Demarshal (α : Type) where
  remap : Bool
  get : Get α

/-- No result means that `pinos_pod_remap_data` did not return within the given number
of steps, and the result `none` stands for `return false;`. -/
def Demarshal.run {α : Type} (d : Demarshal α) (types : PinosMap) (fuel : Nat) (m : Mem)
    (data size : Nat) : Option (Option α) :=
  match SpaPODIter.struct m data size with
  | none => some none
  | some it =>
    if d.remap then
      match types.remapData fuel SpaPODType.struct.code data size ⟨m, []⟩ with
      | none => none
      | some (false, _) => some none
      | some (true, s) => some (d.get.run s.mem it)
    else some (d.get.run m it)

/-- The ids in a value are mapped to themselves. -/
def PodCall.KeptBy (types : PinosMap) : PodCall → Prop
  | .id val => types.image val.toNat = some val
  | .pod (some blob) => ∃ p : Pod, p.WellFormed ∧ p.type = blob.type ∧ p.body = blob.body ∧
      ∀ a, ∀ w ∈ p.idWords a, types.image w.id.toNat = some w.id
  | _ => True

namespace PinosMap

variable {types : PinosMap} {m : Mem}

/-- The id at `a` is mapped to itself. -/
def Own (types : PinosMap) (m : Mem) (a : Nat) : Prop :=
  types.image (m.u32 a) = some (.ofNat (m.u32 a))

theorem remapIds_own {ws : List Nat} (h : ∀ a ∈ ws, types.Own m a) :
    types.remapIds ws m = (true, m) := by
  induction ws with
  | nil => rfl
  | cons a rest ih =>
    have ha := h a List.mem_cons_self
    rw [Own, image] at ha
    split at ha
    · cases ha
    · next hz =>
      have himage : (ptrToId (types.lookup (m.u32 a))).toNat = m.u32 a := by
        rw [Option.some.inj ha, UInt32.toNat_ofNat', Nat.mod_eq_of_lt (m.u32_lt a)]
      rw [remapIds, if_neg hz, himage, (Mem.holds_u32 m a).write_eq]
      exact ih fun b hb => h b (List.mem_cons_of_mem a hb)

theorem own_of_u32 {a : Nat} {id : UInt32} (hid : m.u32 a = id.toNat)
    (himage : types.image id.toNat = some id) : types.Own m a := by
  rw [Own, hid, himage, UInt32.ofNat_toNat]

end PinosMap

namespace Writes

open PinosMap

variable {types : PinosMap} {m : Mem} {calls : List PodCall} {bs : List UInt8}

/-- The ids of one value. -/
theorem field_nested {c : PodCall} {type : SpaPODType} {body : List UInt8} {a : Nat}
    (hfield : c.field = some (type, body)) (hkept : c.KeptBy types) (hm : m.Holds a body) :
    ∃ ws, Nested types m type.code a body.length ws ∧ ∀ w ∈ ws, types.Own m w := by
  have hnone : ∀ w ∈ ([] : List Nat), types.Own m w := by simp
  cases c with
  | id val =>
    cases hfield
    have hval := hm.u32
    rw [Nat.mod_eq_of_lt val.toNat_lt] at hval
    refine ⟨[a], .id (by rw [length_toLE]), ?_⟩
    intro w hw
    rw [List.mem_singleton.mp hw]
    exact own_of_u32 hval hkept
  | pod pod =>
    cases pod with
    | none =>
      cases hfield
      exact ⟨[], Pod.nested_other (by decide) (by decide) (by decide) (by decide), hnone⟩
    | some blob =>
      obtain ⟨ht, rfl, rfl⟩ := Get.field_blob hfield
      obtain ⟨p, hwf, htype, hbody, hids⟩ := hkept
      rw [← hbody] at hm ⊢
      have hnested : Nested types m _ _ _ _ := Pod.idWords_nested p a hwf hm
      rw [htype, ht] at hnested
      refine ⟨_, hnested, ?_⟩
      intro w hw
      obtain ⟨word, hmem, -, rfl⟩ := IdWord.mem_visitedWords.mp hw
      exact own_of_u32 ((Pod.idWords_spells p a hwf hm).holds word hmem) (hids a word hmem)
  | int val | long val | string str | bytes data =>
    cases hfield
    exact ⟨[], Pod.nested_other (by decide) (by decide) (by decide) (by decide), hnone⟩
  | _ => cases hfield

/-- The ids of all of them. -/
theorem nested (h : Writes calls bs) (hkept : ∀ c ∈ calls, c.KeptBy types) {a : Nat}
    (hm : m.Holds a bs) (hlt : bs.length < 2 ^ 32) :
    ∃ ws, NestedPods types m a (a + bs.length) ws ∧ ∀ w ∈ ws, types.Own m w := by
  induction h generalizing a with
  | nil => exact ⟨[], .done (Nat.le_refl _), by simp⟩
  | @value c calls type body bs hfield _ ih =>
    rw [List.length_append] at hlt ⊢
    have hlen : (fieldBytes type body).length = roundUpN (8 + body.length) 8 := by
      rw [fieldBytes, Pod.length_aligned, Pod.length_withHeader, roundUpN_eight]
    have hround := roundUpN_eight (8 + body.length)
    obtain ⟨hsize, htype, hbody⟩ := SpaPODIter.holds_aligned hm.left (by rw [← fieldBytes]; omega)
    have hpod : podSize m a = 8 + body.length := by rw [podSize, hsize, sizeofSpaPOD]
    obtain ⟨ws, hone, hown⟩ := field_nested hfield (hkept c List.mem_cons_self) hbody
    obtain ⟨ws', hrest, hown'⟩ := ih (fun d hd => hkept d (List.mem_cons_of_mem c hd)) hm.right
      (by omega)
    refine ⟨ws ++ ws', .next ?_ ?_ ?_, ?_⟩
    · rw [hpod]
      omega
    · rw [htype, hsize]
      exact hone
    · rw [hpod, ← hlen, ← Nat.add_assoc]
      exact hrest
    · intro w hw
      exact (List.mem_append.mp hw).elim (hown w) (hown' w)
  | @struct inner calls vs bs hinner _ ih ih' =>
    rw [List.length_append, Pod.length_withHeader] at hlt ⊢
    have hmod := hinner.length_mod
    obtain ⟨hsize, htype, hbody⟩ := Pod.holds_withHeader hm.left (by omega)
    have hpod : podSize m a = 8 + vs.length := by rw [podSize, hsize, sizeofSpaPOD]
    have hrest := hm.right
    rw [Pod.length_withHeader] at hrest
    obtain ⟨ws, hone, hown⟩ := ih
      (fun d hd => hkept d (List.mem_cons_of_mem _ (List.mem_append_left _ hd))) hbody (by omega)
    obtain ⟨ws', hrest, hown'⟩ := ih'
      (fun d hd => hkept d (List.mem_cons_of_mem _ (List.mem_append_right _
        (List.mem_cons_of_mem _ hd)))) hrest (by omega)
    refine ⟨ws ++ ws', .next ?_ ?_ ?_, ?_⟩
    · rw [hpod]
      omega
    · rw [htype, hsize]
      exact .struct hone
    · rw [Nat.add_assoc] at hrest
      rw [hpod, roundUpN_eight, padLength_of_mod (by omega), Nat.add_zero]
      exact hrest
    · intro w hw
      exact (List.mem_append.mp hw).elim (hown w) (hown' w)

end Writes

/-- The bytes of a message, a struct of `values`.  When its first value is the end of the
argument list the struct is not popped, and stays as it was pushed. -/
inductive Payload : List PodCall → List PodCall → List UInt8 → Prop
  | closed {values : List PodCall} {vs : List UInt8} : Writes values vs →
      Payload (.pushStruct :: (values ++ [.pop])) values vs
  | unclosed : Payload [.pushStruct] [] []

namespace Payload

open SpaPODBuilder

variable {calls values : List PodCall} {vs : List UInt8}

theorem writes (h : Payload calls values vs) : Writes values vs := by
  cases h with
  | closed hvalues => exact hvalues
  | unclosed => exact .nil

theorem length_eq (h : Payload calls values vs) :
    8 + vs.length = (calls.map PodCall.size).sum := by
  cases h with
  | closed hvalues =>
    have hpush : PodCall.pushStruct.size = 8 := rfl
    have hpop : PodCall.pop.size = 0 := rfl
    rw [hvalues.length_eq, List.map_cons, List.sum_cons, List.map_append, List.sum_append, hpush]
    simp [hpop]
  | unclosed => rfl

/-- What the calls have written when they began at an empty builder. -/
theorem holds {σ : Type} [PodStore σ] [LawfulPodStore σ] (h : Payload calls values vs)
    (store : σ) (size : Nat) (hroom : (SpaPODBuilder.init store size).Room (8 + vs.length)) :
    let b := calls.foldl add (SpaPODBuilder.init store size)
    (PodStore.view b.data).Holds 0 (Pod.withHeader .struct vs) ∧ b.offset = 8 + vs.length := by
  cases h with
  | closed hvalues =>
    have happends := (Writes.struct hvalues .nil).appends (b := .init store size)
      ⟨rfl, rfl, rfl⟩ (by rw [List.append_nil, Pod.length_withHeader]; exact hroom)
    rw [List.append_nil] at happends
    refine ⟨?_, ?_⟩
    · rw [happends.view]
      exact Mem.holds_write _ _ _
    · rw [happends.offset, Pod.length_withHeader]
      exact Nat.zero_add _
  | unclosed =>
    have hheader : ({ SpaPODBuilder.init store size with first := false }).Room
        (Pod.withHeader .struct []).length := ⟨hroom.lt, hroom.accepts⟩
    have hraw := (raw_appends hheader).1
    refine ⟨?_, hraw.offset⟩
    show (PodStore.view (({ SpaPODBuilder.init store size with first := false }).raw
      (Pod.withHeader .struct [])).1.data).Holds 0 _
    rw [hraw.view]
    exact Mem.holds_write _ _ _

end Payload

namespace Demarshal

variable {α : Type} {d : Demarshal α} {types : PinosMap} {m : Mem} {data size : Nat}
  {values stop : List PodCall} {vs : List UInt8}

theorem struct_holds (hdata : data ≠ 0) (hm : m.Holds data (Pod.withHeader .struct vs))
    (hlt : 8 + vs.length < 2 ^ 32) :
    SpaPODIter.struct m data size =
      if size < 8 + vs.length then none else some (.contents (data + 8) vs.length) := by
  obtain ⟨hsize, htype, -⟩ := Pod.holds_withHeader hm (by omega)
  have hpod : podSize m data = 8 + vs.length := by rw [podSize, hsize, sizeofSpaPOD]
  rw [SpaPODIter.struct, hpod, SpaPODIter.structContents_eq, hsize]
  by_cases hshort : size < 8 + vs.length
  · rw [if_pos hshort, if_pos (Or.inr (Or.inr (Or.inl hshort)))]
  · rw [if_neg hshort, if_neg]
    rintro (h | h | h | h)
    · exact hdata h
    · omega
    · exact hshort h
    · exact h htype

/-- A message that was cut off is not accepted. -/
theorem run_short (hdata : data ≠ 0) (hm : m.Holds data (Pod.withHeader .struct vs))
    (hlt : 8 + vs.length < 2 ^ 32) (hshort : size < 8 + vs.length) (fuel : Nat) :
    d.run types fuel m data size = some none := by
  rw [run, struct_holds hdata hm hlt, if_pos hshort]

/-- A whole message is what is read of its values. -/
theorem run_whole (h : Writes values vs) (hstop : ∀ c ∈ stop.head?, c = .pop)
    (hdata : data ≠ 0) (hm : m.Holds data (Pod.withHeader .struct vs))
    (hlt : 8 + vs.length < 2 ^ 32) (hkept : ∀ c ∈ values, c.KeptBy types) :
    ∃ fuel, d.run types fuel m data (8 + vs.length) =
      some ((d.get.read (values ++ stop)).map Prod.fst) := by
  have hbody := (Pod.holds_withHeader hm (by omega)).2.2
  have hread : d.get.run m (.contents (data + 8) vs.length) =
      (d.get.read (values ++ stop)).map Prod.fst := by
    apply Get.run_eq_read
    have hlast : (SpaPODIter.contents (data + 8) vs.length).size + 8 < 2 ^ 32 := by
      show vs.length + 8 < _
      omega
    exact h.at_holds hbody (Nat.zero_add _).symm hlast hstop
  obtain ⟨ws, hnested, hown⟩ : ∃ ws, PinosMap.NestedPods types m data _ ws ∧ _ :=
    (Writes.struct h .nil).nested (by
      intro c hc
      rcases List.mem_cons.mp hc with rfl | hc
      · trivial
      · rcases List.mem_append.mp hc with hc | hc
        · exact hkept c hc
        · rw [List.mem_singleton.mp hc]
          trivial)
    (by rw [List.append_nil]; exact hm)
    (by rw [List.append_nil, Pod.length_withHeader]; exact hlt)
  rw [List.append_nil, Pod.length_withHeader] at hnested
  obtain ⟨fuel, hrun⟩ := (PinosMap.Nested.struct hnested).run hlt
  obtain ⟨accesses, -, hr⟩ := hrun ⟨m, []⟩ fun _ _ _ => rfl
  rw [PinosMap.remapIds_own hown] at hr
  refine ⟨fuel, ?_⟩
  rw [run, struct_holds hdata hm hlt, if_neg (Nat.lt_irrefl _)]
  simp only [hr, hread, ite_self]

theorem run_unique {fuel fuel' : Nat} {r r' : Option α}
    (h : d.run types fuel m data size = some r) (h' : d.run types fuel' m data size = some r') :
    r = r' := by
  rw [run] at h h'
  cases hstruct : SpaPODIter.struct m data size with
  | none =>
    rw [hstruct] at h h'
    cases h
    cases h'
    rfl
  | some it =>
    rw [hstruct] at h h'
    simp only at h h'
    split at h
    · next hremap =>
      rw [if_pos hremap] at h'
      cases hone : types.remapData fuel SpaPODType.struct.code data size ⟨m, []⟩ with
      | none =>
        rw [hone] at h
        cases h
      | some x =>
        cases htwo : types.remapData fuel' SpaPODType.struct.code data size ⟨m, []⟩ with
        | none =>
          rw [htwo] at h'
          cases h'
        | some y =>
          rw [PinosMap.remapData_unique htwo hone] at htwo
          rw [hone] at h
          rw [htwo] at h'
          exact Option.some.inj (h.symm.trans h')
    · next hremap =>
      rw [if_neg hremap] at h'
      exact Option.some.inj (h.symm.trans h')

end Demarshal
end Pinos

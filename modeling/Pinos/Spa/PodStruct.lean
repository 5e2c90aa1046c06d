import Pinos.Spa.PodGet
import Pinos.Spa.RoundTrip

/-
Structs of values written with `spa_pod_builder_add` and read with
`spa_pod_iter_get`.

`Writes` gives the bytes of a list of calls in which every struct that is pushed is
popped.  Over it, writing is `appends` and reading is `at_holds`.
-/

namespace Pinos

open ByteMem

/-- The bytes of a value and of the padding behind it. -/
def fieldBytes (type : SpaPODType) (body : List UInt8) : List UInt8 :=
  Pod.aligned (Pod.withHeader type body)

/-- How many bytes a call adds: values, and the header of a struct. -/
def PodCall.size (c : PodCall) : Nat :=
  match c.field, c with
  | some (type, body), _ => (fieldBytes type body).length
  | none, .pushStruct => 8
  | none, _ => 0

def PodCall.isField (c : PodCall) : Bool := c.field.isSome

/-- What calls add outside of arrays. -/
inductive Writes : List PodCall → List UInt8 → Prop
  | nil : Writes [] []
  | value {c : PodCall} {calls : List PodCall} {type : SpaPODType} {body bs : List UInt8} :
      c.field = some (type, body) → Writes calls bs →
      Writes (c :: calls) (fieldBytes type body ++ bs)
  | struct {inner calls : List PodCall} {vs bs : List UInt8} : Writes inner vs →
      Writes calls bs →
      Writes (.pushStruct :: (inner ++ .pop :: calls)) (Pod.withHeader .struct vs ++ bs)

namespace Writes

variable {calls calls' : List PodCall} {bs bs' : List UInt8}

theorem append (h : Writes calls bs) (h' : Writes calls' bs') :
    Writes (calls ++ calls') (bs ++ bs') := by
  induction h with
  | nil => exact h'
  | value hfield _ ih =>
    rw [List.cons_append, List.append_assoc]
    exact .value hfield ih
  | struct hinner _ _ ih =>
    rw [List.cons_append, List.append_assoc, List.append_assoc, List.cons_append]
    exact .struct hinner ih

/-- Values follow each other. -/
theorem of_fields (h : ∀ c ∈ calls, c.isField = true) : ∃ bs, Writes calls bs := by
  induction calls with
  | nil => exact ⟨[], .nil⟩
  | cons c calls ih =>
    obtain ⟨bs, hbs⟩ := ih fun d hd => h d (List.mem_cons_of_mem c hd)
    obtain ⟨⟨type, body⟩, hfield⟩ := Option.isSome_iff_exists.mp (h c List.mem_cons_self)
    exact ⟨_, .value hfield hbs⟩

theorem length_mod (h : Writes calls bs) : bs.length % 8 = 0 := by
  induction h with
  | nil => rfl
  | @value _ _ type body _ _ _ ih =>
    have hmod := Pod.length_aligned_mod (Pod.withHeader type body)
    rw [List.length_append, fieldBytes]
    omega
  | struct _ _ ih ih' =>
    rw [List.length_append, Pod.length_withHeader]
    omega

theorem length_eq (h : Writes calls bs) : bs.length = (calls.map PodCall.size).sum := by
  induction h with
  | nil => rfl
  | @value c _ type body _ hfield _ ih =>
    have hsize : c.size = (fieldBytes type body).length := by
      rw [PodCall.size]
      simp only [hfield]
    rw [List.length_append, ih, List.map_cons, List.sum_cons, hsize]
  | struct _ _ ih ih' =>
    have hpush : PodCall.pushStruct.size = 8 := rfl
    have hpop : PodCall.pop.size = 0 := rfl
    rw [List.length_append, Pod.length_withHeader, ih, ih', List.map_cons, List.sum_cons,
      List.map_append, List.sum_append, List.map_cons, List.sum_cons, hpush, hpop]
    omega

/-! ## Writing -/

open SpaPODBuilder

variable {σ : Type} [PodStore σ] [LawfulPodStore σ] {b : SpaPODBuilder σ}

theorem value_appends (hin : b.inArray = false) {c : PodCall} {type : SpaPODType}
    {body head : List UInt8} (hc : Entry.of c = .primitive head none (some body))
    (hhead : head = SpaPOD.bytes ⟨.ofNat body.length, type⟩)
    (hroom : b.Room (fieldBytes type body).length) :
    Appends b (b.add c) (fieldBytes type body) := by
  subst hhead
  rw [fieldBytes, aligned_withHeader, Pod.aligned] at hroom ⊢
  rw [List.length_append, List.length_append] at hroom
  rw [SpaPODBuilder.add, hc]
  exact addEntry_appends hin hroom

theorem field_appends (hin : b.inArray = false) {c : PodCall} {type : SpaPODType}
    {body : List UInt8} (hfield : c.field = some (type, body))
    (hroom : b.Room (fieldBytes type body).length) :
    Appends b (b.add c) (fieldBytes type body) := by
  cases c with
  | int val =>
    cases hfield
    exact value_appends hin rfl (by rw [length_toLE]; rfl) hroom
  | id val =>
    cases hfield
    exact value_appends hin rfl (by rw [length_toLE]; rfl) hroom
  | long val =>
    cases hfield
    exact value_appends hin rfl (by rw [length_toLE]; rfl) hroom
  | string str =>
    cases hfield
    exact value_appends hin rfl rfl hroom
  | bytes data =>
    cases hfield
    exact value_appends hin rfl rfl hroom
  | pod pod =>
    cases pod with
    | none =>
      cases hfield
      exact addEntry_extra_appends hin hroom
    | some blob =>
      obtain ⟨ht, rfl, rfl⟩ := Get.field_blob hfield
      have hbytes : blob.bytes = Pod.withHeader .object blob.body := by rw [PodBlob.bytes, ht]
      rw [fieldBytes, ← hbytes] at hroom ⊢
      exact addEntry_extra_appends hin hroom
  | _ => cases hfield

/-- What the calls add to a builder that stands outside arrays. -/
theorem appends (h : Writes calls bs) (hb : Value.Ready b) (hroom : b.Room bs.length) :
    Appends b (calls.foldl add b) bs := by
  induction h generalizing b with
  | nil => exact Appends.refl b
  | @value c calls type body bs hfield _ ih =>
    rw [List.length_append] at hroom
    have hone := field_appends hb.inArray hfield (hroom.mono (Nat.le_add_right _ _))
    exact hone.trans (ih (hb.after hone (Pod.length_aligned_mod _)) (hroom.after hone))
  | @struct inner calls vs bs hinner _ ih ih' =>
    rw [List.length_append] at hroom
    let b₀ : SpaPODBuilder σ := { b with first := false }
    have hb₀ : Value.Ready b₀ := ⟨hb.aligned, hb.inArray, hb.stack⟩
    have hpush : b.add .pushStruct = (b₀.pushContainer ⟨0, .struct⟩ []).1 :=
      addEntry_container (lead_of_inArray hb.inArray) _ _
    have hvs : Pod.withHeader .struct vs = Pod.withHeader .struct ([] ++ vs) := rfl
    have hstruct : Appends b ((inner.foldl add (b.add .pushStruct)).add .pop)
        (Pod.withHeader .struct vs) := by
      rw [hpush, hvs]
      refine Appends.setFirst false (Value.build_container .struct [] rfl hb₀ ?_ rfl
        hinner.length_mod fun hready hroom' => ih hready hroom')
      have := hroom.mono (Nat.le_add_right _ _)
      rw [Pod.length_withHeader] at this
      exact ⟨this.lt, this.accepts⟩
    have hmod : (Pod.withHeader .struct vs).length % 8 = 0 := by
      have := hinner.length_mod
      rw [Pod.length_withHeader]
      omega
    have hrest := ih' (hb.after hstruct hmod) (hroom.after hstruct)
    rw [List.foldl_cons, List.foldl_append, List.foldl_cons]
    exact hstruct.trans hrest

/-! ## Reading -/

/-- An iterator that stands before the bytes and ends behind them. -/
theorem at_holds {m : Mem} (h : Writes calls bs) {it : SpaPODIter} {stop : List PodCall}
    (hm : m.Holds (it.data + it.offset) bs) (hsize : it.size = it.offset + bs.length)
    (hlt : it.size + 8 < 2 ^ 32) (hstop : ∀ c ∈ stop.head?, c = .pop) :
    Get.At m it (calls ++ stop) := by
  induction h generalizing it stop with
  | nil => exact .stop hsize.symm hlt hstop
  | value hfield _ ih =>
    rw [List.length_append] at hsize
    refine .value hfield hm.left (by rw [← fieldBytes]; omega) hlt ?_
    refine ih ?_ ?_ hlt hstop
    · have := hm.right
      rwa [Nat.add_assoc] at this
    · show it.size = it.offset + _ + _
      rw [← fieldBytes]
      omega
  | @struct inner calls vs bs hinner _ ih ih' =>
    have hmod := hinner.length_mod
    have halign : Pod.aligned (Pod.withHeader .struct vs) = Pod.withHeader .struct vs := by
      apply Pod.aligned_of_mod
      rw [Pod.length_withHeader]
      omega
    rw [List.length_append] at hsize
    have hlen := Pod.length_withHeader .struct vs
    have hbody := (Pod.holds_withHeader hm.left (by omega)).2.2
    rw [List.cons_append, List.append_assoc, List.cons_append]
    have hself : m.Holds (it.data + it.offset) (Pod.aligned (Pod.withHeader .struct vs)) := by
      rw [halign]
      exact hm.left
    refine .struct hself (by rw [halign]; omega) hlt ?_
    refine ih ?_ (Nat.zero_add _).symm ?_ ?_
    · exact hbody
    · show vs.length + 8 < _
      omega
    · intro c hc
      cases hc
      rfl

end Writes
end Pinos

import Pinos.Client.Map
import Pinos.Spa.Pod

/-
`client/type.c`: translating the type ids of a received value in place.

`remapData` works on memory and trusts every size it finds there, so it records
the bytes it touches.
-/

namespace Pinos

open ByteMem

structure Access where
  address : Nat
  size : Nat
  deriving DecidableEq, Repr

def Access.Within (lo hi : Nat) (x : Access) : Prop :=
  lo ≤ x.address ∧ x.address + x.size ≤ hi

/-- The memory and, newest first, what has been read and written of it. -/
structure RemapState where
  mem : Mem
  accesses : List Access

namespace RemapState

def load (s : RemapState) (a : Nat) : Nat × RemapState :=
  (s.mem.u32 a, { s with accesses := ⟨a, 4⟩ :: s.accesses })

def store (s : RemapState) (a : Nat) (val : UInt32) : RemapState :=
  { mem := s.mem.write a (toLE 4 val.toNat), accesses := ⟨a, 4⟩ :: s.accesses }

@[simp] theorem load_mem (s : RemapState) (a : Nat) : (s.load a).2.mem = s.mem := rfl

end RemapState

namespace PinosMap

/-- Look up the id at `a` and put its image there. -/
def remapId (types : PinosMap) (a : Nat) (s : RemapState) : Bool × RemapState :=
  let (id, s) := s.load a
  let t := types.lookup id
  if t = 0 then (false, s) else (true, s.store a (ptrToId t))

/-- `if (!..) return false;` and what comes after it. -/
def andThen (r : Option (Bool × RemapState))
    (rest : RemapState → Option (Bool × RemapState)) : Option (Bool × RemapState) :=
  match r with
  | none => none
  | some (false, s) => some (false, s)
  | some (true, s) => rest s

mutual
/-- `pinos_pod_remap_data`.  `none` means that it did not return within the given
number of steps. -/
def remapData (types : PinosMap) :
    Nat → Nat → Nat → Nat → RemapState → Option (Bool × RemapState)
  | 0, _, _, _, _ => none
  | fuel + 1, type, body, size, s =>
    if type = SpaPODType.id.code then some (types.remapId body s)
    else if type = SpaPODType.prop.code then
      andThen (some (types.remapId body s)) fun s =>
        let (valueType, s) := s.load (body + 12)
        if valueType = SpaPODType.id.code then
          let (valueSize, s) := s.load (body + 8)
          andThen (remapData types fuel valueType (body + 16) valueSize s) fun s =>
            let (valueSize, s) := s.load (body + 8)
            remapAlternatives types fuel body size (body + (valueSize + 16)) s
        else some (true, s)
    else if type = SpaPODType.object.code then
      andThen (some (types.remapId (body + 4) s)) fun s =>
        remapPods types fuel (body + 8) (body + size) s
    else if type = SpaPODType.struct.code then remapPods types fuel body (body + size) s
    else some (true, s)
  termination_by structural fuel => fuel

/-- The loop over `SPA_POD_PROP_ALTERNATIVE_FOREACH`. -/
def remapAlternatives (types : PinosMap) :
    Nat → Nat → Nat → Nat → RemapState → Option (Bool × RemapState)
  | 0, _, _, _, _ => none
  | fuel + 1, body, size, iter, s =>
    let (valueSize, s) := s.load (body + 8)
    if iter ≤ body + toU32 (size + 2 ^ 32 - valueSize) then
      let (valueType, s) := s.load (body + 12)
      andThen (remapData types fuel valueType iter valueSize s) fun s =>
        let (step, s) := s.load (body + 8)
        remapAlternatives types fuel body size (iter + step) s
    else some (true, s)
  termination_by structural fuel => fuel

/-- The loops over `SPA_POD_FOREACH` and `SPA_POD_OBJECT_BODY_FOREACH`. -/
def remapPods (types : PinosMap) :
    Nat → Nat → Nat → RemapState → Option (Bool × RemapState)
  | 0, _, _, _ => none
  | fuel + 1, iter, stop, s =>
    if iter < stop then
      let (type, s) := s.load (iter + 4)
      let (size, s) := s.load iter
      andThen (remapData types fuel type (iter + 8) size s) fun s =>
        let (size, s) := s.load iter
        remapPods types fuel (iter + roundUpN (sizeofSpaPOD + size) 8) stop s
    else some (true, s)
  termination_by structural fuel => fuel
end

/-! ## Running it -/

section
variable (types : PinosMap) (fuel body size : Nat) (s : RemapState)

theorem remapData_id :
    types.remapData (fuel + 1) SpaPODType.id.code body size s = some (types.remapId body s) := by
  rw [remapData, if_pos rfl]

theorem remapData_prop :
    types.remapData (fuel + 1) SpaPODType.prop.code body size s =
      andThen (some (types.remapId body s)) fun s =>
        if s.mem.u32 (body + 12) = SpaPODType.id.code then
          andThen (types.remapData fuel (s.mem.u32 (body + 12)) (body + 16)
              (s.mem.u32 (body + 8)) ((s.load (body + 12)).2.load (body + 8)).2) fun s =>
            types.remapAlternatives fuel body size (body + (s.mem.u32 (body + 8) + 16))
              (s.load (body + 8)).2
        else some (true, (s.load (body + 12)).2) := by
  rw [remapData, if_neg (by decide), if_pos rfl]
  rfl

theorem remapData_object :
    types.remapData (fuel + 1) SpaPODType.object.code body size s =
      andThen (some (types.remapId (body + 4) s)) fun s =>
        types.remapPods fuel (body + 8) (body + size) s := by
  rw [remapData, if_neg (by decide), if_neg (by decide), if_pos rfl]

theorem remapData_struct :
    types.remapData (fuel + 1) SpaPODType.struct.code body size s =
      types.remapPods fuel body (body + size) s := by
  rw [remapData, if_neg (by decide), if_neg (by decide), if_neg (by decide), if_pos rfl]

theorem remapData_other {type : Nat} (hi : type ≠ SpaPODType.id.code)
    (hp : type ≠ SpaPODType.prop.code) (ho : type ≠ SpaPODType.object.code)
    (hs : type ≠ SpaPODType.struct.code) :
    types.remapData (fuel + 1) type body size s = some (true, s) := by
  rw [remapData, if_neg hi, if_neg hp, if_neg ho, if_neg hs]

theorem remapAlternatives_succ (iter : Nat) :
    types.remapAlternatives (fuel + 1) body size iter s =
      if iter ≤ body + toU32 (size + 2 ^ 32 - s.mem.u32 (body + 8)) then
        andThen (types.remapData fuel (s.mem.u32 (body + 12)) iter (s.mem.u32 (body + 8))
            ((s.load (body + 8)).2.load (body + 12)).2) fun s =>
          types.remapAlternatives fuel body size (iter + s.mem.u32 (body + 8))
            (s.load (body + 8)).2
      else some (true, (s.load (body + 8)).2) := by
  rw [remapAlternatives]
  rfl

theorem remapPods_succ (iter stop : Nat) :
    types.remapPods (fuel + 1) iter stop s =
      if iter < stop then
        andThen (types.remapData fuel (podType s.mem iter) (iter + 8) (podBodySize s.mem iter)
            ((s.load (iter + 4)).2.load iter).2) fun s =>
          types.remapPods fuel (iter + roundUpN (podSize s.mem iter) 8) stop (s.load iter).2
      else some (true, s) := by
  rw [remapPods]
  rfl

end

theorem andThen_eq_some {r : Option (Bool × RemapState)}
    {rest : RemapState → Option (Bool × RemapState)} {x : Bool × RemapState} :
    andThen r rest = some x ↔
      (∃ s, r = some (false, s) ∧ x = (false, s)) ∨ ∃ s, r = some (true, s) ∧ rest s = some x := by
  rcases r with _ | ⟨ok, s⟩
  · simp [andThen]
  · cases ok <;> simp [andThen, eq_comm]

theorem andThen_mono {r r' : Option (Bool × RemapState)}
    {rest rest' : RemapState → Option (Bool × RemapState)} {x : Bool × RemapState}
    (h : andThen r rest = some x) (hr : ∀ y, r = some y → r' = some y)
    (hrest : ∀ s y, rest s = some y → rest' s = some y) : andThen r' rest' = some x := by
  rw [andThen_eq_some] at h ⊢
  rcases h with ⟨s, hs, hx⟩ | ⟨s, hs, hx⟩
  · exact Or.inl ⟨s, hr _ hs, hx⟩
  · exact Or.inr ⟨s, hr _ hs, hrest s x hx⟩

/-- More steps change nothing. -/
theorem remap_mono (types : PinosMap) (fuel : Nat) :
    (∀ type body size s r, types.remapData fuel type body size s = some r →
      types.remapData (fuel + 1) type body size s = some r) ∧
    (∀ body size iter s r, types.remapAlternatives fuel body size iter s = some r →
      types.remapAlternatives (fuel + 1) body size iter s = some r) ∧
    (∀ iter stop s r, types.remapPods fuel iter stop s = some r →
      types.remapPods (fuel + 1) iter stop s = some r) := by
  induction fuel with
  | zero =>
    refine ⟨?_, ?_, ?_⟩
    · intro type body size s r h
      simp [remapData] at h
    · intro body size iter s r h
      simp [remapAlternatives] at h
    · intro iter stop s r h
      simp [remapPods] at h
  | succ fuel ih =>
    obtain ⟨hdata, halts, hpods⟩ := ih
    refine ⟨?_, ?_, ?_⟩
    · intro type body size s r h
      by_cases hi : type = SpaPODType.id.code
      · subst hi
        rw [remapData_id] at h ⊢
        exact h
      by_cases hp : type = SpaPODType.prop.code
      · subst hp
        rw [remapData_prop] at h ⊢
        refine andThen_mono h (fun _ h => h) ?_
        intro s y hy
        split at hy
        · next hv =>
          rw [if_pos hv]
          exact andThen_mono hy (hdata _ _ _ _) fun s y => halts _ _ _ _ y
        · next hv =>
          rw [if_neg hv]
          exact hy
      by_cases ho : type = SpaPODType.object.code
      · subst ho
        rw [remapData_object] at h ⊢
        exact andThen_mono h (fun _ h => h) fun s y => hpods _ _ _ y
      by_cases hs : type = SpaPODType.struct.code
      · subst hs
        rw [remapData_struct] at h ⊢
        exact hpods _ _ _ r h
      · rw [remapData_other types _ body size s hi hp ho hs] at h ⊢
        exact h
    · intro body size iter s r h
      rw [remapAlternatives_succ] at h ⊢
      split at h
      · next hlimit =>
        rw [if_pos hlimit]
        exact andThen_mono h (hdata _ _ _ _) fun s y => halts _ _ _ _ y
      · next hlimit =>
        rw [if_neg hlimit]
        exact h
    · intro iter stop s r h
      rw [remapPods_succ] at h ⊢
      split at h
      · next hstop =>
        rw [if_pos hstop]
        exact andThen_mono h (hdata _ _ _ _) fun s y => hpods _ _ _ y
      · next hstop =>
        rw [if_neg hstop]
        exact h

theorem remapData_le {types : PinosMap} {fuel fuel' type body size : Nat} {s : RemapState}
    {r : Bool × RemapState} (hle : fuel ≤ fuel')
    (h : types.remapData fuel type body size s = some r) :
    types.remapData fuel' type body size s = some r := by
  induction hle with
  | refl => exact h
  | step _ ih => exact (remap_mono types _).1 _ _ _ _ r ih

theorem remapPods_le {types : PinosMap} {fuel fuel' iter stop : Nat} {s : RemapState}
    {r : Bool × RemapState} (hle : fuel ≤ fuel')
    (h : types.remapPods fuel iter stop s = some r) :
    types.remapPods fuel' iter stop s = some r := by
  induction hle with
  | refl => exact h
  | step _ ih => exact (remap_mono types _).2.2 _ _ _ r ih

end PinosMap
end Pinos

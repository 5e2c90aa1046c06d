import Pinos.Client.Type
import Pinos.Spa.PodIter

/-
Translating the ids of bytes nobody has checked.

`Nested` are the sizes that keep `remapData` inside the bytes it was given.  For
those it does what `remapIds` says, which visits a list of words and knows no
sizes.
-/

namespace Pinos
namespace PinosMap

open ByteMem

/-! ## Lists of words -/

/-- Translate the ids at the given addresses, up to the first that is missing. -/
def remapIds (types : PinosMap) : List Nat → Mem → Bool × Mem
  | [], m => (true, m)
  | a :: rest, m =>
    if types.lookup (m.u32 a) = 0 then (false, m)
    else remapIds types rest (m.write a (toLE 4 (ptrToId (types.lookup (m.u32 a))).toNat))

variable {types : PinosMap} {m m' : Mem} {ws ws' : List Nat}

theorem remapIds_append_true (h : (types.remapIds ws m).1 = true) :
    types.remapIds (ws ++ ws') m = types.remapIds ws' (types.remapIds ws m).2 := by
  induction ws generalizing m with
  | nil => rfl
  | cons a rest ih =>
    rw [List.cons_append, remapIds, remapIds]
    rw [remapIds] at h
    split
    · next hz =>
      rw [if_pos hz] at h
      cases h
    · next hz =>
      rw [if_neg hz] at h
      exact ih h

theorem remapIds_append_false (h : (types.remapIds ws m).1 = false) :
    types.remapIds (ws ++ ws') m = types.remapIds ws m := by
  induction ws generalizing m with
  | nil => cases h
  | cons a rest ih =>
    rw [List.cons_append, remapIds, remapIds]
    rw [remapIds] at h
    split
    · rfl
    · next hz =>
      rw [if_neg hz] at h
      exact ih h

theorem remapIds_outside {i : Nat} (h : ∀ a ∈ ws, i < a ∨ a + 4 ≤ i) :
    (types.remapIds ws m).2 i = m i := by
  induction ws generalizing m with
  | nil => rfl
  | cons a rest ih =>
    rw [remapIds]
    split
    · rfl
    · rw [ih fun b hb => h b (List.mem_cons_of_mem a hb)]
      apply Mem.write_outside
      rw [length_toLE]
      exact h a List.mem_cons_self

theorem remapIds_u32 {b : Nat} (h : ∀ a ∈ ws, b + 4 ≤ a ∨ a + 4 ≤ b) :
    (types.remapIds ws m).2.u32 b = m.u32 b := by
  apply Mem.u32_congr
  intro i hlo hhi
  apply remapIds_outside
  intro a ha
  have := h a ha
  omega

theorem remapIds_congr (h : ∀ a ∈ ws, ∀ i, a ≤ i → i < a + 4 → m i = m' i) :
    (types.remapIds ws m).1 = (types.remapIds ws m').1 := by
  induction ws generalizing m m' with
  | nil => rfl
  | cons a rest ih =>
    have ha : m.u32 a = m'.u32 a := Mem.u32_congr (h a List.mem_cons_self)
    rw [remapIds, remapIds, ha]
    split
    · rfl
    · apply ih
      intro b hb i hlo hhi
      have hi := h b (List.mem_cons_of_mem a hb) i hlo hhi
      by_cases hin : a ≤ i ∧ i < a + 4
      · obtain ⟨j, rfl⟩ := Nat.exists_eq_add_of_le hin.1
        rw [Mem.write_inside _ _ (by rw [length_toLE]; omega),
          Mem.write_inside _ _ (by rw [length_toLE]; omega)]
      · rw [Mem.write_outside _ (by rw [length_toLE]; omega),
          Mem.write_outside _ (by rw [length_toLE]; omega), hi]

/-- A run that translates the ids at `ws` and touches nothing outside `lo` to `hi`. -/
def Visits (types : PinosMap) (ws : List Nat) (lo hi : Nat) (s : RemapState)
    (r : Option (Bool × RemapState)) : Prop :=
  ∃ accesses : List Access, (∀ x ∈ accesses, x.Within lo hi) ∧
    r = some ((types.remapIds ws s.mem).1,
      ⟨(types.remapIds ws s.mem).2, accesses ++ s.accesses⟩)

variable {lo hi a : Nat} {s : RemapState} {r : Option (Bool × RemapState)}
  {rest : RemapState → Option (Bool × RemapState)}

theorem Visits.nil (s : RemapState) (lo hi : Nat) : Visits types [] lo hi s (some (true, s)) :=
  ⟨[], by simp, rfl⟩

theorem Visits.load (ha : lo ≤ a) (hhi : a + 4 ≤ hi) (h : Visits types ws lo hi (s.load a).2 r) :
    Visits types ws lo hi s r := by
  obtain ⟨accesses, hin, hr⟩ := h
  refine ⟨accesses ++ [⟨a, 4⟩], ?_, ?_⟩
  · intro x hx
    rcases List.mem_append.mp hx with hx | hx
    · exact hin x hx
    · rw [List.mem_singleton.mp hx]
      exact ⟨ha, hhi⟩
  · rw [hr, List.append_assoc]
    rfl

theorem Visits.remapId (ha : lo ≤ a) (hhi : a + 4 ≤ hi) :
    Visits types [a] lo hi s (some (types.remapId a s)) := by
  have hin : ∀ n, ∀ x ∈ List.replicate n (Access.mk a 4), x.Within lo hi := by
    intro n x hx
    rw [(List.mem_replicate.mp hx).2]
    exact ⟨ha, hhi⟩
  by_cases hz : types.lookup (s.mem.u32 a) = 0
  · refine ⟨List.replicate 1 ⟨a, 4⟩, hin 1, ?_⟩
    simp [PinosMap.remapId, RemapState.load, remapIds, hz]
  · refine ⟨List.replicate 2 ⟨a, 4⟩, hin 2, ?_⟩
    simp [PinosMap.remapId, RemapState.load, RemapState.store, remapIds, hz, List.replicate]

theorem Visits.andThen (h : Visits types ws lo hi s r)
    (hrest : ∀ accesses, (types.remapIds ws s.mem).1 = true →
      Visits types ws' lo hi ⟨(types.remapIds ws s.mem).2, accesses⟩
        (rest ⟨(types.remapIds ws s.mem).2, accesses⟩)) :
    Visits types (ws ++ ws') lo hi s (andThen r rest) := by
  obtain ⟨accesses, hin, rfl⟩ := h
  cases hok : (types.remapIds ws s.mem).1 with
  | false =>
    refine ⟨accesses, hin, ?_⟩
    rw [remapIds_append_false hok, hok]
    rfl
  | true =>
    obtain ⟨accesses', hin', hr⟩ := hrest (accesses ++ s.accesses) hok
    refine ⟨accesses' ++ accesses, ?_, ?_⟩
    · intro x hx
      rcases List.mem_append.mp hx with hx | hx
      · exact hin' x hx
      · exact hin x hx
    · rw [remapIds_append_true hok, List.append_assoc]
      exact hr

theorem Visits.stop (h : Visits types ws lo hi s r) (hstop : (types.remapIds ws s.mem).1 = false) :
    Visits types ws lo hi s (PinosMap.andThen r rest) := by
  obtain ⟨accesses, hin, rfl⟩ := h
  refine ⟨accesses, hin, ?_⟩
  rw [hstop]
  rfl

theorem Visits.mono {lo' hi' : Nat} (h : Visits types ws lo hi s r) (hlo : lo' ≤ lo)
    (hhi : hi ≤ hi') : Visits types ws lo' hi' s r := by
  obtain ⟨accesses, hin, hr⟩ := h
  refine ⟨accesses, ?_, hr⟩
  intro x hx
  have := hin x hx
  exact ⟨Nat.le_trans hlo this.1, Nat.le_trans this.2 hhi⟩

/-! ## Sizes that fit -/

/-- The value of a property of `size` bytes and its alternatives: as many words, one
value apart, as end inside. -/
def strided (a step : Nat) : Nat → List Nat
  | 0 => []
  | n + 1 => a :: strided (a + step) step n

mutual
/-- `Nested types m type body size ws`: the bytes of a pod hold what its type needs,
and so do those of the pods inside up to the first id that is missing.  `ws` are the
ids on the way. -/
inductive Nested (types : PinosMap) (m : Mem) : Nat → Nat → Nat → List Nat → Prop
  | id {body size : Nat} : 4 ≤ size → Nested types m SpaPODType.id.code body size [body]
  | key {body size : Nat} : 4 ≤ size → types.lookup (m.u32 body) = 0 →
      Nested types m SpaPODType.prop.code body size [body]
  | prop {body size : Nat} : 16 ≤ size → m.u32 (body + 12) ≠ SpaPODType.id.code →
      Nested types m SpaPODType.prop.code body size [body]
  | value {body size : Nat} : 20 ≤ size → m.u32 (body + 12) = SpaPODType.id.code →
      types.lookup (m.u32 (body + 16)) = 0 →
      Nested types m SpaPODType.prop.code body size [body, body + 16]
  | alternatives {body size : Nat} : m.u32 (body + 12) = SpaPODType.id.code →
      4 ≤ m.u32 (body + 8) → 16 + m.u32 (body + 8) ≤ size →
      Nested types m SpaPODType.prop.code body size
        (body :: strided (body + 16) (m.u32 (body + 8)) ((size - 16) / m.u32 (body + 8)))
  | objectType {body size : Nat} : 8 ≤ size → types.lookup (m.u32 (body + 4)) = 0 →
      Nested types m SpaPODType.object.code body size [body + 4]
  | object {body size : Nat} {ws : List Nat} : 8 ≤ size →
      NestedPods types m (body + 8) (body + size) ws →
      Nested types m SpaPODType.object.code body size ((body + 4) :: ws)
  | struct {body size : Nat} {ws : List Nat} : NestedPods types m body (body + size) ws →
      Nested types m SpaPODType.struct.code body size ws
  | other {type body size : Nat} : type ≠ SpaPODType.id.code → type ≠ SpaPODType.prop.code →
      type ≠ SpaPODType.object.code → type ≠ SpaPODType.struct.code →
      Nested types m type body size []

/-- The same for the pods from `iter` on: each ends before `stop`. -/
inductive NestedPods (types : PinosMap) (m : Mem) : Nat → Nat → List Nat → Prop
  | done {iter stop : Nat} : stop ≤ iter → NestedPods types m iter stop []
  | missing {iter stop : Nat} {ws : List Nat} : iter + podSize m iter ≤ stop →
      Nested types m (podType m iter) (iter + 8) (podBodySize m iter) ws →
      (types.remapIds ws m).1 = false → NestedPods types m iter stop ws
  | next {iter stop : Nat} {ws ws' : List Nat} : iter + podSize m iter ≤ stop →
      Nested types m (podType m iter) (iter + 8) (podBodySize m iter) ws →
      NestedPods types m (iter + roundUpN (podSize m iter) 8) stop ws' →
      NestedPods types m iter stop (ws ++ ws')
end

theorem strided_inside {a step n b : Nat} (hb : b ∈ strided a step n) (hstep : 4 ≤ step) :
    a ≤ b ∧ b + 4 ≤ a + n * step := by
  induction n generalizing a with
  | zero => cases hb
  | succ n ih =>
    rw [Nat.succ_mul]
    rcases List.mem_cons.mp hb with rfl | hb
    · have : 0 ≤ n * step := Nat.zero_le _
      omega
    · have := ih hb
      omega

mutual
theorem Nested.inside {types : PinosMap} {m : Mem} : ∀ {type body size : Nat} {ws : List Nat},
    Nested types m type body size ws → ∀ a ∈ ws, body ≤ a ∧ a + 4 ≤ body + size
  | _, _, _, _, .id hsize | _, _, _, _, .key hsize _ | _, _, _, _, .prop hsize _ => by
      intro a ha
      rw [List.mem_singleton.mp ha]
      omega
  | _, _, _, _, .value hsize _ _ => by
      intro a ha
      simp at ha
      omega
  | _, body, size, _, .alternatives _ hvalue hsize => by
      intro a ha
      rcases List.mem_cons.mp ha with rfl | ha
      · omega
      · have := strided_inside ha hvalue
        have hmul := Nat.div_mul_le_self (size - 16) (m.u32 (body + 8))
        omega
  | _, _, _, _, .objectType hsize _ => by
      intro a ha
      rw [List.mem_singleton.mp ha]
      omega
  | _, _, _, _, .object hsize hpods => by
      intro a ha
      rcases List.mem_cons.mp ha with rfl | ha
      · omega
      · have := hpods.inside a ha
        omega
  | _, _, _, _, .struct hpods => hpods.inside
  | _, _, _, _, .other _ _ _ _ => by simp

theorem NestedPods.inside {types : PinosMap} {m : Mem} : ∀ {iter stop : Nat} {ws : List Nat},
    NestedPods types m iter stop ws → ∀ a ∈ ws, iter ≤ a ∧ a + 4 ≤ stop
  | _, _, _, .done _ => by simp
  | _, _, _, .missing hfit hpod _ => by
      intro a ha
      have := hpod.inside a ha
      unfold podSize sizeofSpaPOD at hfit
      omega
  | _, _, _, .next hfit hpod hrest => by
      intro a ha
      rcases List.mem_append.mp ha with ha | ha
      · have := hpod.inside a ha
        unfold podSize sizeofSpaPOD at hfit
        omega
      · have := hrest.inside a ha
        rw [roundUpN_eight] at this
        omega
end

/-- The memory spells the same as `m` from `lo` to `hi`. -/
def Agrees (m' m : Mem) (lo hi : Nat) : Prop := ∀ i, lo ≤ i → i < hi → m' i = m i

theorem Agrees.u32 {m' m : Mem} {lo hi a : Nat} (h : Agrees m' m lo hi) (ha : lo ≤ a)
    (hhi : a + 4 ≤ hi) : m'.u32 a = m.u32 a :=
  Mem.u32_congr fun i hi' hlt => h i (by omega) (by omega)

theorem Agrees.mono {m' m : Mem} {lo hi lo' hi' : Nat} (h : Agrees m' m lo hi) (hlo : lo ≤ lo')
    (hhi : hi' ≤ hi) : Agrees m' m lo' hi' :=
  fun i hi' hlt => h i (by omega) (by omega)

theorem Agrees.remapIds {types : PinosMap} {m' m : Mem} {lo hi : Nat} {ws : List Nat}
    (h : Agrees m' m lo hi) (hws : ∀ a ∈ ws, a + 4 ≤ lo) :
    Agrees (types.remapIds ws m').2 m lo hi := by
  intro i hlo hlt
  rw [remapIds_outside, h i hlo hlt]
  intro a ha
  have := hws a ha
  omega

theorem Agrees.remapId (types : PinosMap) {m' m : Mem} {a hi : Nat} (h : Agrees m' m a hi) :
    Agrees (types.remapIds [a] m').2 m (a + 4) hi := by
  apply (h.mono (Nat.le_add_right a 4) (Nat.le_refl hi)).remapIds
  intro b hb
  rw [List.mem_singleton.mp hb]

theorem Visits.data_le {types : PinosMap} {ws : List Nat} {lo hi : Nat} {s s' : RemapState}
    {fuel fuel' type body size : Nat} (hle : fuel ≤ fuel')
    (h : Visits types ws lo hi s (types.remapData fuel type body size s')) :
    Visits types ws lo hi s (types.remapData fuel' type body size s') := by
  obtain ⟨accesses, hin, hr⟩ := h
  exact ⟨accesses, hin, remapData_le hle hr⟩

theorem Visits.pods_le {types : PinosMap} {ws : List Nat} {lo hi : Nat} {s s' : RemapState}
    {fuel fuel' iter stop : Nat} (hle : fuel ≤ fuel')
    (h : Visits types ws lo hi s (types.remapPods fuel iter stop s')) :
    Visits types ws lo hi s (types.remapPods fuel' iter stop s') := by
  obtain ⟨accesses, hin, hr⟩ := h
  exact ⟨accesses, hin, remapPods_le hle hr⟩

/-- The loop over the alternatives of a property. -/
theorem alternatives_run {types : PinosMap} {body size value : Nat} (hsize : size < 2 ^ 32)
    (hvalue : 4 ≤ value) (hfit : 16 + value ≤ size) (n : Nat) (iter : Nat) (s : RemapState)
    (htype : s.mem.u32 (body + 12) = SpaPODType.id.code) (hval : s.mem.u32 (body + 8) = value)
    (hiter : body + 16 ≤ iter) (hle : iter + n * value ≤ body + size)
    (hlt : body + size < iter + (n + 1) * value) :
    Visits types (strided iter value n) body (body + size) s
      (types.remapAlternatives (n + 2) body size iter s) := by
  have hlimit : toU32 (size + 2 ^ 32 - value) = size - value := by
    unfold toU32
    omega
  induction n generalizing iter s with
  | zero =>
    have hstop : ¬ iter ≤ body + (size - value) := by omega
    rw [remapAlternatives_succ, hval, hlimit, if_neg hstop]
    exact .load (by omega) (by omega) (.nil _ _ _)
  | succ n ih =>
    rw [Nat.succ_mul] at hle hlt
    have hgo : iter ≤ body + (size - value) := by omega
    rw [remapAlternatives_succ, hval, hlimit, if_pos hgo, htype, remapData_id]
    apply Visits.load (a := body + 8) (by omega) (by omega)
    apply Visits.load (a := body + 12) (by omega) (by omega)
    apply Visits.andThen (.remapId (by omega) (by omega))
    intro accesses _
    simp only [RemapState.load_mem]
    have hframe : ∀ b, b + 4 ≤ iter → (types.remapIds [iter] s.mem).2.u32 b = s.mem.u32 b := by
      intro b hb
      apply remapIds_u32
      intro a ha
      rw [List.mem_singleton.mp ha]
      exact Or.inl hb
    apply Visits.load (a := body + 8) (by omega) (by omega)
    rw [hframe (body + 8) (by omega), hval]
    apply ih (iter + value)
    · exact (hframe (body + 12) (by omega)).trans htype
    · exact (hframe (body + 8) (by omega)).trans hval
    · omega
    · omega
    · omega

/-- The lists of alternatives of a property that has room for its value. -/
theorem strided_div {a value size : Nat} (hvalue : 4 ≤ value) (hfit : 16 + value ≤ size) :
    ∃ n, (size - 16) / value = n + 1 ∧ n * value + value ≤ size - 16 ∧
      size - 16 < n * value + value + value ∧
      strided a value ((size - 16) / value) = a :: strided (a + value) value n := by
  have hpos : 0 < value := by omega
  obtain ⟨n, hn⟩ : ∃ n, (size - 16) / value = n + 1 := by
    have hone : 1 ≤ (size - 16) / value := by
      rw [Nat.le_div_iff_mul_le hpos]
      omega
    exact ⟨(size - 16) / value - 1, by omega⟩
  have hle := Nat.div_mul_le_self (size - 16) value
  have hlt := Nat.lt_div_mul_add hpos (a := size - 16)
  rw [hn, Nat.succ_mul] at hle hlt
  exact ⟨n, hn, hle, by omega, by rw [hn, strided]⟩

/-- A property whose value is an id, from the value on. -/
theorem value_run {types : PinosMap} {body size value : Nat} (s : RemapState)
    (hsize : size < 2 ^ 32) (htype : s.mem.u32 (body + 12) = SpaPODType.id.code)
    (hval : s.mem.u32 (body + 8) = value) (hvalue : 4 ≤ value) (hfit : 16 + value ≤ size) :
    Visits types (strided (body + 16) value ((size - 16) / value)) body (body + size) s
      (andThen (types.remapData ((size - 16) / value + 1) (s.mem.u32 (body + 12)) (body + 16)
          (s.mem.u32 (body + 8)) ((s.load (body + 12)).2.load (body + 8)).2) fun s =>
        types.remapAlternatives ((size - 16) / value + 1) body size
          (body + (s.mem.u32 (body + 8) + 16)) (s.load (body + 8)).2) := by
  obtain ⟨n, hn, hle, hlt, hlist⟩ := strided_div (a := body + 16) hvalue hfit
  rw [hlist, hn, htype, remapData_id]
  show Visits types ([body + 16] ++ _) _ _ _ _
  apply Visits.load (a := body + 12) (by omega) (by omega)
  apply Visits.load (a := body + 8) (by omega) (by omega)
  apply Visits.andThen (.remapId (by omega) (by omega))
  intro accesses _
  simp only [RemapState.load_mem]
  have hframe : ∀ b, b + 4 ≤ body + 16 →
      (types.remapIds [body + 16] s.mem).2.u32 b = s.mem.u32 b := by
    intro b hb
    apply remapIds_u32
    intro a ha
    rw [List.mem_singleton.mp ha]
    exact Or.inl hb
  apply Visits.load (a := body + 8) (by omega) (by omega)
  rw [hframe (body + 8) (by omega), hval]
  have hiter : body + (value + 16) = body + 16 + value := by omega
  rw [hiter]
  apply alternatives_run hsize hvalue hfit
  · exact (hframe (body + 12) (by omega)).trans htype
  · exact (hframe (body + 8) (by omega)).trans hval
  · omega
  · omega
  · rw [Nat.succ_mul]
    omega

theorem Agrees.header {m' m : Mem} {iter stop : Nat} (h : Agrees m' m iter stop)
    (hfit : iter + podSize m iter ≤ stop) :
    podType m' iter = podType m iter ∧ podBodySize m' iter = podBodySize m iter ∧
      Agrees m' m (iter + 8) (iter + 8 + podBodySize m iter) := by
  unfold podSize sizeofSpaPOD at hfit
  exact ⟨h.u32 (by omega) (by omega), h.u32 (by omega) (by omega), h.mono (by omega) (by omega)⟩

/-- Translating the ids of a pod leaves its header. -/
theorem Nested.size_stays {types : PinosMap} {m m' : Mem} {type iter size : Nat} {ws : List Nat}
    (h : Nested types m type (iter + 8) size ws) :
    podBodySize (types.remapIds ws m').2 iter = podBodySize m' iter := by
  apply remapIds_u32
  intro a ha
  have := h.inside a ha
  omega

mutual
/-- What a run does on sizes that fit, in any memory that spells them. -/
theorem Nested.run {types : PinosMap} {m : Mem} :
    ∀ {type body size : Nat} {ws : List Nat}, Nested types m type body size ws → size < 2 ^ 32 →
    ∃ fuel, ∀ s, Agrees s.mem m body (body + size) →
      Visits types ws body (body + size) s (types.remapData fuel type body size s)
  | _, body, size, _, .id hfit, _ => by
      refine ⟨1, ?_⟩
      intro s _
      rw [remapData_id]
      exact .remapId (by omega) (by omega)
  | _, body, size, _, .key hfit hmissing, _ => by
      refine ⟨1, ?_⟩
      intro s hs
      rw [remapData_prop]
      apply Visits.stop (.remapId (by omega) (by omega))
      rw [remapIds, hs.u32 (by omega) (by omega), if_pos hmissing]
  | _, body, size, _, .prop hfit hother, _ => by
      refine ⟨1, ?_⟩
      intro s hs
      rw [remapData_prop]
      show Visits types ([body] ++ []) _ _ _ _
      apply Visits.andThen (.remapId (by omega) (by omega))
      intro accesses _
      rw [(hs.remapId types).u32 (by omega) (by omega), if_neg hother]
      exact .load (by omega) (by omega) (.nil _ _ _)
  | _, body, size, _, .value hfit htype hmissing, _ => by
      refine ⟨2, ?_⟩
      intro s hs
      rw [remapData_prop]
      show Visits types ([body] ++ [body + 16]) _ _ _ _
      apply Visits.andThen (.remapId (by omega) (by omega))
      intro accesses _
      rw [(hs.remapId types).u32 (by omega) (by omega), if_pos htype, htype, remapData_id]
      apply Visits.load (a := body + 12) (by omega) (by omega)
      apply Visits.load (a := body + 8) (by omega) (by omega)
      apply Visits.stop (.remapId (by omega) (by omega))
      simp only [RemapState.load_mem]
      rw [remapIds, (hs.remapId types).u32 (by omega) (by omega), if_pos hmissing]
  | _, body, size, _, .alternatives htype hvalue hfit, hsize => by
      refine ⟨(size - 16) / m.u32 (body + 8) + 2, ?_⟩
      intro s hs
      rw [remapData_prop]
      show Visits types ([body] ++ _) _ _ _ _
      apply Visits.andThen (.remapId (by omega) (by omega))
      intro accesses _
      have hs' := hs.remapId types
      have htype' := (hs'.u32 (by omega) (by omega)).trans htype
      rw [if_pos htype']
      exact value_run _ hsize htype' (hs'.u32 (by omega) (by omega)) hvalue hfit
  | _, body, size, _, .objectType hfit hmissing, _ => by
      refine ⟨1, ?_⟩
      intro s hs
      rw [remapData_object]
      apply Visits.stop (.remapId (by omega) (by omega))
      rw [remapIds, hs.u32 (by omega) (by omega), if_pos hmissing]
  | _, body, size, _, .object hfit hpods, hsize => by
      obtain ⟨fuel, hrun⟩ := hpods.run
      refine ⟨fuel + 1, ?_⟩
      intro s hs
      rw [remapData_object]
      show Visits types ([body + 4] ++ _) _ _ _ _
      apply Visits.andThen (.remapId (by omega) (by omega))
      intro accesses _
      have hs' := (hs.mono (Nat.le_add_right body 4) (Nat.le_refl _)).remapId types
      exact (hrun _ hs').mono (by omega) (Nat.le_refl _)
  | _, body, size, _, .struct hpods, _ => by
      obtain ⟨fuel, hrun⟩ := hpods.run
      refine ⟨fuel + 1, ?_⟩
      intro s hs
      rw [remapData_struct]
      exact hrun s hs
  | _, body, size, _, .other hi hp ho hs, _ => by
      refine ⟨1, ?_⟩
      intro s _
      rw [remapData_other _ _ _ _ _ hi hp ho hs]
      exact .nil _ _ _

theorem NestedPods.run {types : PinosMap} {m : Mem} :
    ∀ {iter stop : Nat} {ws : List Nat}, NestedPods types m iter stop ws →
    ∃ fuel, ∀ s, Agrees s.mem m iter stop →
      Visits types ws iter stop s (types.remapPods fuel iter stop s)
  | iter, stop, _, .done hstop => by
      refine ⟨1, ?_⟩
      intro s _
      rw [remapPods_succ, if_neg (by omega)]
      exact .nil _ _ _
  | iter, stop, _, .missing hfit hpod hmissing => by
      obtain ⟨fuel, hrun⟩ := hpod.run (m.u32_lt iter)
      refine ⟨fuel + 1, ?_⟩
      intro s hs
      obtain ⟨htype, hsize, hbody⟩ := hs.header hfit
      unfold podSize sizeofSpaPOD at hfit
      rw [remapPods_succ, if_pos (by omega), htype, hsize]
      apply Visits.load (a := iter + 4) (by omega) (by omega)
      apply Visits.load (a := iter) (by omega) (by omega)
      apply Visits.stop ((hrun ((s.load (iter + 4)).2.load iter).2 hbody).mono (by omega) (by omega))
      rw [← hmissing]
      apply remapIds_congr
      intro a ha i hlo hhi
      have := hpod.inside a ha
      exact hs i (by omega) (by omega)
  | iter, stop, _, .next hfit hpod hrest => by
      obtain ⟨fuel, hrun⟩ := hpod.run (m.u32_lt iter)
      obtain ⟨fuel', hrun'⟩ := hrest.run
      refine ⟨max fuel fuel' + 1, ?_⟩
      intro s hs
      obtain ⟨htype, hsize, hbody⟩ := hs.header hfit
      have hfit' := hfit
      unfold podSize sizeofSpaPOD at hfit'
      rw [remapPods_succ, if_pos (by omega), htype, hsize]
      apply Visits.load (a := iter + 4) (by omega) (by omega)
      apply Visits.load (a := iter) (by omega) (by omega)
      have hpod' := hrun ((s.load (iter + 4)).2.load iter).2 hbody
      apply Visits.andThen ((hpod'.data_le (Nat.le_max_left fuel fuel')).mono (by omega) (by omega))
      intro accesses _
      simp only [RemapState.load_mem]
      rw [podSize, hpod.size_stays, hsize, ← podSize]
      apply Visits.load (a := iter) (by omega) (by omega)
      refine ((hrun' _ ?_).pods_le (Nat.le_max_right fuel fuel')).mono ?_ (Nat.le_refl _)
      · rw [roundUpN_eight]
        apply (hs.mono (by omega) (Nat.le_refl _)).remapIds
        intro a ha
        have := hpod.inside a ha
        unfold podSize sizeofSpaPOD
        omega
      · exact Nat.le_add_right _ _
end

/-! ## A received message -/

/-- `pinos_pod_remap_data (SPA_POD_TYPE_STRUCT, data, size, types)`, as the
demarshal functions call it, returns and touches only the bytes of the message. -/
def StaysInside (types : PinosMap) (m : Mem) (data size : Nat) : Prop :=
  ∃ fuel ok s, types.remapData fuel SpaPODType.struct.code data size ⟨m, []⟩ = some (ok, s) ∧
    ∀ x ∈ s.accesses, x.Within data (data + size)

/-- A message that is one struct with one id in it. -/
def oneId (id : Nat) : Mem :=
  Mem.write (fun _ => 0) 4096
    (SpaPOD.bytes ⟨16, .struct⟩ ++ SpaPOD.bytes ⟨4, .id⟩ ++ toLE 8 id)

theorem remapData_unique {types : PinosMap} {fuel fuel' type body size : Nat} {s : RemapState}
    {r r' : Bool × RemapState} (h : types.remapData fuel type body size s = some r)
    (h' : types.remapData fuel' type body size s = some r') : r = r' := by
  have hl := remapData_le (Nat.le_max_left fuel fuel') h
  have hr := remapData_le (Nat.le_max_right fuel fuel') h'
  exact Option.some.inj (hl.symm.trans hr)

/-- A message that is one struct with an id pod that has no body.  The body is read
all the same, behind the message. -/
def shortId : Mem :=
  Mem.write (fun _ => 0) 4096 (SpaPOD.bytes ⟨8, .struct⟩ ++ SpaPOD.bytes ⟨0, .id⟩)

/-- Alternatives of no size are never done: the loop stays at the first of them as
long as its id is mapped to itself. -/
theorem remapAlternatives_diverges {types : PinosMap} {body size iter : Nat} {m : Mem}
    (hsize : size < 2 ^ 32) (htype : m.u32 (body + 12) = SpaPODType.id.code)
    (hvalue : m.u32 (body + 8) = 0) (hiter : iter ≤ body + size)
    (hknown : types.lookup (m.u32 iter) ≠ 0)
    (himage : (ptrToId (types.lookup (m.u32 iter))).toNat = m.u32 iter) :
    ∀ fuel accesses, types.remapAlternatives fuel body size iter ⟨m, accesses⟩ = none := by
  have hlimit : iter ≤ body + toU32 (size + 2 ^ 32 - 0) := by
    unfold toU32
    omega
  have hsame : m.write iter (toLE 4 (m.u32 iter)) = m := (Mem.holds_u32 m iter).write_eq
  intro fuel
  induction fuel with
  | zero =>
    intro accesses
    rw [remapAlternatives]
  | succ fuel ih =>
    intro accesses
    rw [remapAlternatives_succ, hvalue, if_pos hlimit, htype]
    cases fuel with
    | zero => rw [remapData, andThen]
    | succ fuel =>
      rw [remapData_id]
      simp only [PinosMap.remapId, RemapState.load, RemapState.store, if_neg hknown, andThen,
        himage, hsame, hvalue, Nat.add_zero]
      exact ih _

end PinosMap
end Pinos

import Pinos.Spa.FormatFilter
import Pinos.Spa.RoundTrip

/-
What `spa_format_filter` writes: where there is room it is the format that two have in common,
and as long as the pointer to a property stays in the buffer so does everything that is
written.
-/

namespace Pinos

open ByteMem

theorem mem_of_find_or_head {α : Type} {as : List α} {test : α → Bool} {a : α}
    (h : (as.find? test <|> as.head?) = some a) : a ∈ as := by
  cases hfind : as.find? test with
  | some a' =>
    rw [hfind] at h
    cases h
    exact List.mem_of_find?_eq_some hfind
  | none =>
    rw [hfind] at h
    exact List.mem_of_head? h

/-! ## A property in memory -/

section Memory

variable {m : Mem} {a : Nat} {p : PropPod} {flags : UInt32} {value : List UInt8}
  {alternatives : List (List UInt8)} {bs rest : List UInt8}

namespace PropPod

/-- A property with another value or other flags. -/
def setValue (p : PropPod) (value : List UInt8) : PropPod :=
  { p with body := { p.body with value := value } }

def setFlags (p : PropPod) (flags : UInt32) : PropPod :=
  { p with body := { p.body with flags := flags } }

/-- The property that `fix_default` leaves. -/
def fixed (p : PropPod) : PropPod := { p with body := p.body.fixDefault p.type.compareValue }

/-- What is in front of the flags. -/
def head (p : PropPod) : List UInt8 :=
  SpaPOD.bytes ⟨.ofNat (8 + p.values.length), .prop⟩ ++ toLE 4 p.key.toNat

/-- What is between the flags and the value. -/
def valueHead (p : PropPod) : List UInt8 :=
  SpaPOD.bytes ⟨.ofNat p.body.value.length, p.type⟩

theorem length_head (p : PropPod) : p.head.length = 12 := by
  rw [head, List.length_append, SpaPOD.length_bytes, length_toLE]

theorem length_values (p : PropPod) :
    p.values.length = 8 + p.body.value.length + p.body.alternatives.flatten.length := by
  rw [values, List.length_append, Pod.length_withHeader]

theorem bytes_eq (p : PropPod) :
    p.bytes = p.head ++ (toLE 4 p.body.flags.toNat ++ p.values) := by
  have hlength : ((toLE 4 p.key.toNat ++ toLE 4 p.body.flags.toNat) ++ p.values).length =
      8 + p.values.length := by
    rw [List.length_append, List.length_append, length_toLE, length_toLE]
  rw [bytes, Pod.withHeader, hlength, head]
  simp only [List.append_assoc]

theorem values_eq (p : PropPod) :
    p.values = p.valueHead ++ (p.body.value ++ p.body.alternatives.flatten) := by
  rw [values, Pod.withHeader, valueHead, List.append_assoc]

theorem length_bytes (p : PropPod) :
    p.bytes.length = 24 + p.body.value.length + p.body.alternatives.flatten.length := by
  rw [bytes_eq, List.length_append, List.length_append, length_head, length_toLE, length_values]
  omega

/-- Where the flags of a property are. -/
theorem write_flags (h : bs.length = 4) :
    (m.write a (p.bytes ++ rest)).write (a + 12) bs =
      m.write a (p.head ++ (bs ++ (p.values ++ rest))) := by
  have hsplit : p.bytes ++ rest =
      p.head ++ (toLE 4 p.body.flags.toNat ++ (p.values ++ rest)) := by
    rw [bytes_eq]
    simp only [List.append_assoc]
  have hwithin := @Mem.write_within m a p.head (toLE 4 p.body.flags.toNat) bs (p.values ++ rest)
    (by rw [h, length_toLE])
  rw [length_head] at hwithin
  rw [hsplit, hwithin]

theorem write_setFlags :
    (m.write a (p.bytes ++ rest)).write (a + 12) (toLE 4 flags.toNat) =
      m.write a ((p.setFlags flags).bytes ++ rest) := by
  rw [write_flags (length_toLE 4 _), bytes_eq (p.setFlags flags)]
  simp only [List.append_assoc]
  rfl

theorem write_setValue (h : value.length = p.body.value.length) :
    (m.write a (p.bytes ++ rest)).write (a + 24) value =
      m.write a ((p.setValue value).bytes ++ rest) := by
  have hsplit (p : PropPod) : p.bytes ++ rest = (p.head ++ (toLE 4 p.body.flags.toNat ++ p.valueHead)) ++
      (p.body.value ++ (p.body.alternatives.flatten ++ rest)) := by
    rw [bytes_eq, values_eq]
    simp only [List.append_assoc]
  have hlength : (p.head ++ (toLE 4 p.body.flags.toNat ++ p.valueHead)).length = 24 := by
    rw [List.length_append, List.length_append, length_head, length_toLE, valueHead,
      SpaPOD.length_bytes]
  have hwithin := @Mem.write_within m a (p.head ++ (toLE 4 p.body.flags.toNat ++ p.valueHead))
    p.body.value value (p.body.alternatives.flatten ++ rest) h
  rw [hlength] at hwithin
  rw [hsplit, hwithin, hsplit (p.setValue value)]
  simp only [head, valueHead, length_values, setValue, h]

/-- The words and the values of a property that is in memory. -/
structure At (p : PropPod) (m : Mem) (a : Nat) : Prop where
  size : m.u32 a = 16 + p.body.value.length + p.body.alternatives.flatten.length
  flags : m.u32 (a + 12) = p.body.flags.toNat
  valueSize : m.u32 (a + 16) = p.body.value.length
  type : m.u32 (a + 20) = p.type.code
  value : m.read (a + 24) p.body.value.length = p.body.value
  alternatives : m.Holds (a + 24 + p.body.value.length) p.body.alternatives.flatten

theorem at_of_holds (h : m.Holds a p.bytes) (hsmall : p.bytes.length < 2 ^ 32) : p.At m a := by
  rw [length_bytes] at hsmall
  rw [bytes_eq, values_eq] at h
  have hhead := h.left
  have hflags := h.right.left
  have hvalues := h.right.right
  rw [length_head] at hflags hvalues
  rw [length_toLE] at hvalues
  have hsize := (holds_header hhead.left).1
  have hvalueHead := holds_header hvalues.left
  have hvalue := hvalues.right.left
  have halternatives := hvalues.right.right
  rw [valueHead, SpaPOD.length_bytes] at hvalue halternatives
  refine ⟨?_, ?_, ?_, hvalueHead.2, hvalue, halternatives⟩
  · rw [podBodySize] at hsize
    rw [hsize, UInt32.toNat_ofNat', length_values]
    exact (Nat.mod_eq_of_lt (by omega)).trans (by omega)
  · rw [hflags.u32]
    exact Nat.mod_eq_of_lt p.body.flags.toNat_lt
  · exact hvalueHead.1.trans (UInt32.toNat_ofNat_of_lt' (by show _ < 2 ^ 32; omega))

theorem at_write (hsmall : p.bytes.length < 2 ^ 32) : p.At (m.write a (p.bytes ++ rest)) a :=
  at_of_holds (Mem.holds_write m a _).left hsmall

/-- Values of one size that follow each other. -/
theorem read_values {n : Nat} (h : m.Holds a alternatives.flatten)
    (hsized : ∀ value ∈ alternatives, value.length = n) :
    ((List.range alternatives.length).map fun i => m.read (a + i * n) n) = alternatives := by
  induction alternatives generalizing a with
  | nil => rfl
  | cons value alternatives ih =>
    have hvalue := hsized value List.mem_cons_self
    have hrest := h.right
    rw [hvalue] at hrest
    have hread : m.read a n = value := by
      rw [← hvalue]
      exact h.left
    have htail := ih hrest fun value hmem => hsized value (List.mem_cons_of_mem _ hmem)
    rw [List.length_cons, List.range_succ_eq_map, List.map_cons, List.map_map, Nat.zero_mul,
      Nat.add_zero, hread]
    congr 1
    rw [← htail, List.length_map, List.length_range]
    refine List.map_congr_left fun i _ => ?_
    show m.read (a + (i + 1) * n) n = _
    rw [Nat.add_mul, Nat.one_mul, Nat.add_comm (i * n), ← Nat.add_assoc]

theorem length_flatten {n : Nat} (hsized : ∀ value ∈ alternatives, value.length = n) :
    alternatives.flatten.length = alternatives.length * n := by
  rw [List.length_flatten, List.map_congr_left hsized, List.map_const', List.sum_replicate_nat]

/-- How many alternatives `fix_default` finds. -/
theorem nalt_eq {n k : Nat} (hn : 0 < n) (hsmall : 24 + n + k * n < 2 ^ 32) (hfew : k < 2 ^ 31 - 1) :
    (Int32.ofNat ((16 + n + k * n + (2 ^ 64 - 16)) % 2 ^ 64 / n) - 1 = Int32.ofNat k) ∧
      (Int32.ofNat k).toInt.toNat = k := by
  have hmod : (16 + n + k * n + (2 ^ 64 - 16)) % 2 ^ 64 = (k + 1) * n := by
    rw [Nat.add_mul]
    omega
  constructor
  · rw [hmod, Nat.mul_div_cancel _ hn, Int32.ofNat_add]
    exact Int32.add_sub_cancel _ _
  · rw [Int32.toInt_ofNat_of_lt (by omega)]
    rfl

/-- Alternatives that `spa_props_filter` has written, for a range that it has set. -/
structure Built (p : PropPod) : Prop where
  pos : 0 < p.body.value.length
  sized : ∀ value ∈ p.body.alternatives, value.length = p.body.value.length
  range : p.body.range = .none ∨ p.body.range = .enum ∨
    p.body.range = .minMax ∧ ∃ lo hi, p.body.alternatives = [lo, hi]

theorem Built.setValue (h : p.Built) (hvalue : value.length = p.body.value.length) :
    (p.setValue value).Built := by
  refine ⟨?_, ?_, h.range⟩
  · show 0 < value.length
    rw [hvalue]
    exact h.pos
  · show ∀ v ∈ p.body.alternatives, v.length = value.length
    rw [hvalue]
    exact h.sized

/-- An int counts the alternatives. -/
theorem Built.few (h : p.Built) (hsmall : p.bytes.length < 2 ^ 31) :
    p.body.alternatives.length < 2 ^ 31 - 1 := by
  have hle : p.body.alternatives.length ≤ p.body.alternatives.length * p.body.value.length :=
    Nat.le_mul_of_pos_right _ h.pos
  rw [length_bytes, length_flatten h.sized] at hsmall
  omega

theorem length_bytes_setValue (h : value.length = p.body.value.length) :
    (p.setValue value).bytes.length = p.bytes.length := by
  rw [length_bytes, length_bytes]
  show 24 + value.length + p.body.alternatives.flatten.length = _
  rw [h]

theorem length_bytes_setFlags : (p.setFlags flags).bytes.length = p.bytes.length := by
  rw [length_bytes, length_bytes]
  rfl

/-- A value that is copied over the default when a test says so. -/
def copyIf (p : PropPod) (test : Bool) (value : List UInt8) : PropPod :=
  if test then p.setValue value else p

theorem copyWhen_write {test : Int32 → Bool} {compare : List UInt8 → List UInt8 → Int32} {n b : Nat}
    (h : value.length = p.body.value.length) (hn : n = p.body.value.length)
    (hsmall : p.bytes.length < 2 ^ 32) (hread : (m.write a (p.bytes ++ rest)).read b n = value) :
    copyWhen test compare n (m.write a (p.bytes ++ rest)) (a + 24) b =
      m.write a ((p.copyIf (test (compare p.body.value value)) value).bytes ++ rest) := by
  have hvalue := (@at_write m a p rest hsmall).value
  rw [copyWhen, hread, hn, hvalue]
  cases test (compare p.body.value value) with
  | true => exact write_setValue h
  | false => rfl

theorem alternatives_copyIf {test : Bool} :
    (p.copyIf test value).body.alternatives = p.body.alternatives := by
  cases test <;> rfl

theorem length_copyIf {test : Bool} (h : value.length = p.body.value.length) :
    (p.copyIf test value).body.value.length = p.body.value.length := by
  cases test with
  | true => exact h
  | false => rfl

theorem length_bytes_copyIf {test : Bool} (h : value.length = p.body.value.length) :
    (p.copyIf test value).bytes.length = p.bytes.length := by
  cases test with
  | true => exact length_bytes_setValue h
  | false => rfl

theorem copyIf_eq {test : Bool} :
    p.copyIf test value =
      { p with body := { p.body with value := if test then value else p.body.value } } := by
  cases test <;> rfl

theorem fixed_minMax {lo hi : List UInt8} (hrange : p.body.range = .minMax)
    (halternatives : p.body.alternatives = [lo, hi]) :
    p.fixed = (p.copyIf (p.type.compareValue p.body.value lo < 0) lo).copyIf
      (0 < p.type.compareValue
        (p.copyIf (p.type.compareValue p.body.value lo < 0) lo).body.value hi) hi := by
  obtain ⟨key, type, ⟨flags, value, alternatives⟩⟩ := p
  obtain rfl : alternatives = [lo, hi] := halternatives
  rw [fixed, PropBody.fixDefault, hrange, copyIf_eq, copyIf_eq]
  simp only [decide_eq_true_eq]

/-- The two bounds of a property in memory. -/
theorem At.bounds {lo hi : List UInt8} (h : p.At m a)
    (halternatives : p.body.alternatives = [lo, hi])
    (hlo : lo.length = p.body.value.length) (hhi : hi.length = p.body.value.length) :
    m.read (a + 24 + p.body.value.length) p.body.value.length = lo ∧
      m.read (a + 24 + p.body.value.length + p.body.value.length) p.body.value.length = hi := by
  have hholds := h.alternatives
  rw [halternatives] at hholds
  have hleft : m.Holds _ lo := Mem.Holds.left hholds
  have hright : m.Holds _ (hi ++ []) := Mem.Holds.right hholds
  rw [List.append_nil] at hright
  rw [Mem.Holds, hlo] at hleft
  rw [Mem.Holds, hlo, hhi] at hright
  exact ⟨hleft, hright⟩

/-- `fix_default` of a property with bounds. -/
theorem fixDefault_write_minMax (h : p.Built) (hsmall : p.bytes.length < 2 ^ 31)
    (hrange : p.body.range = .minMax) :
    fixDefault (m.write a (p.bytes ++ rest)) a = m.write a (p.fixed.bytes ++ rest) := by
  obtain ⟨lo, hi, halternatives⟩ : ∃ lo hi, p.body.alternatives = [lo, hi] := by
    rcases h.range with hr | hr | ⟨-, halternatives⟩
    · rw [hrange] at hr
      cases hr
    · rw [hrange] at hr
      cases hr
    · exact halternatives
  have hlo : lo.length = p.body.value.length := h.sized lo (by rw [halternatives]; simp)
  have hhi : hi.length = p.body.value.length := h.sized hi (by rw [halternatives]; simp)
  have hat := @at_write m a p rest (by omega)
  obtain ⟨hreadLo, -⟩ := hat.bounds halternatives hlo hhi
  -- the property after the first comparison
  generalize hp1 : p.copyIf (p.type.compareValue p.body.value lo < 0) lo = p1
  have hvalue1 : p1.body.value.length = p.body.value.length := by
    rw [← hp1]
    exact length_copyIf hlo
  have hsmall1 : p1.bytes.length < 2 ^ 32 := by
    rw [← hp1, length_bytes_copyIf hlo]
    omega
  have halternatives1 : p1.body.alternatives = [lo, hi] := by
    rw [← hp1, alternatives_copyIf, halternatives]
  obtain ⟨-, hreadHi⟩ := (@at_write m a p1 rest hsmall1).bounds halternatives1
    (hlo.trans hvalue1.symm) (hhi.trans hvalue1.symm)
  rw [hvalue1] at hreadHi
  have hfixed := fixed_minMax hrange halternatives
  rw [hp1] at hfixed
  have hof : SpaPropRange.of p.body.flags = .minMax := hrange
  rw [fixDefault, hat.flags, hat.valueSize, hat.type, SpaPODType.ofCode_code, UInt32.ofNat_toNat,
    hof]
  dsimp only
  rw [copyWhen_write hlo rfl (by omega) hreadLo, hp1,
    copyWhen_write (hhi.trans hvalue1.symm) hvalue1.symm hsmall1 hreadHi, hfixed]

/-- The default that `fix_default` takes from a list. -/
def best (p : PropPod) : Option (List UInt8) :=
  (p.body.alternatives.find? fun alt => p.type.compareValue p.body.value alt = 0) <|>
    p.body.alternatives.head?

theorem best_mem (h : p.best = some value) : value ∈ p.body.alternatives :=
  mem_of_find_or_head h

theorem fixed_enum (hrange : p.body.range = .enum) :
    p.fixed =
      if p.body.alternatives.length = 1 then
        (p.best.elim p p.setValue).setFlags (p.body.flags &&& ~~~flagUnset &&& ~~~0xF)
      else p.best.elim p p.setValue := by
  rw [fixed, PropBody.fixDefault, hrange]
  dsimp only
  cases hbest : p.best with
  | none =>
    rw [best] at hbest
    rw [hbest]
    split <;> rfl
  | some value =>
    rw [best] at hbest
    rw [hbest]
    split <;> rfl

/-- `fix_default` of a property with a list of values. -/
theorem fixDefault_write_enum (h : p.Built) (hsmall : p.bytes.length < 2 ^ 31)
    (hrange : p.body.range = .enum) :
    fixDefault (m.write a (p.bytes ++ rest)) a = m.write a (p.fixed.bytes ++ rest) := by
  have hat := @at_write m a p rest (by omega)
  have hflatten := length_flatten h.sized
  have hfew := h.few hsmall
  rw [length_bytes, hflatten] at hsmall
  obtain ⟨hnalt, hcount⟩ := nalt_eq h.pos (by omega) hfew
  have halts := read_values hat.alternatives h.sized
  have hof : SpaPropRange.of p.body.flags = .enum := hrange
  rw [fixDefault, hat.flags, hat.valueSize, hat.type, hat.size, SpaPODType.ofCode_code,
    UInt32.ofNat_toNat, hof, hflatten]
  dsimp only
  rw [hnalt, hcount, halts, hat.value]
  have hone : Int32.ofNat p.body.alternatives.length = 1 ↔ p.body.alternatives.length = 1 := by
    constructor
    · intro heq
      rw [heq] at hcount
      exact hcount.symm
    · intro heq
      rw [heq]
      rfl
  generalize hflags : p.body.flags &&& ~~~flagUnset &&& ~~~0xF = flags
  -- the flags, behind whichever value was written
  have hwrite (q : PropPod) : ∀ first, first = m.write a (q.bytes ++ rest) →
      (if Int32.ofNat p.body.alternatives.length = 1 then
          first.write (a + 12) (toLE 4 flags.toNat)
        else first) =
        m.write a ((if p.body.alternatives.length = 1 then q.setFlags flags else q).bytes ++
          rest) := by
    rintro _ rfl
    by_cases hlength : p.body.alternatives.length = 1
    · rw [if_pos (hone.mpr hlength), if_pos hlength]
      exact write_setFlags
    · rw [if_neg fun heq => hlength (hone.mp heq), if_neg hlength]
  rw [fixed_enum hrange, hflags]
  cases hbest : p.best with
  | none =>
    rw [best] at hbest
    rw [hbest]
    exact hwrite p _ rfl
  | some value =>
    have hsized := h.sized value (best_mem hbest)
    rw [best] at hbest
    rw [hbest]
    exact hwrite (p.setValue value) _ (write_setValue hsized)

/-- `fix_default` of a property that has been built. -/
theorem fixDefault_write (h : p.Built) (hsmall : p.bytes.length < 2 ^ 31) :
    fixDefault (m.write a (p.bytes ++ rest)) a = m.write a (p.fixed.bytes ++ rest) := by
  rcases h.range with hrange | hrange | ⟨hrange, -⟩
  · have hof : SpaPropRange.of p.body.flags = .none := hrange
    have hfixed : p.fixed = p := by
      rw [fixed, PropBody.fixDefault, hrange]
    rw [fixDefault, (at_write (by omega)).flags, UInt32.ofNat_toNat, hof, hfixed]
  · exact fixDefault_write_enum h hsmall hrange
  · exact fixDefault_write_minMax h hsmall hrange

end PropPod
end Memory

/-! ## A property in the memory of a builder -/

section View

variable {m : Mem} {data np n a : Nat} {bs : List UInt8}

theorem view_mk_read : (PodStore.view (PodBuffer.mk m data)).read a n = m.read (data + a) n :=
  Mem.read_view m data a n

theorem view_mk_u32 : (PodStore.view (PodBuffer.mk m data)).u32 a = m.u32 (data + a) :=
  Mem.u32_view m data a

theorem view_mk_write : PodStore.view (PodBuffer.mk (m.write (data + a) bs) data) =
    (PodStore.view (PodBuffer.mk m data)).write a bs := Mem.view_write m data a bs

theorem copyWhen_view {test : Int32 → Bool} {compare : List UInt8 → List UInt8 → Int32} {b : Nat} :
    PodStore.view (PodBuffer.mk (copyWhen test compare n m (data + a) (data + b)) data) =
      copyWhen test compare n (PodStore.view (PodBuffer.mk m data)) a b := by
  rw [copyWhen, copyWhen, view_mk_read, view_mk_read]
  split
  · exact view_mk_write
  · rfl

/-- The memory that `fix_default` leaves, seen from the start of the buffer. -/
theorem fixDefault_view :
    PodStore.view (PodBuffer.mk (fixDefault m (data + np)) data) =
      fixDefault (PodStore.view (PodBuffer.mk m data)) np := by
  simp only [fixDefault, view_mk_u32, view_mk_read, ← Nat.add_assoc]
  split
  · simp only [← copyWhen_view, ← Nat.add_assoc]
  · simp only [← copyWhen_view, ← Nat.add_assoc]
  · split
    · split
      · simp only [← view_mk_write, ← Nat.add_assoc]
      · simp only [← view_mk_write, ← Nat.add_assoc]
    · split
      · rfl
      · simp only [← view_mk_write, ← Nat.add_assoc]
  · rfl

theorem orFlags_view {flags : UInt32} :
    PodStore.view (PodBuffer.mk (SpaPODBuilder.orFlags flags m (data + np)) data) =
      SpaPODBuilder.orFlags flags (PodStore.view (PodBuffer.mk m data)) np := by
  rw [SpaPODBuilder.orFlags, SpaPODBuilder.orFlags, view_mk_u32, ← view_mk_write, Nat.add_assoc]

end View

/-! ## What is returned -/

/-- The result that goes with what is built. -/
def SpaResult.ofExcept {α : Type} : Except SpaResult α → SpaResult
  | .error res => res
  | .ok _ => .ok

theorem PropPod.filter_ne_ok {p1 p2 : PropPod} {res : SpaResult} (h : p1.filter p2 = .error res) :
    res ≠ .ok := by
  unfold PropPod.filter at h
  split at h
  · rw [PropBody.filterBody_eq_narrow] at h
    cases hnarrow : p1.body.narrow p1.type.compareValue p2.body with
    | error res' =>
      rw [hnarrow] at h
      cases h
      exact PropBody.narrow_ne_ok _ _ _ hnarrow
    | ok narrow =>
      rw [hnarrow] at h
      cases h
  · cases h
    decide

section FilterBy

variable {filter : List PropPod} {p1 p2 : PropPod}

theorem PropPod.filterBy_of_none (h : findProp filter p1.key = none) :
    p1.filterBy filter = .ok p1 := by
  rw [filterBy, h]

theorem PropPod.filterBy_of_some (h : findProp filter p1.key = some p2) :
    p1.filterBy filter = p1.filter p2 := by
  rw [filterBy, h]

theorem PropPod.filterBy_ne_ok {res : SpaResult} (h : p1.filterBy filter = .error res) :
    res ≠ .ok := by
  cases hfind : findProp filter p1.key with
  | none =>
    rw [filterBy_of_none hfind] at h
    cases h
  | some p2 =>
    rw [filterBy_of_some hfind] at h
    exact filter_ne_ok h

end FilterBy

theorem mapM_cons_error {α β ε : Type} {f : α → Except ε β} {a : α} {as : List α} {e : ε}
    (h : f a = .error e) : (a :: as).mapM f = .error e := by
  rw [List.mapM_cons, h]
  rfl

theorem mapM_cons_of_ok {α β ε : Type} {f : α → Except ε β} {a : α} {as : List α} {b : β}
    (h : f a = .ok b) :
    (a :: as).mapM f = (as.mapM f).map fun rest => b :: rest := by
  rw [List.mapM_cons, h]
  cases as.mapM f <;> rfl

theorem mapM_cons_ok {α β ε : Type} {f : α → Except ε β} {a : α} {as : List α} {bs : List β}
    (h : (a :: as).mapM f = .ok bs) :
    ∃ b rest, f a = .ok b ∧ as.mapM f = .ok rest ∧ bs = b :: rest := by
  cases hb : f a with
  | error e =>
    rw [mapM_cons_error hb] at h
    cases h
  | ok b =>
    rw [mapM_cons_of_ok hb] at h
    cases hrest : as.mapM f with
    | error e =>
      rw [hrest] at h
      cases h
    | ok rest =>
      rw [hrest] at h
      cases h
      exact ⟨b, rest, rfl, rfl, rfl⟩

theorem exists_of_mapM_error {α β ε : Type} {f : α → Except ε β} {as : List α} {e : ε}
    (h : as.mapM f = .error e) : ∃ a ∈ as, f a = .error e := by
  induction as with
  | nil => cases h
  | cons a as ih =>
    cases hb : f a with
    | error e' =>
      rw [mapM_cons_error hb] at h
      cases h
      exact ⟨a, List.mem_cons_self, hb⟩
    | ok b =>
      rw [mapM_cons_of_ok hb] at h
      cases hrest : as.mapM f with
      | error e' =>
        rw [hrest] at h
        cases h
        obtain ⟨a', hmem, ha'⟩ := ih hrest
        exact ⟨a', List.mem_cons_of_mem a hmem, ha'⟩
      | ok rest =>
        rw [hrest] at h
        cases h

theorem SpaFormat.filtered_eq_some {filter format : SpaFormat} {bs : List UInt8}
    (h : format.filtered (some filter) = some bs) :
    (filter.mediaType = format.mediaType ∧ filter.mediaSubtype = format.mediaSubtype) ∧
      ∃ nps, format.props.mapM (PropPod.filterBy filter.props) = .ok nps ∧
        Pod.withHeader .object
          (formatFields 0 filter.type filter.mediaType filter.mediaSubtype ++
            nps.flatMap fun p => Pod.aligned p.bytes) = bs := by
  unfold filtered at h
  dsimp only at h
  split at h
  · next hmedia =>
    refine ⟨hmedia, ?_⟩
    cases hnps : format.props.mapM (PropPod.filterBy filter.props) with
    | error res =>
      rw [hnps] at h
      cases h
    | ok nps =>
      rw [hnps] at h
      exact ⟨nps, rfl, Option.some.inj h⟩
  · cases h

namespace SpaPODBuilder

variable {b : SpaPODBuilder PodBuffer}

theorem filterProp_snd {p1 p2 : PropPod} :
    (b.filterProp p1 p2).2 = .ofExcept (p1.filter p2) := by
  unfold filterProp PropPod.filter
  by_cases htype : p1.type = p2.type
  · rw [if_neg (not_not.mpr htype), if_pos htype, PropBody.filterBody_eq_narrow]
    cases p1.body.narrow p1.type.compareValue p2.body <;> rfl
  · rw [if_pos htype, if_neg htype]
    rfl

section PropsFilter

variable {filter props : List PropPod} {p1 p2 : PropPod}

theorem propsFilter_cons_none (h : PropPod.findProp filter p1.key = none) :
    propsFilter filter (p1 :: props) b = propsFilter filter props (b.rawPadded p1.bytes).1 := by
  rw [propsFilter, h]

theorem propsFilter_cons_some (h : PropPod.findProp filter p1.key = some p2) :
    propsFilter filter (p1 :: props) b =
      if (b.filterProp p1 p2).2 ≠ .ok then b.filterProp p1 p2
      else propsFilter filter props (b.filterProp p1 p2).1 := by
  rw [propsFilter, h]

theorem propsFilter_snd :
    (propsFilter filter props b).2 = .ofExcept (props.mapM (PropPod.filterBy filter)) := by
  induction props generalizing b with
  | nil => rfl
  | cons p1 props ih =>
    cases hfind : PropPod.findProp filter p1.key with
    | none =>
      rw [propsFilter_cons_none hfind, ih, mapM_cons_of_ok (PropPod.filterBy_of_none hfind)]
      cases props.mapM (PropPod.filterBy filter) <;> rfl
    | some p2 =>
      have hturn : (b.filterProp p1 p2).2 = .ofExcept (p1.filter p2) := filterProp_snd
      have hby := PropPod.filterBy_of_some hfind
      rw [propsFilter_cons_some hfind]
      cases hnp : p1.filter p2 with
      | error res =>
        rw [hnp] at hturn hby
        have hres : (b.filterProp p1 p2).2 = res := hturn
        rw [if_pos (hres ▸ PropPod.filter_ne_ok hnp), mapM_cons_error hby]
        exact hres
      | ok np =>
        rw [hnp] at hturn hby
        have hok : (b.filterProp p1 p2).2 = .ok := hturn
        rw [if_neg (not_not.mpr hok), ih, mapM_cons_of_ok hby]
        cases props.mapM (PropPod.filterBy filter) <;> rfl

end PropsFilter

/-- `spa_format_filter` is successful exactly when the two have a format in common. -/
theorem formatFilter_snd {filter : Option SpaFormat} {format : SpaFormat} :
    (b.formatFilter filter format).2 = .ok ↔ (format.filtered filter).isSome := by
  cases filter with
  | none => exact iff_of_true rfl rfl
  | some filter =>
    unfold formatFilter SpaFormat.filtered
    dsimp only
    by_cases hmedia : filter.mediaType = format.mediaType ∧
        filter.mediaSubtype = format.mediaSubtype
    · rw [if_neg (by simpa using hmedia), if_pos hmedia]
      dsimp only
      rw [propsFilter_snd]
      cases hnps : format.props.mapM (PropPod.filterBy filter.props) with
      | error res =>
        obtain ⟨p1, -, hp1⟩ := exists_of_mapM_error hnps
        exact iff_of_false (PropPod.filterBy_ne_ok hp1) Bool.false_ne_true
      | ok nps => exact iff_of_true rfl rfl
    · rw [if_pos (not_and_or.mp hmedia), if_neg hmedia]
      exact iff_of_false (show SpaResult.invalidMediaType ≠ .ok by decide) Bool.false_ne_true

end SpaPODBuilder

/-! ## What a turn appends -/

namespace PropPod

section Fixed

variable {p : PropPod} {value : List UInt8} {flags : UInt32}

/-- `fix_default` does not change the size of a property. -/
theorem length_bytes_fixed (h : p.Built) : p.fixed.bytes.length = p.bytes.length := by
  rcases h.range with hrange | hrange | ⟨hrange, lo, hi, halternatives⟩
  · rw [fixed, PropBody.fixDefault, hrange]
  · have hbest : (p.best.elim p p.setValue).bytes.length = p.bytes.length := by
      cases hbest : p.best with
      | none => rfl
      | some value => exact length_bytes_setValue (h.sized value (best_mem hbest))
    rw [fixed_enum hrange]
    split
    · rw [length_bytes_setFlags, hbest]
    · exact hbest
  · have hlo : lo.length = p.body.value.length := h.sized lo (by rw [halternatives]; simp)
    have hhi : hi.length = p.body.value.length := h.sized hi (by rw [halternatives]; simp)
    rw [fixed_minMax hrange halternatives,
      length_bytes_copyIf (hhi.trans (length_copyIf hlo).symm), length_bytes_copyIf hlo]

/-! ### What is narrowed -/

section Narrow

variable {p1 p2 : PropPod} {alternatives : List (List UInt8)} {n : Nat}

theorem WellFormed.sized_choices (h : p.WellFormed) :
    ∀ value ∈ p.body.choices, value.length = p.body.value.length := by
  intro value hvalue
  unfold PropBody.choices at hvalue
  split at hvalue
  · exact h.sized value hvalue
  · rw [List.mem_singleton.mp hvalue]

theorem WellFormed.sized_read (h : p.WellFormed) :
    ∀ value ∈ p.body.read, value.length = p.body.value.length := by
  intro value hvalue
  unfold PropBody.read at hvalue
  split at hvalue
  · exact h.sized value hvalue
  · rcases List.mem_cons.mp hvalue with rfl | hvalue
    · rfl
    · exact h.sized value hvalue

theorem WellFormed.length_low (h : p.WellFormed) :
    p.body.low.length = p.body.value.length := by
  unfold PropBody.low
  cases hhead : p.body.read.head? with
  | none => rfl
  | some value => exact h.sized_read value (List.mem_of_head? hhead)

theorem WellFormed.length_high (h : p.WellFormed) :
    p.body.high.length = p.body.value.length := by
  unfold PropBody.high
  cases hget : p.body.read[1]? with
  | none => rfl
  | some value => exact h.sized_read value (List.mem_of_getElem? hget)

/-- Where the values of a filter are written they are as long as those of the property. -/
def SizesAgree (p1 p2 : PropPod) : Prop :=
  p1.body.range = .minMax → p2.body.value.length = p1.body.value.length

theorem enumOf_eq_ok {choices : List (List UInt8)}
    (h : PropBody.enumOf choices = .ok (flags, alternatives)) :
    SpaPropRange.of flags = .enum ∧ alternatives = choices := by
  unfold PropBody.enumOf at h
  split at h
  · cases h
  · cases h
    exact ⟨by decide, rfl⟩

/-- What is written behind the default, and the range that is set. -/
theorem sized_narrow (h1 : p1.WellFormed) (h2 : p2.WellFormed) (hsizes : SizesAgree p1 p2)
    (h : p1.body.narrow p1.type.compareValue p2.body = .ok (flags, alternatives)) :
    (∀ value ∈ alternatives, value.length = p1.body.value.length) ∧
      (SpaPropRange.of flags = .none ∨ SpaPropRange.of flags = .enum ∨
        SpaPropRange.of flags = .minMax ∧ ∃ lo hi, alternatives = [lo, hi]) := by
  unfold PropBody.narrow at h
  split at h
  · obtain ⟨hrange, rfl⟩ := enumOf_eq_ok h
    refine ⟨fun value hvalue => ?_, .inr (.inl hrange)⟩
    obtain ⟨a1, ha1, hvalue⟩ := List.mem_flatMap.mp hvalue
    obtain ⟨a2, -, rfl⟩ := List.mem_map.mp hvalue
    exact h1.sized_choices a1 ha1
  · split at h
    · obtain ⟨hrange, rfl⟩ := enumOf_eq_ok h
      refine ⟨fun value hvalue => ?_, .inr (.inl hrange)⟩
      exact h1.sized_choices value (List.mem_filter.mp hvalue).1
    · split at h
      · next hbounds =>
        obtain ⟨hrange, rfl⟩ := enumOf_eq_ok h
        refine ⟨fun value hvalue => ?_, .inr (.inl hrange)⟩
        rw [← hsizes hbounds.1]
        exact h2.sized_choices value (List.mem_filter.mp hvalue).1
      · split at h
        · next hbounds =>
          cases h
          refine ⟨fun value hvalue => ?_, .inr (.inr ⟨by decide, _, _, rfl⟩)⟩
          have hsize := hsizes hbounds.1
          rcases List.mem_cons.mp hvalue with rfl | hvalue
          · split
            · rw [h2.length_low, hsize]
            · exact h1.length_low
          · rw [List.mem_singleton.mp hvalue]
            split
            · exact h1.length_high
            · rw [h2.length_high, hsize]
        · split at h
          · cases h
            exact ⟨fun value hvalue => absurd hvalue List.not_mem_nil, .inl (by decide)⟩
          · cases h

/-- A property with the flags and the alternatives of a narrower one. -/
def narrowed (p : PropPod) (flags : UInt32) (alternatives : List (List UInt8)) : PropPod :=
  { p with body := { p.body with flags := flags, alternatives := alternatives } }

theorem length_narrowed (p1 : PropPod) (flags : UInt32) (alternatives : List (List UInt8)) :
    (p1.narrowed flags alternatives).bytes.length =
      16 + ((Pod.withHeader p1.type p1.body.value).length + alternatives.flatten.length) := by
  rw [length_bytes, Pod.length_withHeader]
  show 24 + p1.body.value.length + alternatives.flatten.length = _
  omega

theorem filter_eq_ok {np : PropPod} (h : p1.filter p2 = .ok np) :
    p1.type = p2.type ∧ ∃ flags alternatives,
      p1.body.narrow p1.type.compareValue p2.body = .ok (flags, alternatives) ∧
        np = (p1.narrowed flags alternatives).fixed := by
  unfold filter at h
  split at h
  · next htype =>
    refine ⟨htype, ?_⟩
    rw [PropBody.filterBody_eq_narrow] at h
    cases hnarrow : p1.body.narrow p1.type.compareValue p2.body with
    | error res =>
      rw [hnarrow] at h
      cases h
    | ok narrow =>
      rw [hnarrow] at h
      cases h
      exact ⟨narrow.1, narrow.2, rfl, rfl⟩
  · cases h

theorem built_narrowed (h1 : p1.WellFormed) (h2 : p2.WellFormed) (hsizes : SizesAgree p1 p2)
    (h : p1.body.narrow p1.type.compareValue p2.body = .ok (flags, alternatives)) :
    (p1.narrowed flags alternatives).Built := by
  obtain ⟨hsized, hrange⟩ := sized_narrow h1 h2 hsizes h
  exact ⟨h1.pos, hsized, hrange⟩

end Narrow

end Fixed
end PropPod

namespace SpaPODBuilder

section Turn

variable {b b' : SpaPODBuilder PodBuffer} {p : PropPod} {bs rest : List UInt8} {flags : UInt32}

theorem accepts_changed {change : Mem → Nat → Mem} {ref : Nat} :
    PodStore.accepts (b.changed change ref).data (b.changed change ref).size =
      PodStore.accepts b.data b.size := rfl

/-- A property that has been appended is fixed where it stands. -/
theorem fixDefault_appends (h : Appends b b' (p.bytes ++ rest)) (hbuilt : p.Built)
    (hsmall : p.bytes.length < 2 ^ 31) :
    Appends b (b'.changed fixDefault b.offset) (p.fixed.bytes ++ rest) := by
  have hlength : (p.fixed.bytes ++ rest).length = (p.bytes ++ rest).length := by
    rw [List.length_append, List.length_append, PropPod.length_bytes_fixed hbuilt]
  refine ⟨?_, ?_, ?_, h.inArray, ?_⟩
  · have hview : PodStore.view (b'.changed fixDefault b.offset).data =
        fixDefault (PodStore.view b'.data) b.offset := fixDefault_view
    rw [hview, h.view, PropPod.fixDefault_write hbuilt hsmall]
  · rw [hlength]
    exact h.offset
  · rw [hlength]
    exact h.stack
  · rw [← h.accepts]
    exact accepts_changed

/-- What `spa_pod_builder_push_prop` writes in front of the flags. -/
def propHead (key : UInt32) : List UInt8 := SpaPOD.bytes ⟨8, .prop⟩ ++ toLE 4 key.toNat

theorem length_propHead (key : UInt32) : (propHead key).length = 12 := by
  rw [propHead, List.length_append, SpaPOD.length_bytes, length_toLE]

/-- What a builder is when it has pushed a property. -/
structure Pushed (b b' : SpaPODBuilder PodBuffer) (key flags : UInt32) : Prop where
  view : PodStore.view b'.data =
    (PodStore.view b.data).write b.offset (propHead key ++ toLE 4 flags.toNat)
  offset : b'.offset = b.offset + 16
  stack : b'.stack = ⟨⟨8, .prop⟩, b.offset⟩ :: b.stack.map (SpaPODFrame.grow 16)
  inArray : b'.inArray = true
  accepts : PodStore.accepts b'.data b'.size = PodStore.accepts b.data b.size

theorem pushProp_pushed {key : UInt32} (hroom : b.Room 16) :
    Pushed b (b.pushProp key flags).1 key flags ∧ (b.pushProp key flags).2 = b.offset := by
  have hlength : (propHead key ++ toLE 4 flags.toNat).length = 16 := by
    rw [List.length_append, length_propHead, length_toLE]
  obtain ⟨hraw, href⟩ := raw_appends
    (show b.Room (propHead key ++ toLE 4 flags.toNat).length by rw [hlength]; exact hroom)
  have hbytes : SpaPOD.bytes ⟨8, .prop⟩ ++ (toLE 4 key.toNat ++ toLE 4 flags.toNat) =
      propHead key ++ toLE 4 flags.toNat := by
    rw [propHead, List.append_assoc]
  have hstack := hraw.stack
  have hoffset := hraw.offset
  rw [hlength] at hstack hoffset
  rw [pushProp, pushContainer, hbytes]
  generalize b.raw (propHead key ++ toLE 4 flags.toNat) = start at hraw href hstack hoffset ⊢
  obtain ⟨start, ref⟩ := start
  obtain rfl : ref = b.offset := href
  exact ⟨⟨hraw.view, hoffset, congrArg _ hstack, rfl, hraw.accepts⟩, rfl⟩

/-- What is in memory when `bs` has been written behind what was pushed. -/
theorem Pushed.view_append {key : UInt32} {start : SpaPODBuilder PodBuffer}
    (hpush : Pushed b start key flags) (h : Appends start b' bs) :
    PodStore.view b'.data =
      (PodStore.view b.data).write b.offset (propHead key ++ (toLE 4 flags.toNat ++ bs)) := by
  have hlength : (propHead key ++ toLE 4 flags.toNat).length = 16 := by
    rw [List.length_append, length_propHead, length_toLE]
  rw [h.view, hpush.view, hpush.offset, ← hlength, ← Mem.write_append, List.append_assoc]

/-- The flags that are set in a property that is being built might as well have been pushed
with it. -/
theorem orFlags_appends {key : UInt32} (hroom : b.Room 16)
    (h : Appends (b.pushProp key 0).1 b' bs) :
    Appends (b.pushProp key flags).1 (b'.changed (orFlags flags) b.offset) bs := by
  have hpush0 := (@pushProp_pushed b 0 key hroom).1
  have hpush := (@pushProp_pushed b flags key hroom).1
  have hview := hpush0.view_append h
  have hchanged : PodStore.view (b'.changed (orFlags flags) b.offset).data =
      orFlags flags (PodStore.view b'.data) b.offset := orFlags_view
  have hzero : (PodStore.view b'.data).u32 (b.offset + 12) = 0 := by
    have hholds := (Mem.holds_write (PodStore.view b.data) b.offset
      (propHead key ++ (toLE 4 (0 : UInt32).toNat ++ bs))).right.left
    rw [length_propHead, ← hview] at hholds
    exact hholds.u32
  have hwithin := @Mem.write_within (PodStore.view b.data) b.offset (propHead key)
    (toLE 4 (0 : UInt32).toNat) (toLE 4 flags.toNat) bs (by rw [length_toLE, length_toLE])
  rw [length_propHead, ← hview] at hwithin
  have hor : (.ofNat 0 ||| flags : UInt32) = flags := UInt32.zero_or
  have hlength : (propHead key ++ toLE 4 flags.toNat).length = 16 := by
    rw [List.length_append, length_propHead, length_toLE]
  refine ⟨?_, ?_, ?_, ?_, ?_⟩
  · rw [hchanged, orFlags, hzero, hor, hwithin, hpush.view, hpush.offset, ← hlength,
      ← Mem.write_append, List.append_assoc]
  · rw [hpush.offset, ← hpush0.offset]
    exact h.offset
  · rw [hpush.stack, ← hpush0.stack]
    exact h.stack
  · rw [hpush.inArray, ← hpush0.inArray]
    exact h.inArray
  · rw [hpush.accepts, ← hpush0.accepts, ← h.accepts]
    exact accepts_changed

theorem room_pushProp {key : UInt32} {n : Nat} (h : b.Room (16 + n)) :
    (b.pushProp key flags).1.Room n := by
  have hpush := (@pushProp_pushed b flags key (h.mono (Nat.le_add_right 16 n))).1
  refine ⟨?_, fun i j hij => ?_⟩
  · rw [hpush.offset, Nat.add_assoc]
    exact h.lt
  · rw [hpush.accepts, hpush.offset, Nat.add_assoc]
    exact h.accepts (16 + i) j (by omega)

theorem pushProp_eq (b : SpaPODBuilder PodBuffer) (key flags : UInt32) :
    b.pushProp key flags =
      b.pushContainer ⟨.ofNat (toLE 4 key.toNat ++ toLE 4 flags.toNat).length, .prop⟩
        (toLE 4 key.toNat ++ toLE 4 flags.toNat) := by
  have hlength : (toLE 4 key.toNat ++ toLE 4 flags.toNat).length = 8 := by
    rw [List.length_append, length_toLE, length_toLE]
  rw [pushProp, hlength]
  rfl

theorem foldl_raw_appends {alternatives : List (List UInt8)}
    (h : b.Room alternatives.flatten.length) :
    Appends b (alternatives.foldl (fun b a => (b.raw a).1) b) alternatives.flatten := by
  induction alternatives generalizing b with
  | nil => exact Appends.refl b
  | cons value alternatives ih =>
    rw [List.flatten_cons, List.length_append] at h
    have hraw := (raw_appends (h.mono (Nat.le_add_right _ _))).1
    exact hraw.trans (ih (h.after hraw))

/-- The value and the alternatives of a property that is being built. -/
theorem values_appends {alternatives : List (List UInt8)}
    (h : b.Room ((Pod.withHeader p.type p.body.value).length + alternatives.flatten.length)) :
    Appends b (alternatives.foldl (fun b a => (b.raw a).1)
      (b.raw (Pod.withHeader p.type p.body.value)).1) (p.narrowed flags alternatives).values := by
  have hraw := (raw_appends (h.mono (Nat.le_add_right _ _))).1
  exact hraw.trans (foldl_raw_appends (h.after hraw))

/-- A property that is in the filter too, up to the choice of its default. -/
theorem filterProp_narrowed {p1 p2 : PropPod} {alternatives : List (List UInt8)}
    (hready : Value.Ready b) (htype : p1.type = p2.type)
    (hnarrow : p1.body.narrow p1.type.compareValue p2.body = .ok (flags, alternatives))
    (hroom : b.Room (Pod.aligned (p1.narrowed flags alternatives).bytes).length) :
    ∃ b', Appends b b' (Pod.aligned (p1.narrowed flags alternatives).bytes) ∧
      b.filterProp p1 p2 = (b'.changed fixDefault b.offset, .ok) := by
  have hlength := PropPod.length_narrowed p1 flags alternatives
  have hhead : b.Room (16 + ((Pod.withHeader p1.type p1.body.value).length +
      alternatives.flatten.length)) := by
    rw [← hlength]
    exact hroom.mono (by rw [Pod.length_aligned]; exact Nat.le_add_right _ _)
  have hstart : b.Room 16 := hhead.mono (Nat.le_add_right _ _)
  have hvalues := @values_appends (b.pushProp p1.key 0).1 p1 flags alternatives
    (room_pushProp hhead)
  have hflags := @orFlags_appends b _ _ flags p1.key hstart hvalues
  rw [pushProp_eq b p1.key flags] at hflags
  have hpop := container_appends_aligned hflags hroom hready.aligned
    (hready.inArray.trans hready.stack.symm)
  refine ⟨_, hpop, ?_⟩
  rw [filterProp, if_neg (not_not.mpr htype)]
  dsimp only
  rw [hnarrow, (@pushProp_pushed b 0 p1.key hstart).2]

/-- A property that is in the filter too is appended as far as it agrees with that. -/
theorem filterProp_appends {p1 p2 np : PropPod} (hready : Value.Ready b) (h1 : p1.WellFormed)
    (h2 : p2.WellFormed) (hsizes : p1.SizesAgree p2) (hnp : p1.filter p2 = .ok np)
    (hsmall : np.bytes.length < 2 ^ 31) (hroom : b.Room (Pod.aligned np.bytes).length) :
    Appends b (b.filterProp p1 p2).1 (Pod.aligned np.bytes) := by
  obtain ⟨htype, flags, alternatives, hnarrow, rfl⟩ := PropPod.filter_eq_ok hnp
  have hbuilt := PropPod.built_narrowed h1 h2 hsizes hnarrow
  have hfixed := PropPod.length_bytes_fixed hbuilt
  rw [hfixed] at hsmall
  have haligned : Pod.aligned (p1.narrowed flags alternatives).fixed.bytes =
      (p1.narrowed flags alternatives).fixed.bytes ++
        padding (p1.narrowed flags alternatives).bytes.length := by
    rw [Pod.aligned, hfixed]
  have hroom' : b.Room (Pod.aligned (p1.narrowed flags alternatives).bytes).length := by
    rw [Pod.length_aligned, ← hfixed, ← Pod.length_aligned]
    exact hroom
  obtain ⟨b', hpop, hturn⟩ := filterProp_narrowed hready htype hnarrow hroom'
  rw [haligned, hturn]
  exact fixDefault_appends hpop hbuilt hsmall

theorem length_flatMap_mod {α : Type} (bytes : α → List UInt8) (as : List α) :
    (as.flatMap fun a => Pod.aligned (bytes a)).length % 8 = 0 := by
  induction as with
  | nil => rfl
  | cons a as ih =>
    have hmod := Pod.length_aligned_mod (bytes a)
    rw [List.flatMap_cons, List.length_append]
    omega

/-- What is appended when all of the properties agree with the filter. -/
theorem propsFilter_appends {filter props nps : List PropPod} (hready : Value.Ready b)
    (h1 : ∀ p ∈ props, p.WellFormed) (h2 : ∀ p ∈ filter, p.WellFormed)
    (hsizes : ∀ p1 ∈ props, ∀ p2 ∈ PropPod.findProp filter p1.key, p1.SizesAgree p2)
    (hnps : props.mapM (PropPod.filterBy filter) = .ok nps)
    (hsmall : (nps.flatMap fun p => Pod.aligned p.bytes).length < 2 ^ 31)
    (hroom : b.Room (nps.flatMap fun p => Pod.aligned p.bytes).length) :
    Appends b (propsFilter filter props b).1 (nps.flatMap fun p => Pod.aligned p.bytes) := by
  induction props generalizing b nps with
  | nil =>
    cases hnps
    exact Appends.refl b
  | cons p1 props ih =>
    obtain ⟨np, rest, hnp, hrest, rfl⟩ := mapM_cons_ok hnps
    rw [List.flatMap_cons, List.length_append] at hsmall hroom
    have hle : np.bytes.length ≤ (Pod.aligned np.bytes).length := by
      rw [Pod.length_aligned]
      exact Nat.le_add_right _ _
    have hhere := hroom.mono (Nat.le_add_right _ _)
    -- what the turn appends
    obtain ⟨b', happends, hturn⟩ : ∃ b', Appends b b' (Pod.aligned np.bytes) ∧
        propsFilter filter (p1 :: props) b = propsFilter filter props b' := by
      cases hfind : PropPod.findProp filter p1.key with
      | none =>
        rw [PropPod.filterBy_of_none hfind] at hnp
        cases hnp
        exact ⟨_, rawPadded_appends hhere, propsFilter_cons_none hfind⟩
      | some p2 =>
        rw [PropPod.filterBy_of_some hfind] at hnp
        have hmem : p2 ∈ filter := List.mem_of_find?_eq_some hfind
        have hok : (b.filterProp p1 p2).2 = .ok := by
          rw [filterProp_snd, hnp]
          rfl
        refine ⟨_, filterProp_appends hready (h1 p1 List.mem_cons_self) (h2 p2 hmem)
          (hsizes p1 List.mem_cons_self p2 hfind) hnp (by omega) hhere, ?_⟩
        rw [propsFilter_cons_some hfind, if_neg (not_not.mpr hok)]
    rw [hturn]
    exact happends.trans (ih (hready.after happends (Pod.length_aligned_mod _))
      (fun p hp => h1 p (List.mem_cons_of_mem _ hp))
      (fun p hp => hsizes p (List.mem_cons_of_mem _ hp)) hrest (by omega) (hroom.after happends))

theorem pushFormat_eq (b : SpaPODBuilder PodBuffer) (type mediaType mediaSubtype : UInt32) :
    b.pushFormat type mediaType mediaSubtype =
      b.pushContainer ⟨.ofNat (formatFields 0 type mediaType mediaSubtype).length, .object⟩
        (formatFields 0 type mediaType mediaSubtype) := by
  rw [pushFormat, length_formatFields]
  rfl

theorem length_pushContainer (header : SpaPOD) (fields : List UInt8) :
    (b.pushContainer header fields).1.stack.length = b.stack.length + 1 := by
  show (_ :: b.stack.map _).length = _
  rw [List.length_cons, List.length_map]

/-- The frames are those that there were before. -/
theorem drop_stack {b₀ : SpaPODBuilder PodBuffer} {depth : Nat} (ha : Appends b₀ b' bs)
    (hdepth : b₀.stack.length = depth) :
    { b' with stack := b'.stack.drop (b'.stack.length - depth) } = b' := by
  have hlength : b'.stack.length = depth := by
    rw [ha.stack, List.length_map, hdepth]
  rw [hlength, Nat.sub_self, List.drop_zero]

/-- `spa_format_filter` appends the format that a format and a filter have in common. -/
theorem formatFilter_appends {filter : Option SpaFormat} {format : SpaFormat}
    (hready : Value.Ready b)
    (hsizes : ∀ φ ∈ filter, ∀ p1 ∈ format.props, ∀ p2 ∈ PropPod.findProp φ.props p1.key,
      p1.SizesAgree p2)
    (hbytes : format.filtered filter = some bs) (hsmall : bs.length < 2 ^ 31)
    (hroom : b.Room (Pod.aligned bs).length) :
    Appends b (b.formatFilter filter format).1 (Pod.aligned bs) := by
  cases filter with
  | none =>
    obtain rfl : format.bytes = bs := Option.some.inj hbytes
    rw [formatFilter]
    dsimp only
    exact rawPadded_appends hroom
  | some filter =>
    obtain ⟨hmedia, nps, hnps, rfl⟩ := SpaFormat.filtered_eq_some hbytes
    have hmod := length_flatMap_mod PropPod.bytes nps
    have hlength : (formatFields 0 filter.type filter.mediaType filter.mediaSubtype ++
        nps.flatMap fun p => Pod.aligned p.bytes).length =
          40 + (nps.flatMap fun p => Pod.aligned p.bytes).length := by
      rw [List.length_append, length_formatFields]
    have haligned : ∀ {bs : List UInt8}, bs.length % 8 = 0 →
        Pod.aligned (Pod.withHeader .object bs) = Pod.withHeader .object bs := by
      intro bs hbs
      apply Pod.aligned_of_mod
      rw [Pod.length_withHeader]
      omega
    rw [haligned (by rw [hlength]; omega)] at hroom ⊢
    rw [Pod.length_withHeader, hlength] at hsmall
    have hroom' := hroom
    rw [Pod.length_withHeader] at hroom'
    rw [formatFilter]
    dsimp only
    rw [if_neg (not_or.mpr ⟨not_not.mpr hmedia.1, not_not.mpr hmedia.2⟩), pushFormat_eq]
    refine Value.build_container .object _ (by rw [length_formatFields]; rfl) hready hroom'
      (by rw [length_formatFields]) hmod fun hready' hroom'' => ?_
    have happends := propsFilter_appends hready' format.wellFormed_props filter.wellFormed_props
      (hsizes filter rfl) hnps (by omega) hroom''
    rw [drop_stack happends (length_pushContainer _ _)]
    exact happends

end Turn
end SpaPODBuilder
end Pinos

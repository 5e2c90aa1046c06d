import Pinos.Client.WritePod
import Pinos.Spa.PodStruct

/-
Values in structs that are added through `write_pod`.

Every value is a few writes, and `along_reserved_iff` says that they have left the
memory behind the buffer alone if and only if each of them fits.
-/

namespace Pinos

open ByteMem

/-- The writes of a value outside of arrays. -/
def PodCall.writes (c : PodCall) : List MarshalCall :=
  match Entry.of c with
  | .primitive head none body =>
    .raw head :: (body.map fun bytes => [.raw bytes, .raw (padding bytes.length)]).getD []
  | .primitive head (some header) _ => [.push header (head.drop 8)]
  | .extra body => [.raw body, .raw (padding body.length)]
  | .pop => [.pop]

/-- The values that messages are made of, and their structs. -/
inductive PodCall.Plain : PodCall → Prop
  | value {c : PodCall} : c.isField = true → Plain c
  | push : Plain .pushStruct
  | pop : Plain .pop

namespace Marshal

open SpaPODBuilder

/-- A builder outside of arrays. -/
structure Flat (b : SpaPODBuilder ConnectionStore) : Prop where
  inArray : b.inArray = false
  first : b.first = false
  stack : ∀ frame ∈ b.stack, frame.pod.isArrayLike = false

variable {s : Marshal} {b : SpaPODBuilder ConnectionStore}

theorem flat_grow {n : Nat} {frames : List SpaPODFrame}
    (h : ∀ frame ∈ frames, frame.pod.isArrayLike = false) :
    ∀ frame ∈ frames.map (SpaPODFrame.grow n), frame.pod.isArrayLike = false := by
  intro frame hframe
  obtain ⟨frame', hmem, rfl⟩ := List.mem_map.mp hframe
  exact h frame' hmem

theorem Flat.raw (h : Flat b) (bytes : List UInt8) : Flat (b.raw bytes).1 :=
  ⟨h.inArray, h.first, flat_grow h.stack⟩

theorem Flat.first_eq (h : Flat b) : { b with first := false } = b := by
  obtain ⟨data, size, offset, stack, inArray, first⟩ := b
  obtain rfl : first = false := h.first
  rfl

theorem Flat.padOut (h : Flat b) (n : Nat) : b.padOut n = (b.raw (padding n)).1 := by
  rw [SpaPODBuilder.padOut, h.inArray, if_neg Bool.false_ne_true]

theorem Flat.pad (h : Flat b) (n : Nat) : Flat (b.pad n) := by
  rw [SpaPODBuilder.pad]
  split
  · exact h
  · exact h.raw _

theorem Flat.pop (h : Flat b) : Flat b.pop := by
  rw [SpaPODBuilder.pop]
  split
  · exact h
  next frame rest hstack =>
  have hrest : ∀ frame ∈ rest, frame.pod.isArrayLike = false := by
    intro frame hmem
    apply h.stack
    rw [hstack]
    exact List.mem_cons_of_mem _ hmem
  have hin : stackInArray rest = false := by
    cases rest with
    | nil => rfl
    | cons frame rest => exact hrest frame List.mem_cons_self
  apply Flat.pad
  split <;> exact ⟨hin, h.first, hrest⟩

/-- What a value adds is what its writes do. -/
theorem Flat.run_writes (h : Flat s.builder) {c : PodCall} (hc : c.Plain) :
    (Run.run step s c.writes).builder = s.builder.add c ∧ Flat (s.builder.add c) := by
  have hlead : s.builder.lead = true := lead_of_inArray h.inArray
  have hvalue : ∀ head body, Entry.of c = .primitive head none (some body) →
      (Run.run step s c.writes).builder = s.builder.add c ∧ Flat (s.builder.add c) := by
    intro head body hentry
    have hadd : s.builder.add c =
        (((s.builder.raw head).1.raw body).1.raw (padding body.length)).1 := by
      rw [add, hentry, addEntry_value, if_pos hlead, h.first_eq, ((h.raw head).raw body).padOut]
    rw [hadd, PodCall.writes, hentry]
    exact ⟨rfl, ((h.raw head).raw body).raw _⟩
  cases hc with
  | push =>
    have hadd : s.builder.add .pushStruct = (s.builder.pushContainer ⟨0, .struct⟩ []).1 := by
      show s.builder.addEntry (.primitive _ (some _) none) = _
      rw [addEntry_container hlead, h.first_eq]
      rfl
    rw [hadd]
    refine ⟨rfl, rfl, rfl, ?_⟩
    intro frame hframe
    rcases List.mem_cons.mp hframe with rfl | hmem
    · rfl
    · exact (h.raw _).stack frame hmem
  | pop =>
    refine ⟨?_, h.pop⟩
    show (step s .pop).builder = s.builder.pop
    cases hstack : s.builder.stack with
    | nil => simp only [step, SpaPODBuilder.pop, hstack]
    | cons frame rest => simp only [step, hstack]
  | value hfield =>
    cases c with
    | pod pod =>
      have hadd : s.builder.add (.pod pod) =
          ((s.builder.raw (pod.getD .null).bytes).1.raw
            (padding (pod.getD .null).bytes.length)).1 := by
        show s.builder.addEntry (.extra _) = _
        rw [addEntry_extra, (h.raw _).padOut]
      rw [hadd]
      exact ⟨rfl, (h.raw _).raw _⟩
    | int val | id val | long val | string str | bytes data => exact hvalue _ _ rfl
    | _ => cases hfield

theorem Flat.run_values (h : Flat s.builder) {calls : List PodCall} (hcalls : ∀ c ∈ calls, c.Plain) :
    (Run.run step s (calls.flatMap PodCall.writes)).builder = calls.foldl add s.builder := by
  induction calls generalizing s with
  | nil => rfl
  | cons c calls ih =>
    obtain ⟨hadd, hflat⟩ := h.run_writes (hcalls c List.mem_cons_self)
    rw [← hadd] at hflat
    rw [List.flatMap_cons, Run.run_append, ih hflat fun d hd => hcalls d (List.mem_cons_of_mem c hd),
      hadd, List.foldl_cons]

theorem flat_start (out : ConnectionBuffer) : Flat (start out).builder where
  inArray := rfl
  first := rfl
  stack _ h := absurd h List.not_mem_nil

/-! ## The memory of the connection -/

/-- All memory is written by `write_pod`. -/
theorem step_keeps {P : ConnectionStore → Prop} (hwrite : ∀ (store : ConnectionStore) size offset ref
    bytes, P store → P (store.writePod size offset ref bytes).1) (h : P s.builder.data)
    (c : MarshalCall) : P (s.step c).builder.data := by
  have hpad : ∀ d : SpaPODBuilder ConnectionStore, P d.data → ∀ n, P (d.pad n).data := by
    intro d hd n
    rw [SpaPODBuilder.pad]
    split
    · exact hd
    · exact hwrite _ _ _ _ _ hd
  cases c with
  | raw bytes => exact hwrite _ _ _ _ _ h
  | push header fields => exact hwrite _ _ _ _ _ h
  | pop =>
    rw [step]
    split
    · exact h
    next frame rest hstack =>
    show P s.builder.pop.data
    rw [SpaPODBuilder.pop, hstack]
    apply hpad
    dsimp only
    split
    · exact h
    · exact hwrite _ _ _ _ _ h

theorem run_fds (s : Marshal) (calls : List MarshalCall) :
    (Run.run step s calls).builder.data.out.fds = s.builder.data.out.fds := by
  refine Run.run_keeps (fun t : Marshal => t.builder.data.out.fds = s.builder.data.out.fds)
    (fun t c ht => step_keeps (P := fun store => store.out.fds = s.builder.data.out.fds) ?_ ht c)
    rfl calls
  intro store size offset ref bytes hfds
  obtain ⟨maxsize, hsame⟩ := ConnectionStore.makeRoom_eq store.out size offset bytes.length
  show (ConnectionStore.makeRoom _ _ _ _).1.fds = _
  rw [hsame]
  exact hfds

/-- When a byte has been copied behind the memory, it has been. -/
theorem run_overrun (h : s.builder.data.overrun = true) (calls : List MarshalCall) :
    (Run.run step s calls).builder.data.overrun = true := by
  refine Run.run_keeps (fun t : Marshal => t.builder.data.overrun = true)
    (fun t c ht => step_keeps (P := fun store => store.overrun = true) ?_ ht c) h calls
  intro store size offset ref bytes hover
  show (store.overrun || _) = true
  rw [hover, Bool.true_or]

/-- A write for which there is no memory. -/
theorem overrun_of_not_fits {bytes : List UInt8} (h : ¬ s.Fits bytes.length)
    (hsmall : s.builder.offset + bytes.length + 4096 ≤ 2 ^ 32) :
    (s.builder.raw bytes).1.data.overrun = true := by
  obtain ⟨hroom, hbehind⟩ := not_or.mp fun hfits => h ⟨hsmall, hfits⟩
  show (s.builder.data.overrun || decide ((ConnectionStore.makeRoom _ _ _ _).1.bufferMaxsize <
    s.builder.data.data + s.builder.offset + bytes.length)) = true
  rw [ConnectionStore.makeRoom, if_neg hroom, decide_eq_true (Nat.not_le.mp hbehind), Bool.or_true]

theorem offset_raw_le (b : SpaPODBuilder ConnectionStore) (bytes : List UInt8) :
    (b.raw bytes).1.offset ≤ b.offset + bytes.length :=
  Nat.mod_le _ _

theorem offset_pop_le (b : SpaPODBuilder ConnectionStore) : b.pop.offset ≤ b.offset + 8 := by
  have hpad : ∀ (d : SpaPODBuilder ConnectionStore) n, (d.pad n).offset ≤ d.offset + 8 := by
    intro d n
    have hlen := padLength_lt n
    have hraw := offset_raw_le d (padding n)
    rw [length_padding] at hraw
    rw [SpaPODBuilder.pad]
    split <;> omega
  rw [SpaPODBuilder.pop]
  split
  · exact Nat.le_add_right _ _
  · refine (hpad _ _).trans (Nat.add_le_add_right (Nat.le_of_eq ?_) 8)
    split <;> rfl

theorem offset_step_le (s : Marshal) (c : MarshalCall) :
    (s.step c).builder.offset ≤ s.builder.offset + c.length := by
  cases c with
  | raw bytes => exact offset_raw_le s.builder bytes
  | push header fields =>
    have hle := offset_raw_le s.builder (header.bytes ++ fields)
    rw [List.length_append, SpaPOD.length_bytes] at hle
    exact hle
  | pop =>
    rw [step]
    split
    · exact Nat.le_add_right _ _
    · exact (offset_pop_le s.builder).trans (Nat.add_le_add_left (by decide) _)

/-- As long as sizes fit 32 bits, the writes that fit are those that stay inside. -/
theorem along_reserved_iff {buffered : List UInt8} (h : Inv buffered s) {calls : List MarshalCall}
    (hsmall : s.builder.offset + (calls.map MarshalCall.length).sum + 4096 ≤ 2 ^ 32) :
    Run.Along step Reserved s calls ↔ (Run.run step s calls).builder.data.overrun = false := by
  induction calls generalizing s with
  | nil => exact iff_of_true trivial h.backed.overrun
  | cons c calls ih =>
    rw [List.map_cons, List.sum_cons] at hsmall
    rw [Run.run_cons]
    by_cases hok : s.Reserved c
    · have hoffset := offset_step_le s c
      rw [← ih (inv_step h hok) (by omega)]
      exact and_iff_right hok
    · have hbad : (s.step c).builder.data.overrun = true := by
        cases c with
        | raw bytes =>
          have hlen : MarshalCall.length (.raw bytes) = bytes.length := rfl
          exact overrun_of_not_fits hok (by omega)
        | push header fields =>
          have hlen : MarshalCall.length (.push header fields) = 8 + fields.length := rfl
          have hbytes : (header.bytes ++ fields).length = 8 + fields.length := by
            rw [List.length_append, SpaPOD.length_bytes]
          refine overrun_of_not_fits (show ¬ s.Fits (header.bytes ++ fields).length from ?_) ?_
          · rw [hbytes]
            exact hok
          · omega
        | pop =>
          have hlen : MarshalCall.length .pop = 16 := rfl
          exact absurd (show s.builder.offset + 8 + 4096 ≤ 2 ^ 32 by omega) hok
      rw [run_overrun hbad calls]
      exact iff_of_false (fun h => hok h.1) (fun h => by cases h)

/-! ## Sizes -/

theorem size_le {c : PodCall} (hc : c.Plain) : c.size ≤ (c.writes.map MarshalCall.length).sum := by
  cases hc with
  | push => exact Nat.le_refl 8
  | pop => exact Nat.zero_le _
  | value hfield =>
    obtain ⟨⟨type, body⟩, hfield⟩ := Option.isSome_iff_exists.mp hfield
    have hsize : c.size = (fieldBytes type body).length := by
      rw [PodCall.size]
      simp only [hfield]
    have hlong : (fieldBytes type body).length = 8 + (body.length + (padding body.length).length) := by
      rw [fieldBytes, aligned_withHeader, List.length_append, SpaPOD.length_bytes, Pod.aligned,
        List.length_append]
    have hwhole : (fieldBytes type body).length =
        (Pod.withHeader type body).length + (padding (Pod.withHeader type body).length).length := by
      rw [fieldBytes, Pod.aligned, List.length_append]
    rw [hsize]
    cases c with
    | int val | id val | long val | string str | bytes data =>
      cases hfield
      rw [hlong]
      simp only [PodCall.writes, Entry.of, Option.map_some, Option.getD_some, List.map_cons,
        List.map_nil, List.sum_cons, List.sum_nil, MarshalCall.length, SpaPOD.length_bytes]
      omega
    | pod pod =>
      cases pod with
      | none =>
        cases hfield
        exact Nat.le_of_eq hwhole
      | some blob =>
        obtain ⟨ht, rfl, rfl⟩ := Get.field_blob hfield
        rw [hwhole, ← ht]
        exact Nat.le_refl _
    | _ => cases hfield

theorem sizes_le {calls : List PodCall} (hcalls : ∀ c ∈ calls, c.Plain) :
    (calls.map PodCall.size).sum ≤
      ((calls.flatMap PodCall.writes).map MarshalCall.length).sum := by
  induction calls with
  | nil => exact Nat.le_refl 0
  | cons c calls ih =>
    have hone := size_le (hcalls c List.mem_cons_self)
    have hrest := ih fun d hd => hcalls d (List.mem_cons_of_mem c hd)
    rw [List.map_cons, List.sum_cons, List.flatMap_cons, List.map_append, List.sum_append]
    omega

end Marshal

/-- What is written as a struct of values is plain. -/
theorem Writes.plain {calls : List PodCall} {bs : List UInt8} (h : Writes calls bs) :
    ∀ c ∈ calls, c.Plain := by
  induction h with
  | nil => exact fun c hc => absurd hc List.not_mem_nil
  | value hfield _ ih =>
    intro c hc
    rcases List.mem_cons.mp hc with rfl | hc
    · exact .value (by rw [PodCall.isField, hfield]; rfl)
    · exact ih c hc
  | struct _ _ ih ih' =>
    intro c hc
    rcases List.mem_cons.mp hc with rfl | hc
    · exact .push
    rcases List.mem_append.mp hc with hc | hc
    · exact ih c hc
    rcases List.mem_cons.mp hc with rfl | hc
    · exact .pop
    · exact ih' c hc

end Pinos

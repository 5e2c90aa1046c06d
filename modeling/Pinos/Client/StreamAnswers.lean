import Mathlib.Data.List.Count
import Pinos.Client.Stream
import Pinos.Lib.Run

/-
Runs of server requests and of the application's answers to new formats.

A stream keeps the number of one `set_format`.  Another one that comes before the
application has finished the first takes its place, and the completions of both
then carry the second number and `SPA_ID_INVALID`.
-/

namespace Pinos

/-- A message of the server, or a format that the application finishes by itself; a
`set_format` has the calls made while the application is told about the format, and a
`use_buffers` what `mmap` gives for each memory. -/
inductive StreamOp where
  | setFormat (seq : UInt32) (format : Option (List UInt8)) (finishes : List FinishFormat)
  | useBuffers (seq : UInt32) (buffers : List PinosClientNodeBuffer)
      (mmap : MemId → Option UInt64)
  | nodeCommand (seq : UInt32) (command : SpaCommand)
  | addMem (mem : MemId)
  | finishFormat (f : FinishFormat)

/-- A stream, the numbers of the requests so far, the formats that the application has
not finished, the numbers of formats that were replaced before they were finished, and
whether the stream has read through a null pointer. -/
structure StreamUse where
  stream : PinosStream
  asked : List UInt32
  unfinished : Nat
  replaced : List UInt32
  crashed : Bool

namespace StreamUse

open PinosStream

def start (output : Bool) : StreamUse where
  stream := .configured output
  asked := []
  unfinished := 0
  replaced := []
  crashed := false

variable (types : StreamTypes)

def step (s : StreamUse) (op : StreamOp) : StreamUse :=
  if s.crashed then s
  else
    match op with
    | .setFormat seq format finishes =>
      { s with
        stream := s.stream.setFormat seq format finishes
        asked := s.asked ++ [seq]
        unfinished := s.unfinished + 1 - finishes.length
        replaced :=
          if s.stream.pendingSeq = spaIdInvalid then s.replaced
          else s.replaced ++ [s.stream.pendingSeq] }
    | .useBuffers seq buffers mmap =>
      match s.stream.useBuffers types mmap seq buffers with
      | some stream => { s with stream := stream, asked := s.asked ++ [seq] }
      | none => { s with asked := s.asked ++ [seq], crashed := true }
    | .nodeCommand seq command =>
      { s with
        stream := s.stream.nodeCommand types seq command
        asked := if command.type = types.clockUpdate then s.asked else s.asked ++ [seq] }
    | .addMem mem => { s with stream := s.stream.addMem mem }
    | .finishFormat f =>
      { s with stream := s.stream.finishFormat f, unfinished := s.unfinished - 1 }

/-- The application finishes only formats it was told about, each once. -/
def Finishes (s : StreamUse) : StreamOp → Prop
  | .setFormat _ _ finishes => finishes.length ≤ s.unfinished + 1
  | .finishFormat _ => 0 < s.unfinished
  | _ => True

instance : ∀ (s : StreamUse) (op : StreamOp), Decidable (s.Finishes op)
  | s, .setFormat _ _ finishes => inferInstanceAs (Decidable (finishes.length ≤ s.unfinished + 1))
  | s, .finishFormat _ => inferInstanceAs (Decidable (0 < s.unfinished))
  | _, .useBuffers _ _ _ => inferInstanceAs (Decidable True)
  | _, .nodeCommand _ _ => inferInstanceAs (Decidable True)
  | _, .addMem _ => inferInstanceAs (Decidable True)

/-- No format replaces an unfinished one, and buffers name known memories. -/
def Safe (s : StreamUse) : StreamOp → Prop
  | .setFormat _ _ _ => s.stream.pendingSeq = spaIdInvalid
  | .useBuffers _ buffers mmap => ∀ b ∈ buffers, Readable types mmap s.stream.memIds b
  | _ => True

/-! ## Counting answers -/

/-- The books of a stream: each number is asked for as often as it is answered, was
replaced, or is pending; each number that was replaced is answered by `SPA_ID_INVALID`. -/
structure Balanced (asked answers : List UInt32) (pending : UInt32) (unfinished : Nat)
    (replaced : List UInt32) (crashed : Bool) : Prop where
  lengths : asked.length = answers.length + unfinished + crashed.toNat
  waits : pending ≠ spaIdInvalid → 0 < unfinished
  valid : spaIdInvalid ∉ replaced
  counts : crashed = false → ∀ x,
    asked.count x + (replaced.length + 1) * [spaIdInvalid].count x =
      answers.count x + replaced.count x + [pending].count x
        + unfinished * [spaIdInvalid].count x

section Balanced

variable {asked answers replaced : List UInt32} {pending : UInt32} {unfinished : Nat}
  {crashed : Bool} (h : Balanced asked answers pending unfinished replaced crashed)
include h

/-- A request that is answered at once. -/
theorem Balanced.answer (seq : UInt32) :
    Balanced (asked ++ [seq]) (answers ++ [seq]) pending unfinished replaced crashed := by
  obtain ⟨hlength, hpending, hreplaced, hcount⟩ := h
  refine ⟨?_, hpending, hreplaced, fun hcrashed x => ?_⟩
  · rw [List.length_append, List.length_append]
    omega
  · have hx := hcount hcrashed x
    rw [List.count_append, List.count_append]
    omega

/-- A request that is never answered. -/
theorem Balanced.crash (hcrashed : crashed = false) (seq : UInt32) :
    Balanced (asked ++ [seq]) answers pending unfinished replaced true := by
  obtain ⟨hlength, hpending, hreplaced, -⟩ := h
  refine ⟨?_, hpending, hreplaced, fun h => absurd h (by decide)⟩
  rw [hcrashed] at hlength
  rw [List.length_append, hlength]
  rfl

/-- The application is told about a format. -/
theorem Balanced.notify (seq : UInt32) :
    Balanced (asked ++ [seq]) answers seq (unfinished + 1)
      (if pending = spaIdInvalid then replaced else replaced ++ [pending]) crashed := by
  obtain ⟨hlength, -, hreplaced, hcount⟩ := h
  refine ⟨?_, fun _ => Nat.succ_pos _, ?_, fun hcrashed x => ?_⟩
  · rw [List.length_append, List.length_singleton]
    omega
  · split
    · exact hreplaced
    · rename_i hne
      simp [hreplaced, Ne.symm hne]
  · have hx := hcount hcrashed x
    rw [List.count_append, Nat.add_mul unfinished]
    split
    · rename_i heq
      rw [heq] at hx
      omega
    · rw [List.count_append, List.length_append, List.length_singleton,
        Nat.add_mul (replaced.length + 1)]
      omega

/-- The application finishes a format. -/
theorem Balanced.finish (hunfinished : 0 < unfinished) :
    Balanced asked (answers ++ [pending]) spaIdInvalid (unfinished - 1) replaced crashed := by
  obtain ⟨hlength, -, hreplaced, hcount⟩ := h
  refine ⟨?_, fun hne => absurd rfl hne, hreplaced, fun hcrashed x => ?_⟩
  · rw [List.length_append, List.length_singleton]
    omega
  · have hx := hcount hcrashed x
    obtain ⟨n, rfl⟩ : ∃ n, unfinished = n + 1 := ⟨unfinished - 1, by omega⟩
    rw [Nat.add_mul n] at hx
    rw [List.count_append, Nat.add_sub_cancel]
    omega

/-- Once all formats are finished, the answers are those asked for exactly when none
was replaced and the stream has not crashed. -/
theorem Balanced.perm_iff (hunfinished : unfinished = 0) :
    answers.Perm asked ↔ replaced = [] ∧ crashed = false := by
  obtain ⟨hlength, hpending, hreplaced, hcount⟩ := h
  have hinvalid : pending = spaIdInvalid := by
    by_contra hne
    have hpos := hpending hne
    omega
  rw [hinvalid, hunfinished] at hcount
  constructor
  · intro hperm
    have hrunning : crashed = false := by
      have heq := hperm.length_eq
      cases hcrashed : crashed with
      | false => rfl
      | true =>
        rw [hcrashed] at hlength
        simp at hlength
        omega
    refine ⟨?_, hrunning⟩
    have hx := hcount hrunning spaIdInvalid
    rw [hperm.count_eq, List.count_eq_zero_of_not_mem hreplaced, List.count_singleton_self] at hx
    exact List.length_eq_zero_iff.mp (by omega)
  · rintro ⟨hnil, hrunning⟩
    rw [List.perm_iff_count]
    intro x
    have hx := hcount hrunning x
    rw [hnil, List.count_nil, List.length_nil] at hx
    omega

end Balanced

def Books (s : StreamUse) : Prop :=
  Balanced s.asked s.stream.answers s.stream.pendingSeq s.unfinished s.replaced s.crashed

theorem books_start (output : Bool) : (start output).Books :=
  ⟨rfl, fun h => absurd rfl h, List.not_mem_nil, fun _ x => by
    simp [start, configured, answers]⟩

/-- The calls that the application makes while it is told about a format. -/
theorem finishes_balanced {asked replaced : List UInt32} {crashed : Bool}
    (finishes : List FinishFormat) (stream : PinosStream) {unfinished : Nat}
    (h : Balanced asked stream.answers stream.pendingSeq unfinished replaced crashed)
    (hle : finishes.length ≤ unfinished) :
    Balanced asked (finishes.foldl finishFormat stream).answers
      (finishes.foldl finishFormat stream).pendingSeq (unfinished - finishes.length) replaced
      crashed := by
  induction finishes generalizing stream unfinished with
  | nil => exact h
  | cons f finishes ih =>
    rw [List.length_cons] at hle
    have hone := h.finish (by omega)
    obtain ⟨hanswers, hpending⟩ := answers_finishFormat stream f
    rw [← hanswers, ← hpending] at hone
    have hrest := ih _ hone (by omega)
    rwa [List.length_cons, show unfinished - (finishes.length + 1)
      = unfinished - 1 - finishes.length by omega]

theorem Books.step {types : StreamTypes} {s : StreamUse} (h : s.Books) {op : StreamOp}
    (hfinishes : s.Finishes op) : (s.step types op).Books := by
  unfold StreamUse.step
  by_cases hcrashed : s.crashed = true
  · rw [if_pos hcrashed]
    exact h
  rw [if_neg hcrashed]
  have hrunning : s.crashed = false := Bool.eq_false_iff.mpr hcrashed
  cases op with
  | setFormat seq format finishes =>
    have hnotify := h.notify seq
    have hdone := finishes_balanced finishes { s.stream with
      format := format, pendingSeq := seq
      emitted := s.stream.emitted ++ [.formatChanged format] } hnotify hfinishes
    rw [Books]
    dsimp only
    rw [setFormat, answers_setState, (setState_keeps _ _).2]
    exact hdone
  | useBuffers seq buffers mmap =>
    obtain ⟨hrun, -⟩ | ⟨stream, hrun, -, hsent, hpending⟩ :=
      @useBuffers_spec types mmap s.stream seq buffers
    · simp only [hrun]
      exact h.crash hrunning seq
    · simp only [hrun]
      have hanswer := h.answer seq
      rw [← answers_of_sent hsent, ← hpending] at hanswer
      exact hanswer
  | nodeCommand seq command =>
    obtain ⟨hanswers, hpending⟩ := answers_nodeCommand types s.stream seq command
    rw [Books]
    dsimp only
    rw [hanswers, hpending]
    split
    · exact h
    · exact h.answer seq
  | addMem mem =>
    rw [Books]
    dsimp only
    rw [addMem]
    split
    · exact h
    · exact h
  | finishFormat f =>
    obtain ⟨hanswers, hpending⟩ := answers_finishFormat s.stream f
    rw [Books]
    dsimp only
    rw [hanswers, hpending]
    exact h.finish hfinishes

/-! ## Runs -/

/-- Something has gone wrong that no later answer makes good. -/
def Broken (s : StreamUse) : Prop := s.replaced ≠ [] ∨ s.crashed = true

theorem broken_step {types : StreamTypes} {s : StreamUse} {op : StreamOp} (h : s.Broken) :
    (s.step types op).Broken := by
  unfold StreamUse.step
  split
  · exact h
  · rename_i hrunning
    have hreplaced : s.replaced ≠ [] := h.resolve_right hrunning
    cases op with
    | setFormat seq format finishes =>
      left
      show ite _ _ _ ≠ []
      split
      · exact hreplaced
      · simp
    | useBuffers seq buffers mmap =>
      dsimp only
      split
      · exact .inl hreplaced
      · exact .inl hreplaced
    | nodeCommand seq command => exact .inl hreplaced
    | addMem mem => exact .inl hreplaced
    | finishFormat f => exact .inl hreplaced

/-- What breaks a stream is a step that is not safe. -/
theorem broken_iff {types : StreamTypes} {s : StreamUse} (h : ¬ s.Broken) (op : StreamOp) :
    (s.step types op).Broken ↔ ¬ s.Safe types op := by
  obtain ⟨hreplaced, hrunning⟩ := not_or.mp h
  rw [not_not] at hreplaced
  unfold StreamUse.step
  rw [if_neg hrunning]
  cases op with
  | setFormat seq format finishes =>
    show (ite _ _ _ ≠ [] ∨ _) ↔ ¬ s.stream.pendingSeq = spaIdInvalid
    rw [hreplaced]
    split
    · rename_i hpending
      simp [hpending, hrunning]
    · rename_i hpending
      simp [hpending]
  | useBuffers seq buffers mmap =>
    show _ ↔ ¬ ∀ b ∈ buffers, Readable types mmap s.stream.memIds b
    obtain ⟨hrun, hnot⟩ | ⟨stream, hrun, hreads, -⟩ :=
      @useBuffers_spec types mmap s.stream seq buffers
    · simp only [hrun]
      exact iff_of_true (.inr rfl) hnot
    · simp only [hrun]
      exact iff_of_false h (not_not.mpr hreads)
  | nodeCommand seq command => exact iff_of_false h (not_not.mpr trivial)
  | addMem mem => exact iff_of_false h (not_not.mpr trivial)
  | finishFormat f => exact iff_of_false h (not_not.mpr trivial)

/-- Once the application has finished every format it was told about, each request has
been answered exactly once and nothing else, exactly when all steps were safe. -/
theorem run_answers_iff (types : StreamTypes) (output : Bool) (ops : List StreamOp)
    (hfinishes : Run.Along (step types) Finishes (start output) ops)
    (hdone : (Run.run (step types) (start output) ops).unfinished = 0) :
    (Run.run (step types) (start output) ops).stream.answers.Perm
        (Run.run (step types) (start output) ops).asked ↔
      Run.Along (step types) (Safe types) (start output) ops := by
  have hbooks := Run.run_invariant Books
    (fun s op hbooks hop => hbooks.step hop) (books_start output) hfinishes
  rw [hbooks.perm_iff hdone,
    Run.along_iff_not Broken (fun s op => broken_step) (fun s op h => broken_iff h op) (by
      simp [Broken, start]) ops]
  simp [Broken]

def exampleTypes : StreamTypes := ⟨1, 2, 3, 4, 5, 6, by decide, by decide⟩

/-- A format that is finished at once, and one that is finished after a command. -/
theorem run_answers_formats :
    (Run.run (step exampleTypes) (start true)
      [.setFormat 5 (some []) [⟨0, 1⟩], .setFormat 6 none [], .nodeCommand 7 ⟨1, 0, 0, 0, 0, 0⟩,
        .finishFormat ⟨0, 0⟩]).stream.answers.Perm [5, 6, 7] :=
  (run_answers_iff exampleTypes true _ (by decide) (by decide)).mpr
    ⟨rfl, rfl, trivial, trivial, trivial⟩

/-- Two formats before the first is finished: 6 is answered and `SPA_ID_INVALID`, not 5. -/
theorem not_run_answers :
    ¬ ∀ (types : StreamTypes) (output : Bool) (ops : List StreamOp),
      Run.Along (step types) Finishes (start output) ops →
        (Run.run (step types) (start output) ops).unfinished = 0 →
          (Run.run (step types) (start output) ops).stream.answers.Perm
            (Run.run (step types) (start output) ops).asked := by
  intro h
  have hperm := h exampleTypes true
    [.setFormat 5 (some []) [], .setFormat 6 (some []) [], .finishFormat ⟨0, 0⟩,
      .finishFormat ⟨0, 0⟩] (by decide) (by decide)
  exact absurd (hperm.mem_iff (a := 5)) (by decide)

end StreamUse
end Pinos

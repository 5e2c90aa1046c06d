import Pinos.Plugins.V4l2EnumCalls

/-
Which enumerations of `plugins/v4l2/v4l2-utils.c` end.

A pixel format is passed when all of its sizes are.  It is not when a range of intervals passes the
filter, as the size is not left again, and some entry has to be the last one.
-/

namespace Pinos

open StateTransition Halting

namespace V4l2Enum

variable (enum : V4l2Enum)

/-- No pixel format before one stops the enumeration, or repeats. -/
def Passed (k : Nat) : Prop :=
  ∀ i < k, ¬ enum.StopsAt (.ofNat i) ∧ ¬ enum.RepeatsAt (.ofNat i)

def formatsBefore (k : Nat) : Nat := ((List.range k).map fun i => enum.formatsAt (.ofNat i)).sum

/-- The enumeration stops at some pixel format, and the formats of those before it can be
counted. -/
structure EndsAt (k : Nat) : Prop where
  stops : enum.StopsAt (.ofNat k)
  passed : enum.Passed k
  few : enum.formatsBefore k < 2 ^ 32

end V4l2Enum

/-! ## Where a call is -/

namespace SpaV4l2State

/-- The third loop is at an index. -/
def atInterval (s : SpaV4l2State) (i : Nat) : SpaV4l2State := { s with frmivalIndex := .ofNat i }

/-- What is done to a size that does not pass, and to one whose intervals are all seen. -/
def skipSize (s : SpaV4l2State) : SpaV4l2State := { s with frmsizeIndex := s.frmsizeIndex + 1 }

def leaveSize (s : SpaV4l2State) : SpaV4l2State := { s.skipSize with nextFrmsize := true }

def leaveFormat (s : SpaV4l2State) : SpaV4l2State :=
  { s with fmtdescIndex := s.fmtdescIndex + 1, nextFmtdesc := true }

/-- The first loop is at an index. -/
structure SeeksFormat (s : SpaV4l2State) (index : UInt32) : Prop where
  fmtdesc : s.nextFmtdesc = true
  index : s.fmtdescIndex = index

/-- The second loop is at an index, with the pixel format of an index of the first one. -/
structure InFormat (s : SpaV4l2State) (index pixelFormat : UInt32) (j : Nat) : Prop where
  fmtdesc : s.nextFmtdesc = false
  index : s.fmtdescIndex = index
  pixelformat : s.pixelformat = pixelFormat
  frmsizeIndex : s.frmsizeIndex = .ofNat j
  frmsizePixelFormat : s.frmsizePixelFormat = pixelFormat

structure SeeksSize (s : SpaV4l2State) (index pixelFormat : UInt32) (j : Nat) : Prop
    extends s.InFormat index pixelFormat j where
  frmsize : s.nextFrmsize = true

structure HasSize (s : SpaV4l2State) (index pixelFormat : UInt32) (j : Nat) (size : SpaRectangle) :
    Prop extends s.InFormat index pixelFormat j where
  frmsize : s.nextFrmsize = false
  frmivalPixelFormat : s.frmivalPixelFormat = pixelFormat
  width : s.frmivalWidth = size.width
  height : s.frmivalHeight = size.height

variable {s : SpaV4l2State} {index pixelFormat : UInt32} {j : Nat} {size : SpaRectangle}

theorem HasSize.atInterval (h : s.HasSize index pixelFormat j size) (i : Nat) :
    (s.atInterval i).HasSize index pixelFormat j size :=
  ⟨⟨h.fmtdesc, h.index, h.pixelformat, h.frmsizeIndex, h.frmsizePixelFormat⟩, h.frmsize,
    h.frmivalPixelFormat, h.width, h.height⟩

theorem InFormat.skipSize (h : s.InFormat index pixelFormat j) :
    s.skipSize.InFormat index pixelFormat (j + 1) :=
  ⟨h.fmtdesc, h.index, h.pixelformat,
    (congrArg (· + 1) h.frmsizeIndex).trans (V4l2Enum.ofNat_add_one j), h.frmsizePixelFormat⟩

theorem SeeksSize.skipSize (h : s.SeeksSize index pixelFormat j) :
    s.skipSize.SeeksSize index pixelFormat (j + 1) :=
  ⟨h.toInFormat.skipSize, h.frmsize⟩

theorem HasSize.leaveSize (h : s.HasSize index pixelFormat j size) :
    s.leaveSize.SeeksSize index pixelFormat (j + 1) := by
  have hin := h.toInFormat.skipSize
  exact ⟨⟨hin.fmtdesc, hin.index, hin.pixelformat, hin.frmsizeIndex, hin.frmsizePixelFormat⟩, rfl⟩

theorem SeeksSize.haveSize (h : s.SeeksSize index pixelFormat j) {frmsize : V4l2Frmsize}
    (hsize : frmsize.sensible = some size) :
    (s.haveSize frmsize).HasSize index pixelFormat j size := by
  rw [SpaV4l2State.haveSize, hsize]
  exact ⟨⟨h.fmtdesc, h.index, h.pixelformat, h.frmsizeIndex, h.frmsizePixelFormat⟩, rfl,
    h.frmsizePixelFormat, rfl, rfl⟩

theorem SeeksSize.haveNone (h : s.SeeksSize index pixelFormat j) {frmsize : V4l2Frmsize}
    (hsize : frmsize.sensible = none) :
    (s.haveSize frmsize).SeeksSize index pixelFormat (j + 1) := by
  have hin := h.toInFormat.skipSize
  rw [SpaV4l2State.haveSize, hsize]
  exact ⟨⟨hin.fmtdesc, hin.index, hin.pixelformat, hin.frmsizeIndex, hin.frmsizePixelFormat⟩,
    h.frmsize⟩

theorem seeksFormat_leaveFormat (h : s.fmtdescIndex = index) :
    s.leaveFormat.SeeksFormat (index + 1) :=
  ⟨rfl, congrArg (· + 1) h⟩

theorem SeeksFormat.haveFmtdesc (h : s.SeeksFormat index) (pixelformat : UInt32) :
    (s.haveFmtdesc pixelformat).SeeksSize index pixelformat 0 :=
  ⟨⟨rfl, h.index, rfl, rfl, rfl⟩, rfl⟩

end SpaV4l2State

namespace V4l2Entry

variable {α : Type} {entries pre rest : List (Option α)} {entry : Option α}

theorem at_append (h : entries = pre ++ entry :: rest) (hlt : entries.length < 2 ^ 32) :
    V4l2Entry.at entries (.ofNat pre.length) =
      match entry with
      | none => .skipped
      | some entry => .found entry := by
  have hpre : pre.length < 2 ^ 32 := by
    rw [h, List.length_append] at hlt
    omega
  rw [V4l2Entry.at, UInt32.toNat_ofNat_of_lt' hpre, h,
    List.getElem?_append_right (Nat.le_refl _), Nat.sub_self]
  cases entry <;> rfl

theorem at_length (hlt : entries.length < 2 ^ 32) :
    V4l2Entry.at entries (.ofNat entries.length) = .past := by
  rw [V4l2Entry.at, UInt32.toNat_ofNat_of_lt' hlt, List.getElem?_eq_none (Nat.le_refl _)]

end V4l2Entry

namespace V4l2Enum

variable {enum : V4l2Enum} {index pixelFormat : UInt32} {j : Nat} {size : SpaRectangle}
  {s : SpaV4l2State} {info : FormatInfo}

/-! ## The third loop -/

theorem frmivalAt_atInterval (hs : s.HasSize index pixelFormat j size) (i : Nat) :
    enum.frmivalAt (s.atInterval i).frmivalPixelFormat (s.atInterval i).frmivalWidth
      (s.atInterval i).frmivalHeight (s.atInterval i).frmivalIndex =
        enum.frmivalAt pixelFormat size.width size.height (.ofNat i) := by
  have h := hs.atInterval i
  rw [h.frmivalPixelFormat, h.width, h.height]
  rfl

theorem reaches_frmival (n : Nat) :
    Reaches enum.next ⟨n, .build info, s⟩ ⟨n, .frmival info .start, s.atInterval 0⟩ :=
  reaches_goto rfl n

theorem turn_skipped (hs : s.HasSize index pixelFormat j size) {i : Nat}
    (h : enum.frmivalAt pixelFormat size.width size.height (.ofNat i) = .skipped)
    (framerate : V4l2Framerate) :
    enum.turn (.frmival info framerate) (s.atInterval i) =
      .goto (.frmival info framerate) (s.atInterval (i + 1)) := by
  rw [turn, frmivalAt_atInterval hs, h, SpaV4l2State.atInterval, SpaV4l2State.atInterval,
    ← ofNat_add_one]

theorem turn_discrete (hs : s.HasSize index pixelFormat j size) {i : Nat} {interval : V4l2Fract}
    (h : enum.frmivalAt pixelFormat size.width size.height (.ofNat i) =
      .found (.discrete interval)) (framerate : V4l2Framerate) :
    enum.turn (.frmival info framerate) (s.atInterval i) =
      .goto (.frmival info (framerate.addDiscrete interval)) (s.atInterval (i + 1)) := by
  rw [turn, frmivalAt_atInterval hs, h, SpaV4l2State.atInterval, SpaV4l2State.atInterval,
    ← ofNat_add_one]

/-- The size stays the one that is looked at. -/
theorem turn_range (hs : s.HasSize index pixelFormat j size) {i : Nat} {frmival : V4l2Frmival}
    (hrange : frmival.IsRange)
    (h : enum.frmivalAt pixelFormat size.width size.height (.ofNat i) = .found frmival)
    (info : FormatInfo) (framerate : V4l2Framerate) :
    ∃ format, enum.turn (.frmival info framerate) (s.atInterval i) =
      .ret .ok (some format) (s.atInterval i) := by
  rw [turn, frmivalAt_atInterval hs, h]
  cases frmival with
  | discrete interval => exact hrange.elim
  | continuous intervals => exact ⟨_, rfl⟩
  | stepwise intervals => exact ⟨_, rfl⟩
  | unknown type => exact hrange.elim

/-- From some interval on, the loop comes to the end, or the call returns with the first range. -/
def FrmivalLoop (enum : V4l2Enum) (info : FormatInfo) (s : SpaV4l2State) (n count i : Nat)
    (framerate : V4l2Framerate) (rest : List (Option V4l2Frmival)) : Prop :=
  ((∀ frmival, some frmival ∈ rest → ¬ frmival.IsRange) ∧ ∃ framerate',
    Reaches enum.next ⟨n, .frmival info framerate, s.atInterval i⟩
      ⟨n, .frmival info framerate', s.atInterval count⟩) ∨
  ((∃ frmival, some frmival ∈ rest ∧ frmival.IsRange) ∧ ∃ i',
    Reaches₁ enum.next ⟨n, .frmival info framerate, s.atInterval i⟩
      ⟨n + 1, .fmtdesc, s.atInterval i'⟩)

theorem FrmivalLoop.cons {n count i : Nat} {framerate framerate' : V4l2Framerate}
    {entry : Option V4l2Frmival} {rest : List (Option V4l2Frmival)}
    (hno : ∀ frmival, entry = some frmival → ¬ frmival.IsRange)
    (hturn : enum.turn (.frmival info framerate) (s.atInterval i) =
      .goto (.frmival info framerate') (s.atInterval (i + 1)))
    (h : enum.FrmivalLoop info s n count (i + 1) framerate' rest) :
    enum.FrmivalLoop info s n count i framerate (entry :: rest) := by
  have hstep := reaches_goto hturn n
  rcases h with ⟨hall, framerate'', hreach⟩ | ⟨⟨frmival, hmem, hrange⟩, i', hreach⟩
  · refine .inl ⟨fun frmival hmem => ?_, framerate'', hstep.trans hreach⟩
    rcases List.mem_cons.mp hmem with heq | hmem
    · exact hno frmival heq.symm
    · exact hall frmival hmem
  · exact .inr ⟨⟨frmival, List.mem_cons_of_mem _ hmem, hrange⟩, i',
      Relation.TransGen.trans_right hstep hreach⟩

theorem frmival_loop (hs : s.HasSize index pixelFormat j size) (htyped : ¬ enum.RateMistyped)
    (n : Nat) (framerate : V4l2Framerate) {pre rest : List (Option V4l2Frmival)}
    (hsplit : enum.frmivals pixelFormat size = pre ++ rest) :
    enum.FrmivalLoop info s n (enum.frmivals pixelFormat size).length pre.length framerate
      rest := by
  induction rest generalizing pre framerate with
  | nil =>
    refine .inl ⟨fun _ hmem => (List.not_mem_nil hmem).elim, framerate, ?_⟩
    rw [hsplit, List.append_nil]
    exact Relation.ReflTransGen.refl
  | cons entry rest ih =>
    have hentry := V4l2Entry.at_append hsplit (length_frmivals_lt pixelFormat size)
    rw [← frmivalAt_eq htyped] at hentry
    have hlater : enum.frmivals pixelFormat size = (pre ++ [entry]) ++ rest := by
      rw [hsplit, List.append_assoc, List.singleton_append]
    have ih (framerate : V4l2Framerate) : enum.FrmivalLoop info s n
        (enum.frmivals pixelFormat size).length (pre.length + 1) framerate rest := by
      have hloop := ih framerate hlater
      rwa [List.length_append] at hloop
    cases entry with
    | none => exact .cons nofun (turn_skipped hs hentry framerate) (ih framerate)
    | some frmival =>
      by_cases hrange : frmival.IsRange
      · obtain ⟨format, hturn⟩ := turn_range hs hrange hentry info framerate
        exact .inr ⟨⟨frmival, List.mem_cons_self, hrange⟩, pre.length,
          Relation.TransGen.single (next_ok hturn n)⟩
      · cases frmival with
        | discrete interval =>
          refine .cons (fun _ heq => ?_) (turn_discrete hs hentry framerate) (ih _)
          cases heq
          exact hrange
        | continuous intervals => exact absurd trivial hrange
        | stepwise intervals => exact absurd trivial hrange
        | unknown type =>
          have hmem : some (.unknown type) ∈ enum.frmivals pixelFormat size := by
            rw [hsplit]
            exact List.mem_append_right _ List.mem_cons_self
          exact (known_of_mem hmem).elim

theorem frmival_start (hs : s.HasSize index pixelFormat j size) (htyped : ¬ enum.RateMistyped)
    (info : FormatInfo) (n : Nat) :
    enum.FrmivalLoop info s n (enum.frmivals pixelFormat size).length 0 .start
      (enum.frmivals pixelFormat size) := by
  have hsplit : enum.frmivals pixelFormat size = [] ++ enum.frmivals pixelFormat size := rfl
  exact frmival_loop hs htyped n .start hsplit

/-! ## One size -/

/-- The next call goes on with the second loop. -/
theorem reaches_resumed {index : UInt32} (hs : s.InFormat index pixelFormat j)
    (hinfo : fourccToFormatInfo pixelFormat = some info) (n : Nat) :
    Reaches enum.next ⟨n, .fmtdesc, s⟩ ⟨n, .frmsize info, s⟩ := by
  refine reaches_goto ?_ n
  rw [turn, if_neg (by rw [hs.fmtdesc]; exact Bool.false_ne_true), hs.pixelformat, hinfo]

theorem reaches_build (hs : s.HasSize index pixelFormat j size) (n : Nat) :
    Reaches enum.next ⟨n, .frmsize info, s⟩ ⟨n, .build info, s⟩ := by
  refine reaches_goto ?_ n
  rw [turn, if_neg (by rw [hs.frmsize]; exact Bool.false_ne_true)]

theorem size_passes (hs : s.HasSize index pixelFormat j size)
    (hinfo : fourccToFormatInfo pixelFormat = some info) (hstops : ¬ enum.Stops pixelFormat size)
    (hrepeats : ¬ enum.Repeats pixelFormat size) (n : Nat) :
    ∃ s' : SpaV4l2State, s'.SeeksSize index pixelFormat (j + 1) ∧
      Reaches enum.next ⟨n, .build info, s⟩
        ⟨n + enum.formatsOf pixelFormat size, .frmsize info, s'⟩ := by
  by_cases hnone : enum.intervals pixelFormat size = []
  · refine ⟨_, (hs.atInterval 0).leaveSize, (reaches_frmival n).trans ?_⟩
    rw [formatsOf, if_pos hnone, Nat.add_zero]
    refine reaches_goto ?_ n
    rw [turn, frmivalAt_atInterval hs, frmivalAt_empty hnone]
    exact if_pos rfl
  · have htyped : ¬ enum.RateMistyped := fun h => hstops ⟨h, hnone⟩
    have hcount : (enum.frmivals pixelFormat size).length ≠ 0 := by
      rw [length_frmivals]
      exact fun h => hnone (List.eq_nil_of_length_eq_zero h)
    have hlt : (enum.frmivals pixelFormat size).length < 2 ^ 32 :=
      length_frmivals_lt pixelFormat size
    have hpast := V4l2Entry.at_length hlt
    rw [← frmivalAt_eq htyped] at hpast
    have hindex : UInt32.ofNat (enum.frmivals pixelFormat size).length ≠ 0 := by
      obtain ⟨m, hm⟩ := Nat.exists_eq_succ_of_ne_zero hcount
      rw [hm] at hlt ⊢
      exact ofNat_succ_ne_zero hlt
    rcases frmival_start hs htyped info n with ⟨-, framerate, hreach⟩ | ⟨hrange, -⟩
    · let t := s.atInterval (enum.frmivals pixelFormat size).length
      have hnext : t.leaveSize.SeeksSize index pixelFormat (j + 1) := (hs.atInterval _).leaveSize
      have hret : enum.turn (.frmival info framerate) t =
          .ret .ok (some (enum.format info t framerate)) t.leaveSize := by
        rw [turn, frmivalAt_atInterval hs, hpast]
        exact if_neg hindex
      refine ⟨_, hnext, ((reaches_frmival n).trans hreach).trans ?_⟩
      rw [formatsOf, if_neg hnone]
      exact (reaches_of_next (next_ok hret n)).trans (reaches_resumed hnext.toInFormat hinfo _)
    · exact absurd ⟨htyped, hrange⟩ hrepeats

theorem size_stops (hs : s.HasSize index pixelFormat j size) (h : enum.Stops pixelFormat size)
    (info : FormatInfo) (n : Nat) : enum.next ⟨n, .frmival info .start, s.atInterval 0⟩ = none := by
  have hret : enum.turn (.frmival info .start) (s.atInterval 0) =
      .ret .enumEnd none (s.atInterval 0) := by
    rw [turn, frmivalAt_atInterval hs, frmivalAt_mistyped h.1 h.2]
  exact next_enumEnd hret n

/-- The calls that build a format of one size. -/
def building (info : FormatInfo) (index pixelFormat : UInt32) (j : Nat) (size : SpaRectangle) :
    Set V4l2Calls :=
  {c | c.label = .build info ∧ c.state.HasSize index pixelFormat j size}

/-- The same size is built again by each call. -/
theorem size_repeats (hs : s.HasSize index pixelFormat j size)
    (hinfo : fourccToFormatInfo pixelFormat = some info) (h : enum.Repeats pixelFormat size)
    (n : Nat) : ¬ Halts enum.next ⟨n, .build info, s⟩ := by
  have hreturn : ∀ c ∈ building info index pixelFormat j size,
      ∃ c' ∈ building info index pixelFormat j size, Reaches₁ enum.next c c' := by
    rintro ⟨n, _, s⟩ ⟨rfl, hs⟩
    rcases frmival_start hs h.1 info n with ⟨hno, -⟩ | ⟨-, i, hreach⟩
    · obtain ⟨frmival, hmem, hrange⟩ := h.2
      exact absurd hrange (hno frmival hmem)
    · have hs' := hs.atInterval i
      exact ⟨⟨n + 1, .build info, s.atInterval i⟩, ⟨rfl, hs'⟩,
        (Relation.TransGen.trans_right (reaches_frmival n) hreach).trans_left
          ((reaches_resumed hs'.toInFormat hinfo _).trans (reaches_build hs' _))⟩
  exact not_halts_of_returns hreturn ⟨rfl, hs⟩

/-! ## All sizes of a pixel format -/

/-- From some size on, the loop comes to the end with the formats of those that are passed, or to
the first size that is not. -/
def FrmsizeLoop (enum : V4l2Enum) (info : FormatInfo) (index pixelFormat : UInt32) (count n : Nat)
    (s : SpaV4l2State) (sizes : List SpaRectangle) : Prop :=
  ((∀ size ∈ sizes, ¬ enum.Stops pixelFormat size ∧ ¬ enum.Repeats pixelFormat size) ∧
    ∃ s' : SpaV4l2State, s'.SeeksSize index pixelFormat count ∧
      Reaches enum.next ⟨n, .frmsize info, s⟩
        ⟨n + (sizes.map (enum.formatsOf pixelFormat)).sum, .frmsize info, s'⟩) ∨
  (∃ size ∈ sizes, (enum.Stops pixelFormat size ∨ enum.Repeats pixelFormat size) ∧
    ∃ n' j, ∃ s' : SpaV4l2State, s'.HasSize index pixelFormat j size ∧
      (enum.Stops pixelFormat size → n' = n) ∧
      Reaches enum.next ⟨n, .frmsize info, s⟩ ⟨n', .build info, s'⟩)

theorem FrmsizeLoop.skip {count n : Nat} {s' : SpaV4l2State} {sizes : List SpaRectangle}
    (hstep : Reaches enum.next ⟨n, .frmsize info, s⟩ ⟨n, .frmsize info, s'⟩)
    (h : enum.FrmsizeLoop info index pixelFormat count n s' sizes) :
    enum.FrmsizeLoop info index pixelFormat count n s sizes := by
  rcases h with ⟨hall, t, ht, hreach⟩ | ⟨size, hmem, hleft, n', j', t, ht, hn, hreach⟩
  · exact .inl ⟨hall, t, ht, hstep.trans hreach⟩
  · exact .inr ⟨size, hmem, hleft, n', j', t, ht, hn, hstep.trans hreach⟩

/-- Nothing stops at a framerate unless all sizes before have no intervals. -/
theorem Stops.formatsOf_eq {size' : SpaRectangle} (h : enum.Stops pixelFormat size)
    (hpass : ¬ enum.Stops pixelFormat size') : enum.formatsOf pixelFormat size' = 0 := by
  rw [formatsOf, if_pos]
  exact not_not.mp fun hsome => hpass ⟨h.1, hsome⟩

theorem FrmsizeLoop.cons {count n : Nat} {sizes : List SpaRectangle}
    (hs : s.HasSize index pixelFormat j size) (hinfo : fourccToFormatInfo pixelFormat = some info)
    (h : ∀ n, ∀ s' : SpaV4l2State, s'.SeeksSize index pixelFormat (j + 1) →
      enum.FrmsizeLoop info index pixelFormat count n s' sizes) :
    enum.FrmsizeLoop info index pixelFormat count n s (size :: sizes) := by
  have hbuild : Reaches enum.next ⟨n, .frmsize info, s⟩ ⟨n, .build info, s⟩ := reaches_build hs n
  by_cases hleft : enum.Stops pixelFormat size ∨ enum.Repeats pixelFormat size
  · exact .inr ⟨size, List.mem_cons_self, hleft, n, j, s, hs, fun _ => rfl, hbuild⟩
  · obtain ⟨hstops, hrepeats⟩ := not_or.mp hleft
    obtain ⟨s', hs', hpass⟩ := size_passes hs hinfo hstops hrepeats n
    rcases h _ s' hs' with ⟨hall, t, ht, hreach⟩ | ⟨size', hmem, hleft', n', j', t, ht, hn, hreach⟩
    · refine .inl ⟨?_, t, ht, ?_⟩
      · exact List.forall_mem_cons.mpr ⟨⟨hstops, hrepeats⟩, hall⟩
      · rw [List.map_cons, List.sum_cons, ← Nat.add_assoc]
        exact (hbuild.trans hpass).trans hreach
    · refine .inr ⟨size', List.mem_cons_of_mem _ hmem, hleft', n', j', t, ht, fun hstop => ?_,
        (hbuild.trans hpass).trans hreach⟩
      rw [hn hstop, hstop.formatsOf_eq hstops, Nat.add_zero]

theorem frmsizeAt_seeks (hs : s.SeeksSize index pixelFormat j) :
    enum.frmsizeAt s.frmsizePixelFormat s.frmsizeIndex = enum.frmsizeAt pixelFormat (.ofNat j) := by
  rw [hs.frmsizePixelFormat, hs.frmsizeIndex]

theorem frmsize_loop (htyped : ¬ enum.SizeMistyped)
    (hinfo : fourccToFormatInfo pixelFormat = some info) {pre rest : List (Option V4l2Frmsize)}
    (hsplit : enum.frmsizes pixelFormat = pre ++ rest)
    (hs : s.SeeksSize index pixelFormat pre.length) (n : Nat) :
    enum.FrmsizeLoop info index pixelFormat (enum.frmsizes pixelFormat).length n s
      (rest.filterMap fun frmsize => frmsize.bind V4l2Frmsize.sensible) := by
  induction rest generalizing pre s n with
  | nil =>
    refine .inl ⟨fun _ hmem => (List.not_mem_nil hmem).elim, s, ?_, Relation.ReflTransGen.refl⟩
    rw [hsplit, List.append_nil]
    exact hs
  | cons entry rest ih =>
    have hentry := V4l2Entry.at_append hsplit (length_frmsizes_lt pixelFormat)
    rw [← frmsizeAt_eq htyped, ← frmsizeAt_seeks hs] at hentry
    have hlater : enum.frmsizes pixelFormat = (pre ++ [entry]) ++ rest := by
      rw [hsplit, List.append_assoc, List.singleton_append]
    have ih : ∀ n, ∀ s' : SpaV4l2State, s'.SeeksSize index pixelFormat (pre.length + 1) →
        enum.FrmsizeLoop info index pixelFormat (enum.frmsizes pixelFormat).length n s'
          (rest.filterMap fun frmsize => frmsize.bind V4l2Frmsize.sensible) := by
      intro n s' hs'
      have hlen : (pre ++ [entry]).length = pre.length + 1 := List.length_append
      rw [← hlen] at hs'
      exact ih hlater hs' n
    cases entry with
    | none =>
      have hturn : enum.turn (.frmsize info) s = .goto (.frmsize info) s.skipSize := by
        rw [turn, if_pos hs.frmsize, hentry]
        rfl
      exact .skip (reaches_goto hturn n) (ih n _ hs.skipSize)
    | some frmsize =>
      have hturn : enum.turn (.frmsize info) s = .goto (.frmsize info) (s.haveSize frmsize) := by
        rw [turn, if_pos hs.frmsize, hentry]
      have hstep := reaches_goto hturn n
      simp only [List.filterMap_cons, Option.bind_some]
      cases hsize : frmsize.sensible with
      | none =>
        exact .skip hstep (ih n _ (hs.haveNone hsize))
      | some size =>
        exact .skip hstep (.cons (hs.haveSize hsize) hinfo ih)

theorem frmsize_start (htyped : ¬ enum.SizeMistyped)
    (hinfo : fourccToFormatInfo pixelFormat = some info) (hs : s.SeeksSize index pixelFormat 0)
    (n : Nat) :
    enum.FrmsizeLoop info index pixelFormat (enum.frmsizes pixelFormat).length n s
      (enum.sizes pixelFormat) := by
  have hsplit : enum.frmsizes pixelFormat = [] ++ enum.frmsizes pixelFormat := rfl
  exact frmsize_loop htyped hinfo hsplit hs n

/-! ## One pixel format -/

theorem reaches_nextFmtdesc (n : Nat) :
    Reaches enum.next ⟨n, .nextFmtdesc, s⟩ ⟨n, .fmtdesc, s.leaveFormat⟩ :=
  reaches_goto rfl n

theorem turn_seeks (enum : V4l2Enum) (hs : s.SeeksFormat index) :
    enum.turn .fmtdesc s =
      match enum.fmtdescAt index with
      | .enumEnd | .past => .ret .enumEnd none s
      | .skipped => .goto .nextFmtdesc s
      | .found pixelformat => .goto .fmtdesc (s.haveFmtdesc pixelformat) := by
  cases hentry : enum.fmtdescAt index <;> rw [turn, if_pos hs.fmtdesc, hs.index, hentry]

/-- There is no pixel format at the index, or none that has a type. -/
theorem format_skipped (hs : s.SeeksFormat index) (hend : enum.fmtdescAt index ≠ .enumEnd)
    (hnone : enum.pixelformatAt index = none) (n : Nat) :
    ∃ s' : SpaV4l2State, s'.SeeksFormat (index + 1) ∧
      Reaches enum.next ⟨n, .fmtdesc, s⟩ ⟨n, .fmtdesc, s'⟩ := by
  have hturn := turn_seeks enum hs
  rw [pixelformatAt] at hnone
  cases hentry : enum.fmtdescAt index with
  | past => exact absurd hentry (fmtdescAt_ne_past index)
  | enumEnd => exact absurd hentry hend
  | skipped =>
    rw [hentry] at hturn
    exact ⟨s.leaveFormat, SpaV4l2State.seeksFormat_leaveFormat hs.index,
      (reaches_goto hturn n).trans (reaches_nextFmtdesc n)⟩
  | found pixelformat =>
    rw [hentry] at hturn hnone
    have hunknown : fourccToFormatInfo pixelformat = none := by
      rw [← Option.not_isSome_iff_eq_none]
      intro hsome
      dsimp only at hnone
      rw [if_pos hsome] at hnone
      cases hnone
    have hpixelformat : (s.haveFmtdesc pixelformat).pixelformat = pixelformat := rfl
    have hunfit : enum.turn .fmtdesc (s.haveFmtdesc pixelformat) =
        .goto .nextFmtdesc (s.haveFmtdesc pixelformat) := by
      rw [turn, if_neg (by exact Bool.false_ne_true), hpixelformat, hunknown]
    exact ⟨(s.haveFmtdesc pixelformat).leaveFormat, SpaV4l2State.seeksFormat_leaveFormat hs.index,
      ((reaches_goto hturn n).trans (reaches_goto hunfit n)).trans (reaches_nextFmtdesc n)⟩

theorem format_found (hs : s.SeeksFormat index)
    (hsome : enum.pixelformatAt index = some pixelFormat) (n : Nat) :
    ∃ info, fourccToFormatInfo pixelFormat = some info ∧
      Reaches enum.next ⟨n, .fmtdesc, s⟩ ⟨n, .frmsize info, s.haveFmtdesc pixelFormat⟩ := by
  have hturn := turn_seeks enum hs
  rw [pixelformatAt] at hsome
  split at hsome
  · rename_i pixelformat hentry
    split at hsome
    · rename_i hknown
      cases hsome
      obtain ⟨info, hinfo⟩ := Option.isSome_iff_exists.mp hknown
      rw [hentry] at hturn
      exact ⟨info, hinfo, (reaches_goto hturn n).trans
        (reaches_resumed (hs.haveFmtdesc pixelFormat).toInFormat hinfo n)⟩
    · cases hsome
  · cases hsome

/-- A pixel format whose sizes are all passed is left for the next one. -/
theorem format_passes (hs : s.SeeksFormat index) (hstops : ¬ enum.StopsAt index)
    (hrepeats : ¬ enum.RepeatsAt index) (n : Nat) :
    ∃ s' : SpaV4l2State, s'.SeeksFormat (index + 1) ∧
      Reaches enum.next ⟨n, .fmtdesc, s⟩ ⟨n + enum.formatsAt index, .fmtdesc, s'⟩ := by
  have hend : enum.fmtdescAt index ≠ .enumEnd := fun h => hstops (.inl h)
  rw [formatsAt]
  cases hpixel : enum.pixelformatAt index with
  | none => exact format_skipped hs hend hpixel n
  | some pixelFormat =>
    obtain ⟨info, hinfo, hfound⟩ := format_found hs hpixel n
    have htyped : ¬ enum.SizeMistyped := fun h => hstops (.inr ⟨pixelFormat, hpixel, .inl h⟩)
    rcases frmsize_start htyped hinfo (hs.haveFmtdesc pixelFormat) n with
      ⟨-, t, ht, hreach⟩ | ⟨size, hmem, hleft, -⟩
    · have hlt : (enum.frmsizes pixelFormat).length < 2 ^ 32 := length_frmsizes_lt pixelFormat
      have hpast := V4l2Entry.at_length hlt
      rw [← frmsizeAt_eq htyped, ← frmsizeAt_seeks ht] at hpast
      have hturn : enum.turn (.frmsize info) t = .goto .nextFmtdesc t := by
        rw [turn, if_pos ht.frmsize, hpast]
      exact ⟨t.leaveFormat, SpaV4l2State.seeksFormat_leaveFormat ht.index,
        ((hfound.trans hreach).trans (reaches_goto hturn _)).trans (reaches_nextFmtdesc _)⟩
    · rcases hleft with hstop | hrepeat
      · exact absurd (.inr ⟨pixelFormat, hpixel, .inr ⟨size, hmem, hstop⟩⟩) hstops
      · exact absurd ⟨pixelFormat, hpixel, size, hmem, hrepeat⟩ hrepeats

/-- No format is returned any more. -/
theorem format_stops (hs : s.SeeksFormat index) (h : enum.StopsAt index) (n : Nat) :
    ∃ label t, Reaches enum.next ⟨n, .fmtdesc, s⟩ ⟨n, label, t⟩ ∧
      enum.next ⟨n, label, t⟩ = none := by
  rcases h with hend | ⟨pixelFormat, hpixel, hstops⟩
  · have hturn := turn_seeks enum hs
    rw [hend] at hturn
    exact ⟨_, _, Relation.ReflTransGen.refl, next_enumEnd hturn n⟩
  · obtain ⟨info, hinfo, hfound⟩ := format_found hs hpixel n
    have hseeks := hs.haveFmtdesc pixelFormat
    by_cases htyped : enum.SizeMistyped
    · have hturn : enum.turn (.frmsize info) (s.haveFmtdesc pixelFormat) =
          .ret .enumEnd none (s.haveFmtdesc pixelFormat) := by
        rw [turn, if_pos hseeks.frmsize, frmsizeAt_mistyped htyped]
      exact ⟨_, _, hfound, next_enumEnd hturn n⟩
    · obtain ⟨size, hmem, hstop⟩ := hstops.resolve_left htyped
      rcases frmsize_start htyped hinfo hseeks n with
        ⟨hall, -⟩ | ⟨size', -, hleft, n', j, t, ht, hn, hreach⟩
      · exact absurd hstop (hall size hmem).1
      · rcases hleft with hstop' | hrepeat
        · have hlast := size_stops ht hstop' info n
          rw [hn hstop'] at hreach
          exact ⟨_, _, (hfound.trans hreach).trans (reaches_frmival n), hlast⟩
        · exact absurd hstop.1 hrepeat.1

theorem format_repeats (hs : s.SeeksFormat index) (hstops : ¬ enum.StopsAt index)
    (h : enum.RepeatsAt index) (n : Nat) : ¬ Halts enum.next ⟨n, .fmtdesc, s⟩ := by
  obtain ⟨pixelFormat, hpixel, size, hmem, hrepeat⟩ := h
  obtain ⟨info, hinfo, hfound⟩ := format_found hs hpixel n
  have htyped : ¬ enum.SizeMistyped := fun h => hstops (.inr ⟨pixelFormat, hpixel, .inl h⟩)
  rcases frmsize_start htyped hinfo (hs.haveFmtdesc pixelFormat) n with
    ⟨hall, -⟩ | ⟨size', hmem', hleft, n', j, t, ht, -, hreach⟩
  · exact absurd hrepeat (hall size hmem).2
  · rcases hleft with hstop | hrepeat'
    · exact absurd (.inr ⟨pixelFormat, hpixel, .inr ⟨size', hmem', hstop⟩⟩) hstops
    · rw [halts_iff_of_reaches (hfound.trans hreach)]
      exact size_repeats ht hinfo hrepeat' n'

/-! ## All pixel formats -/

def start : V4l2Calls := { returned := 0, label := .fmtdesc, state := .cleared }

/-- The run up to a pixel format. -/
theorem Passed.reaches {k : Nat} (h : enum.Passed k) :
    ∃ s : SpaV4l2State, s.SeeksFormat (.ofNat k) ∧
      Reaches enum.next start ⟨enum.formatsBefore k, .fmtdesc, s⟩ := by
  induction k with
  | zero => exact ⟨.cleared, ⟨rfl, rfl⟩, Relation.ReflTransGen.refl⟩
  | succ k ih =>
    obtain ⟨s, hs, hreach⟩ := ih fun i hi => h i (Nat.lt_succ_of_lt hi)
    obtain ⟨hstops, hrepeats⟩ := h k (Nat.lt_succ_self k)
    obtain ⟨s', hs', hpass⟩ := format_passes hs hstops hrepeats _
    rw [ofNat_add_one] at hs'
    refine ⟨s', hs', ?_⟩
    rw [formatsBefore, List.range_succ, List.map_append, List.sum_append, List.map_singleton,
      List.sum_singleton]
    exact hreach.trans hpass

theorem succ_ne_self (index : UInt32) : index + 1 ≠ index := by
  intro h
  have hlt := index.toNat_lt
  have hmod : (index + 1).toNat = (index.toNat + 1) % 2 ^ 32 := UInt32.toNat_add _ _
  rw [h] at hmod
  omega

/-- The calls that look for a pixel format. -/
def seeking : Set V4l2Calls := {c | c.label = .fmtdesc ∧ ∃ k, c.state.SeeksFormat (.ofNat k)}

/-- Without an end, and without a size that repeats, there is always a next pixel format. -/
theorem not_halts_of_passed (h : ∀ k, enum.Passed k) : ¬ Halts enum.next start := by
  have hreturn : ∀ c ∈ seeking, ∃ c' ∈ seeking, Reaches₁ enum.next c c' := by
    rintro ⟨n, _, s⟩ ⟨rfl, k, hs⟩
    obtain ⟨hstops, hrepeats⟩ := h (k + 1) k (Nat.lt_succ_self k)
    obtain ⟨s', hs', hreach⟩ := format_passes hs hstops hrepeats n
    refine ⟨⟨n + enum.formatsAt (.ofNat k), .fmtdesc, s'⟩, ⟨rfl, k + 1, ?_⟩, ?_⟩
    · rwa [← ofNat_add_one]
    · rcases Relation.reflTransGen_iff_eq_or_transGen.mp hreach with heq | hreach₁
      · have hsame : s'.fmtdescIndex = s.fmtdescIndex :=
          congrArg (fun c => c.state.fmtdescIndex) heq
        rw [hs'.index, hs.index] at hsame
        exact absurd hsame (succ_ne_self _)
      · exact hreach₁
  exact not_halts_of_returns hreturn ⟨rfl, 0, rfl, rfl⟩

/-- An enumeration that halts does so at a pixel format that is the first one to stop it. -/
theorem stops_of_halts (h : Halts enum.next start) :
    ∃ k, enum.StopsAt (.ofNat k) ∧ enum.Passed k := by
  classical
  have hleft : ∃ k, enum.StopsAt (.ofNat k) ∨ enum.RepeatsAt (.ofNat k) := by
    refine not_forall_not.mp fun hnone => not_halts_of_passed (fun k i _ => ?_) h
    exact not_or.mp (hnone i)
  have hpassed : enum.Passed (Nat.find hleft) := fun i hi => not_or.mp (Nat.find_min hleft hi)
  refine ⟨Nat.find hleft, ?_, hpassed⟩
  by_contra hstops
  obtain ⟨s, hs, hreach⟩ := hpassed.reaches
  rw [halts_iff_of_reaches hreach] at h
  exact format_repeats hs hstops ((Nat.find_spec hleft).resolve_left hstops) _ h

theorem Enumerates.exists_endsAt {s : SpaV4l2State} (h : enum.Enumerates 0 s) :
    ∃ k, enum.EndsAt k := by
  obtain ⟨n, hn, label, t, hreach, hnone⟩ := (enumerates_iff_reaches s).mp h
  obtain ⟨k, hstops, hpassed⟩ := stops_of_halts (halts_iff.mpr ⟨_, hreach, hnone⟩)
  obtain ⟨s', hs', hrun⟩ := hpassed.reaches
  obtain ⟨label', t', hstop, hnone'⟩ := format_stops hs' hstops (enum.formatsBefore k)
  -- both runs end in one configuration
  have hsame : (⟨n, label, t⟩ : V4l2Calls) = ⟨enum.formatsBefore k, label', t'⟩ :=
    Part.mem_unique (mem_eval.mpr ⟨hreach, hnone⟩) (mem_eval.mpr ⟨hrun.trans hstop, hnone'⟩)
  have hcount : n = enum.formatsBefore k := congrArg V4l2Calls.returned hsame
  exact ⟨k, hstops, hpassed, hcount ▸ hn⟩

theorem EndsAt.enumerates {k : Nat} (h : enum.EndsAt k) (s : SpaV4l2State) :
    enum.Enumerates 0 s := by
  obtain ⟨s', hs', hrun⟩ := h.passed.reaches
  obtain ⟨label, t, hstop, hnone⟩ := format_stops hs' h.stops (enum.formatsBefore k)
  exact (enumerates_iff_reaches s).mpr ⟨_, h.few, label, t, hrun.trans hstop, hnone⟩

end V4l2Enum

/-- An enumeration ends if and only if it comes to a pixel format that stops it. -/
theorem enumFormat_ends_iff (enum : V4l2Enum) (s : SpaV4l2State) :
    enum.Enumerates 0 s ↔ ∃ k, enum.EndsAt k :=
  ⟨fun h => h.exists_endsAt, fun ⟨_, h⟩ => h.enumerates s⟩

/-! ## Enumerations that do not end -/

namespace V4l2TypeName

theorem ctorIdx_succ_lt (name : V4l2TypeName) : name.ctorIdx + 1 < 2 ^ 32 := by
  cases name <;> decide

/-- The ids from 1 on. -/
def ids : V4l2Types where
  id name := .ofNat (name.ctorIdx + 1)
  distinct := by
    intro a b h
    have hnat := congrArg UInt32.toNat h
    rw [UInt32.toNat_ofNat_of_lt' a.ctorIdx_succ_lt,
      UInt32.toNat_ofNat_of_lt' b.ctorIdx_succ_lt] at hnat
    have hidx := congrArg V4l2TypeName.ofNat (Nat.succ.inj hnat)
    rwa [ofNat_ctorIdx, ofNat_ctorIdx] at hidx
  nonzero name := V4l2Enum.ofNat_succ_ne_zero name.ctorIdx_succ_lt

end V4l2TypeName

/-- One pixel format, one size, one interval or a range of them. -/
def webcam (frmival : V4l2Frmival) (h : frmival.Known) : V4l2Device where
  formats := [v4l2Fourcc 'Y' 'U' 'Y' 'V']
  framesizes _ := [.discrete 640 480]
  frameintervals _ _ _ := [frmival]
  few_formats := by decide
  few_framesizes _ := by decide
  few_frameintervals _ _ _ := by exact Nat.one_lt_two_pow (by decide)
  framesizes_known _ := List.forall_mem_singleton.mpr trivial
  frameintervals_known _ _ _ := List.forall_mem_singleton.mpr h

/-- All formats of a device with any number of frames in a second. -/
def enumRates : V4l2Enum where
  types := V4l2TypeName.ids
  filter := none
  device := webcam oneToSixty trivial

theorem enumRates_repeatsAt : enumRates.RepeatsAt 0 := by
  refine ⟨v4l2Fourcc 'Y' 'U' 'Y' 'V', by decide, ⟨640, 480⟩, List.mem_singleton.mpr rfl, nofun, ?_⟩
  exact ⟨oneToSixty, List.mem_singleton.mpr rfl, trivial⟩

theorem not_enumRates_stopsAt : ¬ enumRates.StopsAt 0 := by
  rintro (hend | ⟨_, -, ⟨p, hp, -⟩ | ⟨_, -, ⟨p, hp, -⟩, -⟩⟩)
  · cases hend
  · cases hp
  · cases hp

/-- The format that a player asks for. -/
def yuy2Format : SpaFormat where
  id := 0
  type := V4l2TypeName.ids.id .formatType
  mediaType := V4l2TypeName.ids.id .video
  mediaSubtype := V4l2TypeName.ids.id .raw
  contents := [.prop {
    key := V4l2TypeName.ids.id .format
    type := .id
    body := {
      flags := 0
      value := ByteMem.toLE 4 (V4l2TypeName.ids.id .yuy2).toNat
      alternatives := [] } }]
  props_wellFormed := List.forall_mem_singleton.mpr ⟨by decide, nofun, by decide, by decide⟩
  others_typed := by
    intro type body hmem
    cases List.mem_singleton.mp hmem
  small := by decide

/-- The formats of a device that have some video format. -/
def enumYuy2 : V4l2Enum where
  types := V4l2TypeName.ids
  filter := some yuy2Format
  device := webcam (.discrete ⟨1, 30⟩) trivial

theorem not_enumYuy2_stopsAt (index : UInt32) : ¬ enumYuy2.StopsAt index := by
  have hformat : enumFilterFormat V4l2TypeName.ids yuy2Format index =
      if index = 0 then V4l2TypeName.ids.id .yuy2 else 0 := rfl
  rintro (hend | ⟨_, -, ⟨p, hp, -⟩ | ⟨_, -, ⟨p, hp, -⟩, -⟩⟩)
  · have hend : enumYuy2.fmtdescAt index = .enumEnd := hend
    rw [V4l2Enum.fmtdescAt] at hend
    dsimp only [enumYuy2] at hend
    rw [hformat] at hend
    split at hend
    · cases hend
    · cases hend
  · cases hp
  · cases hp

theorem not_enumerates :
    ¬ enumRates.Enumerates 0 .cleared ∧ ¬ enumYuy2.Enumerates 0 .cleared := by
  constructor
  · intro h
    obtain ⟨k, hstops, hpassed, -⟩ := h.exists_endsAt
    cases k with
    | zero => exact not_enumRates_stopsAt hstops
    | succ k => exact (hpassed 0 (Nat.succ_pos k)).2 enumRates_repeatsAt
  · intro h
    obtain ⟨k, hstops, -, -⟩ := h.exists_endsAt
    exact not_enumYuy2_stopsAt _ hstops

end Pinos

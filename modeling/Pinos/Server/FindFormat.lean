import Pinos.Server.Link

/-
`pinos_core_find_format` of `server/core.c`, for two ports that both need a format: which of
the formats that the ports enumerate it finds.
-/

namespace Pinos
namespace Graph

section FindFormat

variable {Format : Type}

/-- Some formats are enumerated, and then there are errors. -/
structure Enumerates (answer : UInt32 → SpaResult × Option Format) (formats : List Format) :
    Prop where
  short : formats.length < 2 ^ 32
  format : ∀ i (h : i.toNat < formats.length),
    (answer i).1.isError = false ∧ (answer i).2 = some formats[i.toNat]
  error : ∀ i : UInt32, formats.length ≤ i.toNat → (answer i).1.isError = true

/-- The filters for the output are the formats of the input, or there is none. -/
def filtersOf (formats : List Format) : List (Option Format) :=
  if formats = [] then [none] else formats.map some

variable (spa : SpaNodes Format) (fixate : Format → Format) (output input : Nat)

/-- The first answer of the output is not that there is no format for a filter. -/
def Answers (filter : Option Format) : Prop :=
  (spa.portEnumFormats output filter 0).1 ≠ .enumEnd

instance (filter : Option Format) : Decidable (Answers spa output filter) :=
  inferInstanceAs (Decidable (_ ≠ _))

/-- The input says that there are no more formats, not at the first index. -/
def EndsAt (i : UInt32) : Prop := i ≠ 0 ∧ (spa.portEnumFormats input none i).1 = .enumEnd

/-- What the search has to find: a format that the output enumerates for one of the filters, or
nothing, if there is none. -/
def Finds (inFormats : List Format) (outFormats : Option Format → List Format)
    (found : Option Format) : Prop :=
  (∀ format ∈ found, ∃ filter ∈ filtersOf inFormats, ∃ f ∈ outFormats filter,
      format = fixate f) ∧
    (found = none → ∀ filter ∈ filtersOf inFormats, outFormats filter = [])

/-- The first answer is an error, and the search is given up. -/
def GivesUp (inFormats : List Format) (outFormats : Option Format → List Format) : Prop :=
  ∃ pre filter post, filtersOf inFormats = pre ++ filter :: post ∧
    (∀ ψ ∈ pre, ¬ Answers spa output ψ) ∧ Answers spa output filter ∧ outFormats filter = []

/-- The filter of a turn. -/
def turnFilter (filter : Option Format) (i : UInt32) : Option Format :=
  if (spa.portEnumFormats input none i).1.isError then filter
  else (spa.portEnumFormats input none i).2

/-- What the loop returns for the first answer of the output. -/
def finish (filter : Option Format) : Option (Option Format) :=
  if (spa.portEnumFormats output filter 0).1.isError then some none
  else (spa.portEnumFormats output filter 0).2.map fun format => some (fixate format)

end FindFormat

variable {Format : Type} {spa : SpaNodes Format} {fixate : Format → Format} {output input : Nat}
  {inFormats : List Format} {outFormats : Option Format → List Format} {filter : Option Format}
  {i : UInt32} {fuel : Nat}

/-! ## Turns of the loop -/

theorem enumFormats_succ :
    enumFormats spa fixate output input (fuel + 1) filter i =
      if (spa.portEnumFormats input none i).1 = .enumEnd ∧ i ≠ 0 then some none
      else if Answers spa output (turnFilter spa input filter i) then
        finish spa fixate output (turnFilter spa input filter i)
      else enumFormats spa fixate output input fuel (turnFilter spa input filter i) (i + 1) := by
  rw [enumFormats]
  dsimp only
  split
  · rfl
  · by_cases hend : (spa.portEnumFormats output (turnFilter spa input filter i) 0).1 = .enumEnd
    · rw [if_neg (show ¬ Answers spa output _ from not_not.mpr hend)]
      exact if_pos hend
    · rw [if_pos (show Answers spa output _ from hend)]
      exact if_neg hend

theorem enumFormats_le {fuel' : Nat} (hle : fuel ≤ fuel') {found : Option Format}
    (h : enumFormats spa fixate output input fuel filter i = some found) :
    enumFormats spa fixate output input fuel' filter i = some found := by
  induction fuel generalizing fuel' filter i with
  | zero => cases h
  | succ fuel ih =>
    obtain ⟨k, rfl⟩ := Nat.exists_eq_add_of_le hle
    rw [Nat.add_right_comm]
    rw [enumFormats_succ] at h ⊢
    split at h
    · next hend =>
      rw [if_pos hend]
      exact h
    · next hend =>
      rw [if_neg hend]
      split at h
      · next hanswers =>
        rw [if_pos hanswers]
        exact h
      · next hanswers =>
        rw [if_neg hanswers]
        exact ih (Nat.le_add_right fuel k) h

section Enumerates

/-- The filter of a turn is the next format, and the turn is made. -/
theorem turn_of_split (hin : Enumerates (spa.portEnumFormats input none) inFormats)
    {done rest : List (Option Format)} {ψ : Option Format}
    (hfilters : filtersOf inFormats = done ++ ψ :: rest) (hdone : done.length = i.toNat)
    (hnone : inFormats = [] → filter = none) :
    turnFilter spa input filter i = ψ ∧
      ¬ ((spa.portEnumFormats input none i).1 = .enumEnd ∧ i ≠ 0) := by
  have hget : (filtersOf inFormats)[i.toNat]? = some ψ := by
    rw [hfilters, ← hdone, List.getElem?_append_right (Nat.le_refl _), Nat.sub_self]
    rfl
  by_cases hnil : inFormats = []
  · rw [filtersOf, if_pos hnil] at hget
    obtain ⟨hi, hψ⟩ := List.getElem?_eq_some_iff.mp hget
    have hzero : i = 0 := UInt32.toNat_inj.mp (Nat.lt_one_iff.mp hi)
    have herror := hin.error i (by rw [hnil]; exact Nat.zero_le _)
    refine ⟨?_, fun h => h.2 hzero⟩
    rw [turnFilter, if_pos herror, hnone hnil, ← hψ, List.getElem_singleton]
  · rw [filtersOf, if_neg hnil, List.getElem?_map] at hget
    obtain ⟨format, hformat, rfl⟩ := Option.map_eq_some_iff.mp hget
    obtain ⟨hi, rfl⟩ := List.getElem?_eq_some_iff.mp hformat
    obtain ⟨hok, hanswer⟩ := hin.format i hi
    refine ⟨?_, fun h => ?_⟩
    · rw [turnFilter, hok, if_neg Bool.false_ne_true, hanswer]
    · rw [h.1] at hok
      exact absurd hok (by decide)

theorem length_filtersOf (hin : Enumerates (spa.portEnumFormats input none) inFormats) :
    (filtersOf inFormats).length < 2 ^ 32 := by
  unfold filtersOf
  split
  · exact Nat.lt_of_sub_ne_zero (by decide : 2 ^ 32 - 1 ≠ 0)
  · rw [List.length_map]
    exact hin.short

/-- The next index, while there is another filter. -/
theorem toNat_next (hin : Enumerates (spa.portEnumFormats input none) inFormats)
    (hi : i.toNat < (filtersOf inFormats).length) : (i + 1).toNat = i.toNat + 1 := by
  have hshort := length_filtersOf hin
  rw [UInt32.toNat_add]
  exact Nat.mod_eq_of_lt (by show i.toNat + 1 < 2 ^ 32; omega)

/-- The loop comes to the first filter that the output answers for. -/
theorem enumFormats_eq_finish (fixate : Format → Format)
    (hin : Enumerates (spa.portEnumFormats input none) inFormats)
    {pre done post : List (Option Format)} {first : Option Format}
    (hfilters : filtersOf inFormats = done ++ (pre ++ first :: post)) (hdone : done.length = i.toNat)
    (hpre : ∀ ψ ∈ pre, ¬ Answers spa output ψ) (hfirst : Answers spa output first)
    (hnone : inFormats = [] → filter = none) :
    ∃ fuel, enumFormats spa fixate output input fuel filter i = finish spa fixate output first := by
  induction pre generalizing done filter i with
  | nil =>
    obtain ⟨hturn, hgoes⟩ := turn_of_split hin hfilters hdone hnone
    refine ⟨1, ?_⟩
    rw [enumFormats_succ, if_neg hgoes, hturn]
    exact if_pos hfirst
  | cons ψ pre ih =>
    obtain ⟨hturn, hgoes⟩ := turn_of_split hin hfilters hdone hnone
    have hi : i.toNat < (filtersOf inFormats).length := by
      rw [hfilters, List.length_append, List.length_append, List.length_cons]
      omega
    have hnone' : inFormats = [] → ψ = none := by
      intro hnil
      have hmem : ψ ∈ filtersOf inFormats := by rw [hfilters]; simp
      rw [filtersOf, if_pos hnil] at hmem
      exact List.mem_singleton.mp hmem
    have hdone' : (done ++ [ψ]).length = (i + 1).toNat := by
      rw [List.length_append, hdone, toNat_next hin hi]
      rfl
    have hfilters' : filtersOf inFormats = done ++ [ψ] ++ (pre ++ first :: post) := by
      rw [hfilters, List.append_assoc]
      rfl
    obtain ⟨fuel, hfuel⟩ :=
      ih hfilters' hdone' (fun ψ' hψ' => hpre ψ' (List.mem_cons_of_mem ψ hψ')) hnone'
    refine ⟨fuel + 1, ?_⟩
    rw [enumFormats_succ, if_neg hgoes, hturn, if_neg (hpre ψ List.mem_cons_self)]
    exact hfuel

/-- The filters that turns have. -/
def FilterAt (inFormats : List Format) (filter : Option Format) (i : UInt32) : Prop :=
  i.toNat < inFormats.length ∨ filter ∈ filtersOf inFormats

theorem filterAt_start : FilterAt inFormats none 0 := by
  cases inFormats with
  | nil => exact .inr List.mem_cons_self
  | cons format formats => exact .inl (Nat.succ_pos _)

theorem FilterAt.turn (h : FilterAt inFormats filter i)
    (hin : Enumerates (spa.portEnumFormats input none) inFormats) :
    turnFilter spa input filter i ∈ filtersOf inFormats := by
  by_cases hi : i.toNat < inFormats.length
  · obtain ⟨hok, hformat⟩ := hin.format i hi
    have hnil : inFormats ≠ [] := List.ne_nil_of_length_pos (Nat.zero_lt_of_lt hi)
    rw [turnFilter, hok, if_neg Bool.false_ne_true, hformat, filtersOf, if_neg hnil]
    exact List.mem_map_of_mem (List.getElem_mem hi)
  · rw [turnFilter, if_pos (hin.error i (Nat.le_of_not_lt hi))]
    exact h.resolve_left hi

/-- Without an answer the loop ends where the input says that there are no more formats. -/
theorem enumFormats_eq_none (fixate : Format → Format)
    (hin : Enumerates (spa.portEnumFormats input none) inFormats)
    (hnot : ∀ ψ ∈ filtersOf inFormats, ¬ Answers spa output ψ) {j : UInt32}
    (hend : EndsAt spa input j) (hle : i.toNat ≤ j.toNat) (hat : FilterAt inFormats filter i) :
    enumFormats spa fixate output input (j.toNat - i.toNat + 1) filter i = some none := by
  generalize hd : j.toNat - i.toNat = d
  induction d generalizing filter i with
  | zero =>
    have hij : i = j := UInt32.toNat_inj.mp (by omega)
    subst hij
    rw [enumFormats_succ, if_pos ⟨hend.2, hend.1⟩]
  | succ d ih =>
    rw [enumFormats_succ]
    split
    · rfl
    · have hj := j.toNat_lt
      have hnext : (i + 1).toNat = i.toNat + 1 := by
        rw [UInt32.toNat_add]
        exact Nat.mod_eq_of_lt (by show i.toNat + 1 < 2 ^ 32; omega)
      rw [if_neg (hnot _ (hat.turn hin))]
      exact ih (by omega) (.inr (hat.turn hin)) (by omega)

/-- When neither the output answers nor the input says so, the loop goes on for ever. -/
theorem enumFormats_endless (hin : Enumerates (spa.portEnumFormats input none) inFormats)
    (hnot : ∀ ψ ∈ filtersOf inFormats, ¬ Answers spa output ψ) (hend : ∀ j, ¬ EndsAt spa input j)
    (hat : FilterAt inFormats filter i) (fuel : Nat) :
    enumFormats spa fixate output input fuel filter i = none := by
  induction fuel generalizing filter i with
  | zero => rfl
  | succ fuel ih =>
    rw [enumFormats_succ, if_neg fun h => hend i ⟨h.2, h.1⟩, if_neg (hnot _ (hat.turn hin))]
    exact ih (.inr (hat.turn hin))

/-- What is found with the first answer. -/
theorem finish_eq (hout : Enumerates (spa.portEnumFormats output filter) (outFormats filter)) :
    finish spa fixate output filter = some ((outFormats filter).head?.map fixate) := by
  rw [finish]
  cases hformats : outFormats filter with
  | nil => exact if_pos (hout.error 0 (by rw [hformats]; exact Nat.le_refl 0))
  | cons f formats =>
    have hlt : (0 : UInt32).toNat < (outFormats filter).length := by
      rw [hformats]
      exact Nat.succ_pos _
    obtain ⟨hok, hformat⟩ := hout.format 0 hlt
    rw [hok, if_neg Bool.false_ne_true, hformat]
    simp only [hformats]
    rfl

end Enumerates

/-! ## The search -/

/-- Both ports need a format. -/
def BothNeedFormat (g : Graph) (output input : Nat) : Prop :=
  g.idleState output (g.ports output).state = .configure ∧
    g.idleState input (g.ports input).state = .configure

/-- For ports that both need a format and enumerate some, the search ends and finds what it has
to find. -/
def Searches (spa : SpaNodes Format) (fixate : Format → Format) (g : Graph) (output input : Nat)
    (inFormats : List Format) (outFormats : Option Format → List Format) : Prop :=
  BothNeedFormat g output input → Enumerates (spa.portEnumFormats input none) inFormats →
    (∀ filter, Enumerates (spa.portEnumFormats output filter) (outFormats filter)) →
      ∃ fuel found, findFormat spa fixate fuel g output input = some found ∧
        Finds fixate inFormats outFormats found

theorem findFormat_eq {g : Graph} (h : BothNeedFormat g output input) (fuel : Nat) :
    findFormat spa fixate fuel g output input =
      enumFormats spa fixate output input fuel none 0 := by
  rw [findFormat, h.1, h.2]
  rfl

/-- The search returns what it has to find, or gives up after an error. -/
theorem findFormat_finds (spa : SpaNodes Format) (fixate : Format → Format) (g : Graph)
    (output input : Nat) (inFormats : List Format) (outFormats : Option Format → List Format)
    (hneed : BothNeedFormat g output input)
    (hin : Enumerates (spa.portEnumFormats input none) inFormats)
    (hout : ∀ filter, Enumerates (spa.portEnumFormats output filter) (outFormats filter))
    (hends : (∃ i, EndsAt spa input i) ∨ ∃ filter ∈ filtersOf inFormats, Answers spa output filter) :
    ∃ fuel found, findFormat spa fixate fuel g output input = some found ∧
      (∀ format ∈ found, ∃ filter ∈ filtersOf inFormats, ∃ f ∈ outFormats filter,
        format = fixate f) ∧
      (found = none → (∀ filter ∈ filtersOf inFormats, outFormats filter = []) ∨
        GivesUp spa output inFormats outFormats) := by
  cases hfind : (filtersOf inFormats).find? fun filter => Answers spa output filter with
  | some first =>
    obtain ⟨hfirst, pre, post, hfilters, hpre⟩ := List.find?_eq_some_iff_append.mp hfind
    have hanswers : Answers spa output first := of_decide_eq_true hfirst
    have hnot : ∀ ψ ∈ pre, ¬ Answers spa output ψ := by
      intro ψ hψ
      have hfalse := hpre ψ hψ
      rwa [Bool.not_eq_true', decide_eq_false_iff_not] at hfalse
    have hzero : ([] : List (Option Format)).length = (0 : UInt32).toNat := rfl
    obtain ⟨fuel, hfuel⟩ := enumFormats_eq_finish fixate hin hfilters hzero hnot hanswers
      fun _ => rfl
    rw [finish_eq (hout first)] at hfuel
    refine ⟨fuel, _, (findFormat_eq hneed fuel).trans hfuel, fun format hformat => ?_,
      fun hnone => .inr ⟨pre, first, post, hfilters, hnot, hanswers, ?_⟩⟩
    · obtain ⟨f, hf, rfl⟩ := Option.map_eq_some_iff.mp hformat
      refine ⟨first, ?_, f, List.mem_of_mem_head? hf, rfl⟩
      rw [hfilters]
      exact List.mem_append_right _ List.mem_cons_self
    · exact List.head?_eq_none_iff.mp (Option.map_eq_none_iff.mp hnone)
  | none =>
    have hnot : ∀ ψ ∈ filtersOf inFormats, ¬ Answers spa output ψ := by
      intro ψ hψ
      have hfalse := List.find?_eq_none.mp hfind ψ hψ
      rwa [decide_eq_true_eq] at hfalse
    have hempty : ∀ ψ ∈ filtersOf inFormats, outFormats ψ = [] := by
      intro ψ hψ
      by_contra hne
      have hok := ((hout ψ).format 0 (List.length_pos_iff.mpr hne)).1
      rw [not_not.mp (hnot ψ hψ)] at hok
      exact absurd hok (by decide)
    rcases hends with ⟨j, hj⟩ | ⟨filter, hfilter, hanswers⟩
    · have hloop := enumFormats_eq_none fixate hin hnot hj (Nat.zero_le _) filterAt_start
      exact ⟨_, none, (findFormat_eq hneed _).trans hloop, fun _ h => (nomatch h),
        fun _ => .inl hempty⟩
    · exact absurd hanswers (hnot filter hfilter)

/-! ## Two ports -/

/-- Plugins of which only the formats matter. -/
def enumerating (answer : Nat → Option Nat → UInt32 → SpaResult × Option Nat) : SpaNodes Nat where
  sendCommand _ _ := .ok
  portGetInfo _ := (.ok, ⟨0, []⟩)
  portGetFormat _ := (.noFormat, none)
  portEnumFormats := answer
  portSetFormat _ _ := .ok
  portAllocBuffers _ _ n := (.ok, n)
  portUseBuffers _ _ _ := .ok

/-- The answers of a port with some formats, and an error behind these. -/
def answering (formats : List Nat) (error : SpaResult) (i : UInt32) : SpaResult × Option Nat :=
  match formats[i.toNat]? with
  | some format => (.ok, some format)
  | none => (error, none)

theorem enumerates_answering {formats : List Nat} {error : SpaResult}
    (hshort : formats.length < 2 ^ 32) (herror : error.isError = true) :
    Enumerates (answering formats error) formats where
  short := hshort
  format i hi := by
    rw [answering, List.getElem?_eq_getElem hi]
    exact ⟨rfl, rfl⟩
  error i hi := by
    rw [answering, List.getElem?_eq_none hi]
    exact herror

/-- An output port 0 and an input port 1. -/
def unconfigured : Graph where
  nodes _ := ⟨.suspended, false, 0, [], [], 0, 0, []⟩
  ports p := ⟨p, if p = 0 then .output else .input, .configure, false, none, none, 0, [], [], none⟩
  links _ := ⟨.init, [], none, none, none, none, none, none, none, 0, []⟩
  blocks := []
  freed := []

theorem unconfigured_needs : BothNeedFormat unconfigured 0 1 := ⟨by decide, by decide⟩

/-- The input has the formats 4 and 5, and the output the format 5 for the second. -/
def second (first : SpaResult) : SpaNodes Nat :=
  enumerating fun p filter =>
    if p = 1 then answering [4, 5] .enumEnd
    else if filter = some 5 then answering [5] .enumEnd
    else answering [] first

def secondFormats (filter : Option Nat) : List Nat := if filter = some 5 then [5] else []

theorem second_enumerates {first : SpaResult} (hfirst : first.isError = true)
    (filter : Option Nat) :
    Enumerates ((second first).portEnumFormats 0 filter) (secondFormats filter) := by
  show Enumerates (if filter = some 5 then answering [5] .enumEnd else answering [] first)
    (if filter = some 5 then [5] else [])
  split
  · exact enumerates_answering (by decide) (by decide)
  · exact enumerates_answering (by decide) hfirst

/-- The format for the second filter is found. -/
theorem findFormat_finds_second :
    ∃ fuel found, findFormat (second .enumEnd) id fuel unconfigured 0 1 = some found ∧
      (∀ format ∈ found, ∃ filter ∈ filtersOf [4, 5], ∃ f ∈ secondFormats filter,
        format = id f) ∧
      (found = none → (∀ filter ∈ filtersOf [4, 5], secondFormats filter = []) ∨
        GivesUp (second .enumEnd) 0 [4, 5] secondFormats) :=
  findFormat_finds (second .enumEnd) id unconfigured 0 1 [4, 5] secondFormats unconfigured_needs
    (enumerates_answering (by decide) (by decide)) (second_enumerates (by decide))
    (.inl ⟨2, by decide, by decide⟩)

/-- The input has an error, and the output says that there are no formats. -/
def endless : SpaNodes Nat :=
  enumerating fun p _ => answering [] (if p = 1 then .invalidPort else .enumEnd)

/-- After an error for the first filter the format for the second is not found, and an input
whose error is not that there are no more formats is asked for ever. -/
theorem not_findFormat_finds :
    ¬ Searches (second .error) id unconfigured 0 1 [4, 5] secondFormats ∧
      ¬ Searches endless id unconfigured 0 1 [] fun _ => [] := by
  constructor
  · intro h
    obtain ⟨fuel, found, hfound, hfinds⟩ := h unconfigured_needs
      (enumerates_answering (by decide) (by decide)) (second_enumerates (by decide))
    have hnone : findFormat (second .error) id 1 unconfigured 0 1 = some none := by decide
    rw [findFormat_eq unconfigured_needs] at hfound hnone
    have hsame := (enumFormats_le (Nat.le_max_left fuel 1) hfound).symm.trans
      (enumFormats_le (Nat.le_max_right fuel 1) hnone)
    cases Option.some.inj hsame
    exact absurd (hfinds.2 rfl (some 5) (by decide)) (by decide)
  · intro h
    have hin : Enumerates (endless.portEnumFormats 1 none) [] :=
      @enumerates_answering [] .invalidPort (by decide) (by decide)
    have hout : ∀ filter, Enumerates (endless.portEnumFormats 0 filter) [] :=
      fun _ => @enumerates_answering [] .enumEnd (by decide) (by decide)
    obtain ⟨fuel, found, hfound, -⟩ := h unconfigured_needs hin hout
    rw [findFormat_eq unconfigured_needs] at hfound
    have hloop : enumFormats endless id 0 1 fuel none 0 = none := by
      refine enumFormats_endless hin (fun ψ hψ => ?_) (fun j hj => ?_) filterAt_start fuel
      · rw [List.mem_singleton.mp hψ]
        decide
      · have hcode : (SpaResult.invalidPort : SpaResult) = .enumEnd := hj.2
        exact absurd hcode (by decide)
    rw [hloop] at hfound
    cases hfound

end Graph
end Pinos

import Pinos.Client.Utils

/-
The lines of a configuration file and the commands that they are parsed as, of `server/command.c`
and `daemon/daemon-config.c`.
-/

namespace Pinos

open CSpan

/-- The characters of a text. -/
def text (s : String) : List UInt8 := s.toList.map fun c => .ofNat c.toNat

inductive PinosCommandFunc where
  | executeCommandModuleLoad
  deriving DecidableEq

/-- A command; its arguments end with a null pointer. -/
structure PinosCommand where
  name : List UInt8
  func : PinosCommandFunc
  args : List (Option (List UInt8))
  nArgs : Nat
  deriving DecidableEq

namespace PinosCommand

def whitespace : List UInt8 := text " \t"

/-- `parse_command_module_load`, with the error text. -/
def parseModuleLoad (line : List UInt8) : Except (List UInt8) PinosCommand :=
  let (args, nArgs) := splitStrv line whitespace 3
  let name := args[0]?.join.getD []
  if args[1]?.join = none then .error (name ++ text " requires a module name")
  else .ok { name, func := .executeCommandModuleLoad, args, nArgs }

/-- `parsers`. -/
def parsers : List (List UInt8 × (List UInt8 → Except (List UInt8) PinosCommand)) :=
  [(text "load-module", parseModuleLoad)]

/-- `pinos_command_parse`. -/
def parse (line : List UInt8) : Except (List UInt8) PinosCommand :=
  let name := line.take (strcspn line whitespace)
  match parsers.find? fun parse => parse.1 = name with
  | some parse => parse.2 line
  | none => .error (text "Command \"" ++ name ++ text "\" does not exist")

end PinosCommand

/-- What `parse_line` takes for blanks. -/
def blanks : List UInt8 := text "\n\r \t"

/-- `parse_line`: the commands of the configuration afterwards, and the error if there is one. -/
def parseLine (commands : List PinosCommand) (filename line : List UInt8) (lineno : Nat) :
    List PinosCommand × Option (List UInt8) :=
  let line := line.take (strcspn line (text "#"))
  let line := (strip line blanks).1
  if line = [] then (commands, none)
  else
    match PinosCommand.parse line with
    | .error err =>
      (commands, some (filename ++ text ":" ++ text (toString lineno) ++ text ": " ++ err))
    | .ok command => (commands ++ [command], none)

/-! ## What lines are for -/

/-- The characters of the first word. -/
def firstWord (s : List UInt8) : List UInt8 :=
  s.takeWhile fun c => decide (c ∉ PinosCommand.whitespace)

/-- What comes behind the first word and the whitespace after it. -/
def afterWord (s : List UInt8) : List UInt8 :=
  (s.dropWhile fun c => decide (c ∉ PinosCommand.whitespace)).dropWhile
    fun c => decide (c ∈ PinosCommand.whitespace)

/-- A name and at most two arguments, the second of which is the rest of the line. -/
def nameAndArgs (s : List UInt8) : List (List UInt8) :=
  firstWord s ::
    if afterWord s = [] then []
    else firstWord (afterWord s) ::
      if afterWord (afterWord s) = [] then [] else [afterWord (afterWord s)]

/-- The command that a line stands for: of the commands there is one only, which needs an
argument. -/
def commandOf (s : List UInt8) : Except (List UInt8) PinosCommand :=
  let args := nameAndArgs s
  if firstWord s ≠ text "load-module" then
    .error (text "Command \"" ++ firstWord s ++ text "\" does not exist")
  else if args.length = 1 then .error (firstWord s ++ text " requires a module name")
  else
    .ok
      { name := firstWord s
        func := .executeCommandModuleLoad
        args := args.map some ++ [none]
        nArgs := args.length }

/-- A line up to its comment. -/
def content (line : List UInt8) : List UInt8 := line.takeWhile fun c => decide (c ∉ text "#")

/-- A line without its comment and the blanks around what precedes it. -/
def core (line : List UInt8) : List UInt8 :=
  ((content line).dropWhile fun c => decide (c ∈ blanks)).rdropWhile fun c => decide (c ∈ blanks)

/-- What a line is to do, by what it says without comment and blanks. -/
def lineOf (commands : List PinosCommand) (filename core : List UInt8) (lineno : Nat) :
    List PinosCommand × Option (List UInt8) :=
  if core = [] then (commands, none)
  else
    match commandOf core with
    | .error err =>
      (commands, some (filename ++ text ":" ++ text (toString lineno) ++ text ": " ++ err))
    | .ok command => (commands ++ [command], none)

/-! ## Commands -/

variable {s line filename : List UInt8} {commands : List PinosCommand} {lineno : Nat} {c : UInt8}

theorem splitWalk_words (str : List UInt8) (h : s ≠ []) :
    splitWalk str PinosCommand.whitespace (some s) =
      some ⟨s, strcspn s PinosCommand.whitespace, afterWord s⟩ := by
  rw [splitWalk_some h, drop_strspn, drop_strcspn]
  rfl

/-- `pinos_split_strv` for at most three tokens. -/
theorem splitStrv_words (h : s ≠ []) :
    splitStrv s PinosCommand.whitespace 3 =
      ((nameAndArgs s).map some ++ [none], (nameAndArgs s).length) := by
  have hnil : ∀ str, splitWalk str PinosCommand.whitespace (some []) = none := fun _ => rfl
  have hstart : splitWalk s PinosCommand.whitespace none =
      splitWalk s PinosCommand.whitespace (some s) := rfl
  have hloop : splitFrom s PinosCommand.whitespace 3
        (splitWalk s PinosCommand.whitespace none) 0 [] =
      (nameAndArgs s, (nameAndArgs s).length) := by
    rw [hstart, splitWalk_words s h, splitFrom, if_pos (by decide), take_strcspn, nameAndArgs]
    dsimp only
    by_cases hone : afterWord s = []
    · rw [hone, hnil, if_pos rfl, splitFrom]
      rfl
    rw [splitWalk_words s hone, if_neg hone, splitFrom, if_pos (by decide), take_strcspn]
    dsimp only
    by_cases htwo : afterWord (afterWord s) = []
    · rw [htwo, hnil, if_pos rfl, splitFrom]
      rfl
    · rw [splitWalk_words s htwo, if_neg htwo, splitFrom, if_neg (by decide)]
      rfl
  rw [splitStrv, hloop]

/-- A `load-module` has an argument. -/
theorem parseModuleLoad_eq (h : s ≠ []) :
    PinosCommand.parseModuleLoad s =
      if (nameAndArgs s).length = 1 then .error (firstWord s ++ text " requires a module name")
      else
        .ok
          { name := firstWord s
            func := .executeCommandModuleLoad
            args := (nameAndArgs s).map some ++ [none]
            nArgs := (nameAndArgs s).length } := by
  unfold PinosCommand.parseModuleLoad
  rw [splitStrv_words h]
  unfold nameAndArgs
  by_cases hone : afterWord s = []
  · rw [if_pos hone]
    rfl
  · rw [if_neg hone]
    rfl

theorem parse_eq (h : s ≠ []) : PinosCommand.parse s = commandOf s := by
  unfold PinosCommand.parse commandOf PinosCommand.parsers
  rw [take_strcspn]
  dsimp only
  rw [List.find?_cons, List.find?_nil]
  have hword : (s.takeWhile fun c => decide (c ∉ PinosCommand.whitespace)) = firstWord s := rfl
  rw [hword]
  by_cases hname : firstWord s = text "load-module"
  · rw [decide_eq_true hname.symm]
    dsimp only
    rw [parseModuleLoad_eq h, if_neg (not_not.mpr hname)]
  · rw [decide_eq_false (Ne.symm hname)]
    dsimp only
    rw [if_pos hname]

theorem head_firstWord : (firstWord s).head? =
    s.head?.filter fun c => decide (c ∉ PinosCommand.whitespace) :=
  List.head?_takeWhile

theorem mem_blanks (h : c ∈ PinosCommand.whitespace) : c ∈ blanks := by
  have hall : PinosCommand.whitespace.all (fun c => decide (c ∈ blanks)) = true := by decide
  exact of_decide_eq_true (List.all_eq_true.mp hall c h)

/-! ## Lines -/

/-- The error for a name that is none of a command. -/
def unknown (name : List UInt8) : List UInt8 :=
  text "Command \"" ++ name ++ text "\" does not exist"

theorem content_eq (line : List UInt8) : line.take (strcspn line (text "#")) = content line :=
  take_strcspn line (text "#")

theorem head_core (h : (core line).head? = some c) : c ∉ blanks := by
  have hprefix := (List.singleton_prefix_iff_head?_eq_some.mpr h).trans
    (List.rdropWhile_prefix (fun c => decide (c ∈ blanks)) _)
  rw [← drop_strspn] at hprefix
  exact not_mem_of_drop_strspn (List.singleton_prefix_iff_head?_eq_some.mp hprefix)

theorem core_of_head (h : ∀ c ∈ (content line).head?, c ∉ blanks) :
    core line = (content line).rdropWhile fun c => decide (c ∈ blanks) := by
  unfold core
  cases hline : content line with
  | nil => rfl
  | cons c rest =>
    have hc : c ∉ blanks := h c (by rw [hline]; rfl)
    rw [List.dropWhile_cons_of_neg (by rwa [decide_eq_true_iff])]

/-- A line that starts with a blank is taken for an unknown command. -/
theorem parseLine_blank (hhead : (content line).head? = some c) (hc : c ∈ blanks) :
    ∃ name, (∀ d ∈ name.head?, d ∈ blanks) ∧
      parseLine commands filename line lineno = (commands,
        some (filename ++ text ":" ++ text (toString lineno) ++ text ": " ++ unknown name)) := by
  have hfirst := head_strip hhead hc
  unfold parseLine
  rw [content_eq]
  dsimp only
  generalize (strip (content line) blanks).1 = s at hfirst
  have hne : s ≠ [] := by
    rintro rfl
    cases hfirst
  have hstart : ∀ d ∈ (firstWord s).head?, d ∈ blanks := by
    intro d hd
    rw [head_firstWord, hfirst] at hd
    have hcd := (Option.filter_eq_some_iff.mp hd).1
    rw [← Option.some.inj hcd]
    exact hc
  have hname : firstWord s ≠ text "load-module" := by
    intro he
    have hd := hstart 108 (he ▸ rfl)
    exact absurd hd (by decide)
  refine ⟨firstWord s, hstart, ?_⟩
  rw [if_neg hne, parse_eq hne, commandOf, if_pos hname]
  rfl

/-- What a line without blanks at its start stands for is none of these errors. -/
theorem lineOf_ne {name core : List UInt8} (hname : ∀ d ∈ name.head?, d ∈ blanks)
    (hcore : ∀ d ∈ core.head?, d ∉ blanks) :
    lineOf commands filename core lineno ≠ (commands,
      some (filename ++ text ":" ++ text (toString lineno) ++ text ": " ++ unknown name)) := by
  unfold lineOf
  cases core with
  | nil => exact fun he => nomatch congrArg Prod.snd he
  | cons d rest =>
    have hd : d ∉ blanks := hcore d rfl
    rw [if_neg (List.cons_ne_nil d rest), commandOf]
    have hhead : (firstWord (d :: rest)).head? = some d := by
      rw [head_firstWord]
      exact Option.filter_eq_some_iff.mpr
        ⟨rfl, decide_eq_true fun hin => hd (mem_blanks hin)⟩
    split
    next err herr =>
      intro he
      have hsame := List.append_cancel_left (Option.some.inj (congrArg Prod.snd he))
      split at herr
      · rw [← Except.error.inj herr, unknown, List.append_assoc, List.append_assoc] at hsame
        have hword := List.append_cancel_right (List.append_cancel_left hsame)
        rw [hword] at hhead
        exact hd (hname d hhead)
      next hload =>
        split at herr
        · rw [← Except.error.inj herr, not_not.mp hload] at hsame
          have hletter : some (108 : UInt8) = some 67 := congrArg List.head? hsame
          exact absurd hletter (by decide)
        · cases herr
    · exact fun he => nomatch congrArg Prod.snd he

/-- A line does what it says without its comment and the blanks around it just when it does not
start with a blank. -/
theorem parseLine_eq_iff (commands : List PinosCommand) (filename line : List UInt8)
    (lineno : Nat) :
    parseLine commands filename line lineno = lineOf commands filename (core line) lineno ↔
      ∀ c ∈ (content line).head?, c ∉ blanks := by
  constructor
  · intro heq c hhead hc
    obtain ⟨name, hname, hline⟩ := @parseLine_blank line filename commands lineno c hhead hc
    exact lineOf_ne hname (fun d => head_core) (heq.symm.trans hline)
  · intro hfirst
    have hstrip := strip_eq hfirst
    unfold parseLine lineOf
    rw [content_eq]
    dsimp only
    rw [hstrip, ← core_of_head hfirst]
    by_cases hempty : core line = []
    · rw [if_pos hempty, if_pos hempty]
    · rw [if_neg hempty, if_neg hempty, parse_eq hempty]

/-- An indented command is not recognised. -/
theorem not_parseLine_eq :
    ¬ ∀ (commands : List PinosCommand) (filename line : List UInt8) (lineno : Nat),
      parseLine commands filename line lineno = lineOf commands filename (core line) lineno := by
  intro h
  have hhead : (content (text " load-module x")).head? = some 32 := by decide
  have hblank : (32 : UInt8) ∈ blanks := by decide
  obtain ⟨name, hname, hline⟩ := @parseLine_blank (text " load-module x") [] [] 1 32 hhead hblank
  exact lineOf_ne hname (fun d => head_core) ((h [] [] (text " load-module x") 1).symm.trans hline)

end Pinos

import LoxLexer.Command.Run
import Mathlib.Data.List.TakeWhile

/-!
# The order of arguments

On a plain command line each argument is an operand, the name of a flag of the dump, which may be
cut short, or an option that there is not. Such a line is a request: it asks for a format, names
operands and perhaps something unknown, and where in the line it does so does not matter
(`exists_words`). A request with one operand or none is fulfilled, and any other is refused
before anything is read (`planOf_eq_plan`).
-/
namespace LoxLexer.Command

def isOperand (argument : String) : Bool := argument.toList.head? ≠ some '-'

/-- Whether an argument is the name of a flag, or the front of the name with a letter of it. -/
def spells (flag : Flag) (argument : String) : Bool :=
  2 < argument.toList.length && argument.toList.isPrefixOf flag.longName

/-- Whether an argument looks like an option and is the front of no option's name. -/
def isUnknown (argument : String) : Bool :=
  ['-', '-'].isPrefixOf argument.toList && 2 < argument.toList.length &&
    !argument.toList.contains '=' && !argument.toList.contains ' ' &&
    Flag.all.all fun flag => !argument.toList.isPrefixOf flag.longName

def isPlain (argument : String) : Bool :=
  isOperand argument || spells .json argument || spells .noEof argument || isUnknown argument

/-- What a plain command line says, without the order of its flags among the operands. -/
structure Request where
  format : DumpFormat
  operands : List String
  hasUnknown : Bool
deriving DecidableEq

def requestOf (arguments : List String) : Request where
  format := ⟨!arguments.any (spells .noEof), arguments.any (spells .json)⟩
  operands := arguments.filter isOperand
  hasUnknown := arguments.any isUnknown

def Request.plan (request : Request) : Plan :=
  match request.hasUnknown, request.operands with
  | false, [] => .prompt request.format
  | false, [path] => .script request.format path
  | _, _ => .finish ⟨.code exitUsage, "", usageText⟩

theorem Request.plan_of_refused (request : Request)
    (h : request.hasUnknown = true ∨ 2 ≤ request.operands.length) :
    request.plan = .finish ⟨.code exitUsage, "", usageText⟩ := by
  obtain ⟨format, operands, hasUnknown⟩ := request
  cases hasUnknown with
  | true => rfl
  | false =>
    obtain hunknown | hlength := h
    · cases hunknown
    · obtain ⟨first, rest, rfl⟩ := List.exists_cons_of_length_pos (Nat.zero_lt_of_lt hlength)
      obtain ⟨second, more, rfl⟩ := List.exists_cons_of_length_pos (Nat.lt_of_succ_lt_succ hlength)
      rfl

/-! ## One argument -/

variable {argument : String} {flag : Flag}

theorem isPlain_iff :
    isPlain argument = true ↔ isOperand argument = true ∨
      (∃ flag, flag ≠ .help ∧ spells flag argument = true) ∨ isUnknown argument = true := by
  have hflag : (spells .json argument = true ∨ spells .noEof argument = true) ↔
      ∃ flag, flag ≠ .help ∧ spells flag argument = true := by
    constructor
    · rintro (h | h)
      · exact ⟨.json, by decide, h⟩
      · exact ⟨.noEof, by decide, h⟩
    · rintro ⟨flag, hne, h⟩
      cases flag with
      | help => exact absurd rfl hne
      | noEof => exact .inr h
      | json => exact .inl h
  simp only [isPlain, Bool.or_eq_true, or_assoc, ← hflag]

theorem spells_iff :
    spells flag argument = true ↔
      2 < argument.toList.length ∧ argument.toList <+: flag.longName := by
  rw [spells, Bool.and_eq_true, decide_eq_true_eq, List.isPrefixOf_iff_prefix]

/-- However short a name is cut, the dashes and its first letter are left. -/
theorem take_of_spells (h : spells flag argument = true) :
    argument.toList.take 3 = flag.longName.take 3 := by
  obtain ⟨hlength, hfront⟩ := spells_iff.mp h
  rw [List.prefix_iff_eq_take.mp hfront, List.take_take, Nat.min_eq_left hlength]

/-- No two names begin with the same letter. -/
theorem isPrefixOf_of_spells (h : spells flag argument = true) (other : Flag) :
    argument.toList.isPrefixOf other.longName = decide (other = flag) := by
  obtain ⟨hlength, hfront⟩ := Bool.and_eq_true _ _ ▸ h
  rw [Bool.eq_iff_iff, decide_eq_true_eq]
  constructor
  · intro hother
    have hspells : spells other argument = true := by rw [spells, hlength, hother, Bool.and_self]
    have htake := (take_of_spells hspells).symm.trans (take_of_spells h)
    revert htake
    cases other <;> cases flag <;> decide
  · rintro rfl
    exact hfront

theorem spells_of_spells (h : spells flag argument = true) (other : Flag) :
    spells other argument = decide (other = flag) := by
  obtain ⟨hlength, -⟩ := Bool.and_eq_true _ _ ▸ h
  rw [spells, hlength, isPrefixOf_of_spells h, Bool.true_and]

theorem splitAtEquals_of_not_mem {text : List Char} (h : '=' ∉ text) :
    splitAtEquals text = (text, none) := by
  have hdrop : text.dropWhile (· ≠ '=') = [] :=
    List.dropWhile_eq_nil_iff.mpr fun c hc => decide_eq_true (ne_of_mem_of_not_mem hc h)
  rw [splitAtEquals, hdrop]

/-- A long option without an equals sign is the whole name of a flag, or it is taken for the front
of one. -/
theorem wordOf_long {more : List Char} (htext : argument.toList = '-' :: '-' :: more)
    (hequals : '=' ∉ argument.toList) :
    wordOf argument =
      match Flag.all.find? (·.longName = argument.toList) with
      | some flag => .ok (.option flag false none)
      | none => abbreviation argument.toList := by
  have hhead : ¬argument.toList.head? ≠ some '-' := by simp [htext]
  have hshort : argument.toList ≠ shortHelp := by simp [htext, shortHelp]
  have hlength : argument.toList.length ≠ 1 := by simp [htext]
  simp only [wordOf, if_neg hhead, exactOption?, if_neg hshort]
  cases Flag.all.find? (·.longName = argument.toList) with
  | some flag => rfl
  | none =>
    simp only [Option.map_none, if_neg hlength, splitAtEquals_of_not_mem hequals]
    rw [htext, inexact]

theorem exists_dashes_of_spells (h : spells flag argument = true) :
    ∃ more, argument.toList = '-' :: '-' :: more := by
  have htext : argument.toList = flag.longName.take 3 ++ argument.toList.drop 3 := by
    rw [← take_of_spells h, List.take_append_drop]
  cases flag <;> exact ⟨_, htext⟩

theorem wordOf_of_spells (h : spells flag argument = true) :
    wordOf argument = .ok (.option flag false none) := by
  obtain ⟨more, htext⟩ := exists_dashes_of_spells h
  have hequals : '=' ∉ argument.toList := by
    intro hmem
    have hname := (spells_iff.mp h).2.subset hmem
    revert hname
    cases flag <;> decide
  rw [wordOf_long htext hequals]
  split
  · rename_i found hfound
    have hname : found.longName = argument.toList := by simpa using List.find?_some hfound
    have hsame := isPrefixOf_of_spells h found
    rw [hname, List.isPrefixOf_iff_prefix.mpr List.prefix_rfl] at hsame
    rw [of_decide_eq_true hsame.symm]
  · have hfilter : Flag.all.filter (argument.toList.isPrefixOf ·.longName) = [flag] := by
      simp only [isPrefixOf_of_spells h]
      cases flag <;> rfl
    simp only [abbreviation, splitAtEquals_of_not_mem hequals, hfilter]

theorem isUnknown_iff :
    isUnknown argument = true ↔
      (∃ c more, argument.toList = '-' :: '-' :: c :: more) ∧ '=' ∉ argument.toList ∧
        ' ' ∉ argument.toList ∧ ∀ flag : Flag, argument.toList.isPrefixOf flag.longName = false := by
  have hall (p : Flag → Prop) : (∀ flag ∈ Flag.all, p flag) ↔ ∀ flag, p flag :=
    ⟨fun h flag => h flag (by cases flag <;> decide), fun h flag _ => h flag⟩
  have hdashes (text : List Char) : (['-', '-'] <+: text ∧ 2 < text.length) ↔
      ∃ c more, text = '-' :: '-' :: c :: more := by
    constructor
    · rintro ⟨⟨more, rfl⟩, hlength⟩
      cases more with
      | nil => simp at hlength
      | cons c more => exact ⟨c, more, rfl⟩
    · rintro ⟨c, more, rfl⟩
      exact ⟨⟨c :: more, rfl⟩, by simp⟩
  simp only [isUnknown, Bool.and_eq_true, List.isPrefixOf_iff_prefix, decide_eq_true_eq, hdashes,
    Bool.not_eq_true', List.contains_eq_mem, decide_eq_false_iff_not, List.all_eq_true, hall,
    and_assoc]

/-- Two dashes begin no number. -/
theorem isNegativeNumber_dashes (more : List Char) :
    isNegativeNumber ('-' :: '-' :: more) = false := by
  have hbody (text : List Char) : isNumeralBody ('-' :: text) = false := by
    have hdash : isDecimalDigit '-' = false := by decide
    simp [isNumeralBody, hdash]
  have hlast : isNumeralBody ('-' :: more).dropLast = false := by
    cases more with
    | nil => rfl
    | cons c more => exact hbody _
  simp [isNegativeNumber, hbody, hlast]

theorem wordOf_of_isUnknown (h : isUnknown argument = true) :
    wordOf argument = .ok (.unknown argument) := by
  obtain ⟨⟨c, more, htext⟩, hequals, hspace, hfront⟩ := isUnknown_iff.mp h
  have hname : Flag.all.find? (·.longName = argument.toList) = none := by
    rw [List.find?_eq_none]
    rintro flag - heq
    have hself := hfront flag
    rw [of_decide_eq_true heq, List.isPrefixOf_iff_prefix.mpr List.prefix_rfl] at hself
    cases hself
  have hnone : Flag.all.filter (argument.toList.isPrefixOf ·.longName) = [] := by
    simp [hfront]
  have hnumber : isNegativeNumber argument.toList = false := by
    rw [htext]
    exact isNegativeNumber_dashes _
  rw [wordOf_long htext hequals, hname]
  simp only [abbreviation, splitAtEquals_of_not_mem hequals, hnone, nonOption, hnumber]
  simp [hspace]

theorem wordOf_of_isOperand (h : isOperand argument = true) :
    wordOf argument = .ok (.operand argument) :=
  if_pos (of_decide_eq_true h)

theorem not_isOperand_of_dashes {more : List Char}
    (htext : argument.toList = '-' :: '-' :: more) : isOperand argument = false := by
  simp [isOperand, htext]

theorem not_isOperand_of_spells (h : spells flag argument = true) : isOperand argument = false := by
  obtain ⟨more, htext⟩ := exists_dashes_of_spells h
  exact not_isOperand_of_dashes htext

theorem not_isOperand_of_isUnknown (h : isUnknown argument = true) :
    isOperand argument = false := by
  obtain ⟨⟨c, more, htext⟩, -⟩ := isUnknown_iff.mp h
  exact not_isOperand_of_dashes htext

theorem not_spells_of_isUnknown (h : isUnknown argument = true) : spells flag argument = false := by
  obtain ⟨-, -, -, hfront⟩ := isUnknown_iff.mp h
  rw [spells, hfront flag, Bool.and_false]

/-! ## All arguments -/

variable {arguments : List String}

theorem requestOf_cons_operand (h : isOperand argument = true) :
    requestOf (argument :: arguments) =
      { requestOf arguments with operands := argument :: (requestOf arguments).operands } := by
  have hflag (flag : Flag) : spells flag argument = false :=
    Bool.eq_false_iff.mpr fun hspells => Bool.eq_false_iff.mp (not_isOperand_of_spells hspells) h
  have hunknown : isUnknown argument = false :=
    Bool.eq_false_iff.mpr fun hunknown =>
      Bool.eq_false_iff.mp (not_isOperand_of_isUnknown hunknown) h
  simp [requestOf, h, hflag, hunknown]

theorem requestOf_cons_unknown (h : isUnknown argument = true) :
    requestOf (argument :: arguments) = { requestOf arguments with hasUnknown := true } := by
  simp [requestOf, h, not_isOperand_of_isUnknown h, not_spells_of_isUnknown h]

theorem requestOf_cons_flag (h : spells flag argument = true) :
    requestOf (argument :: arguments) =
      { requestOf arguments with
        format := ⟨(requestOf arguments).format.includeEnd && flag ≠ .noEof,
          (requestOf arguments).format.asJson || flag = .json⟩ } := by
  have hunknown : isUnknown argument = false :=
    Bool.eq_false_iff.mpr fun hunknown => Bool.eq_false_iff.mp (not_spells_of_isUnknown hunknown) h
  simp [requestOf, spells_of_spells h, hunknown, not_isOperand_of_spells h, Bool.and_comm,
    Bool.or_comm, eq_comm]

/-- What the words of a request make of the settings that were there before them: the first operand
of all is the script, and a second one is too much. -/
def Settings.after (settings : Settings) (request : Request) : Settings :=
  let operands := settings.script.toList ++ request.operands
  { script := operands.head?
    format := ⟨settings.format.includeEnd && request.format.includeEnd,
      settings.format.asJson || request.format.asJson⟩
    hasExtra := settings.hasExtra || request.hasUnknown || 2 ≤ operands.length }

namespace Settings

theorem after_requestOf_nil (settings : Settings) : settings.after (requestOf []) = settings := by
  obtain ⟨script, format, hasExtra⟩ := settings
  cases script <;> simp [after, requestOf]

theorem after_addOperand (settings : Settings) (text : String) (request : Request) :
    (settings.addOperand text).after request =
      settings.after { request with operands := text :: request.operands } := by
  obtain ⟨script, format, hasExtra⟩ := settings
  cases script <;> simp [addOperand, addExtra, after]

theorem after_addExtra (settings : Settings) (request : Request) :
    settings.addExtra.after request = settings.after { request with hasUnknown := true } := by
  simp [addExtra, after]

/-- A flag of the dump can be taken at once or together with all that is behind it. -/
theorem exists_applyFlag (settings : Settings) (hne : flag ≠ .help) :
    ∃ changed, applyFlag settings flag = some changed ∧ ∀ request : Request,
      changed.after request = settings.after { request with
        format := ⟨request.format.includeEnd && flag ≠ .noEof,
          request.format.asJson || flag = .json⟩ } := by
  cases flag with
  | help => exact absurd rfl hne
  | noEof => exact ⟨_, rfl, fun request => by simp [after]⟩
  | json => exact ⟨_, rfl, fun request => by simp [after]⟩

end Settings

theorem wordsOf_cons {word : Word} {words : List Word} (hword : wordOf argument = .ok word)
    (hwords : wordsOf arguments = .ok words) :
    wordsOf (argument :: arguments) = .ok (word :: words) := by
  have hne : argument ≠ "--" := by
    rintro rfl
    cases hword
  simp only [wordsOf, if_neg hne, hword, hwords]

theorem readWords_operand (settings : Settings) (text : String) {words : List Word}
    (h : words.head? ≠ some .terminator) :
    readWords settings (.operand text :: words) = readWords (settings.addOperand text) words := by
  cases words with
  | nil => rfl
  | cons word words =>
    cases word with
    | terminator => exact absurd rfl h
    | _ => rfl

/-- A plain command line is read as a request, wherever in it the flags and the operands stand. -/
theorem exists_words (h : ∀ a ∈ arguments, isPlain a = true) :
    ∃ words, wordsOf arguments = .ok words ∧ words.head? ≠ some .terminator ∧
      ∀ settings, readWords settings words =
        .ok (.settings (settings.after (requestOf arguments))) := by
  induction arguments with
  | nil =>
    refine ⟨[], rfl, by simp, fun settings => ?_⟩
    rw [readWords, settings.after_requestOf_nil]
  | cons argument arguments ih =>
    obtain ⟨hplain, harguments⟩ := List.forall_mem_cons.mp h
    obtain ⟨words, hwords, hhead, hread⟩ := ih harguments
    obtain hoperand | ⟨flag, hne, hflag⟩ | hunknown := isPlain_iff.mp hplain
    · refine ⟨_, wordsOf_cons (wordOf_of_isOperand hoperand) hwords, by simp, fun settings => ?_⟩
      rw [readWords_operand settings argument hhead, hread, requestOf_cons_operand hoperand,
        settings.after_addOperand]
    · refine ⟨_, wordsOf_cons (wordOf_of_spells hflag) hwords, by simp, fun settings => ?_⟩
      obtain ⟨changed, happly, hafter⟩ := settings.exists_applyFlag hne
      rw [requestOf_cons_flag hflag, ← hafter, ← hread]
      simp only [readWords, checkOption, happly]
    · refine ⟨_, wordsOf_cons (wordOf_of_isUnknown hunknown) hwords, by simp, fun settings => ?_⟩
      rw [readWords, hread, requestOf_cons_unknown hunknown, settings.after_addExtra]

theorem planOf_eq_plan (h : ∀ a ∈ arguments, isPlain a = true) :
    planOf arguments = (requestOf arguments).plan := by
  obtain ⟨words, hwords, -, hread⟩ := exists_words h
  rw [planOf, invocationOf, hwords]
  simp only [hread]
  generalize requestOf arguments = request
  obtain ⟨format, operands, hasUnknown⟩ := request
  cases hasUnknown with
  | true => rfl
  | false =>
    match operands with
    | [] | [_] | _ :: _ :: _ => simp [Settings.after, Settings.default, Request.plan]

/-- A run depends on a plain command line through what it asks for alone: which flags are in it, its
operands in their order, and whether anything unknown is in it. Something unknown or a second
operand is answered by the usage line, whatever the files and the typed input may be; otherwise one
operand is the script, and without one there is a prompt. -/
theorem run_plain_arguments {arguments : List String} (h : ∀ a ∈ arguments, isPlain a = true) :
    (∀ others, (∀ a ∈ others, isPlain a = true) → requestOf others = requestOf arguments →
      ∀ read input, run read input others = run read input arguments) ∧
    ∀ read input,
      let request := requestOf arguments
      let outcome := run read input arguments
      (request.hasUnknown = true ∨ 2 ≤ request.operands.length →
        outcome = ⟨.code 64, "", "usage: loxscan [-h] [--no-eof] [--json] [script]\n"⟩) ∧
      (request.hasUnknown = false → ∀ path, request.operands = [path] →
        outcome = runPath request.format read path) ∧
      (request.hasUnknown = false → request.operands = [] →
        outcome = runPrompt request.format input) := by
  constructor
  · intro others hothers hsame read input
    rw [run, run, planOf_eq_plan hothers, planOf_eq_plan h, hsame]
  · intro read input request outcome
    have hplan : planOf arguments = request.plan := planOf_eq_plan h
    refine ⟨fun hrefused => ?_, fun hknown path hpath => ?_, fun hknown hnone => ?_⟩
    · simp only [outcome, run, hplan, request.plan_of_refused hrefused]
      rfl
    · simp only [outcome, run, hplan, Request.plan, hknown, hpath]
    · simp only [outcome, run, hplan, Request.plan, hknown, hnone]

/-- Two ways to ask for the same dump, and a third command line with something unknown in it. -/
theorem run_plain_arguments_three_lines :
    let tree : FileTree := ⟨[("a.lox", .file [0x31, 0x20, 0x40])]⟩
    let first := ["--no", "--js", "a.lox", "--json"]
    let second := ["a.lox", "--j", "--no-eof", "--n"]
    let third := ["--json", "a.lox", "--jsonl"]
    (∀ a ∈ first, isPlain a = true) ∧ (∀ a ∈ second, isPlain a = true) ∧
      (∀ a ∈ third, isPlain a = true) ∧ requestOf second = requestOf first ∧
      run tree.read "" first =
        ⟨.code 65, "\x7b\"type\": \"NUMBER\", \"lexeme\": \"1\", \"literal\": 1.0, \"line\": 1\x7d\n",
          "[line 1] Error: Unexpected character.\n"⟩ ∧
      run tree.read "" second = run tree.read "" first ∧
      run tree.read "" third =
        ⟨.code 64, "", "usage: loxscan [-h] [--no-eof] [--json] [script]\n"⟩ := by
  intro tree first second third
  have hfirst : ∀ a ∈ first, isPlain a = true := by decide
  have hsecond : ∀ a ∈ second, isPlain a = true := by decide
  have hthird : ∀ a ∈ third, isPlain a = true := by decide
  have hsame : requestOf second = requestOf first := by decide
  obtain ⟨hothers, hruns⟩ := run_plain_arguments hfirst
  obtain ⟨-, hscript, -⟩ := hruns tree.read ""
  refine ⟨hfirst, hsecond, hthird, hsame, ?_, hothers second hsecond hsame tree.read "", ?_⟩
  · exact (hscript (by decide) "a.lox" (by decide)).trans (by decide +kernel)
  · exact ((run_plain_arguments hthird).2 tree.read "").1 (.inl (by decide))

end LoxLexer.Command

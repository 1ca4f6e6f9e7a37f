import LoxLexer.Proofs.Lexeme.Lookahead
import LoxLexer.Proofs.Scan.Lines

/-!
# Faults by an automaton

Four modes are enough to find all faults of a text, character by character and without any lexemes:
the foreign characters met in code, and a string that is still open at the end. The automaton and
the lexemes agree at the end of every lexeme: there the automaton is in code, or as good as that for
whatever may follow the lexeme (`alarms_append_of_matches`).
-/
namespace LoxLexer

/-- Where a text stands: in code, in code right behind a slash, in a string or in a comment. -/
inductive Mode
  | code | afterSlash | string | comment
deriving DecidableEq

namespace Mode

def next : Mode → Char → Mode
  | code, c => if c = '"' then string else if c = '/' then afterSlash else code
  | afterSlash, c => if c = '"' then string else if c = '/' then comment else code
  | string, c => if c = '"' then code else string
  | comment, c => if c = '\n' then code else comment

/-- The mode at the end of a text. -/
def run (mode : Mode) (text : List Char) : Mode := text.foldl next mode

def IsCode (mode : Mode) : Prop := mode = code ∨ mode = afterSlash

instance : DecidablePred IsCode := fun _ => inferInstanceAs (Decidable (_ ∨ _))

/-- The foreign characters that are met in code, with their lines. -/
def strays (mode : Mode) (line : Nat) : List Char → List (Char × Nat)
  | [] => []
  | c :: rest =>
    (if mode.IsCode ∧ IsForeign c then [(c, line)] else []) ++
      strays (mode.next c) (if c = '\n' then line + 1 else line) rest

/-- The line of a text that ends in a string: that of its end. -/
def openLine (mode : Mode) (line : Nat) (text : List Char) : List Nat :=
  if mode.run text = string then [line + text.count '\n'] else []

/-- All faults that the automaton finds, with their lines. -/
def alarms (mode : Mode) (line : Nat) (text : List Char) : List (Fault × Nat) :=
  (mode.strays line text).map (fun stray => (.unexpectedCharacter stray.1, stray.2)) ++
    (mode.openLine line text).map (fun line => (.unterminatedString, line))

variable {mode : Mode} {line : Nat}

theorem run_append (mode : Mode) (first second : List Char) :
    mode.run (first ++ second) = (mode.run first).run second := List.foldl_append

theorem strays_append (mode : Mode) (line : Nat) (first second : List Char) :
    mode.strays line (first ++ second) =
      mode.strays line first ++ (mode.run first).strays (line + first.count '\n') second := by
  induction first generalizing mode line with
  | nil => rfl
  | cons c first ih =>
    have hline : (if c = '\n' then line + 1 else line) + first.count '\n' =
        line + (c :: first).count '\n' := by
      by_cases hc : c = '\n'
      · rw [if_pos hc, hc, List.count_cons_self]
        omega
      · rw [if_neg hc, List.count_cons_of_ne hc]
    rw [List.cons_append, strays, strays, ih, List.append_assoc, hline]
    rfl

theorem openLine_append (mode : Mode) (line : Nat) (first second : List Char) :
    mode.openLine line (first ++ second) =
      (mode.run first).openLine (line + first.count '\n') second := by
  rw [openLine, openLine, run_append, List.count_append, Nat.add_assoc]

/-- A beginning without foreign characters in code only changes the mode and the line. -/
theorem alarms_append {first : List Char} (h : mode.strays line first = []) (second : List Char) :
    mode.alarms line (first ++ second) =
      (mode.run first).alarms (line + first.count '\n') second := by
  rw [alarms, alarms, strays_append, h, List.nil_append, openLine_append]

/-- A character that changes nothing in code and is at home there. -/
def Plain (c : Char) : Prop := c ≠ '"' ∧ c ≠ '/' ∧ ¬IsForeign c

/-- The class of a character says whether it is plain. -/
theorem plain_of_ofChar {c : Char} {first : CharClass} (h : CharClass.ofChar c = first)
    (hquote : first ≠ .quote) (hslash : first ≠ .slash) (hforeign : first ≠ .foreign) :
    Plain c := by
  refine ⟨?_, ?_, ?_⟩
  · rintro rfl
    exact hquote (h.symm.trans CharClass.ofChar_quote)
  · rintro rfl
    exact hslash (h.symm.trans CharClass.ofChar_slash)
  · intro hc
    exact hforeign (h.symm.trans (CharClass.ofChar_eq_foreign_iff.mpr hc))

theorem plain_of_isWordChar {c : Char} (h : isWordChar c = true) : Plain c := by
  apply plain_of_ofChar (CharClass.ofChar_of_isWordChar h)
  all_goals split <;> simp

theorem plain_mark (mark : Punctuation) : Plain mark.toChar :=
  plain_of_ofChar (CharClass.ofChar_mark mark) (by simp) (by simp) (by simp)

theorem plain_symbol (symbol : OperatorSymbol) : Plain symbol.toChar :=
  plain_of_ofChar (CharClass.ofChar_symbol symbol) (by simp) (by simp) (by simp)

/-- Plain characters leave the automaton in code. -/
theorem code_of_plain (line : Nat) {text : List Char} (h : ∀ c ∈ text, Plain c) :
    code.strays line text = [] ∧ code.run text = code := by
  induction text generalizing line with
  | nil => exact ⟨rfl, rfl⟩
  | cons c rest ih =>
    obtain ⟨⟨hquote, hslash, hforeign⟩, hrest⟩ := List.forall_mem_cons.mp h
    have hnext : code.next c = code := by simp [next, hquote, hslash]
    obtain ⟨hstrays, hrun⟩ := ih (if c = '\n' then line + 1 else line) hrest
    constructor
    · rw [strays, hnext, hstrays, if_neg (fun h => hforeign h.2), List.append_nil]
    · exact (congrArg (fun m => run m rest) hnext).trans hrun

/-- Without the character that ends it, a string or a comment goes on, and nothing in it is
stray. -/
theorem stays_of_not_isCode (line : Nat) {text : List Char} (hcode : ¬mode.IsCode)
    (h : ∀ c ∈ text, mode.next c = mode) :
    mode.strays line text = [] ∧ mode.run text = mode := by
  induction text generalizing line with
  | nil => exact ⟨rfl, rfl⟩
  | cons c rest ih =>
    obtain ⟨hnext, hrest⟩ := List.forall_mem_cons.mp h
    obtain ⟨hstrays, hrun⟩ := ih (if c = '\n' then line + 1 else line) hrest
    constructor
    · rw [strays, hnext, hstrays, if_neg (fun h => hcode h.1), List.append_nil]
    · exact (congrArg (fun m => run m rest) hnext).trans hrun

theorem string_of_not_mem (line : Nat) {body : List Char} (h : '"' ∉ body) :
    string.strays line body = [] ∧ string.run body = string := by
  apply stays_of_not_isCode line (by decide)
  intro c hc
  exact if_neg (ne_of_mem_of_not_mem hc h)

theorem comment_of_not_mem (line : Nat) {body : List Char} (h : '\n' ∉ body) :
    comment.strays line body = [] ∧ comment.run body = comment := by
  apply stays_of_not_isCode line (by decide)
  intro c hc
  exact if_neg (ne_of_mem_of_not_mem hc h)

/-- Two modes that agree on the first character agree on the whole text. -/
theorem alarms_congr {other : Mode} {text : List Char} (hmode : mode ≠ string)
    (hother : other ≠ string)
    (h : ∀ c, text.head? = some c → mode.next c = other.next c ∧
      (mode.IsCode ∧ IsForeign c ↔ other.IsCode ∧ IsForeign c)) :
    mode.alarms line text = other.alarms line text := by
  cases text with
  | nil => simp [alarms, strays, openLine, run, hmode, hother]
  | cons c rest =>
    obtain ⟨hnext, hforeign⟩ := h c rfl
    have hrun : mode.run (c :: rest) = other.run (c :: rest) :=
      congrArg (fun m => run m rest) hnext
    rw [alarms, alarms, openLine, openLine, hrun, strays, strays, hnext]
    simp only [hforeign]

/-- Behind a slash that stands alone the automaton is as good as in code. -/
theorem alarms_afterSlash {text : List Char} (h : text.head? ≠ some '/') :
    afterSlash.alarms line text = code.alarms line text := by
  apply alarms_congr (by decide) (by decide)
  intro c hc
  have hslash : c ≠ '/' := by
    rintro rfl
    exact h hc
  simp [next, hslash, IsCode]

/-- The line feed behind a comment leads into code just as one in code does. -/
theorem alarms_comment {text : List Char} (h : ∀ c, text.head? = some c → c = '\n') :
    comment.alarms line text = code.alarms line text := by
  apply alarms_congr (by decide) (by decide)
  intro c hc
  obtain rfl := h c hc
  decide

theorem alarms_append_of_plain {text : List Char} (h : ∀ c ∈ text, Plain c)
    (after : List Char) :
    code.alarms line (text ++ after) = code.alarms (line + text.count '\n') after := by
  obtain ⟨hstrays, hrun⟩ := code_of_plain line h
  rw [alarms_append hstrays, hrun]

theorem alarms_append_of_isWord {text : List Char} (h : Lexeme.IsWord text) (after : List Char) :
    code.alarms line (text ++ after) = code.alarms (line + text.count '\n') after := by
  obtain ⟨c, tail, rfl, hc, htail⟩ := h.exists_cons
  apply alarms_append_of_plain
  refine List.forall_mem_cons.mpr ⟨plain_of_isWordChar (by simp [isWordChar, hc]), ?_⟩
  intro d hd
  exact plain_of_isWordChar (htail d hd)

theorem plain_of_isDigits {text : List Char} (h : Lexeme.IsDigits text) : ∀ c ∈ text, Plain c := by
  intro c hc
  exact plain_of_isWordChar (by simp [isWordChar, h.isDigit c hc])

theorem code_slashes (line : Nat) (rest : List Char) :
    code.strays line ('/' :: '/' :: rest) = comment.strays line rest ∧
      code.run ('/' :: '/' :: rest) = comment.run rest := by
  have hforeign : ¬IsForeign '/' := by decide
  simp [strays, hforeign, run, next]

theorem code_quote (line : Nat) (rest : List Char) :
    code.strays line ('"' :: rest) = string.strays line rest ∧
      code.run ('"' :: rest) = string.run rest := by
  have hforeign : ¬IsForeign '"' := by decide
  simp [strays, hforeign, run, next]

theorem alarms_append_of_comment {body after : List Char} (h : '\n' ∉ body)
    (hafter : ∀ c, after.head? = some c → c = '\n') :
    code.alarms line ('/' :: '/' :: body ++ after) =
      code.alarms (line + ('/' :: '/' :: body).count '\n') after := by
  obtain ⟨hstrays, hrun⟩ := comment_of_not_mem line h
  obtain ⟨hslashes, hcomment⟩ := code_slashes line body
  rw [alarms_append (hslashes.trans hstrays), hcomment, hrun]
  exact alarms_comment hafter

theorem alarms_append_of_string {body : List Char} (h : '"' ∉ body) (after : List Char) :
    code.alarms line ('"' :: body ++ ['"'] ++ after) =
      code.alarms (line + ('"' :: body ++ ['"']).count '\n') after := by
  obtain ⟨hstrays, hrun⟩ := string_of_not_mem line h
  have hclose : string.strays line (body ++ ['"']) = [] := by
    rw [strays_append, hstrays, hrun]
    rfl
  have hcode : string.run (body ++ ['"']) = code := by
    rw [run_append, hrun]
    rfl
  obtain ⟨hquote, hopen⟩ := code_quote line (body ++ ['"'])
  rw [List.cons_append, alarms_append (hquote.trans hclose), hopen, hcode]

/-- A complete lexeme gives no alarm, and for what may follow it the automaton is as good as in
code. -/
theorem alarms_append_of_matches {form : LexemeForm} {text after : List Char}
    {value : Option Literal} (h : Lexeme.Matches form text value)
    (hs : Lexeme.Stops form text after) :
    code.alarms line (text ++ after) = code.alarms (line + text.count '\n') after := by
  cases h with
  | punctuation mark =>
    exact alarms_append_of_plain (List.forall_mem_singleton.mpr (plain_mark mark)) _
  | operator symbol =>
    exact alarms_append_of_plain (List.forall_mem_singleton.mpr (plain_symbol symbol)) _
  | operatorEqual symbol =>
    apply alarms_append_of_plain
    exact List.forall_mem_cons.mpr
      ⟨plain_symbol symbol, List.forall_mem_singleton.mpr (plain_symbol .equal)⟩
  | slash =>
    have hforeign : ¬IsForeign '/' := by decide
    have hstrays : code.strays line ['/'] = [] := by simp [strays, hforeign]
    rw [alarms_append hstrays]
    exact alarms_afterSlash hs
  | comment hbody => exact alarms_append_of_comment hbody hs
  | blank hc =>
    have hclass := CharClass.ofChar_of_isBlank (isBlank_iff.mpr hc)
    have hplain := plain_of_ofChar hclass (by simp) (by simp) (by simp)
    exact alarms_append_of_plain (List.forall_mem_singleton.mpr hplain) _
  | lineBreak =>
    have hplain := plain_of_ofChar CharClass.ofChar_lineBreak (by simp) (by simp) (by simp)
    exact alarms_append_of_plain (List.forall_mem_singleton.mpr hplain) _
  | integer hw => exact alarms_append_of_plain (plain_of_isDigits hw) _
  | fraction hw hf =>
    apply alarms_append_of_plain
    rw [List.forall_mem_append, List.forall_mem_cons]
    exact ⟨plain_of_isDigits hw, plain_mark .dot, plain_of_isDigits hf⟩
  | keyword word => exact alarms_append_of_isWord (Lexeme.isWord_spelling word) _
  | identifier hw hk => exact alarms_append_of_isWord hw _
  | string hbody => exact alarms_append_of_string hbody _

/-- An open string gives the alarm of its end. -/
theorem alarms_openString {rest : List Char} (h : '"' ∉ rest) :
    code.alarms line ('"' :: rest) =
      [(.unterminatedString, line + ('"' :: rest).count '\n')] := by
  obtain ⟨hstrays, hrun⟩ := string_of_not_mem line h
  obtain ⟨hquote, hopen⟩ := code_quote line rest
  rw [alarms, openLine, hquote, hstrays, hopen, hrun]
  rfl

/-- A foreign character gives an alarm and changes nothing else. -/
theorem alarms_foreign {c : Char} (h : IsForeign c) (rest : List Char) :
    code.alarms line (c :: rest) =
      (.unexpectedCharacter c, line) :: code.alarms (line + [c].count '\n') rest := by
  have hstrays : code.strays line [c] = [(c, line)] := by simp [strays, IsCode, h]
  have hrun : code.run [c] = code := by simp [run, next, h.2.1, h.2.2.1]
  change code.alarms line ([c] ++ rest) = _
  rw [alarms, alarms, strays_append, openLine_append, hstrays, hrun]
  rfl

end Mode

namespace Step

/-- The fault of a step with its line. -/
def located? (step : Step) : Option (Fault × Nat) :=
  step.fault?.map fun fault => (fault, step.cursor.line)

theorem located?_of_matches {lexeme : Lexeme} {value : Option Literal}
    (h : Lexeme.Matches lexeme.form lexeme.text value) (cursor : Cursor) :
    located? ⟨lexeme, cursor⟩ = none := by
  obtain ⟨form, text⟩ := lexeme
  cases h <;> rfl

/-- Over one lexeme the automaton gives the alarm for its fault, if it has one, and is in code
again. -/
theorem alarms_next (cursor : Cursor) (c : Char) (rest : List Char) :
    Mode.code.alarms cursor.line (c :: rest) =
      (located? (Document.stepOver cursor c rest)).toList ++
        Mode.code.alarms (Document.stepOver cursor c rest).cursor.line
          (Lexeme.next c rest).2 := by
  obtain ⟨lexeme, after, hnext, htaken⟩ := Lexeme.next_cases c rest
  rw [Document.stepOver, hnext]
  cases htaken with
  | complete hm htext hstops =>
    rw [located?_of_matches hm, ← htext]
    exact Mode.alarms_append_of_matches hm hstops
  | openString hc hq =>
    rw [hc]
    exact Mode.alarms_openString hq
  | foreign hc =>
    have hcount : [c].count '\n' = 0 := by
      apply List.count_eq_zero_of_not_mem
      rw [List.mem_singleton]
      rintro rfl
      exact hc.1 (.inr (.inr (.inr rfl)))
    rw [Mode.alarms_foreign hc]
    simp only [located?, fault?, Cursor.advance, hcount]
    rfl

/-- The faults of a text are those that the automaton finds. -/
theorem filterMap_located?_along (cursor : Cursor) (text : List Char) :
    (along cursor (Lexeme.split text)).filterMap located? = Mode.code.alarms cursor.line text := by
  fun_induction Lexeme.split text generalizing cursor with
  | case1 => rfl
  | case2 c rest ih =>
    have hrest := ih (Document.stepOver cursor c rest).cursor
    have hstep : along cursor ((Lexeme.next c rest).1 :: Lexeme.split (Lexeme.next c rest).2) =
        Document.stepOver cursor c rest ::
          along (Document.stepOver cursor c rest).cursor (Lexeme.split (Lexeme.next c rest).2) :=
      rfl
    rw [alarms_next, hstep, List.filterMap_cons, hrest]
    cases located? (Document.stepOver cursor c rest) <;> rfl

theorem diagnostics_eq_map (filename : String) (steps : List Step) :
    diagnostics filename steps =
      (steps.filterMap located?).map fun found => found.1.diagnostic ⟨filename, found.2⟩ := by
  rw [List.map_filterMap]
  refine congrArg (fun f => steps.filterMap f) (funext fun step => ?_)
  rw [diagnostic?, located?, Option.map_map]
  rfl

end Step

/-- The diagnostics of a text are those for what the automaton finds. -/
theorem diagnostics_eq_alarms (filename source : String) :
    diagnostics filename source =
      (Mode.code.alarms 1 source.toList).map fun found =>
        found.1.diagnostic ⟨filename, found.2⟩ := by
  rw [diagnostics, Step.diagnostics_eq_map, Step.all, Step.filterMap_located?_along]
  rfl

/-- An item with a property that nothing in the first list has is the last, if the second list holds
one item at most. -/
theorem eq_nil_of_append_eq {α : Type} {p : α → Prop} {first second before after : List α}
    {item : α} (hfirst : ∀ x ∈ first, ¬p x) (hsecond : second.length ≤ 1)
    (h : first ++ second = before ++ item :: after) (hitem : p item) : after = [] := by
  rcases List.append_eq_append_iff.mp h with ⟨more, rfl, hmore⟩ | ⟨more, rfl, hmore⟩
  · rw [hmore, List.length_append, List.length_cons] at hsecond
    exact List.eq_nil_of_length_eq_zero (by omega)
  · cases more with
    | nil =>
      rw [List.nil_append] at hmore
      rw [← hmore, List.length_cons] at hsecond
      exact List.eq_nil_of_length_eq_zero (by omega)
    | cons x more =>
      rw [List.cons_append, List.cons.injEq] at hmore
      rw [hmore.1] at hitem
      exact absurd hitem (hfirst x (by simp))

/-- The faults that a scan finds are those that the automaton finds: the foreign characters in code,
each with its line, and at last an open string, if the text ends in one. -/
theorem scan_faults_eq_alarms {σ : Type} (reporter : Reporter σ Empty) (state : σ)
    (document : Document) :
    let text := document.source.toList
    let strays := Mode.code.strays 1 text
    let ending := if Mode.code.run text = .string then [1 + text.count '\n'] else []
    let result := document.scanWith reporter state
    let calls := strays.map (fun stray => (⟨stray.2, "Unexpected character."⟩ : Report)) ++
      ending.map (fun line : Nat => (⟨line, "Unterminated string."⟩ : Report))
    reports document.source = calls ∧
      result.2 = (calls.foldl (fun s r => (reporter.receive s r).1) state, none) ∧
      result.1.diagnostics =
        strays.map (fun stray =>
          (Fault.unexpectedCharacter stray.1).diagnostic ⟨document.filename, stray.2⟩) ++
        ending.map (fun line : Nat =>
          Fault.unterminatedString.diagnostic ⟨document.filename, line⟩) ∧
      result.1.diagnostics.map (fun diagnostic => (diagnostic.report, diagnostic.code)) =
        strays.map (fun stray => (⟨stray.2, "Unexpected character."⟩, some "L001")) ++
        ending.map (fun line : Nat => (⟨line, "Unterminated string."⟩, some "L002")) ∧
      ∀ before report after, reports document.source = before ++ report :: after →
        report.message = "Unterminated string." → after = [] := by
  intro text strays ending result calls
  have hdiagnostics : diagnostics document.filename document.source =
      strays.map (fun stray =>
        (Fault.unexpectedCharacter stray.1).diagnostic ⟨document.filename, stray.2⟩) ++
      ending.map (fun line : Nat =>
        Fault.unterminatedString.diagnostic ⟨document.filename, line⟩) := by
    rw [diagnostics_eq_alarms, Mode.alarms, List.map_append, List.map_map, List.map_map]
    rfl
  have hreports : reports document.source = calls := by
    have hmap := Step.map_report_diagnostics document.filename (Step.all document.source)
    rw [reports, ← hmap, ← diagnostics, hdiagnostics, List.map_append, List.map_map, List.map_map]
    rfl
  have hscan := document.scanWith_eq reporter state
  have hresult : result.1.diagnostics = diagnostics document.filename document.source :=
    congrArg (fun result => result.1.diagnostics) hscan
  refine ⟨hreports, ?_, hresult.trans hdiagnostics, ?_, ?_⟩
  · rw [← hreports]
    exact congrArg Prod.snd hscan
  · rw [hresult, hdiagnostics, List.map_append, List.map_map, List.map_map]
    rfl
  · intro before report after happend hmessage
    refine eq_nil_of_append_eq (p := fun report : Report => report.message = "Unterminated string.")
      ?_ ?_ (hreports.symm.trans happend) hmessage
    · intro report hreport
      obtain ⟨stray, -, rfl⟩ := List.mem_map.mp hreport
      exact (by decide : "Unexpected character." ≠ "Unterminated string.")
    · rw [List.length_map]
      by_cases hopen : Mode.code.run text = .string
      · simp [ending, hopen]
      · simp [ending, hopen]

/-- A string right behind a slash, a comment behind two more, and a stray character on each side. -/
example : Mode.code.strays 1 "@/\"@\n\"///@\"\n#".toList = [('@', 1), ('#', 3)] := by decide

end LoxLexer

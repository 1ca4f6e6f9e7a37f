import LoxLexer.Proofs.Scan.Progress

/-!
# Tokens laid out in a text

Well-formed tokens may be written down in any layout: as long as a space of some kind stands between
two of them, a scan gives them back with the lines on which they came to stand, and finds no fault.
What else stands between them, comments and their contents included, leaves no trace.
-/
namespace LoxLexer

/-- Spaces, returns, tabs, line feeds, and comments each with the line feed at its end. -/
inductive Trivia : List Char → Prop
  | nil : Trivia []
  | space {c : Char} {text : List Char} (hc : IsSpace c) (h : Trivia text) : Trivia (c :: text)
  | comment {body text : List Char} (hb : '\n' ∉ body) (h : Trivia text) :
      Trivia ('/' :: '/' :: body ++ '\n' :: text)

/-- What may stand in front of a token: anything of the kind if it is the first, and otherwise
something that begins with a space. -/
inductive Gap : Bool → List Char → Prop
  | lead {gap : List Char} (h : Trivia gap) : Gap true gap
  | separator {first : Bool} {c : Char} {gap : List Char} (hc : IsSpace c) (h : Trivia gap) :
      Gap first (c :: gap)

/-- What may stand behind the last token, or alone: nothing or a gap, and behind the gap perhaps a
comment that the text ends in. -/
inductive Ending : Bool → List Char → Prop
  | nothing {first : Bool} : Ending first []
  | gap {first : Bool} {gap : List Char} (h : Gap first gap) : Ending first gap
  | comment {first : Bool} {gap body : List Char} (h : Gap first gap) (hb : '\n' ∉ body) :
      Ending first (gap ++ '/' :: '/' :: body)

/-- A token that a text can hold, whatever its line: its lexeme is complete, and its literal is the
one of that lexeme. -/
def Token.WellFormed (token : Token) : Prop :=
  Lexeme.Matches (.token token.kind) token.lexeme.toList token.literal

/-- The text of tokens, each behind its gap, and of what stands at the end. -/
def layOut (items : List (List Char × Token)) (ending : List Char) : List Char :=
  items.flatMap (fun item => item.1 ++ item.2.lexeme.toList) ++ ending

/-- The tokens are well formed, and the gaps keep them apart. -/
def LaidOut : Bool → List (List Char × Token) → List Char → Prop
  | first, [], ending => Ending first ending
  | first, (gap, token) :: items, ending =>
    Gap first gap ∧ token.WellFormed ∧ LaidOut false items ending

/-- The tokens, each with the line on which it stands when the given text precedes them. -/
def numbered (before : List Char) : List (List Char × Token) → List Token
  | [] => []
  | (gap, token) :: items =>
    { token with line := 1 + (before ++ gap).count '\n' } ::
      numbered (before ++ gap ++ token.lexeme.toList) items

theorem layOut_cons (gap : List Char) (token : Token) (items : List (List Char × Token))
    (ending : List Char) :
    layOut ((gap, token) :: items) ending =
      gap ++ (token.lexeme.toList ++ layOut items ending) := by
  simp [layOut]

theorem Gap.trivia {first : Bool} {gap : List Char} (h : Gap first gap) : Trivia gap := by
  cases h with
  | lead h => exact h
  | separator hc h => exact .space hc h

/-- Behind a token that is not the last thing in the text stands a space. -/
theorem LaidOut.isSpace_head {items : List (List Char × Token)} {ending : List Char}
    (h : LaidOut false items ending) :
    ∀ c, (layOut items ending).head? = some c → IsSpace c := by
  have hgap {gap : List Char} (h : Gap false gap) (rest : List Char) :
      ∀ c, (gap ++ rest).head? = some c → IsSpace c := by
    cases h with
    | separator hc h => exact Lexeme.forall_head?_cons hc
  cases items with
  | nil =>
    cases h with
    | nothing =>
      intro c hc
      cases hc
    | gap h => simpa [layOut] using hgap h []
    | comment h hb => exact hgap h _
  | cons item items =>
    obtain ⟨gap, token⟩ := item
    rw [layOut_cons]
    exact hgap h.1 _

namespace Lexeme

/-- No token grows over a space or the end of the text. -/
theorem stops_of_isSpace {kind : TokenKind} {text rest : List Char}
    (h : ∀ c, rest.head? = some c → IsSpace c) : Stops (.token kind) text rest := by
  have hne {d : Char} (hd : ¬IsSpace d) : rest.head? ≠ some d := fun heq => hd (h d heq)
  have hword : ∀ c, rest.head? = some c → isWordChar c = false := fun c hc =>
    not_isWordChar_of_isSpace (h c hc)
  unfold Stops
  split
  · exact hne (by unfold IsSpace; decide)
  · exact hne (by unfold IsSpace; decide)
  · trivial
  · refine ⟨fun c hc => ?_, .inr ?_⟩
    · have := hword c hc
      simp_all [isWordChar]
    · unfold takeFraction
      split
      · exact absurd rfl (hne (by unfold IsSpace; decide))
      · rfl
  · exact hword
  · exact hword
  · trivial

end Lexeme

namespace Step

/-- Steps that leave neither a token nor a fault. -/
def Traceless (steps : List Step) : Prop :=
  ∀ step ∈ steps, step.token? = none ∧ step.fault? = none

theorem tokens_append_of_traceless {skipped : List Step} (h : Traceless skipped)
    (steps : List Step) : tokens (skipped ++ steps) = tokens steps := by
  rw [tokens, List.filterMap_append, List.filterMap_eq_nil_iff.mpr fun step hs => (h step hs).1]
  rfl

/-- A lexeme that cannot grow makes the first step over its text. -/
theorem along_split_of_matches {form : LexemeForm} {text rest : List Char}
    {value : Option Literal} (h : Lexeme.Matches form text value)
    (hs : Lexeme.Stops form text rest) (cursor : Cursor) :
    along cursor (Lexeme.split (text ++ rest)) =
      ⟨⟨form, text⟩, cursor.advance text⟩ ::
        along (cursor.advance text) (Lexeme.split rest) := by
  rw [Lexeme.split_append_of_matches h hs, along]

/-- Steps over a space or over any other trivia leave no trace but the line that they end on. -/
theorem along_split_space {c : Char} (hc : IsSpace c) (cursor : Cursor) (rest : List Char) :
    ∃ step, along cursor (Lexeme.split (c :: rest)) =
        step :: along (cursor.advance [c]) (Lexeme.split rest) ∧
      step.token? = none ∧ step.fault? = none := by
  by_cases hn : c = '\n'
  · subst hn
    exact ⟨_, along_split_of_matches .lineBreak trivial cursor, rfl, rfl⟩
  · have hb : c = ' ' ∨ c = '\r' ∨ c = '\t' := by
      rcases hc with h | h | h | h
      · exact .inl h
      · exact .inr (.inl h)
      · exact .inr (.inr h)
      · exact absurd h hn
    exact ⟨_, along_split_of_matches (.blank hb) trivial cursor, rfl, rfl⟩

/-- A first character adds its own share to the number of line feeds. -/
theorem count_cons_eq (c : Char) (text : List Char) :
    (c :: text).count '\n' = [c].count '\n' + text.count '\n' := by
  rw [← List.count_append]
  rfl

theorem along_split_trivia {gap : List Char} (h : Trivia gap) (cursor : Cursor)
    (rest : List Char) :
    ∃ skipped next, along cursor (Lexeme.split (gap ++ rest)) =
        skipped ++ along next (Lexeme.split rest) ∧
      Traceless skipped ∧ next.line = cursor.line + gap.count '\n' := by
  induction h generalizing cursor with
  | nil => exact ⟨[], cursor, rfl, List.forall_mem_nil _, rfl⟩
  | @space c text hc h ih =>
    obtain ⟨step, hstep, hnone⟩ := along_split_space hc cursor (text ++ rest)
    obtain ⟨skipped, next, hsplit, htraceless, hline⟩ := ih (cursor.advance [c])
    refine ⟨step :: skipped, next, ?_, ?_, ?_⟩
    · rw [List.cons_append, hstep, hsplit, List.cons_append]
    · exact List.forall_mem_cons.mpr ⟨hnone, htraceless⟩
    · rw [hline, count_cons_eq]
      exact Nat.add_assoc _ _ _
  | @comment body text hb h ih =>
    -- the comment ends in front of its line feed, which makes a step of its own
    have hstop : ∀ c, ('\n' :: (text ++ rest)).head? = some c → c = '\n' :=
      Lexeme.forall_head?_cons rfl
    have hcomment := along_split_of_matches (.comment hb) hstop cursor
    obtain ⟨step, hstep, hnone⟩ := along_split_space (.inr (.inr (.inr rfl)))
      (cursor.advance ('/' :: '/' :: body)) (text ++ rest)
    obtain ⟨skipped, next, hsplit, htraceless, hline⟩ :=
      ih ((cursor.advance ('/' :: '/' :: body)).advance ['\n'])
    refine ⟨⟨⟨.comment, '/' :: '/' :: body⟩, cursor.advance ('/' :: '/' :: body)⟩ :: step ::
      skipped, next, ?_, ?_, ?_⟩
    · have hassoc : '/' :: '/' :: body ++ '\n' :: text ++ rest =
          '/' :: '/' :: body ++ '\n' :: (text ++ rest) := List.append_assoc _ _ _
      rw [hassoc, hcomment, hstep, hsplit]
      rfl
    · exact List.forall_mem_cons.mpr ⟨⟨rfl, rfl⟩, List.forall_mem_cons.mpr ⟨hnone, htraceless⟩⟩
    · rw [hline, List.count_append, count_cons_eq '\n' text]
      simp only [Cursor.advance]
      omega

theorem along_split_ending {first : Bool} {ending : List Char} (h : Ending first ending)
    (cursor : Cursor) : Traceless (along cursor (Lexeme.split ending)) := by
  cases h with
  | nothing =>
    rw [Lexeme.split]
    exact List.forall_mem_nil _
  | gap h =>
    obtain ⟨skipped, next, hsplit, htraceless, -⟩ := along_split_trivia h.trivia cursor []
    rw [List.append_nil, Lexeme.split, along, List.append_nil] at hsplit
    rw [hsplit]
    exact htraceless
  | @comment gap body h hb =>
    obtain ⟨skipped, next, hsplit, htraceless, -⟩ :=
      along_split_trivia h.trivia cursor ('/' :: '/' :: body)
    have hstop : Lexeme.Stops .comment ('/' :: '/' :: body) [] := by
      intro c hc
      cases hc
    have hcomment := along_split_of_matches (.comment hb) hstop next
    rw [List.append_nil] at hcomment
    rw [hsplit, hcomment, Lexeme.split, along]
    intro step hstep
    rcases List.mem_append.mp hstep with hstep | hstep
    · exact htraceless step hstep
    · rw [List.mem_singleton.mp hstep]
      exact ⟨rfl, rfl⟩

/-- A step over the text of a well-formed token gives the token back. -/
theorem token?_of_wellFormed {token : Token} (h : token.WellFormed) (cursor : Cursor) :
    token? ⟨⟨.token token.kind, token.lexeme.toList⟩, cursor⟩ =
      some { token with line := cursor.startLine } := by
  have hliteral : literalOf token.kind token.lexeme.toList = token.literal :=
    @Lexeme.Matches.literal_eq ⟨.token token.kind, token.lexeme.toList⟩ _ h
  simp only [token?, hliteral, String.ofList_toList]

/-- A scan of tokens laid out gives them back and finds no fault. -/
theorem along_split_layOut {first : Bool} {items : List (List Char × Token)}
    {ending : List Char} (h : LaidOut first items ending) (before : List Char) (cursor : Cursor)
    (hline : cursor.line = 1 + before.count '\n') :
    tokens (along cursor (Lexeme.split (layOut items ending))) = numbered before items ∧
      ∀ step ∈ along cursor (Lexeme.split (layOut items ending)), step.fault? = none := by
  induction items generalizing first before cursor with
  | nil =>
    have htraceless := along_split_ending h cursor
    refine ⟨?_, fun step hstep => (htraceless step hstep).2⟩
    exact List.filterMap_eq_nil_iff.mpr fun step hstep => (htraceless step hstep).1
  | cons item items ih =>
    obtain ⟨gap, token⟩ := item
    obtain ⟨hgap, hwell, hrest⟩ := h
    obtain ⟨skipped, next, hsplit, htraceless, hnext⟩ :=
      along_split_trivia hgap.trivia cursor (token.lexeme.toList ++ layOut items ending)
    have hstep := along_split_of_matches hwell (Lexeme.stops_of_isSpace hrest.isSpace_head) next
    have hcount : next.line = 1 + (before ++ gap).count '\n' := by
      rw [hnext, hline, List.count_append, Nat.add_assoc]
    have hafter : (next.advance token.lexeme.toList).line =
        1 + (before ++ gap ++ token.lexeme.toList).count '\n' := by
      rw [List.count_append, ← Nat.add_assoc, ← hcount]
      rfl
    obtain ⟨htokens, hfaults⟩ := ih hrest (before ++ gap ++ token.lexeme.toList) _ hafter
    rw [layOut_cons, hsplit, hstep, tokens_append_of_traceless htraceless]
    constructor
    · have hfirst : ((next.advance token.lexeme.toList).startLine : Int) =
          1 + (before ++ gap).count '\n' := by
        rw [← Nat.cast_one, ← Nat.cast_add, ← hcount]
        rfl
      rw [tokens, List.filterMap_cons_some (token?_of_wellFormed hwell _), hfirst, numbered,
        ← htokens]
      rfl
    · intro step hmem
      rcases List.mem_append.mp hmem with hmem | hmem
      · exact (htraceless step hmem).2
      · rcases List.mem_cons.mp hmem with rfl | hmem
        · rfl
        · exact hfaults step hmem

theorem diagnostics_of_no_fault {steps : List Step} (h : ∀ step ∈ steps, step.fault? = none)
    (filename : String) : diagnostics filename steps = [] := by
  refine List.filterMap_eq_nil_iff.mpr fun step hstep => ?_
  rw [diagnostic?, h step hstep, Option.map_none]

theorem reports_of_no_fault {steps : List Step} (h : ∀ step ∈ steps, step.fault? = none) :
    reports steps = [] := by
  rw [← map_report_diagnostics "" steps, diagnostics_of_no_fault h, List.map_nil]

end Step

/-- Where there is no fault there is nothing to report. -/
theorem Reporter.watch_of_no_fault {σ ε : Type} (reporter : Reporter σ ε) (state : σ)
    {steps : List Step} (h : ∀ step ∈ steps, step.fault? = none) :
    reporter.watch state steps = ⟨steps, state, none⟩ := by
  induction steps with
  | nil => rfl
  | cons step rest ih =>
    obtain ⟨hstep, hrest⟩ := List.forall_mem_cons.mp h
    have hreport : step.report? = none := by rw [Step.report?, hstep, Option.map_none]
    rw [watch, hreport, ih hrest]

/-- A scan without a fault goes to the end, whoever watches it, and gives all tokens. -/
theorem Document.scanWith_of_no_fault {σ ε : Type} (reporter : Reporter σ ε) (state : σ)
    {source : String} (filename : String) (h : ∀ step ∈ Step.all source, step.fault? = none) :
    let result := (ofSource source filename).scanWith reporter state
    result = ((ofSource source filename).settle (Step.all source) true, state, none) ∧
      result.1.tokens = LoxLexer.tokens source ∧ result.1.diagnostics = [] ∧
      reports source = [] := by
  intro result
  have hresult :
      result = ((ofSource source filename).settle (Step.all source) true, state, none) := by
    have hwatch := reporter.watch_of_no_fault state h
    simp only [result, scanWith, ofSource, hwatch, Option.isNone_none]
  refine ⟨hresult, ?_, ?_, Step.reports_of_no_fault h⟩
  · rw [hresult]
    rfl
  · rw [hresult]
    exact Step.diagnostics_of_no_fault h _

/-- Well-formed tokens come back out of any text in which they are laid out, with the lines on which
they stand and the token for the end of the input behind them, and no reporter hears of a fault. -/
theorem scan_layOut {σ ε : Type} (reporter : Reporter σ ε) (state : σ) (filename : String)
    {items : List (List Char × Token)} {ending : List Char} (h : LaidOut true items ending) :
    let text := String.ofList (layOut items ending)
    let result := (Document.ofSource text filename).scanWith reporter state
    result.1.tokens = numbered [] items ++ [Token.endOfInput (1 + text.toList.count '\n')] ∧
      result.1.diagnostics = [] ∧ result.2 = (state, none) ∧
      tokens text = result.1.tokens ∧ reports text = [] := by
  intro text result
  have hall : Step.all text = Step.along Cursor.origin (Lexeme.split (layOut items ending)) := by
    rw [Step.all, String.toList_ofList]
  obtain ⟨htokens, hfaults⟩ := Step.along_split_layOut h [] Cursor.origin rfl
  rw [← hall] at htokens hfaults
  obtain ⟨hresult, hscanned, hdiagnostics, hreports⟩ :=
    Document.scanWith_of_no_fault reporter state filename hfaults
  refine ⟨?_, hdiagnostics, congrArg Prod.snd hresult, hscanned.symm, hreports⟩
  rw [hscanned, tokens_eq, ← Step.tokens, htokens, Nat.cast_add, Nat.cast_one]

/-- A comment with a quote in front of a keyword, a name that begins like one, and a string over two
lines with a comment behind it. -/
theorem scan_layOut_comments :
    let items : List (List Char × Token) :=
      [(['/', '/', '"', '\n'], ⟨.keyword .kwOr, "or", none, 0⟩),
        ([' '], ⟨.identifier, "or_", none, 0⟩),
        (['\r', '\n'], ⟨.string, "\"a\n/\"", some (.text "a\n/"), 0⟩)]
    let ending := ['\t', '/', '/', '/']
    let text := String.ofList (layOut items ending)
    let result := (Document.ofSource text "f.lox").scanWith Reporter.silent ()
    LaidOut true items ending ∧
      result.1.tokens = numbered [] items ++ [Token.endOfInput (1 + text.toList.count '\n')] ∧
      result.1.diagnostics = [] ∧ result.2 = ((), none) ∧
      tokens text = result.1.tokens ∧ reports text = [] := by
  intro items ending text result
  have hname : Lexeme.IsWord ['o', 'r', '_'] := Lexeme.isWord_of_all rfl rfl
  have hnot : ∀ word : Keyword, word.spelling.toList ≠ ['o', 'r', '_'] := by
    intro word
    cases word <;> decide
  have hbody : '"' ∉ ['a', '\n', '/'] := by decide
  have h : LaidOut true items ending := by
    refine ⟨.lead ?_, .keyword .kwOr, .separator (.inl rfl) .nil, .identifier hname hnot,
      .separator (.inr (.inl rfl)) ?_, .string hbody, ?_⟩
    · exact @Trivia.comment ['"'] [] (by decide) .nil
    · exact .space (.inr (.inr (.inr rfl))) .nil
    · exact @Ending.comment false ['\t'] ['/'] (.separator (.inr (.inr (.inl rfl))) .nil)
        (by decide)
  exact ⟨h, scan_layOut Reporter.silent () "f.lox" h⟩

end LoxLexer

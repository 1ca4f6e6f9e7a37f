import LoxLexer.Proofs.Lexeme.Grammar

/-!
# The longest match

`Lexeme.next` takes the longest match from the front of a text and nothing else
(`longestMatch_iff`). The converse view is `next_of_matches`: a complete lexeme is taken as it stands
if what follows cannot make it longer.
-/
namespace LoxLexer.Lexeme

variable {form : LexemeForm} {text rest : List Char} {value : Option Literal}

/-- What may follow a lexeme without making it longer. -/
def Stops (form : LexemeForm) (text rest : List Char) : Prop :=
  match form with
  | .token (.operator _ false) => rest.head? ≠ some '='
  | .token .slash => rest.head? ≠ some '/'
  | .comment => ∀ c, rest.head? = some c → c = '\n'
  | .token .number =>
    (∀ c, rest.head? = some c → c.isDigit = false) ∧ ('.' ∈ text ∨ takeFraction rest = ([], rest))
  | .token (.keyword _) | .token .identifier => ∀ c, rest.head? = some c → isWordChar c = false
  | _ => True

/-- At the end of a text no lexeme goes on. -/
theorem stops_nil (form : LexemeForm) (text : List Char) : Stops form text [] := by
  unfold Stops
  split <;> simp [takeFraction]

theorem takeWhile_append_of_stop {p : Char → Bool} {body rest : List Char}
    (hbody : ∀ c ∈ body, p c = true) (hrest : ∀ c, rest.head? = some c → p c = false) :
    (body ++ rest).takeWhile p = body := by
  rw [List.takeWhile_append_of_pos hbody]
  cases rest with
  | nil => simp
  | cons c rest => simp [hrest c rfl]

theorem dropWhile_append_of_stop {p : Char → Bool} {body rest : List Char}
    (hbody : ∀ c ∈ body, p c = true) (hrest : ∀ c, rest.head? = some c → p c = false) :
    (body ++ rest).dropWhile p = rest := by
  rw [List.dropWhile_append_of_pos hbody]
  cases rest with
  | nil => rfl
  | cons c rest => simp [hrest c rfl]

theorem decide_ne_of_not_mem {c : Char} {body : List Char} (h : c ∉ body) :
    ∀ d ∈ body, decide (d ≠ c) = true := by
  intro d hd
  simpa using ne_of_mem_of_not_mem hd h

/-- What holds of the first character of a text holds of whatever its head may be. -/
theorem forall_head?_cons {p : Char → Prop} {c : Char} (h : p c) :
    ∀ d, (c :: rest).head? = some d → p d := by
  rintro _ ⟨⟩
  exact h

theorem takeWhile_ne_append {separator : Char} {first : List Char} (h : separator ∉ first)
    (rest : List Char) : (first ++ separator :: rest).takeWhile (· ≠ separator) = first :=
  takeWhile_append_of_stop (decide_ne_of_not_mem h)
    (forall_head?_cons (by simp))

theorem dropWhile_ne_append {separator : Char} {first : List Char} (h : separator ∉ first)
    (rest : List Char) :
    (first ++ separator :: rest).dropWhile (· ≠ separator) = separator :: rest :=
  dropWhile_append_of_stop (decide_ne_of_not_mem h)
    (forall_head?_cons (by simp))

/-- Where a separator stands for the first time, one part ends and the next begins. -/
theorem append_separator_inj {separator : Char} {first second rest more : List Char}
    (hfirst : separator ∉ first) (hsecond : separator ∉ second)
    (h : first ++ separator :: rest = second ++ separator :: more) :
    first = second ∧ rest = more := by
  have htake := congrArg (List.takeWhile (· ≠ separator)) h
  rw [takeWhile_ne_append hfirst, takeWhile_ne_append hsecond] at htake
  subst htake
  exact ⟨rfl, (List.cons.inj (List.append_cancel_left h)).2⟩

theorem takeFraction_of_isDigits {fraction rest : List Char} (h : IsDigits fraction)
    (hrest : ∀ c, rest.head? = some c → c.isDigit = false) :
    takeFraction ('.' :: fraction ++ rest) = ('.' :: fraction, rest) := by
  obtain ⟨d, more, rfl, hd, hmore⟩ := h.exists_cons
  simp [takeFraction, hd, takeWhile_append_of_stop hmore hrest,
    dropWhile_append_of_stop hmore hrest]

/-- Whatever is taken is nothing or a point with digits behind it, and then all digits there are. -/
theorem takeFraction_cases (text : List Char) :
    takeFraction text = ([], text) ∨
      ∃ fraction, IsDigits fraction ∧ (takeFraction text).1 = '.' :: fraction := by
  unfold takeFraction
  split
  · rename_i d rest
    split
    · rename_i hd
      exact .inr ⟨_, isDigits_cons_iff.mpr ⟨hd, fun _ hc => List.mem_takeWhile_imp hc⟩, rfl⟩
    · exact .inl rfl
  · exact .inl rfl

theorem wordKind_spelling (word : Keyword) :
    wordKind word.spelling.toList = .keyword word := by
  rw [wordKind, String.ofList_toList, Keyword.ofSpelling?_spelling]

theorem wordKind_eq_identifier (hk : ∀ word : Keyword, word.spelling.toList ≠ text) :
    wordKind text = .identifier := by
  cases h : Keyword.ofSpelling? (String.ofList text) with
  | none => rw [wordKind, h]
  | some word =>
    have hs := Keyword.ofSpelling?_eq_some_iff.mp h
    exact absurd (by rw [hs, String.toList_ofList]) (hk word)

/-- A word is a keyword or an identifier by its spelling. -/
theorem matches_word (h : IsWord text) : Matches (.token (wordKind text)) text none := by
  by_cases hk : ∃ word : Keyword, word.spelling.toList = text
  · obtain ⟨word, rfl⟩ := hk
    rw [wordKind_spelling]
    exact .keyword word
  · have hk : ∀ word : Keyword, word.spelling.toList ≠ text := not_exists.mp hk
    rw [wordKind_eq_identifier hk]
    exact .identifier h hk

/-- The forms that a character of the given class may begin. -/
def Begins : CharClass → LexemeForm → Prop
  | .punctuation mark, form => form = .token (.punctuation mark)
  | .operator symbol, form => ∃ withEqual, form = .token (.operator symbol withEqual)
  | .slash, form => form = .token .slash ∨ form = .comment
  | .quote, form => form = .token .string
  | .blank, form => form = .blank
  | .lineBreak, form => form = .lineBreak
  | .digit, form => form = .token .number
  | .letter, form => form = .token .identifier ∨ ∃ word, form = .token (.keyword word)
  | .foreign, _ => False

/-- A complete lexeme has a first character, whose class fits its form. -/
theorem Matches.begins (h : Matches form text value) :
    ∃ c tail, text = c :: tail ∧ Begins (CharClass.ofChar c) form := by
  cases h with
  | punctuation mark =>
    exact ⟨_, _, rfl, by rw [CharClass.ofChar_mark]; rfl⟩
  | operator symbol => exact ⟨_, _, rfl, by rw [CharClass.ofChar_symbol]; exact ⟨false, rfl⟩⟩
  | operatorEqual symbol => exact ⟨_, _, rfl, by rw [CharClass.ofChar_symbol]; exact ⟨true, rfl⟩⟩
  | slash => exact ⟨_, _, rfl, by rw [CharClass.ofChar_slash]; exact .inl rfl⟩
  | comment h => exact ⟨_, _, rfl, by rw [CharClass.ofChar_slash]; exact .inr rfl⟩
  | blank h => exact ⟨_, _, rfl, by rw [CharClass.ofChar_of_isBlank (isBlank_iff.mpr h)]; rfl⟩
  | lineBreak => exact ⟨_, _, rfl, by rw [CharClass.ofChar_lineBreak]; rfl⟩
  | integer h =>
    obtain ⟨c, tail, rfl, hc, -⟩ := h.exists_cons
    exact ⟨c, tail, rfl, by rw [CharClass.ofChar_of_isDigit hc]; rfl⟩
  | fraction hw hf =>
    obtain ⟨c, tail, rfl, hc, -⟩ := hw.exists_cons
    exact ⟨c, _, rfl, by rw [CharClass.ofChar_of_isDigit hc]; rfl⟩
  | keyword word =>
    obtain ⟨c, tail, ht, hc, -⟩ := (isWord_spelling word).exists_cons
    exact ⟨c, tail, ht, by rw [CharClass.ofChar_of_isLetter hc]; exact .inr ⟨word, rfl⟩⟩
  | identifier h hk =>
    obtain ⟨c, tail, rfl, hc, -⟩ := h.exists_cons
    exact ⟨c, tail, rfl, by rw [CharClass.ofChar_of_isLetter hc]; exact .inl rfl⟩
  | string h => exact ⟨_, _, rfl, by rw [CharClass.ofChar_quote]; rfl⟩

theorem noMatch_of_foreign {c : Char} (h : CharClass.ofChar c = .foreign) :
    NoMatch (c :: rest) := by
  intro form beginning value hm hp
  obtain ⟨d, tail, rfl, hd⟩ := hm.begins
  rw [(List.cons_prefix_cons.mp hp).1, h] at hd
  exact hd

/-- Without a second quote, nothing that begins with a quote is complete. -/
theorem noMatch_of_openString (h : '"' ∉ rest) : NoMatch ('"' :: rest) := by
  intro form beginning value hm hp
  obtain ⟨d, tail, rfl, hd⟩ := hm.begins
  obtain ⟨rfl, htail⟩ := List.cons_prefix_cons.mp hp
  rw [CharClass.ofChar_quote] at hd
  obtain rfl : form = .token .string := hd
  generalize ht : '"' :: tail = text at hm
  cases hm with
  | string hbody =>
    rw [List.cons_append, List.cons.injEq] at ht
    have hq : '"' ∈ tail := by simp [ht.2]
    exact h (htail.subset hq)

theorem next_punctuation (mark : Punctuation) (rest : List Char) :
    next mark.toChar rest = (⟨.token (.punctuation mark), [mark.toChar]⟩, rest) := by
  rw [next, CharClass.ofChar_mark]

theorem next_operator (symbol : OperatorSymbol) (rest : List Char) :
    next symbol.toChar rest = nextOperator symbol symbol.toChar rest := by
  rw [next, CharClass.ofChar_symbol]

theorem next_slash (rest : List Char) : next '/' rest = nextSlash rest := rfl

theorem next_quote (rest : List Char) : next '"' rest = nextString rest := rfl

theorem next_blank {c : Char} (h : c = ' ' ∨ c = '\r' ∨ c = '\t') (rest : List Char) :
    next c rest = (⟨.blank, [c]⟩, rest) := by
  rw [next, CharClass.ofChar_of_isBlank (isBlank_iff.mpr h)]

theorem next_digit {c : Char} (h : c.isDigit = true) (rest : List Char) :
    next c rest = nextNumber c rest := by
  rw [next, CharClass.ofChar_of_isDigit h]

theorem next_letter {c : Char} (h : isLetter c = true) (rest : List Char) :
    next c rest = nextWord c rest := by
  rw [next, CharClass.ofChar_of_isLetter h]

theorem nextOperator_of_stop (symbol : OperatorSymbol) (c : Char) (h : rest.head? ≠ some '=') :
    nextOperator symbol c rest = (⟨.token (.operator symbol false), [c]⟩, rest) := by
  unfold nextOperator
  split
  · exact absurd rfl h
  · rfl

theorem nextSlash_of_stop (h : rest.head? ≠ some '/') :
    nextSlash rest = (⟨.token .slash, ['/']⟩, rest) := by
  unfold nextSlash
  split
  · exact absurd rfl h
  · rfl

/-- The characters of a comment are those that do not end its line. -/
theorem nextSlash_comment {body : List Char} (hbody : '\n' ∉ body)
    (h : ∀ c, rest.head? = some c → c = '\n') :
    nextSlash ('/' :: body ++ rest) = (⟨.comment, '/' :: '/' :: body⟩, rest) := by
  have hin := decide_ne_of_not_mem hbody
  have hout : ∀ c, rest.head? = some c → decide (c ≠ '\n') = false := by
    intro c hc
    simp [h c hc]
  rw [List.cons_append, nextSlash, takeWhile_append_of_stop hin hout,
    dropWhile_append_of_stop hin hout]

theorem nextString_closed {body : List Char} (hbody : '"' ∉ body) (rest : List Char) :
    nextString (body ++ '"' :: rest) = (⟨.token .string, '"' :: body ++ ['"']⟩, rest) := by
  rw [nextString, takeWhile_ne_append hbody, dropWhile_ne_append hbody]

theorem nextString_open (h : '"' ∉ rest) :
    nextString rest = (⟨.openString, '"' :: rest⟩, []) := by
  rw [nextString, List.dropWhile_eq_nil_iff.mpr (decide_ne_of_not_mem h)]

theorem nextWord_of_stop {c : Char} {tail : List Char} (hin : ∀ d ∈ tail, isWordChar d = true)
    (hout : ∀ d, rest.head? = some d → isWordChar d = false) :
    nextWord c (tail ++ rest) = (⟨.token (wordKind (c :: tail)), c :: tail⟩, rest) := by
  rw [nextWord, takeWhile_append_of_stop hin hout, dropWhile_append_of_stop hin hout]

theorem nextNumber_integer {c : Char} {tail : List Char} (hin : ∀ d ∈ tail, d.isDigit = true)
    (hout : ∀ d, rest.head? = some d → d.isDigit = false) (h : takeFraction rest = ([], rest)) :
    nextNumber c (tail ++ rest) = (⟨.token .number, c :: tail⟩, rest) := by
  rw [nextNumber, takeWhile_append_of_stop hin hout, dropWhile_append_of_stop hin hout, h,
    List.append_nil]

theorem nextNumber_fraction {c : Char} {tail fraction : List Char}
    (hin : ∀ d ∈ tail, d.isDigit = true) (hf : IsDigits fraction)
    (hout : ∀ d, rest.head? = some d → d.isDigit = false) :
    nextNumber c (tail ++ '.' :: fraction ++ rest) =
      (⟨.token .number, c :: tail ++ '.' :: fraction⟩, rest) := by
  have hpoint : ∀ d, ('.' :: fraction ++ rest).head? = some d → d.isDigit = false :=
    forall_head?_cons rfl
  rw [List.append_assoc, nextNumber, takeWhile_append_of_stop hin hpoint,
    dropWhile_append_of_stop hin hpoint, takeFraction_of_isDigits hf hout]

theorem next_of_isWord (h : IsWord text) (hs : ∀ d, rest.head? = some d → isWordChar d = false) :
    ∃ c tail, text = c :: tail ∧
      next c (tail ++ rest) = (⟨.token (wordKind text), text⟩, rest) := by
  obtain ⟨c, tail, rfl, hc, hin⟩ := h.exists_cons
  refine ⟨c, tail, rfl, ?_⟩
  rw [next_letter hc, nextWord_of_stop hin hs]

/-- A complete lexeme is taken whole and nothing more, if what follows cannot make it longer. -/
theorem next_of_matches (h : Matches form text value) (hs : Stops form text rest) :
    ∃ c tail, text = c :: tail ∧ next c (tail ++ rest) = (⟨form, text⟩, rest) := by
  cases h with
  | punctuation mark => exact ⟨_, _, rfl, next_punctuation mark rest⟩
  | operator symbol =>
    exact ⟨_, _, rfl, (next_operator symbol rest).trans (nextOperator_of_stop _ _ hs)⟩
  | operatorEqual symbol => exact ⟨_, _, rfl, next_operator symbol _⟩
  | slash => exact ⟨_, _, rfl, nextSlash_of_stop hs⟩
  | comment h => exact ⟨_, _, rfl, nextSlash_comment h hs⟩
  | blank h => exact ⟨_, _, rfl, next_blank h rest⟩
  | lineBreak => exact ⟨_, _, rfl, rfl⟩
  | integer h =>
    -- no point stands among the digits, so none with digits behind it may follow them
    have hpoint : '.' ∉ text := fun hm => absurd (h.isDigit _ hm) (by decide)
    obtain ⟨c, tail, rfl, hc, hin⟩ := h.exists_cons
    refine ⟨c, tail, rfl, ?_⟩
    rw [next_digit hc, nextNumber_integer hin hs.1 (hs.2.resolve_left hpoint)]
  | @fraction whole digits hw hf =>
    obtain ⟨c, tail, rfl, hc, hin⟩ := hw.exists_cons
    refine ⟨c, tail ++ '.' :: digits, rfl, ?_⟩
    rw [next_digit hc, nextNumber_fraction hin hf hs.1]
  | keyword word =>
    rw [← wordKind_spelling word]
    exact next_of_isWord (isWord_spelling word) hs
  | identifier h hk =>
    rw [← wordKind_eq_identifier hk]
    exact next_of_isWord h hs
  | @string body h =>
    refine ⟨'"', body ++ ['"'], rfl, ?_⟩
    rw [next_quote, List.append_assoc, List.singleton_append]
    exact nextString_closed h rest

/-- A complete lexeme that cannot grow is the first of the lexemes of its text. -/
theorem split_append_of_matches (h : Matches form text value) (hs : Stops form text rest) :
    split (text ++ rest) = ⟨form, text⟩ :: split rest := by
  obtain ⟨c, tail, rfl, hnext⟩ := next_of_matches h hs
  rw [List.cons_append, split, hnext]

/-- A beginning whose characters all satisfy a condition lies in what the condition takes. -/
theorem length_le_takeWhile {p : Char → Bool} {body rest : List Char}
    (hbody : ∀ c ∈ body, p c = true) (h : body <+: rest) :
    body.length ≤ (rest.takeWhile p).length := by
  obtain ⟨more, rfl⟩ := h
  rw [List.takeWhile_append_of_pos hbody, List.length_append]
  exact Nat.le_add_right _ _

theorem length_le_takeFraction {fraction rest : List Char} (hf : IsDigits fraction)
    (h : '.' :: fraction <+: rest) :
    ('.' :: fraction).length ≤ (takeFraction rest).1.length := by
  obtain ⟨d, digits, rfl, hd, hdigits⟩ := hf.exists_cons
  obtain ⟨more, rfl⟩ := h
  have hle := length_le_takeWhile hdigits (List.prefix_append digits more)
  simpa [takeFraction, hd] using hle

theorem length_pos_next (c : Char) (rest : List Char) : 0 < (next c rest).1.text.length :=
  List.length_pos_iff.mpr (text_next_ne_nil c rest)

theorem length_le_next_of_isWord {c : Char} (h : IsWord text) (hp : text <+: c :: rest) :
    text.length ≤ (next c rest).1.text.length := by
  obtain ⟨d, tail, rfl, hd, hin⟩ := h.exists_cons
  obtain ⟨rfl, htail⟩ := List.cons_prefix_cons.mp hp
  rw [next_letter hd]
  simpa [nextWord] using length_le_takeWhile hin htail

/-- Whatever complete lexeme a text begins with, `next` takes at least as much. -/
theorem length_le_next {c : Char} (h : Matches form text value) (hp : text <+: c :: rest) :
    text.length ≤ (next c rest).1.text.length := by
  cases h with
  | punctuation mark => exact length_pos_next c rest
  | operator symbol => exact length_pos_next c rest
  | operatorEqual symbol =>
    obtain ⟨more, hmore⟩ := hp
    cases hmore
    rw [next_operator]
    exact Nat.le_refl _
  | slash => exact length_pos_next c rest
  | @comment body h =>
    obtain ⟨more, hmore⟩ := hp
    cases hmore
    have hle := length_le_takeWhile (decide_ne_of_not_mem h) (List.prefix_append body more)
    simpa [next_slash, nextSlash] using hle
  | blank h => exact length_pos_next c rest
  | lineBreak => exact length_pos_next c rest
  | integer h =>
    obtain ⟨d, tail, rfl, hd, hin⟩ := h.exists_cons
    obtain ⟨rfl, htail⟩ := List.cons_prefix_cons.mp hp
    have hle := length_le_takeWhile hin htail
    rw [next_digit hd, nextNumber]
    simp only [List.length_cons, List.length_append]
    omega
  | @fraction whole digits hw hf =>
    obtain ⟨d, tail, rfl, hd, hin⟩ := hw.exists_cons
    rw [List.cons_append] at hp
    obtain ⟨rfl, more, rfl⟩ := List.cons_prefix_cons.mp hp
    have hpoint : ∀ x, ('.' :: digits ++ more).head? = some x → x.isDigit = false :=
      forall_head?_cons rfl
    have hle := length_le_takeFraction hf (List.prefix_append ('.' :: digits) more)
    rw [next_digit hd, List.append_assoc, nextNumber,
      takeWhile_append_of_stop hin hpoint, dropWhile_append_of_stop hin hpoint]
    simp only [List.length_cons, List.length_append] at hle ⊢
    omega
  | keyword word => exact length_le_next_of_isWord (isWord_spelling word) hp
  | identifier h hk => exact length_le_next_of_isWord h hp
  | @string body h =>
    obtain ⟨more, hmore⟩ := hp
    simp only [List.cons_append, List.append_assoc, List.nil_append, List.cons.injEq] at hmore
    obtain ⟨rfl, rfl⟩ := hmore
    rw [next_quote, nextString_closed h]

theorem matches_nextOperator (symbol : OperatorSymbol) (rest : List Char) :
    ∃ value, Matches (nextOperator symbol symbol.toChar rest).1.form
      (nextOperator symbol symbol.toChar rest).1.text value := by
  unfold nextOperator
  split
  · exact ⟨_, .operatorEqual symbol⟩
  · exact ⟨_, .operator symbol⟩

theorem matches_nextSlash (rest : List Char) :
    ∃ value, Matches (nextSlash rest).1.form (nextSlash rest).1.text value := by
  unfold nextSlash
  split
  · refine ⟨_, .comment fun h => ?_⟩
    simpa using List.mem_takeWhile_imp h
  · exact ⟨_, .slash⟩

theorem matches_nextNumber {c : Char} (hc : c.isDigit = true) (rest : List Char) :
    ∃ value, Matches (nextNumber c rest).1.form (nextNumber c rest).1.text value := by
  have hw : IsDigits (c :: rest.takeWhile Char.isDigit) :=
    isDigits_cons_iff.mpr ⟨hc, fun _ hd => List.mem_takeWhile_imp hd⟩
  rw [nextNumber]
  rcases takeFraction_cases (rest.dropWhile Char.isDigit) with h | ⟨fraction, hf, h⟩
  · rw [h]
    exact ⟨_, by simpa using Matches.integer hw⟩
  · rw [h]
    exact ⟨_, .fraction hw hf⟩

theorem matches_nextWord {c : Char} (hc : isLetter c = true) (rest : List Char) :
    Matches (nextWord c rest).1.form (nextWord c rest).1.text none :=
  matches_word (isWord_cons_iff.mpr ⟨hc, fun _ hd => List.mem_takeWhile_imp hd⟩)

/-- The longest match of a text that is not empty is what `next` takes. -/
theorem longestMatch_next (c : Char) (rest : List Char) :
    LongestMatch (c :: rest) (next c rest).1 (next c rest).1.literal := by
  have hcomplete : (∃ value, Matches (next c rest).1.form (next c rest).1.text value) →
      LongestMatch (c :: rest) (next c rest).1 (next c rest).1.literal := by
    rintro ⟨value, hm⟩
    rw [hm.literal_eq]
    exact .complete hm ⟨_, next_append c rest⟩ fun _ _ _ h hp => length_le_next h hp
  cases hc : CharClass.ofChar c with
  | punctuation mark =>
    apply hcomplete
    rw [← CharClass.toChar_of_punctuation hc, next_punctuation]
    exact ⟨_, .punctuation mark⟩
  | operator symbol =>
    apply hcomplete
    rw [← CharClass.toChar_of_operator hc, next_operator]
    exact matches_nextOperator symbol rest
  | slash =>
    apply hcomplete
    rw [CharClass.eq_of_slash hc]
    exact matches_nextSlash rest
  | quote =>
    obtain rfl := CharClass.eq_of_quote hc
    by_cases hq : '"' ∈ rest
    · obtain ⟨body, more, rfl, hbody⟩ := List.eq_append_cons_of_mem hq
      apply hcomplete
      rw [next_quote, nextString_closed hbody]
      exact ⟨_, .string hbody⟩
    · rw [next_quote, nextString_open hq]
      exact .openString (noMatch_of_openString hq) hq
  | blank =>
    apply hcomplete
    have hb := isBlank_iff.mp (CharClass.isBlank_of_blank hc)
    rw [next_blank hb]
    exact ⟨_, .blank hb⟩
  | lineBreak =>
    apply hcomplete
    rw [CharClass.eq_of_lineBreak hc]
    exact ⟨_, .lineBreak⟩
  | digit =>
    apply hcomplete
    have hd := CharClass.isDigit_of_digit hc
    rw [next_digit hd]
    exact matches_nextNumber hd rest
  | letter =>
    apply hcomplete
    have hl := CharClass.isLetter_of_letter hc
    rw [next_letter hl]
    exact ⟨_, matches_nextWord hl rest⟩
  | foreign =>
    have hq : c ≠ '"' := by
      rintro rfl
      cases hc
    rw [next, hc]
    exact .foreign (noMatch_of_foreign hc) hq

/-- A text has one form and one literal at most. -/
theorem Matches.unique {other : LexemeForm} {value' : Option Literal}
    (h : Matches form text value) (h' : Matches other text value') :
    form = other ∧ value = value' := by
  -- at the end of the text nothing can grow, so `next` gives back either form
  obtain ⟨c, tail, rfl, hn⟩ := next_of_matches h (stops_nil form _)
  obtain ⟨d, tail', heq, hn'⟩ := next_of_matches h' (stops_nil other _)
  cases heq
  rw [hn, Prod.mk.injEq, Lexeme.mk.injEq] at hn'
  obtain rfl := hn'.1.1
  have hv : (⟨form, c :: tail⟩ : Lexeme).literal = value := h.literal_eq
  have hv' : (⟨form, c :: tail⟩ : Lexeme).literal = value' := h'.literal_eq
  exact ⟨rfl, hv.symm.trans hv'⟩

/-- The rule of the longest match leaves no choice. -/
theorem LongestMatch.unique {lexeme other : Lexeme} {value' : Option Literal}
    (h : LongestMatch text lexeme value) (h' : LongestMatch text other value') :
    lexeme = other ∧ value = value' := by
  cases h with
  | complete h hp hmax =>
    cases h' with
    | complete h' hp' hmax' =>
      have hlen := Nat.le_antisymm (hmax' _ _ _ h hp) (hmax _ _ _ h' hp')
      have htext := (List.prefix_of_prefix_length_le hp hp' hlen.le).eq_of_length hlen
      obtain ⟨form, text⟩ := lexeme
      obtain ⟨form', text'⟩ := other
      cases htext
      obtain ⟨rfl, rfl⟩ := h.unique h'
      exact ⟨rfl, rfl⟩
    | openString h' hq => exact absurd hp (h' _ _ _ h)
    | foreign h' hq => exact absurd hp (h' _ _ _ h)
  | openString h hq =>
    cases h' with
    | complete h' hp' hmax' => exact absurd hp' (h _ _ _ h')
    | openString h' hq' => exact ⟨rfl, rfl⟩
    | foreign h' hq' => exact absurd rfl hq'
  | foreign h hq =>
    cases h' with
    | complete h' hp' hmax' => exact absurd hp' (h _ _ _ h')
    | openString h' hq' => exact absurd rfl hq
    | foreign h' hq' => exact ⟨rfl, rfl⟩

theorem longestMatch_iff {c : Char} {lexeme : Lexeme} :
    LongestMatch (c :: rest) lexeme value ↔
      lexeme = (next c rest).1 ∧ value = (next c rest).1.literal := by
  constructor
  · intro h
    exact h.unique (longestMatch_next c rest)
  · rintro ⟨rfl, rfl⟩
    exact longestMatch_next c rest

end LoxLexer.Lexeme

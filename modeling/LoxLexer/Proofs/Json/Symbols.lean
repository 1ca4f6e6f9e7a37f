import LoxLexer.Proofs.Json.Reader

/-!
# Values and their symbols

Every value is spelled by a list of symbols, and the reading with a stack puts these together to the
value (`assemble?_symbols`): inside of whatever is open, it goes over the symbols of a value to the
state behind that value (`State.run?_symbols`).
-/
namespace LoxLexer.Json

mutual

/-- The symbols that spell a value. -/
def symbols : Json → List Symbol
  | scalar value => [.scalar value]
  | array items => .openBracket :: itemSymbols items ++ [.closeBracket]
  | object members => .openBrace :: memberSymbols members ++ [.closeBrace]

/-- Items with commas between them. -/
def itemSymbols : List Json → List Symbol
  | [] => []
  | [item] => item.symbols
  | item :: next :: items => item.symbols ++ .comma :: itemSymbols (next :: items)

/-- Members with commas between them. -/
def memberSymbols : List (String × Json) → List Symbol
  | [] => []
  | [(name, value)] => .scalar (.string name) :: .colon :: value.symbols
  | (name, value) :: next :: members =>
    .scalar (.string name) :: .colon :: value.symbols ++ .comma :: memberSymbols (next :: members)

end

/-- Items begin with the first symbol of a value. -/
theorem exists_itemSymbols {items : List Json} (hne : items ≠ []) :
    ∃ symbol more, itemSymbols items = symbol :: more ∧ symbol ≠ .closeBracket := by
  have hfirst (json : Json) :
      ∃ symbol more, json.symbols = symbol :: more ∧ symbol ≠ .closeBracket := by
    cases json <;> exact ⟨_, _, rfl, Symbol.noConfusion⟩
  match items with
  | [] => exact absurd rfl hne
  | [item] =>
    rw [itemSymbols]
    exact hfirst item
  | item :: next :: items =>
    obtain ⟨symbol, more, hsymbols, hclose⟩ := hfirst item
    exact ⟨symbol, _, by rw [itemSymbols, hsymbols]; rfl, hclose⟩

theorem exists_memberSymbols {members : List (String × Json)} (hne : members ≠ []) :
    ∃ name more, memberSymbols members = .scalar (.string name) :: more := by
  match members with
  | [] => exact absurd rfl hne
  | [(name, value)] => exact ⟨name, _, by rw [memberSymbols]⟩
  | (name, value) :: next :: members => exact ⟨name, _, by rw [memberSymbols]; rfl⟩

namespace State

/-- The states after the symbols, if all of them fit. -/
def run? (state : State) (symbols : List Symbol) : Option State := symbols.foldlM after? state

theorem run?_cons (state : State) (symbol : Symbol) (rest : List Symbol) :
    state.run? (symbol :: rest) = (state.after? symbol).bind (·.run? rest) := List.foldlM_cons

variable (stack : List Frame) (rest : List Symbol)

theorem run?_openBracket :
    (atValue stack).run? (.openBracket :: rest) = (atFirstItem stack).run? rest := rfl

theorem run?_openBrace :
    (atValue stack).run? (.openBrace :: rest) = (atFirstName stack).run? rest := rfl

theorem run?_comma_array (value : Json) (before : List Json) :
    (behind value (.array before :: stack)).run? (.comma :: rest) =
      (atValue (.array (before ++ [value]) :: stack)).run? rest := rfl

theorem run?_comma_object (value : Json) (before : List (String × Json)) (name : String) :
    (behind value (.object before name :: stack)).run? (.comma :: rest) =
      (atName (before ++ [(name, value)]) stack).run? rest := rfl

theorem run?_name (before : List (String × Json)) (name : String) :
    (atName before stack).run? (.scalar (.string name) :: .colon :: rest) =
      (atValue (.object before name :: stack)).run? rest := rfl

/-- An item may come first just as it may come later. -/
theorem run?_atFirstItem {items : List Json} (hne : items ≠ []) :
    (atFirstItem stack).run? (itemSymbols items ++ rest) =
      (atValue (.array [] :: stack)).run? (itemSymbols items ++ rest) := by
  obtain ⟨symbol, more, hsymbols, hclose⟩ := exists_itemSymbols hne
  rw [hsymbols, List.cons_append, run?_cons, run?_cons]
  cases symbol <;> first | rfl | exact absurd rfl hclose

/-- A member may come first just as it may come later. -/
theorem run?_atFirstName {members : List (String × Json)} (hne : members ≠ []) :
    (atFirstName stack).run? (memberSymbols members ++ rest) =
      (atName [] stack).run? (memberSymbols members ++ rest) := by
  obtain ⟨name, more, hsymbols⟩ := exists_memberSymbols hne
  rw [hsymbols, List.cons_append, run?_cons, run?_cons]
  rfl

mutual

/-- The symbols of a value are read as that value. -/
theorem run?_symbols (stack : List Frame) (rest : List Symbol) :
    (json : Json) → (atValue stack).run? (json.symbols ++ rest) = (behind json stack).run? rest
  | scalar value => by
    rw [symbols]
    rfl
  | array items => by
    rw [symbols, List.cons_append, List.cons_append, List.append_assoc, run?_openBracket]
    by_cases hne : items = []
    · rw [hne]
      rfl
    · rw [run?_atFirstItem _ _ hne, run?_itemSymbols [] stack rest items hne, List.nil_append]
  | object members => by
    rw [symbols, List.cons_append, List.cons_append, List.append_assoc, run?_openBrace]
    by_cases hne : members = []
    · rw [hne]
      rfl
    · rw [run?_atFirstName _ _ hne, run?_memberSymbols [] stack rest members hne, List.nil_append]

theorem run?_itemSymbols (before : List Json) (stack : List Frame) (rest : List Symbol) :
    (items : List Json) → items ≠ [] →
      (atValue (.array before :: stack)).run? (itemSymbols items ++ ([.closeBracket] ++ rest)) =
        (behind (.array (before ++ items)) stack).run? rest
  | [], hne => absurd rfl hne
  | [item], _ => by
    rw [itemSymbols, run?_symbols _ _ item]
    rfl
  | item :: next :: items, _ => by
    rw [itemSymbols, List.append_assoc, run?_symbols _ _ item, List.cons_append, run?_comma_array,
      run?_itemSymbols (before ++ [item]) stack rest (next :: items) (List.cons_ne_nil _ _),
      List.append_assoc, List.singleton_append]

theorem run?_memberSymbols (before : List (String × Json)) (stack : List Frame)
    (rest : List Symbol) :
    (members : List (String × Json)) → members ≠ [] →
      (atName before stack).run? (memberSymbols members ++ ([.closeBrace] ++ rest)) =
        (behind (.object (before ++ members)) stack).run? rest
  | [], hne => absurd rfl hne
  | [(name, value)], _ => by
    rw [memberSymbols, List.cons_append, List.cons_append, run?_name, run?_symbols _ _ value]
    rfl
  | (name, value) :: next :: members, _ => by
    rw [memberSymbols, List.cons_append, List.cons_append, List.cons_append, List.cons_append,
      List.append_assoc, run?_name, run?_symbols _ _ value, List.cons_append, run?_comma_object,
      run?_memberSymbols (before ++ [(name, value)]) stack rest (next :: members)
        (List.cons_ne_nil _ _), List.append_assoc, List.singleton_append]

end

end State

/-- The symbols of a value are put together to that value. -/
theorem assemble?_symbols (json : Json) : assemble? json.symbols = some json := by
  have h := State.run?_symbols [] [] json
  rw [List.append_nil] at h
  rw [assemble?, ← State.run?, h]
  rfl

end LoxLexer.Json

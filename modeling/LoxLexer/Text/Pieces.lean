/-!
# Pieces of a text

A text falls into pieces between the places where a separator stands. There is always one piece more
than there are separators (`length_pieces`), and none holds a separator (`not_mem_of_mem_pieces`).
-/
namespace LoxLexer

/-- The pieces of a text between separators. -/
def pieces (separator : Char) : List Char → List (List Char)
  | [] => [[]]
  | c :: rest =>
    if c = separator then [] :: pieces separator rest
    else
      match pieces separator rest with
      | [] => [[c]]
      | piece :: more => (c :: piece) :: more

theorem pieces_ne_nil (separator : Char) (text : List Char) : pieces separator text ≠ [] := by
  cases text with
  | nil => simp [pieces]
  | cons c rest =>
    rw [pieces]
    split
    · simp
    · split <;> simp

theorem length_pieces (separator : Char) (text : List Char) :
    (pieces separator text).length = text.count separator + 1 := by
  induction text with
  | nil => rfl
  | cons c rest ih =>
    rw [pieces]
    split
    · rename_i h
      simp [h, ih]
    · rename_i h
      rw [List.count_cons_of_ne h, ← ih]
      split
      · rename_i hnil
        exact absurd hnil (pieces_ne_nil separator rest)
      · rename_i hcons
        simp [hcons]

/-- A text without a separator is one piece. -/
theorem pieces_of_not_mem {separator : Char} {text : List Char} (h : separator ∉ text) :
    pieces separator text = [text] := by
  induction text with
  | nil => rfl
  | cons c rest ih =>
    rw [pieces, if_neg (List.ne_of_not_mem_cons h).symm, ih (List.not_mem_of_not_mem_cons h)]

/-- Texts without a separator are their own pieces. -/
theorem flatMap_pieces_of_not_mem {α : Type} {separator : Char} {f : α → List Char} {items : List α}
    (h : ∀ item ∈ items, separator ∉ f item) :
    items.flatMap (fun item => pieces separator (f item)) = items.map f := by
  rw [List.flatMap_def, List.map_congr_left fun item hitem => pieces_of_not_mem (h item hitem),
    ← List.flatMap_def, ← List.map_eq_flatMap]

/-- A separator falls between pieces of what stands before it and of what stands behind it. -/
theorem pieces_append (separator : Char) (first rest : List Char) :
    pieces separator (first ++ separator :: rest) =
      pieces separator first ++ pieces separator rest := by
  induction first with
  | nil => exact if_pos rfl
  | cons c first ih =>
    rw [List.cons_append, pieces, pieces, ih]
    split
    · rfl
    · obtain ⟨piece, more, hpieces⟩ := List.exists_cons_of_ne_nil (pieces_ne_nil separator first)
      rw [hpieces]
      rfl

/-- The first separator ends the first piece. -/
theorem pieces_append_cons {separator : Char} {first : List Char} (h : separator ∉ first)
    (rest : List Char) :
    pieces separator (first ++ separator :: rest) = first :: pieces separator rest := by
  rw [pieces_append, pieces_of_not_mem h, List.singleton_append]

theorem not_mem_of_mem_pieces {separator : Char} {text piece : List Char}
    (h : piece ∈ pieces separator text) : separator ∉ piece := by
  induction text generalizing piece with
  | nil =>
    rw [pieces, List.mem_singleton] at h
    simp [h]
  | cons c rest ih =>
    rw [pieces] at h
    split at h
    · rcases List.mem_cons.mp h with rfl | h
      · simp
      · exact ih h
    · rename_i hc
      split at h
      · rw [List.mem_singleton] at h
        simpa [h] using Ne.symm hc
      · rename_i hcons
        rcases List.mem_cons.mp h with rfl | h
        · have := ih (hcons ▸ List.mem_cons_self)
          simp [this, Ne.symm hc]
        · exact ih (hcons ▸ List.mem_cons_of_mem _ h)

end LoxLexer

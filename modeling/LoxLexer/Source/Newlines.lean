import LoxLexer.Text.Pieces

/-!
# Line endings

A carriage return, alone or in front of a line feed, becomes a line feed.
-/
namespace LoxLexer

def foldNewlines : List Char → List Char
  | [] => []
  | '\r' :: '\n' :: rest => '\n' :: foldNewlines rest
  | '\r' :: rest => '\n' :: foldNewlines rest
  | c :: rest => c :: foldNewlines rest

/-- The lines of a text: the pieces between line feeds, the last one only if it is not empty. -/
def linesOf (text : List Char) : List (List Char) :=
  let all := pieces '\n' text
  if all.getLast? = some [] then all.dropLast else all

theorem linesOf_nil : linesOf [] = [] := rfl

/-- What stands behind the last line feed is a line of its own if it is not empty. -/
theorem linesOf_of_not_mem {line : List Char} (hne : line ≠ []) (h : '\n' ∉ line) :
    linesOf line = [line] := by
  simp [linesOf, pieces_of_not_mem h, hne]

/-- A line feed ends the last of the lines before it. -/
theorem linesOf_append (text rest : List Char) :
    linesOf (text ++ '\n' :: rest) = pieces '\n' text ++ linesOf rest := by
  have hne := pieces_ne_nil '\n' rest
  have hlast : (pieces '\n' text ++ pieces '\n' rest).getLast? = (pieces '\n' rest).getLast? := by
    rw [List.getLast?_append, List.getLast?_eq_some_getLast hne, Option.some_or]
  simp only [linesOf, pieces_append, hlast, List.dropLast_append_of_ne_nil hne]
  split <;> rfl

/-- A line feed ends a line, be it empty or not. -/
theorem linesOf_append_lineBreak {line : List Char} (h : '\n' ∉ line) (rest : List Char) :
    linesOf (line ++ '\n' :: rest) = line :: linesOf rest := by
  rw [linesOf_append, pieces_of_not_mem h, List.singleton_append]

/-- The lines of texts that are each followed by a line feed. -/
theorem linesOf_join_map_append (texts : List String) :
    linesOf (String.join (texts.map (· ++ "\n"))).toList =
      texts.flatMap fun text => pieces '\n' text.toList := by
  induction texts with
  | nil => rfl
  | cons text texts ih =>
    rw [List.map_cons, String.join_cons, String.toList_append, String.toList_append,
      List.append_assoc, List.flatMap_cons, ← ih]
    exact linesOf_append text.toList _

theorem linesOf_join_of_not_mem {texts : List String} (h : ∀ text ∈ texts, '\n' ∉ text.toList) :
    linesOf (String.join (texts.map (· ++ "\n"))).toList = texts.map String.toList := by
  rw [linesOf_join_map_append, flatMap_pieces_of_not_mem h]

theorem not_mem_of_mem_linesOf {text line : List Char} (h : line ∈ linesOf text) :
    '\n' ∉ line := by
  simp only [linesOf] at h
  split at h
  · exact not_mem_of_mem_pieces (List.dropLast_subset _ h)
  · exact not_mem_of_mem_pieces h

/-- What holds of the empty text and of a last line without a line feed, and is not lost when a line
is put in front, holds of every text. -/
theorem lines_induction {motive : List Char → Prop} (nil : motive [])
    (last : ∀ line, line ≠ [] → '\n' ∉ line → motive line)
    (cons : ∀ line rest, '\n' ∉ line → motive rest → motive (line ++ '\n' :: rest))
    (text : List Char) : motive text :=
  if h : '\n' ∈ text then by
    obtain ⟨line, rest, htext, hline⟩ := List.eq_append_cons_of_mem h
    have hlt : rest.length < text.length := by
      rw [htext, List.length_append, List.length_cons]
      omega
    rw [htext]
    exact cons line rest hline (lines_induction nil last cons rest)
  else if hnil : text = [] then hnil ▸ nil
  else last text hnil h
termination_by text.length

end LoxLexer

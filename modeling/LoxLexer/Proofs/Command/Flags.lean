import LoxLexer.Proofs.Command.Arguments

/-!
# Flags

The two flags of a dump can be given in any order and more than once. They decide the format and
nothing else: with a path in front of them the script there is dumped (`planOf_path_flags`), without
one the lines of a prompt (`planOf_flags`).
-/
namespace LoxLexer.Command

/-- The flags that change the format of a dump. -/
def IsDumpFlag (argument : String) : Prop := argument = "--json" ∨ argument = "--no-eof"

/-- The format that flags ask for. -/
def formatOf (flags : List String) : DumpFormat :=
  ⟨!flags.contains "--no-eof", flags.contains "--json"⟩

theorem isPlain_of_isDumpFlag {argument : String} (h : IsDumpFlag argument) :
    isPlain argument = true := by
  rcases h with rfl | rfl <;> decide

variable {flags : List String} (h : ∀ flag ∈ flags, IsDumpFlag flag)
include h

/-- Flags ask for a format and for nothing else. -/
theorem requestOf_flags : requestOf flags = ⟨formatOf flags, [], false⟩ := by
  induction flags with
  | nil => rfl
  | cons flag flags ih =>
    obtain ⟨hflag, hflags⟩ := List.forall_mem_cons.mp h
    have hjson : spells .json "--json" = true := by decide
    have hnoEof : spells .noEof "--no-eof" = true := by decide
    rcases hflag with rfl | rfl
    · rw [requestOf_cons_flag hjson, ih hflags]
      simp [formatOf]
    · rw [requestOf_cons_flag hnoEof, ih hflags]
      simp [formatOf]

theorem planOf_flags : planOf flags = .prompt (formatOf flags) := by
  rw [planOf_eq_plan fun flag hflag => isPlain_of_isDumpFlag (h flag hflag), requestOf_flags h]
  rfl

theorem planOf_path_flags {path : String} (hpath : path.toList.head? ≠ some '-') :
    planOf (path :: flags) = .script (formatOf flags) path := by
  have hoperand : isOperand path = true := decide_eq_true hpath
  have hplain : ∀ a ∈ path :: flags, isPlain a = true := List.forall_mem_cons.mpr
    ⟨isPlain_iff.mpr (.inl hoperand), fun flag hflag => isPlain_of_isDumpFlag (h flag hflag)⟩
  rw [planOf_eq_plan hplain, requestOf_cons_operand hoperand, requestOf_flags h]
  rfl

end LoxLexer.Command

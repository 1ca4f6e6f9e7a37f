import LoxLexer.Proofs.Json.Reader

/-!
# A JSON string reads back

Whatever characters a text has, the JSON string that is written for it is read as that text
(`takeString?_flatMap_escape`): one escape or one character gives the UTF-16 units of the character
(`takeUnits?_escape`), and the units of a text give the text (`ofUnits16?_flatMap`).
-/
namespace LoxLexer.Json

open JsonString

theorem hexDigit?_digitChar {d : Nat} (h : d < 16) : hexDigit? d.digitChar = some d := by
  have hall : ∀ d < 16, hexDigit? d.digitChar = some d := by decide
  exact hall d h

theorem hexNumber?_append (first second : List Char) :
    hexNumber? (first ++ second) =
      (hexNumber? first).bind fun n =>
        second.foldlM (fun n c => (hexDigit? c).map (16 * n + ·)) n :=
  List.foldlM_append

theorem hexNumber?_toDigits (n : Nat) : hexNumber? (Nat.toDigits 16 n) = some n := by
  induction n using Nat.strongRecOn with
  | ind n ih =>
    rw [Nat.toDigits_eq_if (by decide)]
    split
    · rename_i hlt
      simp [hexNumber?, hexDigit?_digitChar hlt]
    · rename_i hge
      have hlt : n % 16 < 16 := Nat.mod_lt n (by decide)
      rw [hexNumber?_append, ih (n / 16) (by omega)]
      simp [hexDigit?_digitChar hlt, Nat.div_add_mod]

/-- Zeros in front change no number. -/
theorem hexNumber?_hexText (width n : Nat) : hexNumber? (hexText width n) = some n := by
  have hzeros (zeros : Nat) : hexNumber? (List.replicate zeros '0') = some 0 := by
    induction zeros with
    | zero => rfl
    | succ zeros ih =>
      rw [List.replicate_succ]
      exact ih
  rw [hexText, List.leftpad, hexNumber?_append, hzeros]
  exact hexNumber?_toDigits n

/-- An escape by number is read as one unit. -/
theorem takeUnits?_hexText {unit : Nat} (h : unit < 0x10000) (rest : List Char) :
    takeUnits? ('\\' :: 'u' :: hexText 4 unit ++ rest) =
      (takeUnits? rest).map (withUnits [unit]) := by
  obtain ⟨first, second, third, fourth, htext⟩ : ∃ first second third fourth,
      hexText 4 unit = [first, second, third, fourth] := by
    have hlength : (hexText 4 unit).length = 4 := length_hexText (by decide) h
    match hexText 4 unit, hlength with
    | [first, second, third, fourth], _ => exact ⟨first, second, third, fourth, rfl⟩
  have hnumber := hexNumber?_hexText 4 unit
  rw [htext] at hnumber ⊢
  simp [takeUnits?, hnumber]

/-- A letter behind a backslash is read as the unit of its character. -/
theorem takeUnits?_letter {c letter : Char} (h : letter? c = some letter) (rest : List Char) :
    takeUnits? ('\\' :: letter :: rest) = (takeUnits? rest).map (withUnits (units16 c.toNat)) := by
  unfold letter? at h
  repeat' split at h
  all_goals cases h
  all_goals
    rename_i heq
    rw [heq, takeUnits?.eq_def]
    rfl

theorem takeUnits?_escapes {units : List Nat} (h : ∀ unit ∈ units, unit < 0x10000)
    (rest : List Char) :
    takeUnits? ((units.flatMap fun unit => '\\' :: 'u' :: hexText 4 unit) ++ rest) =
      (takeUnits? rest).map (withUnits units) := by
  induction units with
  | nil => exact Option.map_id'.symm
  | cons unit units ih =>
    obtain ⟨hunit, hunits⟩ := List.forall_mem_cons.mp h
    rw [List.flatMap_cons, List.append_assoc, takeUnits?_hexText hunit, ih hunits, Option.map_map]
    rfl

theorem toNat_valid (c : Char) : c.toNat < 0xD800 ∨ 0xDFFF < c.toNat ∧ c.toNat < 0x110000 :=
  c.valid

theorem units16_lt (c : Char) : ∀ unit ∈ units16 c.toNat, unit < 0x10000 := by
  have hvalid := toNat_valid c
  unfold units16
  split
  · simp
    omega
  · simp
    omega

/-- What is written for one character is read as its units. -/
theorem takeUnits?_escape (c : Char) (rest : List Char) :
    takeUnits? (escape c ++ rest) = (takeUnits? rest).map (withUnits (units16 c.toNat)) := by
  cases hletter : letter? c with
  | some letter =>
    rw [escape, hletter]
    exact takeUnits?_letter hletter rest
  | none =>
    simp only [escape, hletter]
    split
    · rename_i hprintable
      have hquote : c ≠ '"' := by
        rintro rfl
        exact absurd hletter (by decide)
      have hbackslash : c ≠ '\\' := by
        rintro rfl
        exact absurd hletter (by decide)
      have hcontrol : ¬c.toNat < 0x20 := by
        simp at hprintable
        omega
      rw [List.singleton_append, takeUnits?.eq_def]
      simp only [if_neg hquote, if_neg hbackslash, if_neg hcontrol]
    · exact takeUnits?_escapes (units16_lt c) rest

theorem takeUnits?_flatMap_escape (text rest : List Char) :
    takeUnits? (text.flatMap escape ++ '"' :: rest) =
      some (text.flatMap fun c => units16 c.toNat, rest) := by
  induction text with
  | nil =>
    rw [List.flatMap_nil, List.nil_append, takeUnits?.eq_def]
    rfl
  | cons c text ih =>
    rw [List.flatMap_cons, List.append_assoc, takeUnits?_escape, ih]
    rfl

theorem ofUnits16?_units16 (c : Char) (units : List Nat) :
    ofUnits16? (units16 c.toNat ++ units) = (ofUnits16? units).map (c :: ·) := by
  have hvalid := toNat_valid c
  unfold units16
  split
  · have hhigh : isHighUnit c.toNat = false := by
      simp [isHighUnit]
      omega
    have hlow : isLowUnit c.toNat = false := by
      simp [isLowUnit]
      omega
    rw [List.singleton_append, ofUnits16?.eq_def]
    simp [hhigh, hlow]
  · have hhigh : isHighUnit (0xD800 + (c.toNat - 0x10000) / 0x400) = true := by
      simp [isHighUnit]
      omega
    have hlow : isLowUnit (0xDC00 + (c.toNat - 0x10000) % 0x400) = true := by
      simp [isLowUnit]
      omega
    have hcode : 0x10000 + (0xD800 + (c.toNat - 0x10000) / 0x400 - 0xD800) * 0x400 +
        (0xDC00 + (c.toNat - 0x10000) % 0x400 - 0xDC00) = c.toNat := by omega
    simp only [List.cons_append, List.nil_append, ofUnits16?, hhigh, hlow, if_true, hcode,
      Char.ofNat_toNat]

theorem ofUnits16?_flatMap (text : List Char) :
    ofUnits16? (text.flatMap fun c => units16 c.toNat) = some text := by
  induction text with
  | nil => rfl
  | cons c text ih =>
    rw [List.flatMap_cons, ofUnits16?_units16, ih]
    rfl

/-- The JSON string of a text is read as that text. -/
theorem takeString?_flatMap_escape (text rest : List Char) :
    takeString? (text.flatMap escape ++ '"' :: rest) = some (.string (String.ofList text), rest) := by
  simp [takeString?, takeUnits?_flatMap_escape, ofUnits16?_flatMap]

end LoxLexer.Json

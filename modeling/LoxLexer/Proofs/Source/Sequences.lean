import LoxLexer.Source.Utf8
import Mathlib.Tactic.SplitIfs

/-!
# The bytes of one character

What encoding a character computes and what the decoder finds in its table is one and the same set
of byte sequences. Between the two stand the bounds on these bytes (`IsSequence`): just the
encodings keep them (`utf8EncodeChar_eq_cons_iff`), and just what lies in the ranges that the table
gives for the first byte (`isSequence_of_fits`, `IsSequence.fits`). As no range is empty, bytes that
lie in the first ranges are the beginning of some encoding (`isCutOff_cons_iff`).
-/
namespace LoxLexer.Utf8

/-- A part of the bytes of some character, from the first one on but not all of them. -/
def IsCutOff (bytes : List UInt8) : Prop :=
  ∃ c, bytes <+: String.utf8EncodeChar c ∧ bytes ≠ String.utf8EncodeChar c

variable {lead : UInt8} {followers bytes : List UInt8} {ranges : List (UInt8 × UInt8)}

theorem IsCutOff.take (h : IsCutOff bytes) (n : Nat) : IsCutOff (bytes.take n) := by
  obtain ⟨c, hprefix, hne⟩ := h
  have htake := List.take_prefix n bytes
  refine ⟨c, htake.trans hprefix, fun heq => hne ?_⟩
  exact hprefix.eq_of_length_le (heq ▸ htake.length_le)

/-! ### Code points -/

/-- A byte that follows others. -/
def IsTail (byte : UInt8) : Prop := 0x80 ≤ byte.toNat ∧ byte.toNat < 0xC0

/-- The bounds on the bytes of a character: they are no more than its code point takes, and that is
neither a surrogate nor past the last one. -/
def IsSequence (lead : UInt8) : List UInt8 → Prop
  | [] => lead.toNat < 0x80
  | [x] => (0xC2 ≤ lead.toNat ∧ lead.toNat < 0xE0) ∧ IsTail x
  | [x, y] => (0xE0 ≤ lead.toNat ∧ lead.toNat < 0xF0) ∧ IsTail x ∧ IsTail y ∧
      (lead.toNat = 0xE0 → 0xA0 ≤ x.toNat) ∧ (lead.toNat = 0xED → x.toNat < 0xA0)
  | [x, y, z] => (0xF0 ≤ lead.toNat ∧ lead.toNat < 0xF5) ∧ IsTail x ∧ IsTail y ∧ IsTail z ∧
      (lead.toNat = 0xF0 → 0x90 ≤ x.toNat) ∧ (lead.toNat = 0xF4 → x.toNat < 0x90)
  | _ => False

theorem codePoint_nil : codePoint lead [] = lead.toNat := rfl

theorem codePoint_one (x : UInt8) :
    codePoint lead [x] = (lead.toNat - 0xC0) * 0x40 + (x.toNat - 0x80) := rfl

theorem codePoint_two (x y : UInt8) :
    codePoint lead [x, y] =
      ((lead.toNat - 0xE0) * 0x40 + (x.toNat - 0x80)) * 0x40 + (y.toNat - 0x80) := rfl

theorem codePoint_three (x y z : UInt8) :
    codePoint lead [x, y, z] =
      (((lead.toNat - 0xF0) * 0x40 + (x.toNat - 0x80)) * 0x40 + (y.toNat - 0x80)) * 0x40 +
        (z.toNat - 0x80) := rfl

theorem utf8EncodeChar_eq_cons_iff {c : Char} :
    String.utf8EncodeChar c = lead :: followers ↔
      IsSequence lead followers ∧ codePoint lead followers = c.toNat := by
  have hvalid : c.val.toNat.isValidChar := c.valid
  have htoNat : c.toNat = c.val.toNat := rfl
  rw [htoNat, String.utf8EncodeChar]
  generalize c.val.toNat = code at hvalid ⊢
  rw [Nat.isValidChar] at hvalid
  -- The number of followers and the size of the code point are compared case by case: if they do
  -- not belong together, the bounds on the bytes exclude the code point.
  match followers with
  | [] | [x] | [x, y] | [x, y, z] =>
    simp only [IsSequence, IsTail, codePoint_nil, codePoint_one, codePoint_two, codePoint_three]
    split_ifs <;> simp only [List.cons.injEq, ← UInt8.toNat_inj, UInt8.toNat_ofNat', and_true,
      reduceCtorEq, and_false, false_iff] <;> omega
  | x :: y :: z :: u :: more =>
    simp only [IsSequence, false_and, iff_false]
    split_ifs <;> simp

theorem isValidChar_codePoint (h : IsSequence lead followers) :
    (codePoint lead followers).isValidChar := by
  rw [Nat.isValidChar]
  match followers with
  | [] | [x] | [x, y] | [x, y, z] =>
    simp only [IsSequence, IsTail] at h
    simp only [codePoint_nil, codePoint_one, codePoint_two, codePoint_three]
    omega
  | x :: y :: z :: u :: more => exact h.elim

theorem isSequence_iff : IsSequence lead followers ↔
    ∃ c, String.utf8EncodeChar c = lead :: followers := by
  simp only [utf8EncodeChar_eq_cons_iff]
  constructor
  · intro h
    exact ⟨Char.ofNatAux _ (isValidChar_codePoint h), h, rfl⟩
  · rintro ⟨c, h, -⟩
    exact h

/-! ### The table of ranges -/

/-- The bytes lie in the first of the ranges, one in each. -/
def Fits : List (UInt8 × UInt8) → List UInt8 → Prop
  | _, [] => True
  | [], _ :: _ => False
  | (low, high) :: ranges, byte :: bytes => (low ≤ byte ∧ byte ≤ high) ∧ Fits ranges bytes

/-- The table gives each lead byte the ranges in which the code point is neither too small for so
many bytes, nor a surrogate, nor past the last one. -/
theorem followers?_eq (lead : UInt8) :
    followers? lead =
      if lead.toNat < 0x80 then some []
      else if lead.toNat < 0xC2 then none
      else if lead.toNat < 0xE0 then some [tail]
      else if lead.toNat < 0xF0 then
        some [(if lead.toNat = 0xE0 then 0xA0 else 0x80, if lead.toNat = 0xED then 0x9F else 0xBF),
          tail]
      else if lead.toNat < 0xF5 then
        some [(if lead.toNat = 0xF0 then 0x90 else 0x80, if lead.toNat = 0xF4 then 0x8F else 0xBF),
          tail, tail]
      else none := by
  simp only [followers?, UInt8.lt_iff_toNat_lt, ← UInt8.toNat_inj, UInt8.reduceToNat]
  split_ifs <;> first | rfl | omega

theorem isSequence_of_fits (hlead : followers? lead = some ranges)
    (hlength : followers.length = ranges.length) (hfits : Fits ranges followers) :
    IsSequence lead followers := by
  rw [followers?_eq] at hlead
  -- Once the ranges are known, so is the number of followers.
  split_ifs at hlead <;> cases hlead <;>
    rcases followers with _ | ⟨x, _ | ⟨y, _ | ⟨z, _ | ⟨u, more⟩⟩⟩⟩ <;> cases hlength
  all_goals
    simp only [Fits, tail, UInt8.le_iff_toNat_le, UInt8.reduceToNat] at hfits
    simp only [IsSequence, IsTail]
    omega

theorem IsSequence.fits (h : IsSequence lead followers) :
    ∃ ranges, followers? lead = some ranges ∧ followers.length = ranges.length ∧
      Fits ranges followers := by
  rw [followers?_eq]
  match followers with
  | [] =>
    simp only [IsSequence] at h
    rw [if_pos h]
    exact ⟨_, rfl, rfl, trivial⟩
  | [x] =>
    simp only [IsSequence, IsTail] at h
    rw [if_neg (by omega), if_neg (by omega), if_pos (by omega)]
    refine ⟨_, rfl, rfl, ?_⟩
    simp only [Fits, tail, UInt8.le_iff_toNat_le, UInt8.reduceToNat, and_true]
    omega
  | [x, y] =>
    simp only [IsSequence, IsTail] at h
    rw [if_neg (by omega), if_neg (by omega), if_neg (by omega), if_pos (by omega)]
    refine ⟨_, rfl, rfl, ?_⟩
    simp only [Fits, tail, UInt8.le_iff_toNat_le, apply_ite UInt8.toNat, UInt8.reduceToNat,
      and_true]
    split_ifs <;> omega
  | [x, y, z] =>
    simp only [IsSequence, IsTail] at h
    rw [if_neg (by omega), if_neg (by omega), if_neg (by omega), if_neg (by omega),
      if_pos (by omega)]
    refine ⟨_, rfl, rfl, ?_⟩
    simp only [Fits, tail, UInt8.le_iff_toNat_le, apply_ite UInt8.toNat, UInt8.reduceToNat,
      and_true]
    split_ifs <;> omega
  | x :: y :: z :: u :: more => exact h.elim

theorem Fits.of_append {more : List UInt8} (h : Fits ranges (bytes ++ more)) :
    Fits ranges bytes := by
  fun_induction Fits ranges bytes with
  | case1 => trivial
  | case2 => exact h
  | case3 low high ranges byte bytes ih => exact ⟨h.1, ih h.2⟩

/-- What lies in the first ranges can be completed, for in no range is there nothing. -/
theorem Fits.exists_append (h : Fits ranges bytes) (hlt : bytes.length < ranges.length)
    (hranges : ∀ range ∈ ranges, range.1 ≤ range.2) :
    ∃ more, more ≠ [] ∧ (bytes ++ more).length = ranges.length ∧ Fits ranges (bytes ++ more) := by
  fun_induction Fits ranges bytes with
  | case1 ranges =>
    refine ⟨ranges.map Prod.fst, ?_, ?_, ?_⟩
    · simpa [← List.length_pos_iff] using hlt
    · simp
    · clear h hlt
      induction ranges with
      | nil => trivial
      | cons range ranges ih =>
        obtain ⟨hrange, hranges⟩ := List.forall_mem_cons.mp hranges
        exact ⟨⟨UInt8.le_refl _, hrange⟩, ih hranges⟩
  | case2 => exact h.elim
  | case3 low high ranges byte bytes ih =>
    obtain ⟨-, hranges⟩ := List.forall_mem_cons.mp hranges
    obtain ⟨more, hne, hlength, hfits⟩ := ih h.2 (Nat.lt_of_succ_lt_succ hlt) hranges
    exact ⟨more, hne, congrArg Nat.succ hlength, h.1, hfits⟩

theorem followers?_nonempty (hlead : followers? lead = some ranges) :
    ∀ range ∈ ranges, range.1 ≤ range.2 := by
  rw [followers?] at hlead
  split_ifs at hlead <;> cases hlead <;> simp [tail]

theorem isCutOff_cons_iff : IsCutOff (lead :: bytes) ↔
    ∃ ranges, followers? lead = some ranges ∧ bytes.length < ranges.length ∧
      Fits ranges bytes := by
  constructor
  · rintro ⟨c, ⟨more, hmore⟩, hne⟩
    have hsequence : IsSequence lead (bytes ++ more) := isSequence_iff.mpr ⟨c, hmore.symm⟩
    obtain ⟨ranges, hlead, hlength, hfits⟩ := hsequence.fits
    refine ⟨ranges, hlead, ?_, hfits.of_append⟩
    have hpos : 0 < more.length := by
      refine List.length_pos_iff.mpr ?_
      rintro rfl
      rw [List.append_nil] at hmore
      exact hne hmore
    rw [← hlength, List.length_append]
    exact Nat.lt_add_of_pos_right hpos
  · rintro ⟨ranges, hlead, hlt, hfits⟩
    obtain ⟨more, hne, hlength, hall⟩ := hfits.exists_append hlt (followers?_nonempty hlead)
    obtain ⟨c, hc⟩ := isSequence_iff.mp (isSequence_of_fits hlead hlength hall)
    refine ⟨c, ⟨more, hc.symm⟩, ?_⟩
    rw [hc]
    simpa using hne

end LoxLexer.Utf8

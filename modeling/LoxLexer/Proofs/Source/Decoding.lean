import LoxLexer.Proofs.Source.Sequences
import Mathlib.Order.Bounds.Basic
import Mathlib.Tactic.Tauto

/-!
# Decoding inverts the encoding

The bytes of a text decode to it (`decode_eq_ok_iff`). Of bytes that encode no text those up to some
offset do, and no character begins there (`exists_stuck`); there the decoder stops, with a fault
that is determined by the bytes (`decode_eq_error_iff`).
-/
namespace LoxLexer.Utf8

/-- The bytes of a text. -/
def encode (text : List Char) : List UInt8 := text.flatMap String.utf8EncodeChar

/-- The bytes are those of some text. -/
def IsWellFormed (bytes : List UInt8) : Prop := ∃ text, encode text = bytes

/-- How many bytes a fault covers: the first one and those behind it that with it are still a part
of some character's. -/
def Covers (rest : List UInt8) (count : Nat) : Prop :=
  IsGreatest {n | n = 1 ∨ n ≤ rest.length ∧ IsCutOff (rest.take n)} count

/-- What a fault says of the bytes from the first wrong one on. -/
def Reason.Holds (rest : List UInt8) : Reason → Prop
  | invalidStart => ¬IsCutOff (rest.take 1)
  | invalidContinuation => IsCutOff (rest.take 1) ∧ ¬IsCutOff rest
  | unexpectedEnd => IsCutOff rest

/-- A fault in bytes starts at the first offset up to which they are a text's and at which no
character begins. -/
structure IsFault (bytes : List UInt8) (fault : Fault) : Prop where
  start : IsLeast {i | IsWellFormed (bytes.take i) ∧
    ∀ c, ¬String.utf8EncodeChar c <+: bytes.drop i} fault.start
  first : bytes[fault.start]? = some fault.first
  count : Covers (bytes.drop fault.start) fault.count
  reason : fault.reason.Holds (bytes.drop fault.start)

variable {lead : UInt8} {followers bytes rest : List UInt8} {ranges : List (UInt8 × UInt8)}

/-- A string consists of the bytes of its text. -/
theorem encode_toList (source : String) : encode source.toList = source.toUTF8.data.toList := by
  rw [encode, String.toUTF8_eq_toByteArray, ← String.utf8Encode_toList, List.utf8Encode,
    List.toList_data_toByteArray]

theorem encode_cons (c : Char) (text : List Char) :
    encode (c :: text) = String.utf8EncodeChar c ++ encode text := List.flatMap_cons

theorem Reason.Holds.unique {reason other : Reason} (h : reason.Holds bytes)
    (hother : other.Holds bytes) : reason = other := by
  have htake : IsCutOff bytes → IsCutOff (bytes.take 1) := fun hcut => hcut.take 1
  cases reason <;> cases other <;> simp only [Reason.Holds] at h hother <;> first | rfl | tauto

theorem covers_cons {right : Nat}
    (hright : right = 0 ∨ right ≤ bytes.length ∧ IsCutOff (lead :: bytes.take right))
    (hall : ∀ n ≤ bytes.length, IsCutOff (lead :: bytes.take n) → n ≤ right) :
    Covers (lead :: bytes) (right + 1) := by
  constructor
  · rcases hright with rfl | ⟨hle, hcut⟩
    · exact .inl rfl
    · exact .inr ⟨Nat.succ_le_succ hle, hcut⟩
  · rintro n (rfl | ⟨hle, hcut⟩)
    · exact Nat.le_add_left 1 right
    · cases n with
      | zero => exact Nat.zero_le _
      | succ n => exact Nat.succ_le_succ (hall n (Nat.le_of_succ_le_succ hle) hcut)

/-! ### Taking the followers -/

theorem follow_append (hfits : Fits ranges followers) (hlength : followers.length = ranges.length) :
    follow ranges (followers ++ rest) = .complete followers rest := by
  fun_induction Fits ranges followers with
  | case1 ranges =>
    obtain rfl := List.length_eq_zero_iff.mp hlength.symm
    rfl
  | case2 => exact hfits.elim
  | case3 low high ranges byte followers ih =>
    have hrange : (low ≤ byte && byte ≤ high) = true := by simpa using hfits.1
    rw [List.cons_append, follow, if_pos hrange, ih hfits.2 (Nat.succ.inj hlength)]

/-- The followers are not all there: those that count as right are all that can be taken. -/
structure Stops (ranges : List (UInt8 × UInt8)) (bytes : List UInt8) (right : Nat)
    (reason : Reason) : Prop where
  lt : right < ranges.length
  le : right ≤ bytes.length
  fits_take : ∀ n ≤ bytes.length, Fits ranges (bytes.take n) ↔ n ≤ right
  reason_eq : reason = if right = bytes.length then .unexpectedEnd else .invalidContinuation

theorem follow_cases (ranges : List (UInt8 × UInt8)) (bytes : List UInt8) :
    match follow ranges bytes with
    | .complete followers rest =>
      followers ++ rest = bytes ∧ followers.length = ranges.length ∧ Fits ranges followers
    | .broken right reason => Stops ranges bytes right reason := by
  fun_induction follow ranges bytes with
  | case1 bytes => exact ⟨rfl, rfl, trivial⟩
  | case2 range ranges =>
    refine ⟨by simp, by simp, ?_, by simp⟩
    intro n hn
    simp_all [Fits]
  | case3 low high ranges byte bytes hrange followers rest heq ih =>
    rw [heq] at ih
    obtain ⟨hbytes, hlength, hfits⟩ := ih
    exact ⟨congrArg _ hbytes, congrArg Nat.succ hlength, by simpa using hrange, hfits⟩
  | case4 low high ranges byte bytes hrange right reason heq ih =>
    rw [heq] at ih
    refine ⟨Nat.succ_lt_succ ih.lt, Nat.succ_le_succ ih.le, ?_, ?_⟩
    · rintro (_ | n) hn
      · simp [Fits]
      · simp only [List.take_succ_cons, Fits]
        rw [ih.fits_take n (Nat.le_of_succ_le_succ hn)]
        simp_all
    · simp [ih.reason_eq]
  | case5 low high ranges byte bytes hrange =>
    refine ⟨by simp, by simp, ?_, by simp⟩
    rintro (_ | n) hn
    · simp [Fits]
    · simp_all [Fits]

section Stops

variable {right : Nat} {reason : Reason} (hstops : Stops ranges bytes right reason)
  (hlead : followers? lead = some ranges)
include hstops hlead

theorem Stops.isCutOff_take_iff {n : Nat} (hn : n ≤ bytes.length) :
    IsCutOff (lead :: bytes.take n) ↔ n ≤ right := by
  simp only [isCutOff_cons_iff, hlead, Option.some.injEq, exists_eq_left', hstops.fits_take n hn,
    List.length_take, Nat.min_eq_left hn]
  exact ⟨And.right, fun hle => ⟨Nat.lt_of_le_of_lt hle hstops.lt, hle⟩⟩

theorem Stops.covers : Covers (lead :: bytes) (right + 1) :=
  covers_cons
    (.inr ⟨hstops.le, (hstops.isCutOff_take_iff hlead hstops.le).mpr (Nat.le_refl _)⟩)
    fun _ hn => (hstops.isCutOff_take_iff hlead hn).mp

theorem Stops.holds : reason.Holds (lead :: bytes) := by
  have hone := hstops.isCutOff_take_iff hlead (Nat.zero_le _)
  have hall := hstops.isCutOff_take_iff hlead (Nat.le_refl _)
  rw [List.take_length] at hall
  rw [hstops.reason_eq]
  split_ifs with hright
  · exact hall.mpr (Nat.le_of_eq hright.symm)
  · refine ⟨hone.mpr (Nat.zero_le _), fun hcut => hright ?_⟩
    exact Nat.le_antisymm hstops.le (hall.mp hcut)

end Stops

/-! ### Steps of the decoder -/

variable (offset : Nat)

theorem decodeFrom_of_none (hlead : followers? lead = none) :
    decodeFrom offset (lead :: bytes) = .error ⟨offset, 1, lead, .invalidStart⟩ := by
  rw [decodeFrom, hlead]

theorem decodeFrom_of_broken {right : Nat} {reason : Reason} (hlead : followers? lead = some ranges)
    (hfollow : follow ranges bytes = .broken right reason) :
    decodeFrom offset (lead :: bytes) = .error ⟨offset, right + 1, lead, reason⟩ := by
  rw [decodeFrom, hlead]
  dsimp only
  split
  · rename_i heq
    cases hfollow.symm.trans heq
    rfl
  · rename_i heq
    cases hfollow.symm.trans heq

theorem decodeFrom_of_complete (hlead : followers? lead = some ranges)
    (hfollow : follow ranges bytes = .complete followers rest) :
    decodeFrom offset (lead :: bytes) =
      (decodeFrom (offset + followers.length + 1) rest).map
        (Char.ofNat (codePoint lead followers) :: ·) := by
  rw [decodeFrom, hlead]
  dsimp only
  split
  · rename_i heq
    cases hfollow.symm.trans heq
  · rename_i heq
    cases hfollow.symm.trans heq
    cases decodeFrom (offset + followers.length + 1) rest <;> rfl

theorem decodeFrom_append_char (c : Char) (rest : List UInt8) :
    decodeFrom offset (String.utf8EncodeChar c ++ rest) =
      (decodeFrom (offset + (String.utf8EncodeChar c).length) rest).map (c :: ·) := by
  obtain ⟨lead, followers, hc⟩ := List.exists_cons_of_ne_nil (@String.utf8EncodeChar_ne_nil c)
  obtain ⟨hsequence, hcode⟩ := utf8EncodeChar_eq_cons_iff.mp hc
  obtain ⟨ranges, hlead, hlength, hfits⟩ := hsequence.fits
  rw [hc, List.cons_append, decodeFrom_of_complete offset hlead (follow_append hfits hlength),
    hcode, Char.ofNat_toNat, List.length_cons, Nat.add_assoc]

/-- Decoding inverts the encoding, and goes on behind it. -/
theorem decodeFrom_append (text : List Char) (rest : List UInt8) :
    decodeFrom offset (encode text ++ rest) =
      (decodeFrom (offset + (encode text).length) rest).map (text ++ ·) := by
  induction text generalizing offset with
  | nil => exact (congrFun Except.map_id (decodeFrom offset rest)).symm
  | cons c text ih =>
    rw [encode_cons, List.append_assoc, decodeFrom_append_char, ih, List.length_append,
      Nat.add_assoc]
    cases decodeFrom _ rest <;> rfl

/-- Where no character begins, the decoder stops. -/
theorem decodeFrom_of_stuck (h : ∀ c, ¬String.utf8EncodeChar c <+: lead :: bytes) :
    ∃ count reason, decodeFrom offset (lead :: bytes) = .error ⟨offset, count, lead, reason⟩ ∧
      Covers (lead :: bytes) count ∧ reason.Holds (lead :: bytes) := by
  cases hlead : followers? lead with
  | none =>
    have hnot : ∀ more, ¬IsCutOff (lead :: more) := by simp [isCutOff_cons_iff, hlead]
    exact ⟨1, .invalidStart, decodeFrom_of_none offset hlead,
      covers_cons (.inl rfl) fun _ _ hcut => absurd hcut (hnot _), hnot _⟩
  | some ranges =>
    have hcases := follow_cases ranges bytes
    cases hfollow : follow ranges bytes with
    | complete followers rest =>
      rw [hfollow] at hcases
      obtain ⟨hbytes, hlength, hfits⟩ := hcases
      obtain ⟨c, hc⟩ := isSequence_iff.mp (isSequence_of_fits hlead hlength hfits)
      refine absurd ⟨rest, ?_⟩ (h c)
      rw [hc, ← hbytes, List.cons_append]
    | broken right reason =>
      have hstops : Stops ranges bytes right reason := by simpa only [hfollow] using hcases
      exact ⟨right + 1, reason, decodeFrom_of_broken offset hlead hfollow, hstops.covers hlead,
        hstops.holds hlead⟩

/-! ### Decoding -/

/-- Bytes that encode no text go on behind a text with some that begin no character. -/
theorem exists_stuck {bytes : List UInt8} (h : ¬IsWellFormed bytes) :
    ∃ i first, IsWellFormed (bytes.take i) ∧ (∀ c, ¬String.utf8EncodeChar c <+: bytes.drop i) ∧
      bytes[i]? = some first := by
  match bytes with
  | [] => exact absurd ⟨[], rfl⟩ h
  | lead :: rest =>
    by_cases hstuck : ∃ c, String.utf8EncodeChar c <+: lead :: rest
    · obtain ⟨c, more, hmore⟩ := hstuck
      have hpos := List.length_pos_iff.mpr (@String.utf8EncodeChar_ne_nil c)
      have hlt : more.length < (lead :: rest).length := by
        rw [← hmore, List.length_append]
        exact Nat.lt_add_of_pos_left hpos
      have hnot : ¬IsWellFormed more := by
        rintro ⟨text, htext⟩
        exact h ⟨c :: text, by rw [encode_cons, htext, hmore]⟩
      obtain ⟨i, first, ⟨text, htext⟩, hlast, hfirst⟩ := exists_stuck hnot
      refine ⟨(String.utf8EncodeChar c).length + i, first, ⟨c :: text, ?_⟩, ?_, ?_⟩
      · rw [← hmore, List.take_length_add_append, encode_cons, htext]
      · rwa [← hmore, List.drop_length_add_append]
      · rw [← hmore, List.getElem?_append_right (Nat.le_add_right _ _), Nat.add_sub_cancel_left,
          hfirst]
    · exact ⟨0, lead, ⟨[], rfl⟩, not_exists.mp hstuck, rfl⟩
termination_by bytes.length
decreasing_by exact hlt

theorem decode_encode (text : List Char) : decode (encode text) = .ok text := by
  have h := decodeFrom_append 0 text []
  rw [List.append_nil, decodeFrom] at h
  exact h.trans (congrArg Except.ok (List.append_nil text))

/-- At the end of a text, where no character begins, the decoder stops. -/
theorem decode_of_stuck {i : Nat} {first : UInt8} (hbefore : IsWellFormed (bytes.take i))
    (hstuck : ∀ c, ¬String.utf8EncodeChar c <+: bytes.drop i) (hfirst : bytes[i]? = some first) :
    ∃ count reason, decode bytes = .error ⟨i, count, first, reason⟩ ∧
      Covers (bytes.drop i) count ∧ reason.Holds (bytes.drop i) := by
  obtain ⟨text, htext⟩ := hbefore
  obtain ⟨hlt, rfl⟩ := List.getElem?_eq_some_iff.mp hfirst
  have hlength : (encode text).length = i := by
    rw [htext, List.length_take, Nat.min_eq_left hlt.le]
  rw [List.drop_eq_getElem_cons hlt] at hstuck ⊢
  obtain ⟨count, reason, hdecode, hspec⟩ := decodeFrom_of_stuck i hstuck
  refine ⟨count, reason, ?_, hspec⟩
  conv_lhs => rw [← List.take_append_drop i bytes, ← htext, List.drop_eq_getElem_cons hlt]
  rw [decode, decodeFrom_append, hlength, Nat.zero_add, hdecode]
  rfl

/-- The decoder gives the text whose encoding the bytes are. -/
theorem decode_eq_ok_iff {text : List Char} : decode bytes = .ok text ↔ encode text = bytes := by
  constructor
  · intro hdecode
    by_cases h : IsWellFormed bytes
    · obtain ⟨other, rfl⟩ := h
      cases (decode_encode other).symm.trans hdecode
      rfl
    · obtain ⟨i, first, hbefore, hstuck, hfirst⟩ := exists_stuck h
      obtain ⟨count, reason, herror, -⟩ := decode_of_stuck hbefore hstuck hfirst
      cases herror.symm.trans hdecode
  · rintro rfl
    exact decode_encode text

/-- The fault of the decoder is the one fault in the bytes. -/
theorem decode_eq_error_iff {fault : Fault} :
    decode bytes = .error fault ↔ IsFault bytes fault := by
  constructor
  · intro hdecode
    have hnot : ¬IsWellFormed bytes := by
      rintro ⟨text, rfl⟩
      cases (decode_encode text).symm.trans hdecode
    obtain ⟨i, first, hbefore, hstuck, hfirst⟩ := exists_stuck hnot
    obtain ⟨count, reason, herror, hcount, hreason⟩ := decode_of_stuck hbefore hstuck hfirst
    cases herror.symm.trans hdecode
    refine ⟨⟨⟨hbefore, hstuck⟩, ?_⟩, hfirst, hcount, hreason⟩
    rintro j ⟨htext, hnone⟩
    have hlt : j < bytes.length := by
      by_contra hle
      rw [List.take_of_length_le (Nat.le_of_not_lt hle)] at htext
      exact hnot htext
    -- The decoder stops at each such offset, so there is no other one.
    obtain ⟨_, _, hsame, _⟩ := decode_of_stuck htext hnone (List.getElem?_eq_getElem hlt)
    cases hsame.symm.trans hdecode
    exact Nat.le_refl _
  · rintro ⟨hstart, hfirst, hcount, hreason⟩
    obtain ⟨count, reason, herror, hcovers, hholds⟩ :=
      decode_of_stuck hstart.1.1 hstart.1.2 hfirst
    rw [herror, IsGreatest.unique hcovers hcount, hholds.unique hreason]

theorem exists_isFault (h : ¬IsWellFormed bytes) : ∃ fault, IsFault bytes fault := by
  cases hdecode : decode bytes with
  | ok text => exact absurd ⟨text, decode_eq_ok_iff.mp hdecode⟩ h
  | error fault => exact ⟨fault, decode_eq_error_iff.mp hdecode⟩

end LoxLexer.Utf8

import LoxLexer.Text.Hex

/-!
# Decoding UTF-8

A lead byte says how many bytes follow it and in which range each of them lies; that rules out
overlong forms, surrogates and code points past the last one. A fault covers the lead byte and the
bytes behind it that were still right.
-/
namespace LoxLexer.Utf8

inductive Reason
  | invalidStart
  | invalidContinuation
  | unexpectedEnd
deriving DecidableEq

/-- Bytes that are no UTF-8: how many from which offset on, the first of them, and why. -/
structure Fault where
  start : Nat
  count : Nat
  first : UInt8
  reason : Reason
deriving DecidableEq

def Reason.text : Reason → String
  | invalidStart => "invalid start byte"
  | invalidContinuation => "invalid continuation byte"
  | unexpectedEnd => "unexpected end of data"

def Fault.message (fault : Fault) : String :=
  let place :=
    if fault.count = 1 then
      let byte := String.ofList (hexText 2 fault.first.toNat)
      s!"byte 0x{byte} in position {fault.start}"
    else s!"bytes in position {fault.start}-{fault.start + fault.count - 1}"
  s!"'utf-8' codec can't decode {place}: {fault.reason.text}"

/-- The range of a byte that follows others without a rule of its own. -/
def tail : UInt8 × UInt8 := (0x80, 0xBF)

/-- The ranges of the bytes that follow a lead byte; nothing for a byte that leads none. -/
def followers? (lead : UInt8) : Option (List (UInt8 × UInt8)) :=
  if lead < 0x80 then some []
  else if lead < 0xC2 then none
  else if lead < 0xE0 then some [tail]
  else if lead = 0xE0 then some [(0xA0, 0xBF), tail]
  else if lead = 0xED then some [(0x80, 0x9F), tail]
  else if lead < 0xF0 then some [tail, tail]
  else if lead = 0xF0 then some [(0x90, 0xBF), tail, tail]
  else if lead < 0xF4 then some [tail, tail, tail]
  else if lead = 0xF4 then some [(0x80, 0x8F), tail, tail]
  else none

/-- What came of taking the bytes that follow a lead byte. -/
inductive Followed
  | complete (followers rest : List UInt8)
  | broken (right : Nat) (reason : Reason)

/-- Takes a byte from each range; counts the right ones before one that is wrong or missing. -/
def follow : List (UInt8 × UInt8) → List UInt8 → Followed
  | [], bytes => .complete [] bytes
  | _ :: _, [] => .broken 0 .unexpectedEnd
  | (low, high) :: ranges, byte :: bytes =>
    if low ≤ byte && byte ≤ high then
      match follow ranges bytes with
      | .complete followers rest => .complete (byte :: followers) rest
      | .broken right reason => .broken (right + 1) reason
    else .broken 0 .invalidContinuation

theorem append_of_follow {ranges : List (UInt8 × UInt8)} {bytes followers rest : List UInt8}
    (h : follow ranges bytes = .complete followers rest) : followers ++ rest = bytes := by
  induction ranges generalizing bytes followers with
  | nil =>
    cases h
    rfl
  | cons range ranges ih =>
    cases bytes with
    | nil => cases h
    | cons byte bytes =>
      rw [follow] at h
      split at h
      · split at h
        · rename_i hf
          cases h
          rw [List.cons_append, ih hf]
        · cases h
      · cases h

/-- What a lead byte adds to the code point, by the number of bytes that follow it. -/
def leadBits (lead : UInt8) : Nat → Nat
  | 0 => lead.toNat
  | 1 => lead.toNat - 0xC0
  | 2 => lead.toNat - 0xE0
  | _ => lead.toNat - 0xF0

/-- The code point of a lead byte and its followers, which hold six bits each. -/
def codePoint (lead : UInt8) (followers : List UInt8) : Nat :=
  followers.foldl (fun code byte => code * 0x40 + (byte.toNat - 0x80))
    (leadBits lead followers.length)

/-- The characters of bytes whose first has the given offset. -/
def decodeFrom (offset : Nat) : List UInt8 → Except Fault (List Char)
  | [] => .ok []
  | lead :: bytes =>
    match followers? lead with
    | none => .error ⟨offset, 1, lead, .invalidStart⟩
    | some ranges =>
      match h : follow ranges bytes with
      | .broken right reason => .error ⟨offset, right + 1, lead, reason⟩
      | .complete followers rest =>
        match decodeFrom (offset + followers.length + 1) rest with
        | .error fault => .error fault
        | .ok text => .ok (Char.ofNat (codePoint lead followers) :: text)
termination_by bytes => bytes.length
decreasing_by
  have := congrArg List.length (append_of_follow h)
  simp only [List.length_append, List.length_cons] at this ⊢
  omega

def decode (bytes : List UInt8) : Except Fault (List Char) := decodeFrom 0 bytes

end LoxLexer.Utf8

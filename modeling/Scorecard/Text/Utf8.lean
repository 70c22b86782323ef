import Scorecard.Text.Quoted

set_option autoImplicit false

/-! # UTF-8

Reading bytes as UTF-8. A malformed sequence is reported with the positions it covers: the longest
beginning of a character that its bytes make, or the one byte that starts none. `decode` stops at
the first malformed sequence, `decodeLossy` puts one replacement character in the place of each.
-/

namespace Scorecard.Text

/-- What is wrong with a sequence of bytes. -/
inductive Utf8Fault where
  | invalidStart
  | invalidContinuation
  | unexpectedEnd
deriving DecidableEq, Repr

def Utf8Fault.reason : Utf8Fault → String
  | invalidStart => "invalid start byte"
  | invalidContinuation => "invalid continuation byte"
  | unexpectedEnd => "unexpected end of data"

/-- A malformed sequence: its first byte, its position and its length. -/
structure Utf8Error where
  byte : Nat
  position : Nat
  length : Nat
  fault : Utf8Fault
deriving DecidableEq, Repr

def Utf8Error.message (e : Utf8Error) : String :=
  let place :=
    if e.length = 1 then "byte 0x" ++ hexDigits 2 e.byte ++ " in position " ++ Nat.repr e.position
    else "bytes in position " ++ Nat.repr e.position ++ "-" ++ Nat.repr (e.position + e.length - 1)
  "'utf-8' codec can't decode " ++ place ++ ": " ++ e.fault.reason

/-- The number of further bytes after a first byte, with its bits and the range of the byte after
it. -/
def leadByte? (b : Nat) : Option (Nat × Nat × Nat × Nat) :=
  if 0xC2 ≤ b && b < 0xE0 then some (1, b - 0xC0, 0x80, 0xBF)
  -- narrower ranges leave out overlong forms, surrogates and what is beyond the last character
  else if b = 0xE0 then some (2, 0, 0xA0, 0xBF)
  else if b = 0xED then some (2, 13, 0x80, 0x9F)
  else if 0xE1 ≤ b && b < 0xF0 then some (2, b - 0xE0, 0x80, 0xBF)
  else if b = 0xF0 then some (3, 0, 0x90, 0xBF)
  else if 0xF1 ≤ b && b < 0xF4 then some (3, b - 0xF0, 0x80, 0xBF)
  else if b = 0xF4 then some (3, 4, 0x80, 0x8F)
  else none

/-- The rest of a character: `more` bytes, the first of them between `low` and `high`. Gives the
code and the bytes after it, or the number of bytes that were right and what is wrong. -/
def readRest (more code low high taken : Nat) : List Nat → Except (Nat × Utf8Fault) (Nat × Nat)
  | [] => if more = 0 then .ok (code, taken) else .error (taken, .unexpectedEnd)
  | b :: bs =>
    if more = 0 then .ok (code, taken)
    else if low ≤ b && b ≤ high then readRest (more - 1) (code * 64 + (b - 0x80)) 0x80 0xBF
      (taken + 1) bs
    else .error (taken, .invalidContinuation)

/-- The character at the front of some bytes and the number of its bytes, or the length and fault of
a malformed sequence. -/
def readChar (b : Nat) (bs : List Nat) : Except (Nat × Utf8Fault) (Char × Nat) :=
  if b < 0x80 then .ok (Char.ofNat b, 1)
  else
    match leadByte? b with
    | none => .error (1, .invalidStart)
    | some (more, code, low, high) =>
        (readRest more code low high 1 bs).map fun (n, taken) => (Char.ofNat n, taken)

/-- The character at the front of some bytes and the number of its bytes. A malformed sequence goes
through `repair`. -/
def readRepaired (repair : Utf8Error → Except Utf8Error Char) (position b : Nat) (bs : List Nat) :
    Except Utf8Error (Char × Nat) :=
  match readChar b bs with
  | .ok found => .ok found
  | .error (length, fault) => (repair { byte := b, position, length, fault }).map (·, length)

/-- Characters from bytes. `skip` bytes belong to the character before, and `position` is that of
the next byte. A malformed sequence goes through `repair`. -/
def decodeFrom (repair : Utf8Error → Except Utf8Error Char) (position skip : Nat) :
    List Nat → Except Utf8Error (List Char)
  | [] => .ok []
  | b :: bs =>
    match skip with
    | skip + 1 => decodeFrom repair (position + 1) skip bs
    | 0 => do
      let (c, length) ← readRepaired repair position b bs
      let rest ← decodeFrom repair (position + 1) (length - 1) bs
      return c :: rest

/-- The text of some bytes, or the first malformed sequence. -/
def decode (bytes : List Nat) : Except Utf8Error (List Char) := decodeFrom .error 0 0 bytes

/-- The text of some bytes with U+FFFD for every malformed sequence. -/
def decodeLossy (bytes : List Nat) : List Char :=
  match decodeFrom (fun _ => .ok '�') 0 0 bytes with
  | .ok cs => cs
  | .error _ => []

/-- The bytes of a text. -/
def encode (s : String) : List Nat := s.toUTF8.toList.map UInt8.toNat

end Scorecard.Text

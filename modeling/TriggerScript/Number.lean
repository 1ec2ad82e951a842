/-!
# Numbers

Integers of scripts have 64 bits, and a result that does not fit is no result, never a wrapped one. Digits are ASCII and read
in bases up to sixteen; a number is read against a largest value, so that a text too large for its place is refused rather
than cut down.
-/

namespace TriggerScript

/-- The integer as a 64-bit integer, if it fits. -/
def int64? (n : Int) : Option Int64 :=
  if Int64.minValue.toInt ≤ n ∧ n ≤ Int64.maxValue.toInt then some (Int64.ofInt n) else none

/-- The integer as an unsigned 32-bit number, if it fits. -/
def uint32? (n : Int) : Option UInt32 :=
  if 0 ≤ n ∧ n < UInt32.size then some (UInt32.ofNat n.toNat) else none

namespace Text

/-- The value of a digit, if the character is one in this base. -/
def digitValue? (base : Nat) (c : Char) : Option Nat :=
  let value? :=
    if '0' ≤ c ∧ c ≤ '9' then some (c.toNat - '0'.toNat)
    else if 'a' ≤ c ∧ c ≤ 'f' then some (c.toNat - 'a'.toNat + 10)
    else if 'A' ≤ c ∧ c ≤ 'F' then some (c.toNat - 'A'.toNat + 10)
    else none
  value?.filter (· < base)

/-- Whether a character is a digit in this base. -/
def isDigit (base : Nat) (c : Char) : Bool :=
  (digitValue? base c).isSome

/-- The number that digits spell after a number already read. -/
def valueOfDigits? (base : Nat) : Nat → List Char → Option Nat
  | value, [] => some value
  | value, c :: cs =>
    match digitValue? base c with
    | some digit => valueOfDigits? base (value * base + digit) cs
    | none => none

/-- Reads a number of at least one digit that is not above a largest value. -/
def readNat? (base largest : Nat) (digits : List Char) : Option Nat :=
  if digits.isEmpty then none else (valueOfDigits? base 0 digits).filter (· ≤ largest)

/-- Reads an unsigned 32-bit number. -/
def readUInt32? (base : Nat) (digits : List Char) : Option UInt32 :=
  (readNat? base (UInt32.size - 1) digits).map UInt32.ofNat

/-- The largest signed 64-bit number. -/
def maxInt64 : Nat := 0x7FFFFFFFFFFFFFFF

/-- Reads a signed 64-bit number without a sign. -/
def readInt64? (base : Nat) (digits : List Char) : Option Int64 :=
  (readNat? base maxInt64 digits).map Int64.ofNat

/-- Hexadecimal digits in lower case, filled with zeros to a least width. -/
def hexDigits (width n : Nat) : List Char :=
  (Nat.toDigits 16 n).leftpad width '0'

end Text

end TriggerScript

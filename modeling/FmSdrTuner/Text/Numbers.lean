import Mathlib.Algebra.Group.Int.Defs
import Mathlib.Algebra.Group.Nat.Defs
import Mathlib.Data.List.Basic
import Mathlib.Tactic.Common

/-! # C numbers in text

    The integer conversions of the C and C++ libraries on character
    strings in the "C" locale, base 10: `strtol`, `strtoull` and the
    throwing wrappers `std::stoi` and `std::stoull`. They share one
    scanner (white space, an optional sign, digits) and differ in the
    range they accept and in what they do with the rest of the string.

    A `char` string is a list of characters. Nothing below depends on a
    character being a byte, so every statement covers all byte strings. -/

namespace FmSdrTuner

/-- A `char` string, a `std::string` or the part of one. -/
abbrev Text := List Char

/-- `std::isspace` in the "C" locale. -/
def isspace (c : Char) : Bool :=
  c = ' ' || c = '\t' || c = '\n' || c = '\x0b' || c = '\x0c' || c = '\r'

/-- The value of a digit string. -/
def digitsValue (ds : Text) : Nat :=
  ds.foldl (fun acc c => acc * 10 + (c.toNat - '0'.toNat)) 0

/-- A decimal integer at the front of a string. -/
structure Scanned where
  negative : Bool
  magnitude : Nat
  /-- What the conversion leaves unread (`*endptr`). -/
  rest : Text
  deriving DecidableEq, Repr

/-- The optional sign after the white space. -/
def scanSign : Text → Bool × Text
  | '-' :: t => (true, t)
  | '+' :: t => (false, t)
  | t => (false, t)

/-- The scanner of the `strto*` family: `none` when there is nothing to
    convert (`endptr` stays at the start). -/
def scanInteger (s : Text) : Option Scanned :=
  let signed := scanSign (s.dropWhile isspace)
  let digits := signed.2.takeWhile Char.isDigit
  if digits.isEmpty then none
  else some ⟨signed.1, digitsValue digits, signed.2.dropWhile Char.isDigit⟩

/-- The integer that was scanned. -/
def Scanned.value (n : Scanned) : Int :=
  if n.negative then -(n.magnitude : Int) else n.magnitude

/-- The range of a 32-bit `int`. -/
def intMin : Int := -2147483648
def intMax : Int := 2147483647

/-- The range of a 64-bit `long`. -/
def longMin : Int := -9223372036854775808
def longMax : Int := 9223372036854775807

/-- `std::stoi(arg, &parsed)` with the check `parsed == arg.size()`; the two
    exceptions (nothing to convert, out of range) are `none` as well. -/
def stoiAll (arg : Text) : Option Int :=
  match scanInteger arg with
  | none => none
  | some n =>
      if intMin ≤ n.value ∧ n.value ≤ intMax ∧ n.rest = [] then some n.value
      else none

/-- `std::stoull(arg, &parsed)` with the check `parsed == arg.size()`. As in
    `strtoull`, a minus sign negates modulo `2^64`. -/
def stoullAll (arg : Text) : Option Nat :=
  match scanInteger arg with
  | none => none
  | some n =>
      if n.magnitude < 2 ^ 64 ∧ n.rest = [] then
        some (if n.negative then (2 ^ 64 - n.magnitude) % 2 ^ 64 else n.magnitude)
      else none

/-- `std::strtol(s, &end, 10)` with the checks `end != s` and `errno == 0`;
    the unread rest is ignored. -/
def strtolPrefix (s : Text) : Option Int :=
  match scanInteger s with
  | none => none
  | some n => if longMin ≤ n.value ∧ n.value ≤ longMax then some n.value else none

/-- `std::strtoul(s, nullptr, 10)`, with a 64-bit `unsigned long`: 0 if there is
    nothing to convert, `ULONG_MAX` if it is out of range. -/
def strtoul (s : Text) : Nat :=
  match scanInteger s with
  | none => 0
  | some n =>
      if n.magnitude < 2 ^ 64 then
        if n.negative then (2 ^ 64 - n.magnitude) % 2 ^ 64 else n.magnitude
      else 2 ^ 64 - 1

/-- `static_cast<uint32_t>` of an integer. -/
def toUInt32 (v : Int) : Nat := (v % 2 ^ 32).toNat

/-- `static_cast<int>` of an integer. -/
def toInt32 (v : Int) : Int :=
  let w := v % 2 ^ 32
  if w < 2 ^ 31 then w else w - 2 ^ 32

/-- `std::to_string` of an unsigned value. -/
def decimal (n : Nat) : Text := Nat.toDigits 10 n

/-- `std::to_string` of a signed value. -/
def decimalInt (v : Int) : Text :=
  if v < 0 then '-' :: decimal v.natAbs else decimal v.natAbs

/-- `std::clamp`. -/
def clamp (v lo hi : Int) : Int :=
  if v < lo then lo else if hi < v then hi else v

example : stoiAll "  -42".toList = some (-42) := by decide
example : strtolPrefix "101700xyz".toList = some 101700 := by decide
example : stoullAll "-1".toList = some (2 ^ 64 - 1) := by decide

end FmSdrTuner

/-!
# Digits

Numbers written in digits of a base up to 36, and which of them double precision can hold.
-/

namespace ScriptHost.Text

/-- The value of a digit of base 36. -/
def digitValue? (c : Char) : Option Nat :=
  if '0' ≤ c ∧ c ≤ '9' then some (c.toNat - 48)
  else if 'a' ≤ c ∧ c ≤ 'z' then some (c.toNat - 87)
  else if 'A' ≤ c ∧ c ≤ 'Z' then some (c.toNat - 55)
  else none

/-- Whether a character is a digit of `base`. -/
def isDigitOf (base : Nat) (c : Char) : Bool := (digitValue? c).any (· < base)

/-- Whether a character is a decimal digit. -/
def isDecimal (c : Char) : Bool := '0' ≤ c && c ≤ '9'

/-- The number that a list of digits writes in `base`. -/
def numberOf (base : Nat) (digits : List Char) : Nat := digits.foldl (fun n c => n * base + (digitValue? c).getD 0) 0

/-- The least number that is rounded to no number of double precision. -/
def doubleBound : Nat := Nat.pow 2 1024 - Nat.pow 2 970

/-- Whether `mantissa * 10 ^ exponent` is rounded to a number of double precision.  Only a number of 309 digits has to be
compared with the bound. -/
def fitsDouble (mantissa : Nat) (exponent : Int) : Bool :=
  let size := (Nat.toDigits 10 mantissa).length + exponent
  mantissa == 0 || size < 309 ||
    (size == 309 && mantissa * Nat.pow 10 exponent.toNat < doubleBound * Nat.pow 10 (-exponent).toNat)

/-- The character with a code point, if there is one. -/
def charOf? (n : Nat) : Option Char := if h : n.isValidChar then some (Char.ofNatAux n h) else none

end ScriptHost.Text

import HisiRf.Machine.Word
import Mathlib

/-! `osal_strtol` against the `strtol` of C.

A pointer into the string is what is left of it, and the end of the list is the
terminating NUL. Characters are bytes; `long` has 32 bits and the accumulator 64.
-/

namespace HisiRf.Strtol

abbrev Chars := List UInt8

def isSpace (c : UInt8) : Bool := c == 32 || c == 9 || c == 10 || c == 13

def digitOf (c : UInt8) : Option Nat :=
  if 48 ≤ c ∧ c ≤ 57 then some (c - 48).toNat
  else if 97 ≤ c ∧ c ≤ 122 then some (c - 97 + 10).toNat
  else if 65 ≤ c ∧ c ≤ 90 then some (c - 65 + 10).toNat
  else none

def sign : Chars → Bool × Chars
  | 45 :: rest => (true, rest)
  | 43 :: rest => (false, rest)
  | rest => (false, rest)

/-- The digits appended to the number `n`. -/
def value (radix n : Nat) (digits : Chars) : Nat :=
  digits.foldl (fun n c => n * radix + (digitOf c).getD 0) n

/-- What follows whitespace and sign. -/
def body (s : Chars) : Chars := (sign (s.dropWhile isSpace)).2

section

variable {radix : Nat} (positive : 0 < radix)
include positive

end

section Agreement

variable {s : Chars} {base : Nat}

variable (allowed : base = 0 ∨ 2 ≤ base ∧ base ≤ 36)
include allowed

end Agreement

end HisiRf.Strtol

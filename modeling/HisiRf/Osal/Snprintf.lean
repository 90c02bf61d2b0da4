import HisiRf.Osal.Strtol

/-! The formatter behind `snprintf_s` and `osal_printk`.

A format is what is left of it, an argument is a word, and the strings behind pointers are given.
The destination is only written: a call is its result and its stores. Sums of `usize` wrap.
-/

namespace HisiRf.Snprintf

open List Strtol

def usizeAdd (a b : Nat) : Nat := (a + b) % 2 ^ 32

def saturate (n : Nat) : Nat := min n (2 ^ 32 - 1)

/-- The digits from the last to the first; the array has room for ten. -/
def digitsOf (radix : Nat) : Nat → Nat → Chars
  | 0, _ => []
  | room + 1, value =>
    let digit := value % radix
    .ofNat (if digit < 10 then 48 + digit else 87 + digit) ::
      if value / radix = 0 then [] else digitsOf radix room (value / radix)

/-- The sign comes before the padding. -/
def number (zeroPad : Bool) (width radix : Nat) (negative : Bool) (value : UInt32) : Chars :=
  let digits := digitsOf radix 10 value.toNat
  let sign := if negative then [45] else []
  sign ++ replicate (max (digits.length + sign.length) width - digits.length - sign.length)
    (if zeroPad then 48 else 32) ++ digits.reverse

/-- What one round of the loop writes, what it takes of the format after its first byte, and the
arguments left. -/
structure Round where
  literal : Bool
  bytes : Chars
  taken : Nat
  arguments : List UInt32

variable (text : UInt32 → Chars) (limit : Nat) (arguments : List UInt32) (index : Nat)

/-- The round does not fit; a literal byte is checked without a sum. -/
def Round.refused (r : Round) : Bool :=
  if r.literal then index = limit else limit < usizeAdd index r.bytes.length

def store (bytes : Chars) : List (Nat × UInt8) :=
  bytes.mapIdx fun k byte => (usizeAdd index k, byte)

variable {text limit arguments index} {bytes format : Chars}

end HisiRf.Snprintf

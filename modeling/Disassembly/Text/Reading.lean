/-!
# Reading numbers

Digit strings in base ten and sixteen, read as the number they are the
positional notation of. `Numeral.readUnsigned` reads a 64-bit number: an
optional plus sign, at least one digit, and a value below `2 ^ 64`. It counts in
64-bit numbers, and gives up at the first digit with which they do not suffice.
-/

namespace Disassembly.Numeral

/-- The value of a digit in base sixteen, in either case. -/
def hexDigit? (c : Char) : Option Nat :=
  if '0' ≤ c ∧ c ≤ '9' then some (c.toNat - '0'.toNat)
  else if 'a' ≤ c ∧ c ≤ 'f' then some (c.toNat - 'a'.toNat + 10)
  else if 'A' ≤ c ∧ c ≤ 'F' then some (c.toNat - 'A'.toNat + 10)
  else none

/-- The value of a digit in a base up to sixteen. -/
def digit? (base : Nat) (c : Char) : Option Nat :=
  (hexDigit? c).filter (· < base)

/-- The product, if 64 bits suffice for it. -/
def checkedMul (m n : UInt64) : Option UInt64 :=
  if m.toNat * n.toNat < UInt64.size then some (m * n) else none

def checkedAdd (m n : UInt64) : Option UInt64 :=
  if m.toNat + n.toNat < UInt64.size then some (m + n) else none

/-- The 64-bit number that a list of digits continues. -/
def readWord (base : Nat) : UInt64 → List Char → Option UInt64
  | n, [] => some n
  | n, c :: cs => do
    let d ← digit? base c
    let shifted ← checkedMul n (UInt64.ofNat base)
    let next ← checkedAdd shifted (UInt64.ofNat d)
    readWord base next cs

def dropPlus : List Char → List Char
  | '+' :: cs => cs
  | cs => cs

/-- A 64-bit number: an optional plus sign, digits, and no value of `2 ^ 64` or more. -/
def readUnsigned (base : Nat) (cs : List Char) : Option UInt64 :=
  match dropPlus cs with
  | [] => none
  | digits => readWord base 0 digits

end Disassembly.Numeral

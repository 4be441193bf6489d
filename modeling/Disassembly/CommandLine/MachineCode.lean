import Disassembly.Native.Messages
import Disassembly.Text.Blank
import Disassembly.Text.Quoted
import Disassembly.Text.Reading

/-!
# Machine code on the command line

Bytes are written as pairs of hexadecimal digits. Markers `\x` and `0x` may
stand in front of them, blanks and commas anywhere: first every `\x` is taken
out, then every `0x`, then the separators, and what is left is read in pairs.

* `Hex.decode` stands for `decode` of the library `hex` (0.4) and follows its
  documentation: an odd number of digits is refused before any is looked at,
  then the first byte that is no digit, with its position; both complaints are in
  the library's words.
* `codeDigits`, `CodeError` and `readCode` are the program's own: what is taken
  out beforehand, and that something must be left.
-/

namespace Disassembly.CommandLine

/-! ### Digits in pairs, as the library reads them -/

namespace Hex

/-- Why bytes are no digits in pairs. -/
inductive Error where
  | oddLength
  | invalid (byte : UInt8) (position : Nat)
  deriving DecidableEq, Repr

/-- The complaint in words. A byte is shown as the character with its number. -/
def Error.message : Error → String
  | .oddLength => "Odd number of digits"
  | .invalid byte position =>
    "Invalid character " ++ Quoted.char (Char.ofNat byte.toNat) ++ " at position " ++
      toString position

def readNibble (position : Nat) (b : UInt8) : Except Error Nat :=
  match Numeral.hexDigit? (Char.ofNat b.toNat) with
  | some d => .ok d
  | none => .error (.invalid b position)

/-- Digits read in pairs, the first at a position. -/
def readPairs (position : Nat) : List UInt8 → Except Error (List UInt8)
  | a :: b :: r => do
    let high ← readNibble position a
    let low ← readNibble (position + 1) b
    let rest ← readPairs (position + 2) r
    return UInt8.ofNat (high * 16 + low) :: rest
  | _ => .ok []

/-- The bytes that digits spell. -/
def decode (digits : List UInt8) : Except Error (List UInt8) :=
  if digits.length % 2 = 0 then readPairs 0 digits else .error .oddLength

end Hex

/-! ### Machine code -/

/-- The text without the pairs `a b`, looked for from left to right. -/
def dropPairs (a b : Char) : List Char → List Char
  | x :: y :: r => if x = a ∧ y = b then dropPairs a b r else x :: dropPairs a b (y :: r)
  | r => r

def isSeparator (c : Char) : Bool :=
  isBlank c || c == ','

/-- The text without markers and separators. -/
def codeDigits (text : List Char) : List Char :=
  (dropPairs '0' 'x' (dropPairs '\\' 'x' text)).filter fun c => !isSeparator c

/-- Why a text is no machine code: nothing but markers and separators, or no digits in pairs. -/
inductive CodeError where
  | empty
  | undecoded (e : Hex.Error)
  deriving DecidableEq, Repr

/-- Telling an error in other words does not make it a success. -/
theorem mapError_ok_iff {ε ε' α : Type} {r : Except ε α} {f : ε → ε'} {a : α} :
    r.mapError f = .ok a ↔ r = .ok a := by
  cases r with
  | ok b =>
    show (.ok b : Except ε' α) = .ok a ↔ (.ok b : Except ε α) = .ok a
    rw [Except.ok.injEq, Except.ok.injEq]
  | error e =>
    show (.error (f e) : Except ε' α) = .ok a ↔ (.error e : Except ε α) = .ok a
    simp

/-- The bytes a text denotes. -/
def readCode (text : String) : Except CodeError (List UInt8) :=
  match codeDigits text.toList with
  | [] => .error .empty
  | digits => (Hex.decode (textBytes (String.ofList digits))).mapError .undecoded

end Disassembly.CommandLine

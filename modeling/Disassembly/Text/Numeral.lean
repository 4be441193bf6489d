/-!
# Numbers in text

Hexadecimal writing with and without the `0x` marker, padded columns, and the
two's complement reading under which a negative number is written in hexadecimal.
-/

namespace Disassembly.Numeral

/-- Lower-case hexadecimal digits, no leading zero. -/
def hex (n : Nat) : String :=
  String.ofList (Nat.toDigits 16 n)

def marked (n : Nat) : String :=
  "0x" ++ hex n

/-- The digits of `n`, filled with zeros on the left up to `width`. -/
def hexPadded (width n : Nat) : String :=
  String.ofList (List.leftpad width '0' (Nat.toDigits 16 n))

/-- Hexadecimal digits with the letters in upper case, filled with zeros up to `width`. -/
def hexUpperPadded (width n : Nat) : String :=
  String.ofList (List.leftpad width '0' ((Nat.toDigits 16 n).map Char.toUpper))

/-- The text, filled with blanks on the right up to `width` characters. -/
def column (width : Nat) (text : String) : String :=
  String.ofList (List.rightpad width ' ' text.toList)

def byte (b : UInt8) : String :=
  hexPadded 2 b.toNat

def bytes (bs : List UInt8) : String :=
  String.join (bs.map byte)

/-- A 32-bit number in marked hexadecimal; a negative one as its two's complement. -/
def signed32 (n : Int32) : String :=
  marked n.toUInt32.toNat

/-- A 64-bit number in marked hexadecimal; a negative one as its two's complement. -/
def signed64 (n : Int64) : String :=
  marked n.toUInt64.toNat

end Disassembly.Numeral

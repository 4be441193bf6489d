import Disassembly.Text.Blank
import Disassembly.Text.Reading

/-!
# Addresses on the command line

An address is a 64-bit number, in base sixteen behind `0x` or `0X` and in base
ten otherwise. Blanks around it do not count.
-/

namespace Disassembly.CommandLine

/-- The address a text denotes. -/
def readAddress (text : String) : Option UInt64 :=
  match trimBlanks text.toList with
  | '0' :: 'x' :: digits => Numeral.readUnsigned 16 digits
  | '0' :: 'X' :: digits => Numeral.readUnsigned 16 digits
  | digits => Numeral.readUnsigned 10 digits

end Disassembly.CommandLine

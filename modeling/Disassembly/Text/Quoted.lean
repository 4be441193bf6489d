import Disassembly.Text.Numeral
import Disassembly.Text.Printable

/-!
# Quoted text

A text or a character shown as data stands in quotes of its own kind. The quote,
the backslash and the common controls are written as backslash escapes, other
characters that have no visible form of their own as `\u` with their code point
in hexadecimal braces, all others as themselves.
-/

namespace Disassembly.Quoted

/-- A character written by its code point. -/
def byCode (c : Char) : List Char :=
  ['\\', 'u', '\x7b'] ++ (Nat.toDigits 16 c.toNat ++ ['\x7d'])

/-- The form of a character inside quotes of the kind `quote`. -/
def escape (quote c : Char) : List Char :=
  if c = quote ∨ c = '\\' then ['\\', c]
  else if c = '\n' then ['\\', 'n']
  else if c = '\t' then ['\\', 't']
  else if c = '\r' then ['\\', 'r']
  else if c = '\x00' then ['\\', '0']
  else if CharClass.isShown c then [c]
  else byCode c

def text (s : String) : String :=
  String.ofList ('"' :: (s.toList.flatMap (escape '"') ++ ['"']))

def char (c : Char) : String :=
  String.ofList ('\'' :: (escape '\'' c ++ ['\'']))

/-- Parts between brackets, separated by a comma and a blank. -/
def listed (parts : List String) : String :=
  "[" ++ String.intercalate ", " parts ++ "]"

def optional (value : Option String) : String :=
  match value with
  | some v => "Some(" ++ v ++ ")"
  | none => "None"

/-- Named fields after a title. -/
def record (title : String) (fields : List (String × String)) (more : Bool) : String :=
  title ++ " \x7b " ++ String.intercalate ", " (fields.map fun f => f.1 ++ ": " ++ f.2) ++
    (if more then ", .. \x7d" else " \x7d")

end Disassembly.Quoted

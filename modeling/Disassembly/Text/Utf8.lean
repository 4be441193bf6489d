/-!
# Reading bytes as text

A byte sequence is cut into pieces: whole UTF-8 characters, and maximal broken
starts of one. A broken piece reads as the replacement character, so that no
byte sequence is refused and no broken byte disturbs its neighbours.

* `Utf8.owed` lists the ranges in which the bytes after a lead byte must lie.
* `Utf8.pieces` cuts a byte sequence; `bytes_pieces` says that nothing is lost.
* `Utf8.decode` reads the pieces, `fieldText` a field up to its first zero byte.
-/

namespace Disassembly

namespace Utf8

/-- The character that stands for bytes which are no character. -/
def replacement : Char := '\uFFFD'

structure Range where
  low : UInt8
  high : UInt8
  deriving DecidableEq, Repr

namespace Range

def tail : Range := ⟨0x80, 0xBF⟩

def holds (r : Range) (b : UInt8) : Bool :=
  r.low ≤ b && b ≤ r.high

end Range

/-- The ranges of the bytes that must follow the lead byte `b`; `none` if `b` leads nothing. -/
def owed (b : UInt8) : Option (List Range) :=
  if b ≤ 0x7F then some []
  else if b < 0xC2 then none
  else if b ≤ 0xDF then some [.tail]
  else if b = 0xE0 then some [⟨0xA0, 0xBF⟩, .tail]
  else if b = 0xED then some [⟨0x80, 0x9F⟩, .tail]
  else if b ≤ 0xEF then some [.tail, .tail]
  else if b = 0xF0 then some [⟨0x90, 0xBF⟩, .tail, .tail]
  else if b ≤ 0xF3 then some [.tail, .tail, .tail]
  else if b = 0xF4 then some [⟨0x80, 0x8F⟩, .tail, .tail]
  else none

/-- How many of the first bytes lie in their ranges, in order. -/
def matching : List Range → List UInt8 → Nat
  | r :: rs, b :: bs => if r.holds b then matching rs bs + 1 else 0
  | _, _ => 0

/-- The part of a lead byte that belongs to the code point, when `n` bytes follow it. -/
def leadBits (n : Nat) (b : UInt8) : Nat :=
  match n with
  | 0 => b.toNat
  | 1 => b.toNat % 0x20
  | 2 => b.toNat % 0x10
  | _ => b.toNat % 0x08

/-- The character a lead byte and the bytes after it spell. -/
def assemble (b : UInt8) (bs : List UInt8) : Char :=
  Char.ofNat (bs.foldl (fun n c => n * 0x40 + c.toNat % 0x40) (leadBits bs.length b))

/-- One piece of a byte sequence: the bytes of a character, or the longest start of one that is not
completed, or a byte that starts none. -/
inductive Piece where
  | whole (c : Char) (bytes : List UInt8)
  | broken (bytes : List UInt8)
  deriving DecidableEq, Repr

namespace Piece

def bytes : Piece → List UInt8
  | .whole _ bs => bs
  | .broken bs => bs

def char : Piece → Char
  | .whole c _ => c
  | .broken _ => replacement

end Piece

/-- The piece that `b` begins, given that `n` of the bytes after it fit. -/
def piece (b : UInt8) (ranges : Option (List Range)) (fit : List UInt8) : Piece :=
  match ranges with
  | none => .broken [b]
  | some rs => if fit.length = rs.length then .whole (assemble b fit) (b :: fit) else .broken (b :: fit)

/-- Cut a byte sequence into whole characters and broken starts. -/
def pieces : List UInt8 → List Piece
  | [] => []
  | b :: bs =>
    let n := matching ((owed b).getD []) bs
    piece b (owed b) (bs.take n) :: pieces (bs.drop n)
termination_by bs => bs.length
decreasing_by simp only [List.length_drop, List.length_cons]; omega

/-- The text of a byte sequence, one character a piece. -/
def decode (bs : List UInt8) : List Char :=
  (pieces bs).map Piece.char

/-- The bytes that spell a text. -/
def encode (cs : List Char) : List UInt8 :=
  cs.flatMap String.utf8EncodeChar

/-- A piece holds its first byte and those that fit behind it, whole or broken. -/
theorem bytes_piece (b : UInt8) (bs : List UInt8) :
    (piece b (owed b) (bs.take (matching ((owed b).getD []) bs))).bytes =
      b :: bs.take (matching ((owed b).getD []) bs) := by
  cases h : owed b with
  | none => simp [piece, Piece.bytes, matching]
  | some rs =>
    simp only [piece, Option.getD_some]
    split <;> rfl

/-- The pieces, put together, are the byte sequence. -/
theorem bytes_pieces (bs : List UInt8) : (pieces bs).flatMap Piece.bytes = bs := by
  induction bs using pieces.induct with
  | case1 => simp [pieces]
  | case2 b bs n ih =>
    rw [pieces, List.flatMap_cons, bytes_piece, ih]
    simp [n, List.take_append_drop]

end Utf8

/-- The text of a native field: its bytes before the first zero byte. -/
def fieldText (field : List UInt8) : String :=
  String.ofList (Utf8.decode (field.takeWhile (· ≠ 0)))

end Disassembly

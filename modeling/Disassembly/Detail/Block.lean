/-!
# Detail blocks

The engine hands out detail as a block of 696 bytes. Fields are read from a
byte memory at an offset, numbers least significant byte first, and written by
laying bytes over a memory.

* `littleEndian` and `littleEndianDigits` go between numbers and their bytes;
  `littleEndian_digits` says that reading undoes writing.
* `Memory.u32`, `Memory.u64` and `Memory.slice` read, `Memory.put` writes:
  `slice_put` says what changes and `put_outside` what does not.
* `Block` is a block; `Block.memory` and `Block.ofMemory` go between the two.
-/

namespace Disassembly

/-- The number whose base-256 digits, least significant first, are the bytes. -/
def littleEndian : List UInt8 → Nat
  | [] => 0
  | b :: bs => b.toNat + 256 * littleEndian bs

/-- The `width` lowest base-256 digits of a number, least significant first. -/
def littleEndianDigits : Nat → Nat → List UInt8
  | 0, _ => []
  | width + 1, n => UInt8.ofNat n :: littleEndianDigits width (n / 256)

theorem length_littleEndianDigits (width n : Nat) :
    (littleEndianDigits width n).length = width := by
  induction width generalizing n with
  | zero => rfl
  | succ w ih => simp [littleEndianDigits, ih]

/-- The digits that are written read back as the number, up to their width. -/
theorem littleEndian_digits (width n : Nat) :
    littleEndian (littleEndianDigits width n) = n % Nat.pow 256 width := by
  induction width generalizing n with
  | zero => simp [littleEndianDigits, littleEndian, Nat.mod_one]
  | succ w ih =>
    simp only [littleEndianDigits, littleEndian, ih, UInt8.toNat_ofNat']
    have hw : Nat.pow 256 (w + 1) = 256 * Nat.pow 256 w := Nat.mul_comm _ _
    rw [hw, Nat.mod_mul]

/-- Bytes by offset. -/
abbrev Memory := Nat → UInt8

namespace Memory

def window (m : Memory) (start : Nat) : Memory :=
  fun i => m (start + i)

/-- `length` bytes from an offset on. -/
def slice (m : Memory) (start length : Nat) : List UInt8 :=
  (List.range length).map (m.window start)

/-- The unsigned 32-bit number at an offset. -/
def u32 (m : Memory) (start : Nat) : UInt32 :=
  UInt32.ofNat (littleEndian (m.slice start 4))

def u64 (m : Memory) (start : Nat) : UInt64 :=
  UInt64.ofNat (littleEndian (m.slice start 8))

def i32 (m : Memory) (start : Nat) : Int32 :=
  (m.u32 start).toInt32

def i64 (m : Memory) (start : Nat) : Int64 :=
  (m.u64 start).toInt64

/-- The truth of the byte at an offset: any byte but zero. -/
def flag (m : Memory) (start : Nat) : Bool :=
  m start != 0

/-- The memory with bytes laid over it at an offset. -/
def put (start : Nat) (bytes : List UInt8) (m : Memory) : Memory :=
  fun i => if start ≤ i then (bytes[i - start]?).getD (m i) else m i

/-- The bytes that are laid down are found where they were laid. -/
theorem put_inside (start : Nat) (bytes : List UInt8) (m : Memory) {i : Nat}
    (h : i < bytes.length) : put start bytes m (start + i) = bytes[i] := by
  have hle : start ≤ start + i := Nat.le_add_right start i
  have hsub : start + i - start = i := Nat.add_sub_cancel_left start i
  rw [put, if_pos hle, hsub, List.getElem?_eq_getElem h, Option.getD_some]

theorem put_outside (start : Nat) (bytes : List UInt8) (m : Memory) {i : Nat}
    (h : i < start ∨ start + bytes.length ≤ i) : put start bytes m i = m i := by
  unfold put
  split
  · have hlen : bytes.length ≤ i - start := by omega
    rw [List.getElem?_eq_none hlen, Option.getD_none]
  · rfl

/-- What is laid down is read back whole. -/
theorem slice_put (start : Nat) (bytes : List UInt8) (m : Memory) :
    (put start bytes m).slice start bytes.length = bytes := by
  apply List.ext_getElem
  · simp [slice]
  · intro i h₁ h₂
    simp only [slice, List.getElem_map, List.getElem_range, window]
    exact put_inside start bytes m h₂

end Memory

/-- The detail block of one instruction, 696 bytes. -/
structure Block where
  bytes : Vector UInt8 696
  deriving DecidableEq

namespace Block

/-- The block's bytes by offset, zero past its end. -/
def memory (b : Block) : Memory :=
  fun i => (b.bytes[i]?).getD 0

/-- The first 696 bytes of a memory. -/
def ofMemory (m : Memory) : Block :=
  ⟨Vector.ofFn fun i => m i⟩

/-- A block made of a memory keeps its first 696 bytes. -/
theorem memory_ofMemory (m : Memory) :
    (ofMemory m).memory = fun i => if i < 696 then m i else 0 := by
  funext i
  by_cases h : i < 696
  · simp [memory, ofMemory, h]
  · simp [memory, ofMemory, h]

/-- A block that begins with the given bytes and is zero after them. -/
def ofBytes (bytes : List UInt8) : Block :=
  let a := bytes.toArray
  ofMemory fun i => (a[i]?).getD 0

end Block

end Disassembly

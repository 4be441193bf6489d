import Disassembly.Detail.Decode
import Disassembly.Proofs.Detail.Headers

/-!
# The layout tables follow the headers

`OperandLayout` lists offsets, widths and kind numbers; the headers declare structures.  This file
ties the two together and reads numbers back:

* `IdListLayout.Follows`, `OperandLayout.Follows` — every entry of a layout is where the compiler
  puts the declared member;
* `follows` — the layouts of the five architectures follow their headers;
* `u32_of_stores`, `i32_of_stores`, `u64_of_stores`, `byte_of_stores`, `signed_of_stores` — reading
  a number where it stands gives the number.
-/

namespace Disassembly

namespace IdListLayout

/-- A list layout has the array and its count where the headers put them. -/
structure Follows (l : IdListLayout) (array count : Member) : Prop where
  memberOf_array : memberOf blockHeader array = some ⟨l.start, l.capacity⟩
  lookup_array : blockHeader.lookup array = some (CType.byte.array l.capacity)
  memberOf_count : memberOf blockHeader count = some ⟨l.count, 1⟩
  capacity_lt : l.capacity < 256

theorem follows_regsRead : regsRead.Follows .regsRead .regsReadCount :=
  ⟨rfl, rfl, rfl, by decide⟩

theorem follows_regsWrite : regsWrite.Follows .regsWrite .regsWriteCount :=
  ⟨rfl, rfl, rfl, by decide⟩

theorem follows_groups : groups.Follows .groups .groupsCount :=
  ⟨rfl, rfl, rfl, by decide⟩

theorem Follows.element {l : IdListLayout} {array count : Member} (hf : l.Follows array count)
    (i : Nat) : elementOf blockHeader array .byte i = some ⟨l.start + i * 1, 1⟩ := by
  rw [elementOf, hf.memberOf_array]
  rfl

end IdListLayout

namespace OperandLayout

/-- Bytes of an immediate or a displacement. -/
def width (l : OperandLayout) : Nat :=
  if l.wide then 8 else 4

/-- A layout has every member of an operand record where the headers put it. -/
structure Follows (l : OperandLayout) (h : Header) : Prop where
  opCount : memberOf h.fields .opCount = some ⟨l.count, 1⟩
  operandOf : ∀ i, h.operandOf i = some ⟨l.recordStart i, l.stride⟩
  capacity : l.capacity = h.capacity
  opType : memberOf h.operand .opType = some ⟨l.kind, 4⟩
  reg : h.valueOf .reg = some ⟨l.value, 4⟩
  imm : h.valueOf .imm = some ⟨l.value, l.width⟩
  fp : .fp ∈ l.kinds → h.valueOf .fp = some ⟨l.value, 8⟩
  mem : (h.valueOf .mem).map Field.offset = some l.value
  base : memberOf h.memory .base = some ⟨0, 4⟩
  index : memberOf h.memory .index = l.index.map fun o => ⟨o, 4⟩
  scale : memberOf h.memory .scale = l.scale.map fun o => ⟨o, 4⟩
  disp : memberOf h.memory .disp = some ⟨l.disp, l.width⟩
  shift : memberOf h.operand .shift = l.shift.map fun o => ⟨o, 8⟩
  shiftType : h.shifterOf .shiftType = l.shift.map fun o => ⟨o, 4⟩
  shiftValue : h.shifterOf .shiftValue = l.shift.map fun o => ⟨o + 4, 4⟩
  ext : memberOf h.operand .ext = l.ext.map fun o => ⟨o, 4⟩
  size : memberOf h.operand .size = l.size.map fun o => ⟨o, 1⟩
  kinds : h.kinds = (l.kinds.zipIdx 1).map fun p => (p.2, p.1)
  length_kinds : l.kinds.length < 2 ^ 31

/-- The layout of each architecture follows its headers. -/
theorem follows (a : Arch) : (ofArch a).Follows (headers a) := by
  cases a <;> exact
    { opCount := rfl
      operandOf := fun _ => rfl
      capacity := rfl
      opType := rfl
      reg := rfl
      imm := rfl
      fp := by decide
      mem := rfl
      base := rfl
      index := rfl
      scale := rfl
      disp := rfl
      shift := rfl
      shiftType := rfl
      shiftValue := rfl
      ext := rfl
      size := rfl
      kinds := rfl
      length_kinds := by decide }

/-- A memory reference stands in the value of an operand as a structure of its own. -/
theorem Follows.stores_referenceOf {l : OperandLayout} {h : Header} (hf : l.Follows h) {m : Memory}
    {start : Nat} {x : Member} {n : Int} :
    m.Stores start (h.referenceOf x) n ↔ m.Stores (start + l.value) (memberOf h.memory x) n := by
  obtain ⟨v, hv, hoffset⟩ := Option.map_eq_some_iff.mp hf.mem
  rw [Header.referenceOf, hv, Option.bind_some]
  cases memberOf h.memory x with
  | none => simp [Memory.Stores]
  | some f => simp [Memory.Stores, hoffset, Nat.add_assoc]

/-- Looking a number up among things that are numbered from `k` on. -/
theorem lookup_numbered (ks : List OperandKind) (k n : Nat) :
    ((ks.zipIdx k).map fun p => (p.2, p.1)).lookup n = if n < k then none else ks[n - k]? := by
  induction ks generalizing k with
  | nil => simp
  | cons a ks ih =>
    rw [List.zipIdx_cons, List.map_cons, List.lookup_cons, ih]
    rcases Nat.lt_trichotomy n k with hlt | rfl | hgt
    · have hne : (n == k) = false := beq_eq_false_iff_ne.mpr (by omega)
      rw [hne, if_pos (by omega), if_pos hlt]
    · simp
    · have hne : (n == k) = false := beq_eq_false_iff_ne.mpr (by omega)
      have hsub : n - k = n - (k + 1) + 1 := by omega
      rw [hne, if_neg (by omega), if_neg (by omega), hsub, List.getElem?_cons_succ]

/-- A layout and the headers it follows agree on what a number says. -/
theorem Follows.kindOf {l : OperandLayout} {h : Header} (hf : l.Follows h) (id : UInt32) :
    l.kindOf id = h.kindOf id.toNat := by
  rw [Header.kindOf, hf.kinds, lookup_numbered, OperandLayout.kindOf]
  cases hid : id.toNat with
  | zero => rfl
  | succ n => simp

/-- The number of a kind says that kind. -/
theorem Follows.kindOf_idOf {l : OperandLayout} {h : Header} (hf : l.Follows h) {k : OperandKind}
    (hk : k = .invalid ∨ k ∈ l.kinds) : l.kindOf (l.idOf k) = k := by
  rw [OperandLayout.kindOf, idOf]
  by_cases hmem : k ∈ l.kinds
  · have hidx : l.kinds.idxOf k < l.kinds.length := List.idxOf_lt_length_iff.mpr hmem
    have hlen := hf.length_kinds
    have hnat : (UInt32.ofNat (l.kinds.idxOf k + 1)).toNat = l.kinds.idxOf k + 1 := by
      rw [UInt32.toNat_ofNat', Nat.mod_eq_of_lt (by omega)]
    rw [if_pos hmem, hnat, List.getElem?_cons_succ, List.getElem?_eq_getElem hidx,
      Option.getD_some, List.getElem_idxOf]
  · have hinvalid : k = .invalid := hk.resolve_right hmem
    rw [if_neg hmem, hinvalid]
    rfl

/-- The kinds of a layout are those the headers list. -/
theorem Follows.mem_kinds {l : OperandLayout} {h : Header} (hf : l.Follows h) (k : OperandKind) :
    k ∈ h.kinds.map Prod.snd ↔ k ∈ l.kinds := by
  have hkinds : h.kinds.map Prod.snd = l.kinds := by
    rw [hf.kinds, List.map_map]
    exact List.zipIdx_map_fst 1 l.kinds
  rw [hkinds]

end OperandLayout

/-! ### Reading what stands in a member -/

namespace Memory

theorem window_window (m : Memory) (s o : Nat) : (m.window s).window o = m.window (s + o) := by
  funext i
  simp only [window, Nat.add_assoc]

theorem slice_window (m : Memory) (s o n : Nat) : (m.window s).slice o n = m.slice (s + o) n := by
  rw [slice, slice, window_window]

theorem u32_window (m : Memory) (s o : Nat) : (m.window s).u32 o = m.u32 (s + o) := by
  rw [u32, u32, slice_window]

theorem u64_window (m : Memory) (s o : Nat) : (m.window s).u64 o = m.u64 (s + o) := by
  rw [u64, u64, slice_window]

theorem i32_window (m : Memory) (s o : Nat) : (m.window s).i32 o = m.i32 (s + o) := by
  rw [i32, i32, u32_window]

theorem i64_window (m : Memory) (s o : Nat) : (m.window s).i64 o = m.i64 (s + o) := by
  rw [i64, i64, u64_window]

/-- What stands in a member is a number up to the member's width. -/
theorem stores_congr {m : Memory} {s o w : Nat} {n k : Int} (h : n % 256 ^ w = k % 256 ^ w) :
    m.Stores s (some ⟨o, w⟩) n ↔ m.Stores s (some ⟨o, w⟩) k := by
  simp only [Stores, Option.mem_def, Option.some.injEq, forall_eq', h]

theorem littleEndian_of_stores {m : Memory} {s o w : Nat} {n : Int}
    (h : m.Stores s (some ⟨o, w⟩) n) :
    littleEndian (m.slice (s + o) w) = (n % 256 ^ w).toNat := by
  have hslice := h ⟨o, w⟩ rfl
  have hpos : (0 : Int) < 256 ^ w := Int.pow_pos (by decide)
  have hlt : n % 256 ^ w < 256 ^ w := Int.emod_lt_of_pos n hpos
  have hnonneg : 0 ≤ n % 256 ^ w := Int.emod_nonneg n (by omega)
  have hbound : (n % 256 ^ w).toNat < Nat.pow 256 w := by
    rw [Int.toNat_lt hnonneg, Nat.pow_eq, Int.natCast_pow]
    exact hlt
  rw [hslice, littleEndian_digits, Nat.mod_eq_of_lt hbound]

theorem byte_of_stores {m : Memory} {s o : Nat} {n : UInt8}
    (h : m.Stores s (some ⟨o, 1⟩) n.toNat) : m (s + o) = n := by
  have hlt := n.toNat_lt
  have hmod : ((n.toNat : Int) % 256 ^ 1).toNat = n.toNat := by omega
  have hbyte := h ⟨o, 1⟩ rfl
  rw [hmod] at hbyte
  simpa [slice, window, littleEndianDigits] using hbyte

theorem u32_of_stores {m : Memory} {s o : Nat} {n : UInt32}
    (h : m.Stores s (some ⟨o, 4⟩) n.toNat) : m.u32 (s + o) = n := by
  have hlt := n.toNat_lt
  have hmod : ((n.toNat : Int) % 256 ^ 4).toNat = n.toNat := by omega
  rw [u32, littleEndian_of_stores h, hmod, UInt32.ofNat_toNat]

theorem u64_of_stores {m : Memory} {s o : Nat} {n : UInt64}
    (h : m.Stores s (some ⟨o, 8⟩) n.toNat) : m.u64 (s + o) = n := by
  have hlt := n.toNat_lt
  have hmod : ((n.toNat : Int) % 256 ^ 8).toNat = n.toNat := by omega
  rw [u64, littleEndian_of_stores h, hmod, UInt64.ofNat_toNat]

/-! Signed numbers stand in memory as the unsigned numbers with the same bits. -/

theorem stores_int8 {m : Memory} {s o : Nat} {n : Int8} :
    m.Stores s (some ⟨o, 1⟩) n.toInt ↔ m.Stores s (some ⟨o, 1⟩) n.toUInt8.toNat := by
  apply stores_congr
  rw [Int8.toInt, BitVec.toInt_eq_toNat_bmod]
  exact Int.bmod_emod

theorem stores_int32 {m : Memory} {s o : Nat} {n : Int32} :
    m.Stores s (some ⟨o, 4⟩) n.toInt ↔ m.Stores s (some ⟨o, 4⟩) n.toUInt32.toNat := by
  apply stores_congr
  rw [Int32.toInt, BitVec.toInt_eq_toNat_bmod]
  exact Int.bmod_emod

theorem stores_int64 {m : Memory} {s o : Nat} {n : Int64} :
    m.Stores s (some ⟨o, 8⟩) n.toInt ↔ m.Stores s (some ⟨o, 8⟩) n.toUInt64.toNat := by
  apply stores_congr
  rw [Int64.toInt, BitVec.toInt_eq_toNat_bmod]
  exact Int.bmod_emod

/-- A 64-bit number stands in four bytes as its lower half does. -/
theorem stores_toInt32 {m : Memory} {s o : Nat} {n : Int64} :
    m.Stores s (some ⟨o, 4⟩) n.toInt ↔ m.Stores s (some ⟨o, 4⟩) n.toInt32.toInt := by
  apply stores_congr
  rw [Int64.toInt_toInt32]
  exact Int.bmod_emod.symm

theorem i32_of_stores {m : Memory} {s o : Nat} {n : Int32}
    (h : m.Stores s (some ⟨o, 4⟩) n.toInt) : m.i32 (s + o) = n := by
  rw [i32, u32_of_stores (stores_int32.mp h), Int32.toInt32_toUInt32]

theorem i64_of_stores {m : Memory} {s o : Nat} {n : Int64}
    (h : m.Stores s (some ⟨o, 8⟩) n.toInt) : m.i64 (s + o) = n := by
  rw [i64, u64_of_stores (stores_int64.mp h), Int64.toInt64_toUInt64]

end Memory

/-- A number that fits four bytes is its lower half, extended by its sign. -/
theorem toInt64_toInt32 {n : Int64} (h : FitsSigned 4 n.toInt) : n.toInt32.toInt64 = n := by
  obtain ⟨hlow, hhigh⟩ := h
  apply Int64.toInt.inj
  rw [Int32.toInt_toInt64, Int64.toInt_toInt32]
  exact Int.bmod_eq_of_le (by omega) (by omega)

namespace OperandLayout

theorem signed_window (l : OperandLayout) (m : Memory) (s o : Nat) :
    l.signed (m.window s) o = l.signed m (s + o) := by
  rw [signed, signed, Memory.i64_window, Memory.i32_window]

/-- Immediates and displacements come back with their sign. -/
theorem signed_of_stores {l : OperandLayout} {m : Memory} {s o : Nat} {n : Int64}
    (h : m.Stores s (some ⟨o, l.width⟩) n.toInt) (hn : FitsSigned l.width n.toInt) :
    l.signed m (s + o) = n := by
  unfold width at h hn
  unfold signed
  split at h
  · next hwide => rw [if_pos hwide, Memory.i64_of_stores h]
  · next hwide =>
    rw [if_neg hwide] at hn ⊢
    rw [Memory.i32_of_stores (Memory.stores_toInt32.mp h), toInt64_toInt32 hn]

end OperandLayout

end Disassembly

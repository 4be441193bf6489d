import Disassembly.Proofs.Detail.LiveBytes
import Disassembly.Proofs.Detail.Writing

/-!
# Decoding keeps within bounds

A block may hold anything: counts beyond the room there is, kind numbers that no header lists,
numbers of any sign.  Whatever it holds, decoding it gives a detail that the headers can express, by
reading arrays from their front and never past their end.

* `decodeOperand_wellFormed` — an operand record reads as an operand that its architecture has;
* `Operand.Conforms`, `Operand.WellFormed.conforms` — what that comes to for each architecture;
* `decodeOperand_congr`, `Detail.ofMemory_congr` — an operand hangs on the bytes of its record only,
  a detail on those of the block;
* `readFront` — reading so many elements of an array, which fails past its end;
  `IdListLayout.readFront_elements` and `OperandLayout.readFront_elements` — decoding never does;
* `Detail.decode_conforms` — all of it, for every block.
-/

namespace Disassembly

open Memory

/-! ### One operand -/

namespace OperandLayout

variable {l : OperandLayout} {h : Header} {m m' : Memory}

theorem fitsSigned_signed (l : OperandLayout) (m : Memory) (start : Nat) :
    FitsSigned l.width (l.signed m start).toInt := by
  unfold width signed
  split
  · exact ⟨Int64.le_toInt _, Int64.toInt_lt _⟩
  · rw [Int32.toInt_toInt64]
    exact ⟨Int32.le_toInt _, Int32.toInt_lt _⟩

theorem kind_decodeValue (l : OperandLayout) (m : Memory) (k : OperandKind) :
    (l.decodeValue m k).kind = k := by
  cases k <;> rfl

theorem kind_decodeOperand (l : OperandLayout) (m : Memory) :
    (l.decodeOperand m).kind = l.kindOf (m.u32 l.kind) :=
  l.kind_decodeValue _ _

theorem imm_decodeOperand {n : Int64} (hn : (l.decodeOperand m).imm = some n) :
    n = l.signed (m.window l.value) 0 := by
  unfold Operand.imm decodeOperand at hn
  dsimp only at hn
  generalize l.kindOf (m.u32 l.kind) = k at hn
  cases k <;> cases hn <;> rfl

theorem mem_decodeOperand {r : MemoryOperand} (hr : (l.decodeOperand m).mem = some r) :
    r = l.decodeMemory (m.window l.value) := by
  unfold Operand.mem decodeOperand at hr
  dsimp only at hr
  generalize l.kindOf (m.u32 l.kind) = k at hr
  cases k <;> cases hr
  rfl

/-- **Every operand record reads as an operand that its architecture has**, whatever it holds. -/
theorem decodeOperand_wellFormed (hf : l.Follows h) (m : Memory) :
    (l.decodeOperand m).WellFormed h where
  kind := by
    rw [kind_decodeOperand, hf.mem_kinds]
    exact l.kindOf_mem _
  imm := by
    intro n hn f hfield
    rw [hf.imm] at hfield
    obtain rfl := Option.some.inj hfield
    rw [imm_decodeOperand hn]
    exact l.fitsSigned_signed _ _
  disp := by
    intro r hr f hfield
    rw [hf.disp] at hfield
    obtain rfl := Option.some.inj hfield
    rw [mem_decodeOperand hr]
    exact l.fitsSigned_signed _ _
  index := by
    intro r hr hnone
    rw [hf.index, Option.map_eq_none_iff] at hnone
    rw [mem_decodeOperand hr, decodeMemory, hnone]
    rfl
  scale := by
    intro r hr hnone
    rw [hf.scale, Option.map_eq_none_iff] at hnone
    rw [mem_decodeOperand hr, decodeMemory, hnone]
    rfl
  shift := by
    intro s hs
    obtain ⟨o, ho, hdecode⟩ := Option.bind_eq_some_iff.mp hs
    rw [hf.shiftType, ho]
    unfold decodeShift at hdecode
    split at hdecode
    · cases hdecode
    · next hne =>
      obtain rfl := Option.some.inj hdecode
      exact ⟨rfl, hne⟩
  ext := by
    intro e he
    obtain ⟨o, ho, hdecode⟩ := Option.bind_eq_some_iff.mp he
    rw [hf.ext, ho]
    unfold decodeExt at hdecode
    split at hdecode
    · cases hdecode
    · next hne =>
      obtain rfl := Option.some.inj hdecode
      exact ⟨rfl, hne⟩
  size := by
    rw [hf.size, Option.isSome_map]
    exact Option.isSome_map

end OperandLayout

/-- What an operand can be on an architecture. -/
structure Operand.Conforms (a : Arch) (o : Operand) : Prop where
  pimm : o.kind = .pimm → a = .arm
  cimm : o.kind = .cimm → a = .arm ∨ a = .arm64
  fp : o.kind = .fp → a ≠ .mips ∧ a ≠ .ppc
  imm : a = .arm ∨ a = .arm64 ∨ a = .ppc → ∀ n, o.imm = some n →
    -2 ^ 31 ≤ n.toInt ∧ n.toInt < 2 ^ 31
  disp : a = .arm ∨ a = .arm64 ∨ a = .ppc → ∀ r, o.mem = some r →
    -2 ^ 31 ≤ r.disp.toInt ∧ r.disp.toInt < 2 ^ 31
  index : a = .mips ∨ a = .ppc → ∀ r, o.mem = some r → r.index = 0
  scale : a = .mips ∨ a = .ppc ∨ a = .arm64 → ∀ r, o.mem = some r → r.scale = 1
  shift : ∀ s, o.shift = some s → (a = .arm ∨ a = .arm64) ∧ s.kind ≠ 0
  ext : ∀ e, o.ext = some e → a = .arm64 ∧ e ≠ 0
  size : o.size.isSome = true ↔ a = .x86

theorem Operand.WellFormed.listed {h : Header} {o : Operand} (hw : o.WellFormed h)
    {k : OperandKind} (hk : o.kind = k) : k = .invalid ∨ k ∈ h.kinds.map Prod.snd :=
  hk ▸ hw.kind

/-- What the headers of an architecture can express is what its operands can be. -/
theorem Operand.WellFormed.conforms {a : Arch} {o : Operand} (hw : o.WellFormed (headers a)) :
    o.Conforms a where
  pimm := by
    intro hk
    have hlisted := hw.listed hk
    revert hlisted
    cases a <;> decide
  cimm := by
    intro hk
    have hlisted := hw.listed hk
    revert hlisted
    cases a <;> decide
  fp := by
    intro hk
    have hlisted := hw.listed hk
    revert hlisted
    cases a <;> decide
  imm := by
    rintro (rfl | rfl | rfl) n hn
    · exact hw.imm n hn ⟨16, 4⟩ rfl
    · exact hw.imm n hn ⟨16, 4⟩ rfl
    · exact hw.imm n hn ⟨4, 4⟩ rfl
  disp := by
    rintro (rfl | rfl | rfl) r hr
    · exact hw.disp r hr ⟨12, 4⟩ rfl
    · exact hw.disp r hr ⟨8, 4⟩ rfl
    · exact hw.disp r hr ⟨4, 4⟩ rfl
  index := by
    rintro (rfl | rfl) r hr
    · exact hw.index r hr rfl
    · exact hw.index r hr rfl
  scale := by
    rintro (rfl | rfl | rfl) r hr
    · exact hw.scale r hr rfl
    · exact hw.scale r hr rfl
    · exact hw.scale r hr rfl
  shift := by
    intro s hs
    obtain ⟨hdeclared, hne⟩ := hw.shift s hs
    refine ⟨?_, hne⟩
    revert hdeclared
    cases a <;> decide
  ext := by
    intro e he
    obtain ⟨hdeclared, hne⟩ := hw.ext e he
    refine ⟨?_, hne⟩
    revert hdeclared
    cases a <;> decide
  size := by
    rw [hw.size]
    cases a <;> decide

/-! ### What decoding hangs on -/

theorem Memory.window_zero (m : Memory) : m.window 0 = m := by
  funext i
  rw [window, Nat.zero_add]

theorem Memory.AgreeAt.truth {m m' : Memory} {start : Nat} {f : Option Field}
    (h : m.AgreeAt m' start f) : m.AgreeOnTruth m' start f := by
  intro x hx
  rw [slice_congr (h x hx)]

section

variable {h : Header} {m m' : Memory} {start : Nat}

/-- Agreement on the members of an operand record is agreement on all that can be live in it. -/
theorem liveOperand_of_agree (hc : h.Coherent)
    (ha : ∀ x, m.AgreeAt m' start (memberOf h.operand x)) : LiveOperand h m m' start := by
  refine ⟨ha .opType, ?_, (ha .shift).shifterOf hc .shiftType, fun _ =>
    (ha .shift).shifterOf hc .shiftValue, ha .ext, ha .size⟩
  cases h.kindOf (m.numberAt start (memberOf h.operand .opType)) with
  | invalid => trivial
  | reg => exact (ha .value).valueOf hc .reg
  | imm => exact (ha .value).valueOf hc .imm
  | cimm => exact (ha .value).valueOf hc .imm
  | pimm => exact (ha .value).valueOf hc .imm
  | fp => exact (ha .value).valueOf hc .fp
  | mem => exact fun x _ => (ha .value).referenceOf hc x

theorem liveFields_of_agree (hc : h.Coherent)
    (ha : ∀ x, m.AgreeAt m' start (memberOf h.fields x)) : LiveFields h m m' start :=
  ⟨fun x _ _ _ => ha x, fun x _ => (ha x).truth, fun _ hi _ hf =>
    liveOperand_of_agree hc
      (agreeAt_operand hc (Nat.lt_of_lt_of_le hi (Nat.min_le_right _ _)) hf (ha .operands))⟩

theorem liveIds_of_agree {array count : Member} {n : Nat}
    (hx : blockHeader.lookup array = some (CType.byte.array n))
    (ha : ∀ x, m.AgreeAt m' 0 (memberOf blockHeader x)) : LiveIds m m' array count n :=
  ⟨ha count, fun _ hi => (ha array).elementOf hx (Nat.lt_of_lt_of_le hi (Nat.min_le_right _ _))⟩

end

/-- **An operand hangs on the bytes of its record only.** -/
theorem OperandLayout.decodeOperand_congr {l : OperandLayout} {h : Header} (hf : l.Follows h)
    (hc : h.Coherent) {m m' : Memory} (hsame : ∀ j < l.stride, m' j = m j) :
    l.decodeOperand m' = l.decodeOperand m := by
  have hlive : LiveOperand h m m' 0 := liveOperand_of_agree hc fun x f hfield i hlow hhigh => by
    have hle := memberOf_le hfield
    rw [size_operand hf] at hle
    exact hsame i (by omega)
  have hread := decodeOperand_of_live hf hlive
  rwa [window_zero, window_zero] at hread

/-- **A detail hangs on the bytes of the block only**: what lies behind its end is not looked at. -/
theorem Detail.ofMemory_congr (a : Arch) {m m' : Memory} (hsame : ∀ i < 696, m' i = m i) :
    ofMemory a m' = ofMemory a m := by
  have hagree : ∀ x, m.AgreeAt m' 0 (memberOf blockHeader x) := by
    intro x f hf i hlow hhigh
    have hle := memberOf_le hf
    rw [size_blockHeader] at hle
    exact hsame i (by omega)
  have hread : IdListLayout.regsRead.decode m' = IdListLayout.regsRead.decode m :=
    decode_of_liveIds IdListLayout.follows_regsRead (liveIds_of_agree rfl hagree)
  have hwrite : IdListLayout.regsWrite.decode m' = IdListLayout.regsWrite.decode m :=
    decode_of_liveIds IdListLayout.follows_regsWrite (liveIds_of_agree rfl hagree)
  have hgroups : IdListLayout.groups.decode m' = IdListLayout.groups.decode m :=
    decode_of_liveIds IdListLayout.follows_groups (liveIds_of_agree rfl hagree)
  have harch :
      ArchDetail.decode (m'.window archStart) a = ArchDetail.decode (m.window archStart) a :=
    ArchDetail.decode_of_live
      (liveFields_of_agree (coherent_headers a) ((hagree .arch).fields a))
  rw [ofMemory, ofMemory, hread, hwrite, hgroups, harch]

/-! ### Arrays -/

/-- The bytes of each element of an array member of a structure that begins at `start`. -/
def Memory.elements (m : Memory) (start : Nat) (ms : Members) (array : Member) (t : CType)
    (n : Nat) : List (List UInt8) :=
  (List.range n).map fun i =>
    ((elementOf ms array t i).map fun f => m.slice (start + f.offset) f.size).getD []

/-- The first `n` elements of an array, read; there is no reading past the end of the array. -/
def readFront {α β : Type} (read : α → β) : Nat → List α → Option (List β)
  | 0, _ => some []
  | _ + 1, [] => none
  | n + 1, a :: as => (readFront read n as).map (read a :: ·)

theorem readFront_of_le {α β : Type} (read : α → β) {n : Nat} {array : List α}
    (h : n ≤ array.length) : readFront read n array = some ((array.take n).map read) := by
  induction n generalizing array with
  | zero => rw [readFront, List.take_zero, List.map_nil]
  | succ n ih =>
    cases array with
    | nil => exact absurd h (Nat.not_succ_le_zero n)
    | cons x xs =>
      rw [readFront, ih (Nat.le_of_succ_le_succ h), Option.map_some, List.take_succ_cons,
        List.map_cons]

theorem IdListLayout.readFront_elements {l : IdListLayout} {array count : Member}
    (hf : l.Follows array count) (m : Memory) :
    readFront (fun bytes => UInt32.ofNat (littleEndian bytes))
        (min (m.numberAt 0 (memberOf blockHeader count)) l.capacity)
        (m.elements 0 blockHeader array .byte l.capacity) = some (l.decode m) := by
  have hlen : (m.elements 0 blockHeader array .byte l.capacity).length = l.capacity := by
    rw [elements, List.length_map, List.length_range]
  rw [readFront_of_le _ (by rw [hlen]; exact Nat.min_le_right _ _), hf.memberOf_count,
    numberAt_byte, Nat.zero_add, decode, elements, ← List.map_take, List.take_range, List.map_map,
    slice, List.map_map, Nat.min_assoc, Nat.min_self]
  congr 1
  apply List.map_congr_left
  intro i _
  simp only [Function.comp_apply, hf.element, Option.map_some, Option.getD_some, Nat.zero_add,
    Nat.mul_one]
  have hbyte : m.slice (l.start + i) 1 = [m (l.start + i)] := rfl
  rw [hbyte, littleEndian, littleEndian, Nat.mul_zero, Nat.add_zero, UInt32.ofNat_uInt8ToNat]
  rfl

/-- Each operand comes from the bytes of its record alone, whatever filler stands behind them. -/
theorem OperandLayout.readFront_elements {l : OperandLayout} {h : Header} (hf : l.Follows h)
    (hc : h.Coherent) (m : Memory) (start : Nat) (filler : Memory) :
    readFront (fun bytes => l.decodeOperand (put 0 bytes filler))
        (min (m.numberAt start (memberOf h.fields .opCount)) h.capacity)
        (m.elements start h.fields .operands (CType.record h.operand) h.capacity) =
      some (l.decode (m.window start)) := by
  have hlen : (m.elements start h.fields .operands (CType.record h.operand) h.capacity).length =
      h.capacity := by
    rw [elements, List.length_map, List.length_range]
  rw [readFront_of_le _ (by rw [hlen]; exact Nat.min_le_right _ _), hf.opCount, numberAt_byte,
    decode, filled, hf.capacity, elements, ← List.map_take, List.take_range, List.map_map,
    Nat.min_assoc, Nat.min_self]
  congr 1
  apply List.map_congr_left
  intro i _
  have hrecord : elementOf h.fields .operands (CType.record h.operand) i =
      some ⟨l.recordStart i, l.stride⟩ := hf.operandOf i
  simp only [Function.comp_apply, hrecord, Option.map_some, Option.getD_some, window_window]
  apply decodeOperand_congr hf hc
  intro j hj
  have hbytes : (m.slice (start + l.recordStart i) l.stride).length = l.stride := by
    rw [slice, List.length_map, List.length_range]
  have hinside := put_inside 0 (m.slice (start + l.recordStart i) l.stride) filler (i := j)
    (by rw [hbytes]; exact hj)
  rw [Nat.zero_add] at hinside
  rw [hinside]
  simp only [slice, List.getElem_map, List.getElem_range]

/-- Reading ends with as many things as were to be read, if it does not fail. -/
theorem length_of_readFront {α β : Type} {read : α → β} {n : Nat} {array : List α} {l : List β}
    (h : readFront read n array = some l) : l.length = n := by
  induction n generalizing array l with
  | zero =>
    obtain rfl := Option.some.inj h
    rfl
  | succ n ih =>
    cases array with
    | nil => cases h
    | cons x xs =>
      obtain ⟨l', hl', rfl⟩ := Option.map_eq_some_iff.mp h
      rw [List.length_cons, ih hl']

/-- Ids of one byte stay below 256. -/
theorem IdListLayout.lt_of_mem_decode {l : IdListLayout} {m : Memory} {id : UInt32}
    (h : id ∈ l.decode m) : id < 256 := by
  obtain ⟨b, -, rfl⟩ := List.mem_map.mp h
  rw [UInt32.lt_iff_toNat_lt, UInt8.toNat_toUInt32]
  exact b.toNat_lt

/-! ### The whole block -/

namespace Block

/-- A number among the counts of a block. -/
def count (b : Block) (x : Member) : Nat :=
  b.memory.numberAt 0 (memberOf blockHeader x)

/-- The number of operands that a block claims for an architecture. -/
def operandCount (b : Block) (a : Arch) : Nat :=
  b.memory.numberAt archOffset (memberOf (headers a).fields .opCount)

/-- The number by which a block tells the kind of an operand of an architecture. -/
def kindNumber (b : Block) (a : Arch) (i : Nat) : Nat :=
  (((headers a).operandOf i).map fun f =>
    b.memory.numberAt (archOffset + f.offset) (memberOf (headers a).operand .opType)).getD 0

end Block

/-- The lists of a detail are read from the front of a block's arrays: as many elements as the
block counts and the array has, none from behind its end, and of each operand nothing but its
record. -/
structure Detail.ReadFrom (a : Arch) (b : Block) (d : Detail) : Prop where
  regsRead : readFront (fun bytes => UInt32.ofNat (littleEndian bytes))
    (min (b.count .regsReadCount) 12) (b.memory.elements 0 blockHeader .regsRead .byte 12) =
      some d.regsRead
  regsWrite : readFront (fun bytes => UInt32.ofNat (littleEndian bytes))
    (min (b.count .regsWriteCount) 20) (b.memory.elements 0 blockHeader .regsWrite .byte 20) =
      some d.regsWrite
  groups : readFront (fun bytes => UInt32.ofNat (littleEndian bytes))
    (min (b.count .groupsCount) 8) (b.memory.elements 0 blockHeader .groups .byte 8) =
      some d.groups
  operands : ∀ filler : Memory,
    readFront (fun bytes => (OperandLayout.ofArch a).decodeOperand (put 0 bytes filler))
      (min (b.operandCount a) (headers a).capacity)
      (b.memory.elements archOffset (headers a).fields .operands
        (CType.record (headers a).operand) (headers a).capacity) = some d.operands

theorem ArchDetail.arch_decode (m : Memory) (a : Arch) : (decode m a).arch = a := by
  cases a <;> rfl

theorem ArchDetail.operands_decode (m : Memory) (a : Arch) :
    (decode m a).operands = (OperandLayout.ofArch a).decode m := by
  cases a <;> rfl

theorem Detail.operands_decode (a : Arch) (b : Block) : (decode a b).operands =
    (OperandLayout.ofArch a).decode (b.memory.window archOffset) :=
  ArchDetail.operands_decode _ a

theorem Detail.readFrom_decode (a : Arch) (b : Block) : ReadFrom a b (decode a b) where
  regsRead := IdListLayout.readFront_elements IdListLayout.follows_regsRead b.memory
  regsWrite := IdListLayout.readFront_elements IdListLayout.follows_regsWrite b.memory
  groups := IdListLayout.readFront_elements IdListLayout.follows_groups b.memory
  operands := fun filler => by
    rw [operands_decode]
    exact OperandLayout.readFront_elements (OperandLayout.follows a) (coherent_headers a) b.memory
      archOffset filler

theorem Detail.wellFormed_operands_decode {a : Arch} {b : Block} {o : Operand}
    (h : o ∈ (decode a b).operands) : o.WellFormed (headers a) := by
  rw [operands_decode, OperandLayout.decode] at h
  obtain ⟨i, -, rfl⟩ := List.mem_map.mp h
  exact OperandLayout.decodeOperand_wellFormed (OperandLayout.follows a) _

/-- The kind of an operand is the one that its number stands for. -/
theorem Detail.kind_of_getElem? {a : Arch} {b : Block} {i : Nat} {o : Operand}
    (h : (decode a b).operands[i]? = some o) : o.kind = (headers a).kindOf (b.kindNumber a i) := by
  have hf := OperandLayout.follows a
  rw [operands_decode, OperandLayout.decode, List.getElem?_map, Option.map_eq_some_iff] at h
  obtain ⟨j, hj, rfl⟩ := h
  obtain ⟨-, rfl⟩ := List.getElem?_eq_some_iff.mp hj
  rw [List.getElem_range, OperandLayout.kind_decodeOperand, hf.kindOf, window_window, u32_window,
    Block.kindNumber, hf.operandOf, Option.map_some, Option.getD_some, hf.opType, numberAt_word]

theorem Header.kindOf_of_not_mem {h : Header} {n : Nat} (hn : n ∉ h.kinds.map Prod.fst) :
    h.kindOf n = .invalid := by
  have hnone : h.kinds.lookup n = none := by
    rw [List.lookup_eq_none_iff]
    intro p hp
    exact bne_iff_ne.mpr fun heq => hn (List.mem_map.mpr ⟨p, hp, heq.symm⟩)
  rw [kindOf, hnone, Option.getD_none]

/-- **Every decoded detail is well-formed**, whatever the block holds: it is tagged with the
architecture, its lists are as long as the counts say, but no longer than their arrays, ids and
numbers have the widths of the headers, operands are of kinds and with extras that the architecture
has, and of no kind where the block gives no number of a kind.  No array is read past its end, and
nothing behind the block. -/
theorem Detail.decode_conforms (a : Arch) (b : Block) :
    let d := decode a b
    d.arch.arch = a ∧
      d.regsRead.length = min (b.count .regsReadCount) 12 ∧
      d.regsWrite.length = min (b.count .regsWriteCount) 20 ∧
      d.groups.length = min (b.count .groupsCount) 8 ∧
      (∀ id ∈ d.regsRead ++ d.regsWrite ++ d.groups, id < 256) ∧
      d.operands.length = min (b.operandCount a) (if a = .arm then 20 else 8) ∧
      (∀ o ∈ d.operands, o.Conforms a) ∧
      (∀ (i : Nat) (o : Operand), d.operands[i]? = some o →
        o.kind = (headers a).kindOf (b.kindNumber a i) ∧
          (b.kindNumber a i ∉ (headers a).kinds.map Prod.fst → o.kind = .invalid)) ∧
      d.ReadFrom a b ∧
      ∀ m : Memory, (∀ i < 696, m i = b.memory i) → ofMemory a m = d := by
  intro d
  have hread : d.ReadFrom a b := readFrom_decode a b
  have hcapacity : (headers a).capacity = if a = .arm then 20 else 8 := by
    cases a <;> rfl
  refine ⟨ArchDetail.arch_decode _ a, length_of_readFront hread.regsRead,
    length_of_readFront hread.regsWrite, length_of_readFront hread.groups, ?_, ?_, ?_, ?_, hread,
    fun m hsame => ofMemory_congr a hsame⟩
  · intro id hid
    rw [List.mem_append, List.mem_append] at hid
    rcases hid with (hid | hid) | hid
    · exact IdListLayout.lt_of_mem_decode hid
    · exact IdListLayout.lt_of_mem_decode hid
    · exact IdListLayout.lt_of_mem_decode hid
  · rw [← hcapacity]
    exact length_of_readFront (hread.operands b.memory)
  · exact fun o ho => (wellFormed_operands_decode ho).conforms
  · intro i o ho
    have hkind := kind_of_getElem? ho
    exact ⟨hkind, fun hunlisted => hkind.trans (Header.kindOf_of_not_mem hunlisted)⟩

end Disassembly

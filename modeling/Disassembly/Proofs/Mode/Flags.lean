import Disassembly.Mode
import Mathlib.Data.Nat.Bitwise

/-!
# Modes as sets of flags

A mode is a 32-bit mask, and each flag is one bit of it.

* `Mode.has` — the view of a mode by its bits, through which `union` and `contains` are read;
* `Mode.ofFlags` — the union of flags; a mode within it is the union of those it contains
  (`Mode.eq_ofFlags_filter`);
* `Mode.Takes` — the modes of each architecture, written out as unions of its flags;
* `Mode.takes_iff` — these are the modes that `Mode.supportedBy` accepts, of all masks there are.
-/

namespace Disassembly

namespace Mode

variable {m n f : Mode} {fs gs : List Mode}

/-! ### Bits -/

/-- Whether a bit is set. -/
def has (m : Mode) (i : Nat) : Bool :=
  m.bits.toNat.testBit i

theorem ext_has (h : ∀ i, m.has i = n.has i) : m = n := by
  have hnat : m.bits.toNat = n.bits.toNat := Nat.eq_of_testBit_eq h
  have hbits : m.bits = n.bits := UInt32.toNat_inj.mp hnat
  cases m
  cases n
  exact congrArg Mode.mk hbits

@[simp]
theorem has_union (m n : Mode) (i : Nat) : (m.union n).has i = (m.has i || n.has i) := by
  show (m.bits ||| n.bits).toNat.testBit i = _
  rw [UInt32.toNat_or, Nat.testBit_or]
  rfl

@[simp]
theorem has_littleEndian (i : Nat) : littleEndian.has i = false :=
  Nat.zero_testBit i

theorem union_comm (m n : Mode) : m.union n = n.union m :=
  ext_has fun i => by rw [has_union, has_union, Bool.or_comm]

theorem union_assoc (m n f : Mode) : (m.union n).union f = m.union (n.union f) :=
  ext_has fun i => by simp only [has_union, Bool.or_assoc]

theorem littleEndian_union (m : Mode) : littleEndian.union m = m :=
  ext_has fun i => by rw [has_union, has_littleEndian, Bool.false_or]

theorem contains_iff : m.contains n = true ↔ ∀ i, n.has i = true → m.has i = true := by
  have hand : ∀ i, (m.bits &&& n.bits).toNat.testBit i = (m.has i && n.has i) := by
    intro i
    rw [UInt32.toNat_and, Nat.testBit_and]
    rfl
  show (m.bits &&& n.bits == n.bits) = true ↔ _
  rw [beq_iff_eq]
  constructor
  · intro heq i hi
    have hbit := hand i
    rw [heq] at hbit
    have hboth : (m.has i && n.has i) = true := hbit.symm.trans hi
    exact (Bool.and_eq_true_iff.mp hboth).1
  · intro hsub
    apply UInt32.toNat_inj.mp
    apply Nat.eq_of_testBit_eq
    intro i
    rw [hand]
    cases hn : n.has i with
    | true => rw [hsub i hn]; exact hn.symm
    | false => rw [Bool.and_false]; exact hn.symm

/-! ### Flags and their unions -/

/-- A mode of one bit. -/
def IsFlag (f : Mode) : Prop :=
  ∃ k, f.bits.toNat = 2 ^ k

theorem IsFlag.has_iff (hf : f.IsFlag) : ∃ k, ∀ i, f.has i = true ↔ i = k := by
  obtain ⟨k, hk⟩ := hf
  refine ⟨k, fun i => ?_⟩
  rw [has, hk, Nat.testBit_two_pow, decide_eq_true_eq]
  exact eq_comm

/-- A mode contains a flag as soon as they share a bit. -/
theorem IsFlag.contains_iff (hf : f.IsFlag) :
    m.contains f = true ↔ ∃ i, f.has i = true ∧ m.has i = true := by
  obtain ⟨k, hk⟩ := hf.has_iff
  rw [Mode.contains_iff]
  constructor
  · intro hsub
    exact ⟨k, (hk k).mpr rfl, hsub k ((hk k).mpr rfl)⟩
  · rintro ⟨i, hi, hm⟩ j hj
    rw [(hk j).mp hj, ← (hk i).mp hi]
    exact hm

/-- The union of flags. -/
def ofFlags (fs : List Mode) : Mode :=
  fs.foldr union littleEndian

theorem has_ofFlags (fs : List Mode) (i : Nat) :
    (ofFlags fs).has i = true ↔ ∃ f ∈ fs, f.has i = true := by
  induction fs with
  | nil =>
    show littleEndian.has i = true ↔ _
    simp
  | cons f fs ih =>
    show (f.union (ofFlags fs)).has i = true ↔ _
    rw [has_union, Bool.or_eq_true, ih]
    simp

/-- A union of modes lies within a mode if each of them does. -/
theorem contains_ofFlags : m.contains (ofFlags fs) = true ↔ ∀ f ∈ fs, m.contains f = true := by
  rw [contains_iff]
  constructor
  · intro h f hf
    rw [contains_iff]
    intro i hi
    exact h i ((has_ofFlags fs i).mpr ⟨f, hf, hi⟩)
  · intro h i hi
    obtain ⟨f, hf, hfi⟩ := (has_ofFlags fs i).mp hi
    exact contains_iff.mp (h f hf) i hfi

/-- A union contains a flag if one of its members does. -/
theorem ofFlags_contains (hf : f.IsFlag) :
    (ofFlags fs).contains f = true ↔ ∃ g ∈ fs, g.contains f = true := by
  rw [hf.contains_iff]
  constructor
  · rintro ⟨i, hfi, hi⟩
    obtain ⟨g, hg, hgi⟩ := (has_ofFlags fs i).mp hi
    exact ⟨g, hg, hf.contains_iff.mpr ⟨i, hfi, hgi⟩⟩
  · rintro ⟨g, hg, hgf⟩
    obtain ⟨i, hfi, hgi⟩ := hf.contains_iff.mp hgf
    exact ⟨i, hfi, (has_ofFlags fs i).mpr ⟨g, hg, hgi⟩⟩

/-- **A mode within a union of flags is the union of those that it contains.** -/
theorem eq_ofFlags_filter (hflags : ∀ f ∈ fs, f.IsFlag) (hm : (ofFlags fs).contains m = true) :
    m = ofFlags (fs.filter m.contains) := by
  apply ext_has
  intro i
  apply Bool.eq_iff_iff.mpr
  rw [has_ofFlags]
  constructor
  · intro hi
    obtain ⟨f, hf, hfi⟩ := (has_ofFlags fs i).mp (contains_iff.mp hm i hi)
    exact ⟨f, List.mem_filter.mpr ⟨hf, (hflags f hf).contains_iff.mpr ⟨i, hfi, hi⟩⟩, hfi⟩
  · rintro ⟨f, hf, hfi⟩
    exact contains_iff.mp (List.mem_filter.mp hf).2 i hfi

/-! ### The modes of an architecture -/

theorem isFlag_width : ∀ w ∈ widths, IsFlag w := by
  simp only [widths, List.forall_mem_cons]
  exact ⟨⟨1, rfl⟩, ⟨2, rfl⟩, ⟨3, rfl⟩, fun _ h => nomatch h⟩

theorem isFlag_micro : micro.IsFlag := ⟨4, rfl⟩

theorem isFlag_n64 : n64.IsFlag := ⟨5, rfl⟩

theorem isFlag_bigEndian : bigEndian.IsFlag := ⟨31, rfl⟩

/-- The modes that an architecture takes: the subsets of its flags, with at most one width on MIPS
and PPC; exactly a width on X86. -/
inductive Takes : Arch → Mode → Prop where
  | arm {fs : List Mode} (hfs : fs ⊆ [thumb, bigEndian]) : Takes .arm (ofFlags fs)
  | arm64 {fs : List Mode} (hfs : fs ⊆ [bigEndian]) : Takes .arm64 (ofFlags fs)
  | mips {fs ws : List Mode} (hfs : fs ⊆ [micro, n64, bigEndian]) (hws : ws ⊆ [width32, width64])
    (hone : ws.length ≤ 1) : Takes .mips (ofFlags (ws ++ fs))
  | x86 {w : Mode} (hw : w ∈ [width16, width32, width64]) : Takes .x86 w
  | ppc {fs ws : List Mode} (hfs : fs ⊆ [bigEndian]) (hws : ws ⊆ [width32, width64])
    (hone : ws.length ≤ 1) : Takes .ppc (ofFlags (ws ++ fs))

/-- The widths of a union are those of its members. -/
theorem widthCount_ofFlags (fs : List Mode) :
    (ofFlags fs).widthCount = (widths.filter fun w => fs.any fun f => f.contains w).length := by
  show (widths.filter (ofFlags fs).contains).length = _
  congr 1
  apply List.filter_congr
  intro w hw
  apply Bool.eq_iff_iff.mpr
  rw [ofFlags_contains (isFlag_width w hw), List.any_eq_true]

/-- One width at most and flags without a width make at most one width. -/
theorem widthCount_le_one {ws : List Mode} (hws : ws ⊆ widths) (hone : ws.length ≤ 1)
    (hfs : ∀ f ∈ fs, ∀ w ∈ widths, f.contains w = false) :
    (ofFlags (ws ++ fs)).widthCount ≤ 1 := by
  have hcount : (ofFlags (ws ++ fs)).widthCount = (ofFlags ws).widthCount := by
    rw [widthCount_ofFlags, widthCount_ofFlags]
    congr 1
    apply List.filter_congr
    intro w hw
    have hnone : (fs.any fun f => f.contains w) = false := by
      rw [List.any_eq_false]
      intro f hf
      simp [hfs f hf w hw]
    rw [List.any_append, hnone, Bool.or_false]
  rw [hcount]
  match ws with
  | [] => decide
  | [w] =>
    have hall : ∀ w ∈ widths, (ofFlags [w]).widthCount ≤ 1 := by decide
    exact hall w (hws List.mem_cons_self)
  | _ :: _ :: _ =>
    simp only [List.length_cons] at hone
    omega

theorem allowed_contains_of_subset {a : Arch} (hfs : fs ⊆ gs)
    (hgs : ∀ g ∈ gs, (allowed a).contains g = true) : (allowed a).contains (ofFlags fs) = true :=
  contains_ofFlags.mpr fun f hf => hgs f (hfs hf)

/-- What an architecture takes is accepted. -/
theorem Takes.supportedBy {a : Arch} (h : Takes a m) : m.supportedBy a = true := by
  rw [Mode.supportedBy, Bool.and_eq_true]
  cases h with
  | arm hfs => exact ⟨allowed_contains_of_subset hfs (by decide), rfl⟩
  | arm64 hfs => exact ⟨allowed_contains_of_subset hfs (by decide), rfl⟩
  | x86 hw =>
    have hall : ∀ w ∈ [width16, width32, width64],
        (allowed .x86).contains w = true ∧ widthsFit .x86 w.widthCount = true := by decide
    exact hall m hw
  | @mips fs ws hfs hws hone =>
    have hsub : ws ++ fs ⊆ [width32, width64] ++ [micro, n64, bigEndian] :=
      List.append_subset.mpr ⟨List.subset_append_of_subset_left _ hws,
        List.subset_append_of_subset_right _ hfs⟩
    have hnone : ∀ f ∈ [micro, n64, bigEndian], ∀ w ∈ widths, f.contains w = false := by decide
    have hcount := widthCount_le_one (List.subset_cons_of_subset _ hws) hone
      fun f hf => hnone f (hfs hf)
    exact ⟨allowed_contains_of_subset hsub (by decide), decide_eq_true hcount⟩
  | @ppc fs ws hfs hws hone =>
    have hsub : ws ++ fs ⊆ [width32, width64] ++ [bigEndian] :=
      List.append_subset.mpr ⟨List.subset_append_of_subset_left _ hws,
        List.subset_append_of_subset_right _ hfs⟩
    have hnone : ∀ f ∈ [bigEndian], ∀ w ∈ widths, f.contains w = false := by decide
    have hcount := widthCount_le_one (List.subset_cons_of_subset _ hws) hone
      fun f hf => hnone f (hfs hf)
    exact ⟨allowed_contains_of_subset hsub (by decide), decide_eq_true hcount⟩

/-- A mode with one width and no foreign flag is that width. -/
theorem takes_of_one_width (hallowed : (ofFlags widths).contains m = true)
    (hone : m.widthCount = 1) : Takes .x86 m := by
  obtain ⟨w, hw⟩ := List.length_eq_one_iff.mp hone
  have hm := eq_ofFlags_filter isFlag_width hallowed
  have hmem : w ∈ widths.filter m.contains := by
    rw [hw]
    exact List.mem_singleton_self w
  rw [hw] at hm
  have hsame : ofFlags [w] = w := by
    apply ext_has
    intro i
    show (w.union littleEndian).has i = w.has i
    rw [has_union, has_littleEndian, Bool.or_false]
  rw [hm, hsame]
  exact .x86 (List.mem_filter.mp hmem).1

/-- A mode with at most one width is that width and its other flags. -/
theorem eq_width_and_flags (hgs : ∀ g ∈ gs, g.IsFlag)
    (hallowed : (ofFlags ([width32, width64] ++ gs)).contains m = true)
    (hone : m.widthCount ≤ 1) :
    ∃ fs ws, fs ⊆ gs ∧ ws ⊆ [width32, width64] ∧ ws.length ≤ 1 ∧ m = ofFlags (ws ++ fs) := by
  have hnarrow : [width32, width64].Sublist widths := List.sublist_cons_self _ _
  have hflags : ∀ f ∈ [width32, width64] ++ gs, IsFlag f := by
    intro f hf
    rcases List.mem_append.mp hf with hw | hg
    · exact isFlag_width f (hnarrow.subset hw)
    · exact hgs f hg
  have hcount : ([width32, width64].filter m.contains).length ≤ m.widthCount :=
    (hnarrow.filter m.contains).length_le
  refine ⟨gs.filter m.contains, [width32, width64].filter m.contains,
    List.filter_sublist.subset, List.filter_sublist.subset, Nat.le_trans hcount hone, ?_⟩
  rw [← List.filter_append]
  exact eq_ofFlags_filter hflags hallowed

/-- What is accepted the architecture takes. -/
theorem takes_of_supportedBy {a : Arch} (h : m.supportedBy a = true) : Takes a m := by
  rw [Mode.supportedBy, Bool.and_eq_true] at h
  obtain ⟨hallowed, hwidths⟩ := h
  cases a with
  | arm =>
    have hflags : ∀ f ∈ [thumb, bigEndian], IsFlag f := by
      simp only [List.forall_mem_cons]
      exact ⟨isFlag_micro, isFlag_bigEndian, fun _ h => nomatch h⟩
    rw [eq_ofFlags_filter hflags hallowed]
    exact .arm List.filter_sublist.subset
  | arm64 =>
    have hflags : ∀ f ∈ [bigEndian], IsFlag f := List.forall_mem_singleton.mpr isFlag_bigEndian
    rw [eq_ofFlags_filter hflags hallowed]
    exact .arm64 List.filter_sublist.subset
  | x86 => exact takes_of_one_width hallowed (beq_iff_eq.mp hwidths)
  | mips =>
    have hflags : ∀ f ∈ [micro, n64, bigEndian], IsFlag f := by
      simp only [List.forall_mem_cons]
      exact ⟨isFlag_micro, isFlag_n64, isFlag_bigEndian, fun _ h => nomatch h⟩
    obtain ⟨fs, ws, hfs, hws, hone, rfl⟩ :=
      eq_width_and_flags hflags hallowed (of_decide_eq_true hwidths)
    exact .mips hfs hws hone
  | ppc =>
    have hflags : ∀ f ∈ [bigEndian], IsFlag f := List.forall_mem_singleton.mpr isFlag_bigEndian
    obtain ⟨fs, ws, hfs, hws, hone, rfl⟩ :=
      eq_width_and_flags hflags hallowed (of_decide_eq_true hwidths)
    exact .ppc hfs hws hone

/-- **The accepted modes are those that the architecture takes**, of all 32-bit masks. -/
theorem takes_iff {a : Arch} : Takes a m ↔ m.supportedBy a = true :=
  ⟨Takes.supportedBy, takes_of_supportedBy⟩

/-- A sub-architecture and a byte order go with a width, two widths do not go together. -/
example : (ofFlags [width64, n64, bigEndian]).supportedBy .mips = true ∧
    (ofFlags [width32, width64]).supportedBy .mips = false := by decide

end Mode

end Disassembly

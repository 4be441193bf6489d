import Disassembly.CommandLine.Arguments
import Disassembly.Proofs.Mode.Flags

/-!
# Mode flags taken together

Mode flags come in any order and any number of times, one of them asks for no bit and two ask for
the same one.  The mode that they make together depends on nothing but which of them there are, and
an architecture takes it exactly if the flags make sense for it.

* `plainMode` — the union of the modes that flags ask for; `plainMode_congr`;
* `asked` — the flags with the width that X86 is taken for; `combineModes_eq`;
* `widthsOf` — the widths among flags, each once; `widthCount_plainMode`;
* `flagsFor` — the flags that an architecture knows; `supportedBy_plainMode`;
* `modes_combined` — all of it for the mode of a command line.
-/

namespace Disassembly.CommandLine

open Mode

variable {a : Arch} {f w : ModeFlag} {fs gs : List ModeFlag}

/-! ### Flags without a default -/

/-- The modes that flags ask for, taken together. -/
def plainMode (fs : List ModeFlag) : Mode :=
  ofFlags (fs.map ModeFlag.mode)

theorem has_plainMode (fs : List ModeFlag) (i : Nat) :
    (plainMode fs).has i = true ↔ ∃ f ∈ fs, f.mode.has i = true := by
  rw [plainMode, has_ofFlags]
  simp only [List.mem_map, exists_exists_and_eq_and]

theorem plainMode_cons (f : ModeFlag) (fs : List ModeFlag) :
    plainMode (f :: fs) = f.mode.union (plainMode fs) := rfl

/-- Flags are taken together one by one, with the mode before them. -/
theorem foldl_modes (m : Mode) (fs : List ModeFlag) :
    fs.foldl (fun m f => m ||| f.mode) m = m.union (plainMode fs) := by
  induction fs generalizing m with
  | nil =>
    show m = m.union Mode.littleEndian
    rw [union_comm, littleEndian_union]
  | cons f fs ih =>
    rw [List.foldl_cons, ih, plainMode_cons]
    exact union_assoc m f.mode (plainMode fs)

/-- **Only which flags there are counts**, not their order nor how often each is there. -/
theorem plainMode_congr (h : ∀ f, f ∈ fs ↔ f ∈ gs) : plainMode fs = plainMode gs := by
  apply ext_has
  intro i
  apply Bool.eq_iff_iff.mpr
  rw [has_plainMode, has_plainMode]
  simp only [h]

theorem plainMode_contains (hf : f ∈ fs) : (plainMode fs).contains f.mode = true :=
  contains_iff.mpr fun i hi => (has_plainMode fs i).mpr ⟨f, hf, hi⟩

/-! ### Widths -/

/-- The flags that ask for a width. -/
def widthFlags : List ModeFlag := [.bits16, .bits32, .bits64]

/-- The widths among flags, each once. -/
def widthsOf (fs : List ModeFlag) : List ModeFlag :=
  widthFlags.filter (· ∈ fs)

theorem map_mode_widthFlags : widthFlags.map ModeFlag.mode = widths := rfl

/-- Flags ask for a width only by the flag of that width. -/
theorem plainMode_contains_width (hw : w ∈ widthFlags) :
    (plainMode fs).contains w.mode = true ↔ w ∈ fs := by
  have hone : ∀ f : ModeFlag, ∀ w ∈ widthFlags, f.mode.contains w.mode = true ↔ f = w := by
    intro f
    cases f <;> decide
  have hflag : w.mode.IsFlag := isFlag_width _ (map_mode_widthFlags ▸ List.mem_map_of_mem hw)
  rw [plainMode, ofFlags_contains hflag]
  simp only [List.mem_map, exists_exists_and_eq_and, hone _ w hw, exists_eq_right]

theorem widthCount_plainMode (fs : List ModeFlag) :
    (plainMode fs).widthCount = (widthsOf fs).length := by
  rw [widthCount, ← map_mode_widthFlags, List.filter_map, List.length_map, widthsOf]
  congr 1
  apply List.filter_congr
  intro w hw
  apply Bool.eq_iff_iff.mpr
  rw [decide_eq_true_eq]
  exact plainMode_contains_width hw

theorem widthsOf_congr (h : ∀ f, f ∈ fs ↔ f ∈ gs) : widthsOf fs = widthsOf gs := by
  simp only [widthsOf, h]

/-! ### The width of X86 -/

/-- The flags that are meant: on X86 there is one for a width among them. -/
def asked (a : Arch) (fs : List ModeFlag) : List ModeFlag :=
  if a = .x86 ∧ widthsOf fs = [] then .bits32 :: fs else fs

/-- A mode has no width exactly if there is none among the flags. -/
theorem no_width_iff (fs : List ModeFlag) :
    (!widths.any (plainMode fs).contains) = true ↔ widthsOf fs = [] := by
  rw [Bool.not_eq_true', List.any_eq_false, widthsOf, List.filter_eq_nil_iff, ← map_mode_widthFlags,
    List.forall_mem_map]
  refine forall₂_congr fun w hw => ?_
  rw [plainMode_contains_width hw, decide_eq_true_eq]

/-- **The mode of a command line** is that of the flags that are meant. -/
theorem combineModes_eq (a : Arch) (fs : List ModeFlag) :
    combineModes a fs = plainMode (asked a fs) := by
  rw [combineModes, foldl_modes, littleEndian_union, asked]
  simp only [no_width_iff]
  split
  · exact union_comm (plainMode fs) width32
  · rfl

theorem subset_asked (a : Arch) (fs : List ModeFlag) : fs ⊆ asked a fs := by
  rw [asked]
  split
  · exact List.subset_cons_self _ _
  · exact List.Subset.refl fs

/-! ### The flags of an architecture -/

/-- The flags that an architecture knows. -/
def flagsFor : Arch → List ModeFlag
  | .arm => [.little, .big, .thumb, .micro]
  | .arm64 => [.little, .big]
  | .mips => [.little, .big, .thumb, .micro, .n64, .bits32, .bits64]
  | .x86 => [.little, .bits16, .bits32, .bits64]
  | .ppc => [.little, .big, .bits32, .bits64]

theorem allowed_contains_iff (a : Arch) (f : ModeFlag) :
    (allowed a).contains f.mode = true ↔ f ∈ flagsFor a := by
  cases a <;> cases f <;> decide

/-- Flags make a mode of an architecture if it knows each of them and their widths fit. -/
theorem supportedBy_plainMode (a : Arch) (fs : List ModeFlag) :
    (plainMode fs).supportedBy a = true ↔
      (∀ f ∈ fs, f ∈ flagsFor a) ∧ widthsFit a (widthsOf fs).length = true := by
  rw [supportedBy, Bool.and_eq_true, widthCount_plainMode, plainMode, contains_ofFlags,
    List.forall_mem_map]
  simp only [allowed_contains_iff]

/-- Where no width is known, no flag is one. -/
theorem widthsOf_eq_nil (hno : ∀ w ∈ widthFlags, w ∉ flagsFor a) (hfs : ∀ f ∈ fs, f ∈ flagsFor a) :
    widthsOf fs = [] := by
  rw [widthsOf, List.filter_eq_nil_iff]
  intro w hw hmem
  exact hno w hw (hfs w (of_decide_eq_true hmem))

/-- The width that is taken for granted is the only one. -/
theorem widthsOf_default (hnone : widthsOf fs = []) : widthsOf (.bits32 :: fs) = [.bits32] := by
  have hsame : widthsOf (.bits32 :: fs) = widthFlags.filter (· = .bits32) := by
    refine List.filter_congr fun w hw => ?_
    have hnot : w ∉ fs := fun hmem =>
      List.filter_eq_nil_iff.mp hnone w hw (decide_eq_true hmem)
    rw [decide_eq_decide, List.mem_cons]
    exact or_iff_left hnot
  rw [hsame]
  rfl

/-- Of the flags that are meant the widths fit if there is one at most among those given. -/
theorem widthsFit_asked (hfs : ∀ f ∈ fs, f ∈ flagsFor a) :
    widthsFit a (widthsOf (asked a fs)).length = true ↔ (widthsOf fs).length ≤ 1 := by
  have hgiven : a ≠ .x86 → asked a fs = fs := fun ha => if_neg fun h => ha h.1
  cases a with
  | arm =>
    rw [widthsOf_eq_nil (a := .arm) (by decide) hfs]
    exact iff_of_true rfl (Nat.zero_le 1)
  | arm64 =>
    rw [widthsOf_eq_nil (a := .arm64) (by decide) hfs]
    exact iff_of_true rfl (Nat.zero_le 1)
  | mips =>
    rw [hgiven (by decide)]
    exact decide_eq_true_iff
  | ppc =>
    rw [hgiven (by decide)]
    exact decide_eq_true_iff
  | x86 =>
    rw [asked]
    split
    · next hnone =>
      rw [widthsOf_default hnone.2, hnone.2]
      exact iff_of_true rfl (Nat.zero_le 1)
    · next hsome =>
      have hpos : 0 < (widthsOf fs).length :=
        List.length_pos_iff.mpr fun hnil => hsome ⟨rfl, hnil⟩
      show ((widthsOf fs).length == 1) = true ↔ _
      rw [beq_iff_eq]
      omega

/-- **Flags make a mode of an architecture** exactly if it knows each of them and there is one width
at most among them. -/
theorem supportedBy_combineModes (a : Arch) (fs : List ModeFlag) :
    (combineModes a fs).supportedBy a = true ↔
      (∀ f ∈ fs, f ∈ flagsFor a) ∧ (widthsOf fs).length ≤ 1 := by
  have hasked : (∀ f ∈ asked a fs, f ∈ flagsFor a) ↔ ∀ f ∈ fs, f ∈ flagsFor a := by
    constructor
    · exact fun h f hf => h f (subset_asked a fs hf)
    · intro h
      rw [asked]
      split
      · next hx86 =>
        have hwidth : ModeFlag.bits32 ∈ flagsFor .x86 := by decide
        exact List.forall_mem_cons.mpr ⟨hx86.1 ▸ hwidth, h⟩
      · exact h
  rw [combineModes_eq, supportedBy_plainMode, hasked]
  exact and_congr_right widthsFit_asked

/-! ### All of it -/

/-- **Mode flags taken together.**  The mode of a command line depends on which flags there are and
on nothing else, and has what each of them asks for.  It is what the flags ask for, except on X86
without a width, where it has the width of 32 bits besides; and the architecture takes it exactly if
it knows each of the flags and there is one width at most among them. -/
theorem modes_combined :
    (∀ a fs gs, (∀ f, f ∈ fs ↔ f ∈ gs) → combineModes a fs = combineModes a gs) ∧
    (∀ a fs, ∀ f ∈ fs, (combineModes a fs).contains f.mode = true) ∧
    (∀ a fs, combineModes a fs ≠ plainMode fs ↔ a = .x86 ∧ widthsOf fs = []) ∧
    (∀ fs, widthsOf fs = [] → combineModes .x86 fs = plainMode fs ||| .width32) ∧
    ∀ a fs, (combineModes a fs).supportedBy a = true ↔
      (∀ f ∈ fs, f ∈ flagsFor a) ∧ (widthsOf fs).length ≤ 1 := by
  refine ⟨fun a fs gs h => ?_, fun a fs f hf => ?_, fun a fs => ?_, fun fs hnone => ?_,
    supportedBy_combineModes⟩
  · have hasked : ∀ f, f ∈ asked a fs ↔ f ∈ asked a gs := by
      intro f
      rw [asked, asked, widthsOf_congr h]
      split
      · rw [List.mem_cons, List.mem_cons, h]
      · exact h f
    rw [combineModes_eq, combineModes_eq, plainMode_congr hasked]
  · rw [combineModes_eq]
    exact plainMode_contains (subset_asked a fs hf)
  · rw [combineModes_eq, asked]
    split
    · next hx86 =>
      -- The width that is added is none that the flags ask for.
      refine iff_of_true (fun heq => ?_) hx86
      have hmem : ModeFlag.bits32 ∈ fs := by
        rw [← plainMode_contains_width (by decide), ← heq]
        exact plainMode_contains List.mem_cons_self
      exact List.filter_eq_nil_iff.mp hx86.2 _ (by decide) (decide_eq_true hmem)
    · next hgiven => exact iff_of_false (fun hne => hne rfl) hgiven
  · rw [combineModes_eq, asked, if_pos ⟨rfl, hnone⟩]
    exact union_comm width32 (plainMode fs)

/-- The same flags in another order and with repetitions; a width that is taken for granted; and the
two flags of one bit with two widths. -/
theorem modes_combined_repeated :
    combineModes .mips [.big, .thumb, .little, .big] = combineModes .mips [.little, .thumb, .big] ∧
      (combineModes .mips [.big, .thumb, .little, .big]).contains .bigEndian = true ∧
      combineModes .x86 [.little, .little] = .width32 ∧
      (combineModes .mips [.micro, .bits32, .thumb, .bits64]).supportedBy .mips = false := by
  refine ⟨modes_combined.1 _ _ _ fun f => ?_, modes_combined.2.1 _ _ .big (by decide), ?_, ?_⟩
  · simp only [List.mem_cons, List.not_mem_nil, or_false]
    tauto
  · rw [modes_combined.2.2.2.1 _ (by decide)]
    rfl
  · rw [Bool.eq_false_iff, ne_eq, modes_combined.2.2.2.2]
    decide

end Disassembly.CommandLine

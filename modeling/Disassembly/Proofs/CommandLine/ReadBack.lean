import Disassembly.Proofs.CommandLine.Addresses
import Disassembly.Proofs.CommandLine.Spelling
import Disassembly.Proofs.Text.Marks
import Disassembly.Session.Insn

/-!
# Lines read back

The line of an instruction puts address, bytes and text into columns, with a bar between the first
two and behind the second.  Each column has a least width, and long ones are wider, so that the bars
are not at fixed places; and the text may have bars of its own.  Still the line says which
instruction it is of, since neither of the first two columns has a bar in it.

* `splitOnce`, `splitOnce_append` — a text cut at the first separator;
* `Insn.spelling_column` — the column of bytes is a spelling of them;
* `Insn.cut_fullLine` — the columns are where the line is cut;
* `Insn.eq_of_fullLine_eq`, `Insn.eq_of_lineText_eq` — what they say;
* `Insn.fullLine_reads_back` — all of it together, with the shorter texts.
-/

namespace Disassembly

open CommandLine Numeral

/-! ### Cutting a text -/

/-- What stands before the first separator, and what stands behind it. -/
def splitFirst (sep : List Char) : List Char → Option (List Char × List Char)
  | [] => none
  | c :: cs =>
    if sep <+: c :: cs then some ([], (c :: cs).drop sep.length)
    else (splitFirst sep cs).map fun p => (c :: p.1, p.2)

/-- A text cut at the first separator. -/
def splitOnce (sep text : String) : Option (String × String) :=
  (splitFirst sep.toList text.toList).map fun p => (String.ofList p.1, String.ofList p.2)

section

variable {x : Char} {u v pre : List Char}

/-- If the separator has a character that the text in front lacks, it is found behind that text. -/
theorem splitFirst_append (hu : x ∉ u) (hpre : x ∉ pre) (rest : List Char) :
    splitFirst (u ++ x :: v) (pre ++ (u ++ x :: v ++ rest)) = some (pre, rest) := by
  induction pre with
  | nil =>
    obtain ⟨c, cs, hsep⟩ := List.exists_cons_of_ne_nil
      (List.append_ne_nil_of_right_ne_nil u (List.cons_ne_nil x v))
    have hfound : c :: cs <+: c :: (cs ++ rest) := List.prefix_append (c :: cs) rest
    rw [hsep, List.nil_append, List.cons_append, splitFirst, if_pos hfound]
    exact congrArg (fun behind => some ([], behind)) List.drop_left
  | cons c pre ih =>
    have hno : ¬ (u ++ x :: v) <+: c :: (pre ++ (u ++ x :: v ++ rest)) := by
      -- Here already the first `x` would be the one of the separator, but it is further behind.
      rintro ⟨t, ht⟩
      have hbefore : x ∉ c :: pre ++ u := fun hmem =>
        (List.mem_append.mp hmem).elim hpre hu
      have hshift : u ++ x :: (v ++ t) = c :: pre ++ u ++ x :: (v ++ rest) := by
        simpa only [List.append_assoc, List.cons_append] using ht
      have hsame : u = c :: pre ++ u := (append_cons_inj hu hbefore hshift).1
      exact List.cons_ne_nil c pre (List.self_eq_append_left.mp hsame)
    rw [List.cons_append, splitFirst, if_neg hno, ih fun hmem => hpre (List.mem_cons_of_mem c hmem)]
    rfl

end

theorem splitOnce_append {sep text : String} {x : Char} {u v : List Char}
    (hsep : sep.toList = u ++ x :: v) (hu : x ∉ u) (htext : x ∉ text.toList) (rest : String) :
    splitOnce sep (text ++ (sep ++ rest)) = some (text, rest) := by
  rw [splitOnce, String.toList_append, String.toList_append, hsep, splitFirst_append hu htext]
  exact congrArg some (Prod.ext String.ofList_toList String.ofList_toList)

/-! ### The column of bytes -/

section

variable {cs : List Char} {bs : List UInt8}

theorem spelling_cons (b : UInt8) (hs : Spelling bs cs) :
    Spelling (b :: bs) ((hexUpperPadded 2 b.toNat).toList ++ cs) := by
  have hlt := b.toNat_lt
  rw [hexUpperPadded, String.toList_ofList, leftpad_toDigits_byte _ rfl hlt]
  exact @Spelling.cons [] [] cs _ _ _ _ b bs .nil (by decide)
    (hexDigit?_toUpper_digitChar _ (by omega)) (hexDigit?_toUpper_digitChar _ (by omega))
    (Nat.div_add_mod' b.toNat 16).symm hs

/-- Pairs of digits with a blank between them are a spelling, with blanks at the end as well. -/
theorem spelling_intercalate (bs : List UInt8) (k : Nat) :
    Spelling bs ([' '].intercalate (bs.map fun b => (hexUpperPadded 2 b.toNat).toList) ++
      List.replicate k ' ') := by
  have hblanks : ∀ k, Gap (List.replicate k ' ') := fun k c hc =>
    Or.inl (by rw [List.eq_of_mem_replicate hc]; rfl)
  induction bs with
  | nil => exact .nil (hblanks k)
  | cons b bs ih =>
    cases bs with
    | nil =>
      rw [List.map_cons, List.map_nil, List.intercalate_singleton]
      exact spelling_cons b (.nil (hblanks k))
    | cons b' bs =>
      rw [List.map_cons, List.map_cons, List.intercalate_cons_cons, List.append_assoc,
        List.append_assoc]
      exact spelling_cons b (ih.gap_append (hblanks 1))

end

namespace Insn

theorem spelling_column (i : Insn) :
    Spelling i.bytes (Numeral.column 24 i.byteColumn).toList := by
  rw [Numeral.column, String.toList_ofList, List.rightpad, byteColumn, String.toList_intercalate,
    List.map_map]
  exact spelling_intercalate i.bytes _

/-! ### The columns of a line -/

/-- The mnemonic as the line has it. -/
def lineMnemonic (i : Insn) : String :=
  (i.text.map Rendering.mnemonic).getD "?"

/-- The operand text as the line has it. -/
def lineOperands (i : Insn) : String :=
  (i.text.map Rendering.opStr).getD ""

/-- The last column of the line. -/
def lineText (i : Insn) : String :=
  Numeral.column 6 i.lineMnemonic ++ (" " ++ i.lineOperands)

/-- **The columns are where the line is cut**, whatever the text is. -/
theorem cut_fullLine (i : Insn) : ∃ behind,
    splitOnce " | " i.fullLine = some (hexUpperPadded 8 i.address.toNat, behind) ∧
      splitOnce " | " behind = some (Numeral.column 24 i.byteColumn, i.lineText) := by
  have hline : i.fullLine = hexUpperPadded 8 i.address.toNat ++ (" | " ++
      (Numeral.column 24 i.byteColumn ++ (" | " ++ i.lineText))) := by
    simp only [fullLine, lineText, String.append_assoc]
    rfl
  have haddress : '|' ∉ (hexUpperPadded 8 i.address.toNat).toList := fun hbar => by
    obtain ⟨d, hd⟩ := hexDigit?_of_readFrom (readFrom_hexUpperPadded _ _) _ hbar
    cases hd
  -- The bar is in no spelling; the text in the last column may have it.
  have hbytes : '|' ∉ (Numeral.column 24 i.byteColumn).toList := fun hbar =>
    absurd (i.spelling_column.paired.alphabet _ hbar) (by decide)
  refine ⟨_, ?_, splitOnce_append (x := '|') (u := [' ']) (v := [' ']) rfl (by decide) hbytes _⟩
  rw [hline]
  exact splitOnce_append (x := '|') (u := [' ']) (v := [' ']) rfl (by decide) haddress _

theorem readAddress_column (i : Insn) :
    readAddress ("0x" ++ hexUpperPadded 8 i.address.toNat) = some i.address :=
  (readAddress_padded i.address (by decide) 8).2

/-- A mnemonic without blanks ends at the first blank of the last column. -/
theorem takeWhile_lineText (i : Insn) (h : ' ' ∉ i.lineMnemonic.toList) :
    i.lineText.toList.takeWhile (· != ' ') = i.lineMnemonic.toList := by
  -- Behind the mnemonic there is a blank, be it of the filling or the one behind it.
  have hblank : ∀ k, ∃ w, List.replicate k ' ' ++ ' ' :: i.lineOperands.toList = ' ' :: w := by
    intro k
    cases k with
    | zero => exact ⟨_, rfl⟩
    | succ k => exact ⟨_, rfl⟩
  obtain ⟨w, hw⟩ := hblank (6 - i.lineMnemonic.toList.length)
  have htext : i.lineText.toList = i.lineMnemonic.toList ++ ' ' :: w := by
    rw [lineText, Numeral.column, String.toList_append, String.toList_append, String.toList_ofList,
      List.rightpad, List.append_assoc, ← hw]
    rfl
  rw [htext, takeWhile_ne_append h]

/-- **The line says which instruction it is of.** -/
theorem eq_of_fullLine_eq {i j : Insn} (h : i.fullLine = j.fullLine) :
    i.address = j.address ∧ i.bytes = j.bytes ∧ i.lineText = j.lineText := by
  obtain ⟨behind, hi, hi'⟩ := i.cut_fullLine
  obtain ⟨behind', hj, hj'⟩ := j.cut_fullLine
  rw [h, hj, Option.some.injEq, Prod.mk.injEq] at hi
  obtain ⟨haddress, rfl⟩ := hi
  rw [hj', Option.some.injEq, Prod.mk.injEq] at hi'
  obtain ⟨hbytes, htext⟩ := hi'
  refine ⟨?_, ?_, htext.symm⟩
  · have hread := i.readAddress_column
    rw [← haddress, j.readAddress_column] at hread
    exact (Option.some.inj hread).symm
  · have hpaired := i.spelling_column.paired
    rw [← hbytes] at hpaired
    exact hpaired.unique j.spelling_column.paired

/-- The last column says what the mnemonic and the operands are, where no mnemonic has blanks. -/
theorem eq_of_lineText_eq {i j : Insn} (h : i.lineText = j.lineText)
    (hi : ' ' ∉ i.lineMnemonic.toList) (hj : ' ' ∉ j.lineMnemonic.toList) :
    i.lineMnemonic = j.lineMnemonic ∧ i.lineOperands = j.lineOperands := by
  have hmnemonic : i.lineMnemonic = j.lineMnemonic := by
    rw [← String.toList_inj, ← i.takeWhile_lineText hi, h, j.takeWhile_lineText hj]
  rw [lineText, lineText, hmnemonic] at h
  have hrest := (String.append_right_inj _).mp h
  exact ⟨hmnemonic, (String.append_right_inj _).mp hrest⟩

end Insn

/-! ### All texts -/

/-- An address in marked hexadecimal ends at the first colon, and is read back. -/
theorem marked_reads_back (a : UInt64) (rest : String) : ∃ address behind,
    splitOnce ":" (marked a.toNat ++ (":" ++ rest)) = some (address, behind) ∧
      readAddress address = some a := by
  have hno : ':' ∉ (marked a.toNat).toList := fun hcolon => by
    rw [marked, String.toList_append] at hcolon
    rcases List.mem_append.mp hcolon with hmark | hdigit
    · exact absurd hmark (by decide)
    · obtain ⟨d, hd⟩ := hexDigit?_of_readFrom (readFrom_hex _) _ hdigit
      cases hd
  exact ⟨marked a.toNat, rest,
    splitOnce_append (x := ':') (u := []) (v := []) rfl (by decide) hno rest,
    readAddress_of_positional (by decide)
      ((positional_iff (by decide)).mpr ⟨hex_ne_nil _, readFrom_hex _⟩)⟩

/-- **Lines are read back.**  Instructions with the same line have the same address and bytes, and
the same mnemonic and operands where the mnemonics have no blanks; the readers of addresses and of
machine code give the address and the bytes again, from the line and from the shorter texts. -/
theorem Insn.fullLine_reads_back :
    (∀ i j : Insn, i.fullLine = j.fullLine →
      i.address = j.address ∧ i.size = j.size ∧ i.bytes = j.bytes ∧
        (' ' ∉ i.lineMnemonic.toList → ' ' ∉ j.lineMnemonic.toList →
          i.lineMnemonic = j.lineMnemonic ∧ i.lineOperands = j.lineOperands)) ∧
    (∀ i : Insn, ∃ address behind column text,
      splitOnce " | " i.fullLine = some (address, behind) ∧
      splitOnce " | " behind = some (column, text) ∧
      readAddress ("0x" ++ address) = some i.address ∧
      (i.bytes ≠ [] → readCode column = .ok i.bytes)) ∧
    (∀ i : Insn, ∃ address rest, splitOnce ":" i.display = some (address, rest) ∧
      readAddress address = some i.address) ∧
    ∀ i : LiteInsn, ∃ address rest, splitOnce ":" i.display = some (address, rest) ∧
      readAddress address = some i.address := by
  have hcolon : ":\t" = ":" ++ "\t" := rfl
  refine ⟨fun i j h => ?_, fun i => ?_, fun i => ?_, fun i => ?_⟩
  · obtain ⟨haddress, hbytes, htext⟩ := Insn.eq_of_fullLine_eq h
    exact ⟨haddress, congrArg List.length hbytes, hbytes, Insn.eq_of_lineText_eq htext⟩
  · obtain ⟨behind, hfirst, hsecond⟩ := i.cut_fullLine
    exact ⟨_, behind, _, _, hfirst, hsecond, i.readAddress_column, fun hne =>
      readCode_ok_iff.mpr ⟨hne, i.spelling_column.paired⟩⟩
  · rw [Insn.display, Insn.marked, hcolon, String.append_assoc, String.append_assoc]
    exact marked_reads_back i.address _
  · rw [LiteInsn.display, hcolon]
    simp only [String.append_assoc]
    exact marked_reads_back i.address _

/-- Two records of one instruction that differ in what the line does not say. -/
theorem Insn.fullLine_reads_back_lea :
    let i : Insn := ⟨322, 0x1000, [0x8D, 0x4C, 0x32, 0x08],
      some ⟨"lea", "ecx, dword ptr [edx + esi + 8]"⟩, .x86, none⟩
    let j : Insn := { i with id := 0 }
    i.fullLine = "00001000 | 8D 4C 32 08              | lea    ecx, dword ptr [edx + esi + 8]" ∧
      (i.lineMnemonic = j.lineMnemonic ∧ i.lineOperands = j.lineOperands) ∧
      ∃ address behind column text, splitOnce " | " i.fullLine = some (address, behind) ∧
        splitOnce " | " behind = some (column, text) ∧
        readAddress ("0x" ++ address) = some 0x1000 ∧
        readCode column = .ok [0x8D, 0x4C, 0x32, 0x08] := by
  intro i j
  obtain ⟨-, -, -, htext⟩ := Insn.fullLine_reads_back.1 i j rfl
  obtain ⟨address, behind, column, text, hfirst, hsecond, haddress, hcode⟩ :=
    Insn.fullLine_reads_back.2.1 i
  exact ⟨by decide, htext (by decide) (by decide),
    address, behind, column, text, hfirst, hsecond, haddress, hcode (by decide)⟩

end Disassembly

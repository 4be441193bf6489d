import Disassembly.CommandLine.Address
import Disassembly.Proofs.Text.Positional
import Disassembly.Text.Numeral
import Mathlib.Data.List.TakeWhile

/-!
# The grammar of addresses

An address is an unsigned number, in base sixteen behind a marker and in base ten without one, with
blanks around it that do not count.  The grammar says so without the reader, and the reader accepts
exactly what the grammar has: no other spelling, and of the numbers only those of 64 bits.

* `Around`, `around_iff` — blanks around a text, and that they are what is trimmed;
* `Address` — the grammar; `readAddress_eq_some_iff`, the reader follows it on a trimmed text;
* `Denotes`, `readAddress_iff` — the same with the blanks;
* `Faulty`, `Faulty.readAddress_eq_none` — what the grammar does not have, and is refused;
* `readAddress_padded`, `readAddress_decimal` — every way in which an address is written;
* `address_grammar` — all of it together.
-/

namespace Disassembly.CommandLine

open Numeral

variable {n k : Nat} {marker cs : List Char}

/-! ### Blanks around a text -/

/-- Nothing but blanks. -/
def Blank (cs : List Char) : Prop :=
  ∀ c ∈ cs, isBlank c = true

theorem Blank.nil : Blank [] := fun _ hc =>
  absurd hc List.not_mem_nil

/-- A text is `cs` with blanks around it. -/
def Around (text : String) (cs : List Char) : Prop :=
  ∃ before behind, text.toList = before ++ cs ++ behind ∧ Blank before ∧ Blank behind

theorem dropBlanks_eq_self (h : ∀ c ∈ cs, isBlank c = false) : dropBlanks cs = cs := by
  cases cs with
  | nil => rfl
  | cons c cs =>
    refine List.dropWhile_cons_of_neg ?_
    rw [h c List.mem_cons_self]
    exact Bool.false_ne_true

theorem dropBlanks_append {before : List Char} (h : Blank before) (cs : List Char) :
    dropBlanks (before ++ cs) = dropBlanks cs :=
  List.dropWhile_append_of_pos h

/-- Of a text without blanks nothing is trimmed but what is around it. -/
theorem trimBlanks_append {before behind : List Char} (hbefore : Blank before)
    (hbehind : Blank behind) (h : ∀ c ∈ cs, isBlank c = false) :
    trimBlanks (before ++ cs ++ behind) = cs := by
  have hreverse : Blank behind.reverse := fun c hc => hbehind c (List.mem_reverse.mp hc)
  have hcs : dropBlanks cs.reverse = cs.reverse :=
    dropBlanks_eq_self fun c hc => h c (List.mem_reverse.mp hc)
  rw [trimBlanks, List.append_assoc, dropBlanks_append hbefore]
  cases cs with
  | nil =>
    rw [List.nil_append, ← List.append_nil behind, dropBlanks_append hbehind]
    rfl
  | cons c cs =>
    have hfirst : dropBlanks (c :: cs ++ behind) = c :: cs ++ behind := by
      refine List.dropWhile_cons_of_neg ?_
      rw [h c List.mem_cons_self]
      exact Bool.false_ne_true
    rw [hfirst, List.reverse_append, dropBlanks_append hreverse, hcs, List.reverse_reverse]

/-- What is trimmed are blanks. -/
theorem around_trimBlanks (text : String) : Around text (trimBlanks text.toList) := by
  have hblank : ∀ ds : List Char, Blank (ds.takeWhile isBlank) := fun ds c hc =>
    List.mem_takeWhile_imp hc
  have hcut : ∀ ds : List Char, ds = ds.takeWhile isBlank ++ dropBlanks ds := fun ds =>
    List.takeWhile_append_dropWhile.symm
  refine ⟨_, ((dropBlanks text.toList).reverse.takeWhile isBlank).reverse, ?_,
    hblank text.toList, fun c hc => hblank _ c (List.mem_reverse.mp hc)⟩
  rw [trimBlanks, List.append_assoc, ← List.reverse_append, ← hcut, List.reverse_reverse, ← hcut]

/-- A text without blanks is what another is around exactly if that is trimmed to it. -/
theorem around_iff (h : ∀ c ∈ cs, isBlank c = false) {text : String} :
    Around text cs ↔ trimBlanks text.toList = cs := by
  constructor
  · rintro ⟨before, behind, htext, hbefore, hbehind⟩
    rw [htext, trimBlanks_append hbefore hbehind h]
  · rintro rfl
    exact around_trimBlanks text

/-! ### The grammar -/

/-- The markers of base sixteen. -/
def hexMarkers : List (List Char) :=
  [['0', 'x'], ['0', 'X']]

/-- Characters that are written for a number: in base sixteen behind a marker, or in base ten. -/
inductive Address : List Char → Nat → Prop where
  | hex {marker cs : List Char} {n : Nat} (hmarker : marker ∈ hexMarkers) (h : Unsigned 16 cs n) :
    Address (marker ++ cs) n
  | decimal {cs : List Char} {n : Nat} (h : Unsigned 10 cs n) : Address cs n

/-- No number begins with a marker. -/
theorem not_unsigned_of_marker {base : Nat} (hbase : base ≤ 16) (hmarker : marker ∈ hexMarkers) :
    ¬ Unsigned base (marker ++ cs) n := by
  intro h
  have hsecond : ∃ c ∈ marker, c ≠ '+' ∧ hexDigit? c = none := by
    simp only [hexMarkers, List.mem_cons, List.not_mem_nil, or_false] at hmarker
    rcases hmarker with rfl | rfl
    · exact ⟨'x', by decide, by decide, rfl⟩
    · exact ⟨'X', by decide, by decide, rfl⟩
  obtain ⟨c, hc, hplus, hnone⟩ := hsecond
  rcases h.alphabet hbase c (List.mem_append_left _ hc) with rfl | ⟨d, hd⟩
  · exact hplus rfl
  · rw [hnone] at hd
    cases hd

/-- Behind a marker there is a number in base sixteen. -/
theorem address_marked (hmarker : marker ∈ hexMarkers) :
    Address (marker ++ cs) n ↔ Unsigned 16 cs n := by
  have hlength : ∀ m ∈ hexMarkers, m.length = 2 := by decide
  constructor
  · intro h
    generalize htext : marker ++ cs = text at h
    cases h with
    | hex hmarker' h' =>
      have hsame := List.append_inj htext ((hlength _ hmarker).trans (hlength _ hmarker').symm)
      exact hsame.2 ▸ h'
    | decimal h' => exact absurd (htext ▸ h') (not_unsigned_of_marker (by decide) hmarker)
  · exact .hex hmarker

/-- Without a marker there is a number in base ten. -/
theorem address_unmarked (hno : ∀ marker ∈ hexMarkers, ¬ marker <+: cs) :
    Address cs n ↔ Unsigned 10 cs n := by
  constructor
  · intro h
    cases h with
    | hex hmarker h' => exact absurd (List.prefix_append _ _) (hno _ hmarker)
    | decimal h' => exact h'
  · exact .decimal

/-- **The reader follows the grammar**, on the trimmed text and for numbers of 64 bits. -/
theorem readAddress_eq_some_iff {text : String} {a : UInt64} :
    readAddress text = some a ↔ Address (trimBlanks text.toList) a.toNat := by
  rw [readAddress]
  generalize trimBlanks text.toList = cs
  split
  · next digits =>
    exact (readUnsigned_eq_some_iff (by decide)).trans
      (address_marked (show ['0', 'x'] ∈ hexMarkers by decide)).symm
  · next digits =>
    exact (readUnsigned_eq_some_iff (by decide)).trans
      (address_marked (show ['0', 'X'] ∈ hexMarkers by decide)).symm
  · next hlower hupper =>
    have hno : ∀ marker ∈ hexMarkers, ¬ marker <+: cs := by
      intro marker hmarker
      simp only [hexMarkers, List.mem_cons, List.not_mem_nil, or_false] at hmarker
      rintro ⟨rest, rfl⟩
      rcases hmarker with rfl | rfl
      · exact hlower rest rfl
      · exact hupper rest rfl
    exact (readUnsigned_eq_some_iff (by decide)).trans (address_unmarked hno).symm

/-! ### What the grammar does not have -/

namespace Address

/-- An address has digits, and besides them the characters of one marker and one sign. -/
theorem alphabet (h : Address cs n) :
    ∀ c ∈ cs, c ∈ ['0', 'x', 'X', '+'] ∨ ∃ d, hexDigit? c = some d := by
  have hunsigned : ∀ {base cs n}, base ≤ 16 → Unsigned base cs n →
      ∀ c ∈ cs, c ∈ ['0', 'x', 'X', '+'] ∨ ∃ d, hexDigit? c = some d := fun hbase h c hc =>
    (h.alphabet hbase c hc).imp_left fun hplus => by
      rw [hplus]
      decide
  cases h with
  | hex hmarker h =>
    have hall : ∀ marker ∈ hexMarkers, ∀ c ∈ marker, c ∈ ['0', 'x', 'X', '+'] := by decide
    exact List.forall_mem_append.mpr
      ⟨fun c hc => Or.inl (hall _ hmarker c hc), hunsigned (by decide) h⟩
  | decimal h => exact hunsigned (by decide) h

theorem not_mem (h : Address cs n) {c : Char} (hmark : c ∉ ['0', 'x', 'X', '+'])
    (hdigit : hexDigit? c = none) : c ∉ cs := by
  intro hc
  rcases h.alphabet c hc with hmem | ⟨d, hd⟩
  · exact hmark hmem
  · rw [hdigit] at hd
    cases hd

theorem isBlank_eq_false (h : Address cs n) : ∀ c ∈ cs, isBlank c = false := by
  intro c hc
  rcases h.alphabet c hc with hmem | ⟨d, hd⟩
  · have hall : ∀ c ∈ ['0', 'x', 'X', '+'], isBlank c = false := by decide
    exact hall c hmem
  · exact isBlank_of_hexDigit hd

/-- An address is of one number only. -/
theorem unique (hn : Address cs n) (hk : Address cs k) : n = k := by
  cases hn with
  | hex hmarker hn => exact hn.unique (by decide) ((address_marked hmarker).mp hk)
  | decimal hn =>
    cases hk with
    | hex hmarker hk => exact absurd hn (not_unsigned_of_marker (by decide) hmarker)
    | decimal hk => exact hn.unique (by decide) hk

end Address

/-- A marker and a sign are no address without digits behind them. -/
theorem not_address_of_no_digits {sign : List Char} (hmarker : marker ∈ [] :: hexMarkers)
    (hsign : sign ∈ [[], ['+']]) : ¬ Address (marker ++ sign) n := by
  have hnone : ∀ base ≤ 16, ¬ Unsigned base sign n := by
    intro base hbase h
    have hdrop : ∀ sign ∈ [[], ['+']], dropPlus sign = [] := by decide
    rw [unsigned_iff hbase, hdrop sign hsign, positional_iff hbase] at h
    exact h.1 rfl
  rcases List.mem_cons.mp hmarker with rfl | hmarker
  · have hno : ∀ sign ∈ [[], ['+']], ∀ marker ∈ hexMarkers, ¬ marker <+: sign := by decide
    exact fun h => hnone 10 (by decide) ((address_unmarked (hno sign hsign)).mp h)
  · exact fun h => hnone 16 (by decide) ((address_marked hmarker).mp h)

/-! ### The grammar with blanks -/

/-- A text is an address of a number, with blanks around it. -/
def Denotes (text : String) (n : Nat) : Prop :=
  ∃ cs, Around text cs ∧ Address cs n

theorem denotes_iff {text : String} : Denotes text n ↔ Address (trimBlanks text.toList) n := by
  constructor
  · rintro ⟨cs, haround, h⟩
    rwa [(around_iff h.isBlank_eq_false).mp haround]
  · exact fun h => ⟨_, around_trimBlanks text, h⟩

/-- **What is read is what is denoted**, exactly if that is a number of 64 bits. -/
theorem readAddress_iff {text : String} {a : UInt64} :
    readAddress text = some a ↔ Denotes text a.toNat :=
  readAddress_eq_some_iff.trans denotes_iff.symm

theorem readAddress_eq_none_iff {text : String} :
    readAddress text = none ↔ ∀ n, Denotes text n → UInt64.size ≤ n := by
  rw [Option.eq_none_iff_forall_not_mem]
  constructor
  · intro h n hn
    by_contra hsmall
    have hword : (UInt64.ofNat n).toNat = n := by
      rw [UInt64.toNat_ofNat', Nat.mod_eq_of_lt (Nat.lt_of_not_le hsmall)]
    exact h (UInt64.ofNat n) (readAddress_iff.mpr (hword.symm ▸ hn))
  · intro h a ha
    exact absurd (h a.toNat (readAddress_iff.mp ha)) (Nat.not_le_of_lt a.toNat_lt)

/-- A text that is an address of something is that with blanks around it, and has none inside. -/
theorem Denotes.blank_of_append {text : String} {u v : List Char} {b : Char} (h : Denotes text n)
    (htext : text.toList = u ++ b :: v) (hb : isBlank b = true) : Blank u ∨ Blank v := by
  obtain ⟨cs, ⟨before, behind, hcut, hbefore, hbehind⟩, haddress⟩ := h
  have hnot : b ∉ cs := fun hmem => by
    rw [haddress.isBlank_eq_false b hmem] at hb
    cases hb
  rw [hcut, List.append_assoc, List.append_eq_append_iff] at htext
  -- The blank is one of those in front, or one of those behind.
  rcases htext with ⟨middle, -, hrest⟩ | ⟨middle, rfl, -⟩
  · rcases List.append_eq_append_iff.mp hrest with ⟨last, -, rfl⟩ | ⟨last, rfl, hlast⟩
    · exact Or.inr fun c hc => hbehind c (List.mem_append_right _ (List.mem_cons_of_mem b hc))
    · cases last with
      | nil =>
        rw [List.nil_append] at hlast
        exact Or.inr fun c hc => hbehind c (hlast ▸ List.mem_cons_of_mem b hc)
      | cons c last =>
        obtain rfl := (List.cons.inj hlast).1
        exact absurd (List.mem_append_right _ List.mem_cons_self) hnot
  · exact Or.inl fun c hc => hbefore c (List.mem_append_left _ hc)

/-- What is no blank belongs to the address. -/
theorem Around.mem {text : String} {c : Char} (h : Around text cs) (hc : c ∈ text.toList)
    (hblank : isBlank c = false) : c ∈ cs := by
  obtain ⟨before, behind, htext, hbefore, hbehind⟩ := h
  have hnot : ∀ {ds}, Blank ds → c ∉ ds := fun hds hmem =>
    Bool.false_ne_true (hblank.symm.trans (hds c hmem))
  rw [htext, List.append_assoc, List.mem_append, List.mem_append] at hc
  exact (hc.resolve_left (hnot hbefore)).resolve_right (hnot hbehind)

/-- A letter of a marker. -/
def isCross (c : Char) : Bool :=
  c == 'x' || c == 'X'

/-- There is one marker at most. -/
theorem Address.countP_cross_le (h : Address cs n) : cs.countP isCross ≤ 1 := by
  have hnone : ∀ {base cs n}, base ≤ 16 → Unsigned base cs n → cs.countP isCross = 0 := by
    intro base cs n hbase h
    refine List.countP_eq_zero.mpr fun c hc hcross => ?_
    rcases h.alphabet hbase c hc with rfl | ⟨d, hd⟩
    · exact absurd hcross (by decide)
    · rcases Bool.or_eq_true_iff.mp hcross with hx | hx
      · rw [eq_of_beq hx] at hd
        cases hd
      · rw [eq_of_beq hx] at hd
        cases hd
  cases h with
  | hex hmarker h =>
    have hone : ∀ marker ∈ hexMarkers, marker.countP isCross = 1 := by decide
    rw [List.countP_append, hone _ hmarker, hnone (by decide) h]
  | decimal h =>
    rw [hnone (by decide) h]
    exact Nat.zero_le 1

theorem Around.countP_cross {text : String} (h : Around text cs) :
    text.toList.countP isCross = cs.countP isCross := by
  obtain ⟨before, behind, htext, hbefore, hbehind⟩ := h
  have hnone : ∀ {ds}, Blank ds → ds.countP isCross = 0 := by
    intro ds hds
    refine List.countP_eq_zero.mpr fun c hc hcross => ?_
    have hblank := hds c hc
    rcases Bool.or_eq_true_iff.mp hcross with hx | hx
    · rw [eq_of_beq hx] at hblank
      cases hblank
    · rw [eq_of_beq hx] at hblank
      cases hblank
  rw [htext, List.countP_append, List.countP_append, hnone hbefore, hnone hbehind, Nat.zero_add,
    Nat.add_zero]

/-- Texts that are no address, each for a fault of its own. -/
inductive Faulty (text : String) : Prop where
  | tooLarge {n : Nat} (h : Denotes text n) (hn : UInt64.size ≤ n)
  | minusSign (h : '-' ∈ text.toList)
  /-- There is a blank with something else on both sides. -/
  | blankInside {u v : List Char} {b : Char} (htext : text.toList = u ++ b :: v)
    (hb : isBlank b = true) (hu : ¬ Blank u) (hv : ¬ Blank v)
  | noDigits {marker sign : List Char} (hmarker : marker ∈ [] :: hexMarkers)
    (hsign : sign ∈ [[], ['+']]) (h : Around text (marker ++ sign))
  | doubled {before marker marker' rest : List Char} (hmarker : marker ∈ hexMarkers)
    (hmarker' : marker' ∈ hexMarkers) (htext : text.toList = before ++ marker ++ marker' ++ rest)

/-- **What is faulty is not read**, whatever the fault. -/
theorem Faulty.readAddress_eq_none {text : String} (h : Faulty text) :
    readAddress text = none := by
  rw [readAddress_eq_none_iff]
  intro n hn
  cases h with
  | tooLarge h hlarge =>
    rw [(denotes_iff.mp hn).unique (denotes_iff.mp h)]
    exact hlarge
  | minusSign hminus =>
    obtain ⟨cs, haround, haddress⟩ := hn
    exact absurd (haround.mem hminus rfl) (haddress.not_mem (by decide) rfl)
  | blankInside htext hb hu hv =>
    rcases hn.blank_of_append htext hb with hblank | hblank
    · exact absurd hblank hu
    · exact absurd hblank hv
  | @noDigits marker sign hmarker hsign haround =>
    have hall : ∀ marker ∈ [] :: hexMarkers, ∀ sign ∈ [[], ['+']], ∀ c ∈ marker ++ sign,
        isBlank c = false := by decide
    have haddress := denotes_iff.mp hn
    rw [(around_iff (hall marker hmarker sign hsign)).mp haround] at haddress
    exact absurd haddress (not_address_of_no_digits hmarker hsign)
  | doubled hmarker hmarker' htext =>
    obtain ⟨cs, haround, haddress⟩ := hn
    have hone : ∀ marker ∈ hexMarkers, marker.countP isCross = 1 := by decide
    have hcount := haround.countP_cross
    rw [htext, List.countP_append, List.countP_append, List.countP_append, hone _ hmarker,
      hone _ hmarker'] at hcount
    have hle := haddress.countP_cross_le
    omega

/-! ### Addresses as they are written -/

theorem Address.readAddress_eq {a : UInt64} (h : Address cs a.toNat) :
    readAddress (String.ofList cs) = some a :=
  readAddress_iff.mpr ⟨cs, ⟨[], [], by simp, Blank.nil, Blank.nil⟩, h⟩

/-- Digits behind a marker are read as an address. -/
theorem readAddress_of_positional {mark digits : String} {a : UInt64} (hmark : mark ∈ ["0x", "0X"])
    (h : Positional 16 digits.toList a.toNat) : readAddress (mark ++ digits) = some a := by
  have hmarker : ∀ mark ∈ ["0x", "0X"], mark.toList ∈ hexMarkers := by decide
  have haddress := Address.readAddress_eq (Address.hex (hmarker mark hmark) (.plain h))
  rwa [← String.toList_append, String.ofList_toList] at haddress

/-- **Every address is read back** from its hexadecimal digits, of either case and behind any number
of zeros. -/
theorem readAddress_padded (a : UInt64) {mark : String} (hmark : mark ∈ ["0x", "0X"])
    (width : Nat) : readAddress (mark ++ hexPadded width a.toNat) = some a ∧
      readAddress (mark ++ hexUpperPadded width a.toNat) = some a := by
  have hlower := positional_leftpad (by decide) (Nat.le_refl 16) width (Or.inl rfl) a.toNat
  have hupper := positional_leftpad (by decide) (Nat.le_refl 16) width (Or.inr rfl) a.toNat
  rw [List.map_id] at hlower
  constructor
  · refine readAddress_of_positional hmark ?_
    rwa [hexPadded, String.toList_ofList]
  · refine readAddress_of_positional hmark ?_
    rwa [hexUpperPadded, String.toList_ofList]

/-- From its decimal digits as well. -/
theorem readAddress_decimal (a : UInt64) : readAddress (toString a.toNat) = some a := by
  have hdigits := positional_leftpad (show 1 < 10 by decide) (by decide) 0 (Or.inl rfl) a.toNat
  rw [List.map_id, List.leftpad, Nat.zero_sub, List.replicate_zero, List.nil_append] at hdigits
  exact Address.readAddress_eq (.decimal (.plain hdigits))

/-- **The grammar of addresses.**  A text is read as a number exactly if it denotes that number,
which is of 64 bits; it denotes one number at most, and if it denotes none of 64 bits, it is refused,
as are the faulty texts in particular.  So every address is read back from its digits. -/
theorem address_grammar :
    (∀ text a, readAddress text = some a ↔ Denotes text a.toNat) ∧
    (∀ text n k, Denotes text n → Denotes text k → n = k) ∧
    (∀ text, readAddress text = none ↔ ∀ n, Denotes text n → UInt64.size ≤ n) ∧
    (∀ text, Faulty text → readAddress text = none) ∧
    ∀ a : UInt64, readAddress (toString a.toNat) = some a ∧
      ∀ mark ∈ ["0x", "0X"], ∀ width, readAddress (mark ++ hexPadded width a.toNat) = some a ∧
        readAddress (mark ++ hexUpperPadded width a.toNat) = some a :=
  ⟨fun _ _ => readAddress_iff,
    fun _ _ _ hn hk => (denotes_iff.mp hn).unique (denotes_iff.mp hk),
    fun _ => readAddress_eq_none_iff, fun _ h => h.readAddress_eq_none,
    fun a => ⟨readAddress_decimal a, fun _ hmark => readAddress_padded a hmark⟩⟩

/-- An address with a sign, zeros and letters of both cases, and blanks of two kinds around it; the
first number that is too large; and two markers in a row. -/
theorem address_grammar_edges :
    Denotes "\t0X+00fF\u00a0" 255 ∧ readAddress "\t0X+00fF\u00a0" = some 255 ∧
      Faulty "18446744073709551616" ∧ readAddress "18446744073709551616" = none ∧
      Faulty "0x0X10" ∧ readAddress "0x0X10" = none := by
  have hsmall : Denotes "\t0X+00fF\u00a0" 255 := by
    have haround : Around "\t0X+00fF\u00a0" "0X+00fF".toList :=
      ⟨['\t'], ['\u00a0'], rfl, by unfold Blank; decide, by unfold Blank; decide⟩
    have hdigits : Positional 16 "00fF".toList 255 :=
      (positional_iff (by decide)).mpr ⟨by decide, by decide⟩
    exact ⟨_, haround, .hex (show ['0', 'X'] ∈ hexMarkers by decide) (.plus hdigits)⟩
  have hlarge : Faulty "18446744073709551616" := by
    have hdigits : Positional 10 "18446744073709551616".toList (2 ^ 64) :=
      (positional_iff (by decide)).mpr ⟨by decide, by decide⟩
    exact .tooLarge ⟨_, ⟨[], [], rfl, Blank.nil, Blank.nil⟩, .decimal (.plain hdigits)⟩ (by decide)
  have hdoubled : Faulty "0x0X10" :=
    .doubled (show ['0', 'x'] ∈ hexMarkers by decide) (show ['0', 'X'] ∈ hexMarkers by decide)
      (show "0x0X10".toList = [] ++ ['0', 'x'] ++ ['0', 'X'] ++ ['1', '0'] from rfl)
  exact ⟨hsmall, (address_grammar.1 _ 255).mpr hsmall,
    hlarge, address_grammar.2.2.2.1 _ hlarge, hdoubled, address_grammar.2.2.2.1 _ hdoubled⟩

end Disassembly.CommandLine

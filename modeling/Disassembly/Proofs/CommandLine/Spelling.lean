import Disassembly.CommandLine.MachineCode
import Disassembly.Proofs.Text.Digits
import Disassembly.Proofs.Text.RoundTrip

/-!
# Spellings of machine code

Bytes may be written in many ways: as pairs of digits of either case, each with a marker in front or
without, with blanks and commas anywhere between them.  Reading takes the markers out first, each
kind all over the text, so that it has to be shown that this takes out markers and nothing else.

* `pairs_induction` — the induction that taking pairs out goes along;
* `dropPairs_append`, `dropPairs_eq_append_singleton` — taking pairs out of a text, on both sides
  of a place that cuts no pair, and what was left at the end;
* `Paired`, `readCode_ok_iff` — reading succeeds exactly if what is left are pairs of digits, at
  least one, and gives the bytes that these are;
* `Spelling` — the ways to write bytes; `Spelling.paired` — of each the pairs of digits are left;
* `Plain` — what can be said of a text that is read; `plain_of_paired`;
* `code_spellings` — every spelling is read, and what is read is plain.
-/

namespace Disassembly.CommandLine

open Numeral

/-! ### Taking pairs out -/

section

variable {a b c : Char} {cs ds : List Char}

theorem dropPairs_pair (a b : Char) (cs : List Char) :
    dropPairs a b (a :: b :: cs) = dropPairs a b cs := by
  rw [dropPairs, if_pos ⟨rfl, rfl⟩]

/-- A character stays if no pair begins with it. -/
theorem dropPairs_cons (h : ¬ (c = a ∧ cs.head? = some b)) :
    dropPairs a b (c :: cs) = c :: dropPairs a b cs := by
  cases cs with
  | nil => rfl
  | cons d cs =>
    rw [dropPairs, if_neg fun hpair => h ⟨hpair.1, congrArg some hpair.2⟩]

/-- A text is made of pairs, and of characters with which no pair begins. -/
theorem pairs_induction {motive : List Char → Prop} (nil : motive [])
    (pair : ∀ cs, motive cs → motive (a :: b :: cs))
    (cons : ∀ c cs, ¬ (c = a ∧ cs.head? = some b) → motive cs → motive (c :: cs))
    (cs : List Char) : motive cs := by
  induction cs using dropPairs.induct a b with
  | case1 x y r hpair ih =>
    obtain ⟨rfl, rfl⟩ := hpair
    exact pair r ih
  | case2 x y r hpair ih =>
    exact cons x (y :: r) (fun hp => hpair ⟨hp.1, Option.some.inj hp.2⟩) ih
  | case3 r hshort =>
    cases r with
    | nil => exact nil
    | cons x r =>
      cases r with
      | nil => exact cons x [] (fun hp => nomatch hp.2) nil
      | cons y r => exact absurd rfl (hshort x y r)

/-- Texts can be cut where that cuts no pair. -/
theorem dropPairs_append (h : ¬ (cs.getLast? = some a ∧ ds.head? = some b)) :
    dropPairs a b (cs ++ ds) = dropPairs a b cs ++ dropPairs a b ds := by
  have hbehind : ∀ {c cs}, ¬ ((c :: cs).getLast? = some a ∧ ds.head? = some b) →
      ¬ (cs.getLast? = some a ∧ ds.head? = some b) := fun h hpair =>
    h ⟨by rw [List.getLast?_cons, hpair.1, Option.getD_some], hpair.2⟩
  induction cs using pairs_induction (a := a) (b := b) with
  | nil => rfl
  | pair cs ih =>
    rw [List.cons_append, List.cons_append, dropPairs_pair, dropPairs_pair]
    exact ih (hbehind (hbehind h))
  | cons c cs hno ih =>
    have hno' : ¬ (c = a ∧ (cs ++ ds).head? = some b) := by
      cases cs with
      | nil => exact fun hpair => h ⟨congrArg some hpair.1, hpair.2⟩
      | cons c' cs => exact hno
    rw [List.cons_append, dropPairs_cons hno', dropPairs_cons hno, ih (hbehind h),
      List.cons_append]

/-- Nothing is taken out of a text in which no pair begins. -/
theorem dropPairs_eq_self (h : a ∉ cs) : dropPairs a b cs = cs := by
  induction cs with
  | nil => rfl
  | cons c cs ih =>
    rw [List.mem_cons, not_or] at h
    rw [dropPairs_cons fun hpair => h.1 hpair.1.symm, ih h.2]

theorem dropPairs_append_of_not_mem (h : a ∉ cs) :
    dropPairs a b (cs ++ ds) = cs ++ dropPairs a b ds := by
  rw [dropPairs_append fun hpair => h (List.mem_of_getLast? hpair.1), dropPairs_eq_self h]

theorem dropPairs_sublist (a b : Char) (cs : List Char) : (dropPairs a b cs).Sublist cs := by
  induction cs using pairs_induction (a := a) (b := b) with
  | nil => exact .slnil
  | pair cs ih =>
    rw [dropPairs_pair]
    exact (ih.cons b).cons a
  | cons c cs hno ih =>
    rw [dropPairs_cons hno]
    exact ih.cons_cons c

/-- Only the two characters of a pair are ever taken out. -/
theorem mem_dropPairs (h : c ∈ cs) : c ∈ dropPairs a b cs ∨ c = a ∨ c = b := by
  induction cs using pairs_induction (a := a) (b := b) with
  | nil => cases h
  | pair cs ih =>
    rw [dropPairs_pair]
    rw [List.mem_cons, List.mem_cons] at h
    rcases h with rfl | rfl | h
    · exact Or.inr (Or.inl rfl)
    · exact Or.inr (Or.inr rfl)
    · exact ih h
  | cons c' cs hno ih =>
    rw [dropPairs_cons hno]
    rcases List.mem_cons.mp h with rfl | h
    · exact Or.inl List.mem_cons_self
    · exact (ih h).imp_left (List.mem_cons_of_mem c')

/-- A character stays if it neither begins a pair nor ends one. -/
theorem mem_dropPairs_append_cons (hends : ¬ (cs.getLast? = some a ∧ c = b))
    (hbegins : ¬ (c = a ∧ ds.head? = some b)) : c ∈ dropPairs a b (cs ++ c :: ds) := by
  have hcut : ¬ (cs.getLast? = some a ∧ (c :: ds).head? = some b) := fun hpair =>
    hends ⟨hpair.1, Option.some.inj hpair.2⟩
  rw [dropPairs_append hcut, dropPairs_cons hbegins]
  exact List.mem_append_right _ List.mem_cons_self

/-- A text of which nothing is left is made of pairs. -/
theorem dropPairs_eq_nil (h : dropPairs a b cs = []) :
    ∃ n, cs = (List.replicate n [a, b]).flatten := by
  induction cs using pairs_induction (a := a) (b := b) with
  | nil => exact ⟨0, rfl⟩
  | pair cs ih =>
    rw [dropPairs_pair] at h
    obtain ⟨n, rfl⟩ := ih h
    exact ⟨n + 1, rfl⟩
  | cons c cs hno ih =>
    rw [dropPairs_cons hno] at h
    cases h

/-- What is left at the end of a text stands in it before nothing but pairs. -/
theorem dropPairs_eq_append_singleton (h : dropPairs a b cs = ds ++ [c]) :
    ∃ start n, cs = start ++ c :: (List.replicate n [a, b]).flatten := by
  induction cs using pairs_induction (a := a) (b := b) generalizing ds with
  | nil => exact absurd h.symm (List.append_ne_nil_of_right_ne_nil ds (List.cons_ne_nil c []))
  | pair cs ih =>
    rw [dropPairs_pair] at h
    obtain ⟨start, n, rfl⟩ := ih h
    exact ⟨a :: b :: start, n, rfl⟩
  | cons c' cs hno ih =>
    rw [dropPairs_cons hno] at h
    cases ds with
    | nil =>
      obtain ⟨rfl, hrest⟩ := List.cons.inj h
      obtain ⟨n, hn⟩ := dropPairs_eq_nil hrest
      exact ⟨[], n, congrArg (c' :: ·) hn⟩
    | cons d ds =>
      obtain ⟨-, hrest⟩ := List.cons.inj h
      obtain ⟨start, n, hn⟩ := ih hrest
      exact ⟨c' :: start, n, congrArg (c' :: ·) hn⟩

end

/-! ### Pairs of digits -/

/-- Pairs of digits, and the bytes that they stand for. -/
inductive Paired : List Char → List UInt8 → Prop where
  | nil : Paired [] []
  | cons {high low : Char} {h l : Nat} {cs : List Char} {bs : List UInt8}
    (hhigh : hexDigit? high = some h) (hlow : hexDigit? low = some l) (hrest : Paired cs bs) :
    Paired (high :: low :: cs) (UInt8.ofNat (h * 16 + l) :: bs)

namespace Paired

variable {cs : List Char} {bs bs' : List UInt8}

theorem length (h : Paired cs bs) : cs.length = 2 * bs.length := by
  induction h with
  | nil => rfl
  | cons _ _ _ ih =>
    rw [List.length_cons, List.length_cons, List.length_cons, ih]
    omega

theorem digit (h : Paired cs bs) : ∀ c ∈ cs, ∃ d, hexDigit? c = some d := by
  induction h with
  | nil => exact fun c hc => nomatch hc
  | cons hhigh hlow _ ih =>
    exact List.forall_mem_cons.mpr ⟨⟨_, hhigh⟩, List.forall_mem_cons.mpr ⟨⟨_, hlow⟩, ih⟩⟩

/-- Digits stand for no other bytes. -/
theorem unique (h : Paired cs bs) (h' : Paired cs bs') : bs = bs' := by
  induction h generalizing bs' with
  | nil =>
    cases h'
    rfl
  | cons hhigh hlow _ ih =>
    cases h' with
    | cons hhigh' hlow' hrest' =>
      obtain rfl := Option.some.inj (hhigh.symm.trans hhigh')
      obtain rfl := Option.some.inj (hlow.symm.trans hlow')
      rw [ih hrest']

end Paired

/-- The character whose number is a byte. -/
def byteChar (b : UInt8) : Char :=
  Char.ofNat b.toNat

namespace Hex

theorem readNibble_eq (p : Nat) (b : UInt8) : readNibble p b =
    match hexDigit? (byteChar b) with
    | some d => .ok d
    | none => .error (.invalid b p) := rfl

/-- An even number of bytes are read in pairs exactly if they are digits. -/
theorem readPairs_ok_iff {p : Nat} {bytes bs : List UInt8} :
    bytes.length % 2 = 0 ∧ readPairs p bytes = .ok bs ↔ Paired (bytes.map byteChar) bs := by
  induction p, bytes using readPairs.induct generalizing bs with
  | case1 p a b r ih =>
    have heven : (a :: b :: r).length % 2 = r.length % 2 := Nat.add_mod_right r.length 2
    rw [heven, readPairs, readNibble_eq, readNibble_eq, List.map_cons, List.map_cons]
    constructor
    · rintro ⟨hlen, hread⟩
      cases ha : hexDigit? (byteChar a) with
      | none =>
        rw [ha] at hread
        cases hread
      | some h =>
        cases hb : hexDigit? (byteChar b) with
        | none =>
          rw [ha, hb] at hread
          cases hread
        | some l =>
          cases hr : readPairs (p + 2) r with
          | error e =>
            rw [ha, hb, hr] at hread
            cases hread
          | ok rest =>
            rw [ha, hb, hr] at hread
            obtain rfl := Except.ok.inj hread
            exact .cons ha hb (ih.mp ⟨hlen, hr⟩)
    · rintro (_ | ⟨ha, hb, hrest⟩)
      obtain ⟨hlen, hr⟩ := ih.mpr hrest
      rw [ha, hb, hr]
      exact ⟨hlen, rfl⟩
  | case2 bytes p hshort =>
    cases bytes with
    | nil =>
      constructor
      · rintro ⟨-, hread⟩
        obtain rfl := Except.ok.inj hread
        exact .nil
      · intro h
        cases h
        exact ⟨rfl, rfl⟩
    | cons a r =>
      cases r with
      | cons b r => exact absurd rfl (hshort a b r)
      | nil =>
        constructor
        · rintro ⟨hodd, -⟩
          cases hodd
        · intro h
          cases h

/-- What the library reads: digits in pairs and nothing else. -/
theorem decode_ok_iff {digits bs : List UInt8} :
    decode digits = .ok bs ↔ Paired (digits.map byteChar) bs := by
  rw [decode, ← readPairs_ok_iff (p := 0)]
  split
  · next heven => exact ⟨fun h => ⟨heven, h⟩, fun h => h.2⟩
  · next hodd => exact ⟨fun h => (nomatch h), fun h => absurd h.1 hodd⟩

end Hex

/-! ### The bytes of digits -/

theorem encodeChar_of_le {c : Char} (h : c.toNat ≤ 127) :
    String.utf8EncodeChar c = [UInt8.ofNat c.toNat] := by
  unfold String.utf8EncodeChar
  exact if_pos h

theorem byteChar_ofNat {c : Char} (h : c.toNat ≤ 127) : byteChar (UInt8.ofNat c.toNat) = c := by
  rw [byteChar, Utf8.toNat_ofNat_of_lt (by omega), Char.ofNat_toNat]

/-- Other characters are spelt by bytes that are no characters of their own. -/
theorem exists_mem_encodeChar {c : Char} (h : 127 < c.toNat) :
    ∃ b ∈ String.utf8EncodeChar c, 127 < b.toNat := by
  have hvalid : c.val.toNat < 0xD800 ∨ 0xDFFF < c.val.toNat ∧ c.val.toNat < 0x110000 := c.valid
  have hbig : 127 < c.val.toNat := h
  unfold String.utf8EncodeChar
  generalize c.val.toNat = v at hvalid hbig
  dsimp only
  rw [if_neg (by omega)]
  split
  · refine ⟨_, List.mem_cons_self, ?_⟩
    rw [Utf8.toNat_ofNat_of_lt (by omega)]
    omega
  · split
    · refine ⟨_, List.mem_cons_self, ?_⟩
      rw [Utf8.toNat_ofNat_of_lt (by omega)]
      omega
    · refine ⟨_, List.mem_cons_self, ?_⟩
      rw [Utf8.toNat_ofNat_of_lt (by omega)]
      omega

/-- Where all characters or all bytes are small, each byte is a character. -/
theorem map_byteChar_encode {cs : List Char}
    (h : (∀ c ∈ cs, c.toNat ≤ 127) ∨ ∀ b ∈ Utf8.encode cs, b.toNat ≤ 127) :
    (Utf8.encode cs).map byteChar = cs := by
  have hsmall : ∀ c ∈ cs, c.toNat ≤ 127 := by
    rcases h with hchars | hbytes
    · exact hchars
    · intro c hc
      by_contra hbig
      obtain ⟨b, hb, hlarge⟩ := exists_mem_encodeChar (Nat.lt_of_not_le hbig)
      have hle := hbytes b (List.mem_flatMap.mpr ⟨c, hc, hb⟩)
      omega
  clear h
  induction cs with
  | nil => rfl
  | cons c cs ih =>
    obtain ⟨hc, hcs⟩ := List.forall_mem_cons.mp hsmall
    rw [Utf8.encode, List.flatMap_cons, encodeChar_of_le hc, List.singleton_append, List.map_cons,
      byteChar_ofNat hc]
    exact congrArg (c :: ·) (ih hcs)

theorem toNat_le_of_digit {c : Char} {d : Nat} (h : hexDigit? c = some d) : c.toNat ≤ 127 := by
  have hc := hexDigit?_eq_some_iff.mp h
  omega

/-- A byte whose character is a digit is small. -/
theorem toNat_le_of_byteChar {b : UInt8} {d : Nat} (h : hexDigit? (byteChar b) = some d) :
    b.toNat ≤ 127 := by
  have hlt := b.toNat_lt
  have hvalid : b.toNat.isValidChar := Or.inl (by omega)
  have hchar : (byteChar b).toNat = b.toNat := by
    rw [byteChar, Char.ofNat, dif_pos hvalid]
    rfl
  exact hchar ▸ toNat_le_of_digit h

/-- **Reading succeeds exactly if pairs of digits are left**, at least one, and gives what they
stand for. -/
theorem readCode_ok_iff {text : String} {bs : List UInt8} :
    readCode text = .ok bs ↔ bs ≠ [] ∧ Paired (codeDigits text.toList) bs := by
  unfold readCode
  cases hdigits : codeDigits text.toList with
  | nil =>
    constructor
    · intro h
      cases h
    · rintro ⟨hne, hpaired⟩
      cases hpaired
      exact absurd rfl hne
  | cons c cs =>
    have hread : (Hex.decode (textBytes (String.ofList (c :: cs)))).mapError CodeError.undecoded =
        .ok bs ↔ Paired ((Utf8.encode (c :: cs)).map byteChar) bs := by
      rw [mapError_ok_iff, Hex.decode_ok_iff, textBytes_eq, String.toList_ofList]
    refine hread.trans ⟨fun hpaired => ?_, fun ⟨hne, hpaired⟩ => ?_⟩
    · have hsmall : ∀ b ∈ Utf8.encode (c :: cs), b.toNat ≤ 127 := by
        intro b hb
        obtain ⟨d, hd⟩ := hpaired.digit _ (List.mem_map_of_mem hb)
        exact toNat_le_of_byteChar hd
      rw [map_byteChar_encode (Or.inr hsmall)] at hpaired
      refine ⟨?_, hpaired⟩
      rintro rfl
      cases hpaired
    · rw [map_byteChar_encode (Or.inl fun x hx => ?_)]
      · exact hpaired
      · obtain ⟨d, hd⟩ := hpaired.digit x hx
        exact toNat_le_of_digit hd

/-! ### Every spelling is read -/

/-- What may stand between bytes: blanks and commas. -/
def Gap (cs : List Char) : Prop :=
  ∀ c ∈ cs, isBlank c = true ∨ c = ','

/-- What may stand directly in front of the digits of a byte. -/
def markers : List (List Char) :=
  [[], ['\\', 'x'], ['0', 'x']]

/-- The ways to write bytes: each as a marker and two digits, with gaps before, between and after
them. -/
inductive Spelling : List UInt8 → List Char → Prop where
  | nil {gap : List Char} (hgap : Gap gap) : Spelling [] gap
  | cons {gap marker cs : List Char} {high low : Char} {h l : Nat} {b : UInt8} {bs : List UInt8}
    (hgap : Gap gap) (hmarker : marker ∈ markers)
    (hhigh : hexDigit? high = some h) (hlow : hexDigit? low = some l)
    (hbyte : b.toNat = h * 16 + l) (hrest : Spelling bs cs) :
    Spelling (b :: bs) (gap ++ (marker ++ high :: low :: cs))

section

variable {c high low : Char} {d h l : Nat} {gap marker cs : List Char} {bs : List UInt8}

theorem isSeparator_iff : isSeparator c = true ↔ isBlank c = true ∨ c = ',' := by
  rw [isSeparator, Bool.or_eq_true, beq_iff_eq]

theorem isSeparator_of_hexDigit (h : hexDigit? c = some d) : isSeparator c = false := by
  rw [isSeparator, isBlank_of_hexDigit h, Bool.false_or, beq_eq_false_iff_ne]
  rintro rfl
  cases h

theorem Gap.nil : Gap [] := fun _ hc =>
  absurd hc List.not_mem_nil

theorem Gap.not_mem (hgap : Gap gap) (hc : isSeparator c = false) : c ∉ gap := fun hmem =>
  Bool.false_ne_true (hc.symm.trans (isSeparator_iff.mpr (hgap c hmem)))

theorem Gap.codeDigits_append (hgap : Gap gap) (cs : List Char) :
    codeDigits (gap ++ cs) = codeDigits cs := by
  have hbackslash : '\\' ∉ gap := hgap.not_mem (by decide)
  have hzero : '0' ∉ gap := hgap.not_mem (isSeparator_of_hexDigit rfl)
  have hnone : gap.filter (fun c => !isSeparator c) = [] := by
    refine List.filter_eq_nil_iff.mpr fun c hc hkept => ?_
    rw [isSeparator_iff.mpr (hgap c hc)] at hkept
    cases hkept
  rw [codeDigits, dropPairs_append_of_not_mem hbackslash, dropPairs_append_of_not_mem hzero,
    List.filter_append, hnone, List.nil_append]
  rfl

/-- A digit neither begins the first kind of marker nor ends one of the second. -/
theorem ne_of_hexDigit (h : hexDigit? c = some d) : c ≠ '\\' ∧ c ≠ 'x' := by
  constructor
  · rintro rfl
    cases h
  · rintro rfl
    cases h

/-- Of the first kind of marker nothing is left, and one of the second stays at first. -/
theorem dropPairs_marker (hmarker : marker ∈ markers) (hhigh : hexDigit? high = some h)
    (hlow : hexDigit? low = some l) (cs : List Char) :
    ∃ zero ∈ [[], ['0', 'x']], dropPairs '\\' 'x' (marker ++ high :: low :: cs) =
      zero ++ high :: low :: dropPairs '\\' 'x' cs := by
  have hdigits : dropPairs '\\' 'x' (high :: low :: cs) =
      high :: low :: dropPairs '\\' 'x' cs := by
    rw [dropPairs_cons fun hp => (ne_of_hexDigit hhigh).1 hp.1,
      dropPairs_cons fun hp => (ne_of_hexDigit hlow).1 hp.1]
  simp only [markers, List.mem_cons, List.not_mem_nil, or_false] at hmarker
  rcases hmarker with rfl | rfl | rfl
  · exact ⟨[], by decide, hdigits⟩
  · exact ⟨[], by decide, (dropPairs_pair _ _ _).trans hdigits⟩
  · refine ⟨['0', 'x'], by decide, ?_⟩
    rw [dropPairs_append_of_not_mem (by decide), hdigits]

/-- The two digits of a byte are left, whatever marker is in front, unless an `x` comes to stand
behind them. -/
theorem codeDigits_marker (hmarker : marker ∈ markers) (hhigh : hexDigit? high = some h)
    (hlow : hexDigit? low = some l) (hhead : (dropPairs '\\' 'x' cs).head? ≠ some 'x') :
    codeDigits (marker ++ high :: low :: cs) = high :: low :: codeDigits cs := by
  obtain ⟨zero, hzero, hfirst⟩ := dropPairs_marker hmarker hhigh hlow cs
  have hdigits : dropPairs '0' 'x' (high :: low :: dropPairs '\\' 'x' cs) =
      high :: low :: dropPairs '0' 'x' (dropPairs '\\' 'x' cs) := by
    have hstays : ¬ (high = '0' ∧ (low :: dropPairs '\\' 'x' cs).head? = some 'x') := fun hp =>
      (ne_of_hexDigit hlow).2 (Option.some.inj hp.2)
    rw [dropPairs_cons hstays, dropPairs_cons fun hp => hhead hp.2]
  have hsecond : dropPairs '0' 'x' (zero ++ high :: low :: dropPairs '\\' 'x' cs) =
      high :: low :: dropPairs '0' 'x' (dropPairs '\\' 'x' cs) := by
    simp only [List.mem_cons, List.not_mem_nil, or_false] at hzero
    rcases hzero with rfl | rfl
    · exact hdigits
    · exact (dropPairs_pair _ _ _).trans hdigits
  rw [codeDigits, hfirst, hsecond, List.filter_cons_of_pos, List.filter_cons_of_pos]
  · rfl
  · rw [isSeparator_of_hexDigit hlow]
    rfl
  · rw [isSeparator_of_hexDigit hhigh]
    rfl

namespace Spelling

/-- Taking out the first kind of marker brings no `x` to the front. -/
theorem head?_ne (hs : Spelling bs cs) : (dropPairs '\\' 'x' cs).head? ≠ some 'x' := by
  -- In front of the digits stands a gap, nothing, or the zero of a marker.
  have hgap_head : ∀ {gap rest : List Char}, Gap gap → rest.head? ≠ some 'x' →
      (gap ++ rest).head? ≠ some 'x' := by
    intro gap rest hgap hrest
    cases gap with
    | nil => exact hrest
    | cons c gap =>
      intro hhead
      obtain rfl := Option.some.inj hhead
      exact hgap.not_mem (by decide) List.mem_cons_self
  cases hs with
  | nil hgap =>
    rw [dropPairs_eq_self (hgap.not_mem (by decide)), ← List.append_nil cs]
    exact hgap_head hgap nofun
  | cons hgap hmarker hhigh hlow hbyte hrest =>
    obtain ⟨zero, hzero, hfirst⟩ := dropPairs_marker hmarker hhigh hlow _
    rw [dropPairs_append_of_not_mem (hgap.not_mem (by decide)), hfirst]
    refine hgap_head hgap fun hhead => ?_
    simp only [List.mem_cons, List.not_mem_nil, or_false] at hzero
    rcases hzero with rfl | rfl
    · exact (ne_of_hexDigit hhigh).2 (Option.some.inj hhead)
    · cases hhead

/-- A gap may stand in front. -/
theorem gap_append (hgap : Gap gap) (hs : Spelling bs cs) : Spelling bs (gap ++ cs) := by
  have hjoin : ∀ {first}, Gap first → Gap (gap ++ first) := fun hfirst c hc =>
    (List.mem_append.mp hc).elim (hgap c) (hfirst c)
  cases hs with
  | nil hfirst => exact .nil (hjoin hfirst)
  | cons hfirst hmarker hhigh hlow hbyte hrest =>
    rw [← List.append_assoc]
    exact .cons (hjoin hfirst) hmarker hhigh hlow hbyte hrest

/-- **Of a spelling the digits of its bytes are left.** -/
theorem paired (hs : Spelling bs cs) : Paired (codeDigits cs) bs := by
  induction hs with
  | @nil gap hgap =>
    rw [← List.append_nil gap, hgap.codeDigits_append]
    exact .nil
  | @cons gap marker cs high low h l b bs hgap hmarker hhigh hlow hbyte hrest ih =>
    have hvalue : b = UInt8.ofNat (h * 16 + l) := by
      rw [← hbyte, UInt8.ofNat_toNat]
    rw [hgap.codeDigits_append, codeDigits_marker hmarker hhigh hlow hrest.head?_ne, hvalue]
    exact .cons hhigh hlow ih

end Spelling

end

/-! ### What is read is plain -/

/-- What can be said of a text that is read as bytes. -/
structure Plain (cs : List Char) (bs : List UInt8) : Prop where
  pos : 1 ≤ bs.length
  digits : 2 * bs.length ≤ cs.countP fun c => (hexDigit? c).isSome
  alphabet : ∀ c ∈ cs, (hexDigit? c).isSome ∨ c = ',' ∨ isBlank c = true ∨ c = '\\' ∨ c = 'x'
  backslash : ∀ before behind, cs = before ++ '\\' :: behind → behind.head? = some 'x'
  /-- Every other marker begins with a zero, with nothing but markers inside it. -/
  cross : ∀ before behind, cs = before ++ 'x' :: behind → before.getLast? ≠ some '\\' →
    ∃ start n, before = start ++ '0' :: (List.replicate n ['\\', 'x']).flatten

section

variable {c : Char} {cs : List Char} {bs : List UInt8}

theorem mem_codeDigits (h : c ∈ dropPairs '0' 'x' (dropPairs '\\' 'x' cs)) :
    c ∈ codeDigits cs ∨ isSeparator c = true := by
  cases hc : isSeparator c with
  | true => exact Or.inr rfl
  | false => exact Or.inl (List.mem_filter.mpr ⟨h, by rw [hc]; rfl⟩)

/-- Where digits are left, the text has digits, separators and characters of markers. -/
theorem Paired.alphabet (h : Paired (codeDigits cs) bs) : ∀ c ∈ cs,
    (hexDigit? c).isSome ∨ c = ',' ∨ isBlank c = true ∨ c = '\\' ∨ c = 'x' := by
  intro c hc
  rcases mem_dropPairs (a := '\\') (b := 'x') hc with hc | rfl | rfl
  · rcases mem_dropPairs (a := '0') (b := 'x') hc with hc | rfl | rfl
    · rcases mem_codeDigits hc with hdigit | hseparator
      · exact Or.inl (Option.isSome_iff_exists.mpr (h.digit c hdigit))
      · rcases isSeparator_iff.mp hseparator with hblank | hcomma
        · exact Or.inr (Or.inr (Or.inl hblank))
        · exact Or.inr (Or.inl hcomma)
    · exact Or.inl rfl
    · exact Or.inr (Or.inr (Or.inr (Or.inr rfl)))
  · exact Or.inr (Or.inr (Or.inr (Or.inl rfl)))
  · exact Or.inr (Or.inr (Or.inr (Or.inr rfl)))

/-- **Where digits are left, the text is plain.** -/
theorem Paired.plain (h : Paired (codeDigits cs) bs) (hne : bs ≠ []) : Plain cs bs where
  pos := List.length_pos_of_ne_nil hne
  digits := by
    have hall : (codeDigits cs).countP (fun c => (hexDigit? c).isSome) = (codeDigits cs).length :=
      List.countP_eq_length.mpr fun c hc => Option.isSome_iff_exists.mpr (h.digit c hc)
    have hsub : (codeDigits cs).Sublist cs :=
      (List.filter_sublist.trans (dropPairs_sublist _ _ _)).trans (dropPairs_sublist _ _ _)
    rw [← h.length, ← hall]
    exact hsub.countP_le
  alphabet := h.alphabet
  backslash := by
    rintro before behind rfl
    by_contra hhead
    have hfirst : '\\' ∈ dropPairs '\\' 'x' (before ++ '\\' :: behind) :=
      mem_dropPairs_append_cons (fun hp => absurd hp.2 (by decide)) fun hp => hhead hp.2
    have hsecond := (mem_dropPairs (a := '0') (b := 'x') hfirst).resolve_right (by decide)
    have hleft := (mem_codeDigits hsecond).resolve_right (by decide)
    obtain ⟨d, hd⟩ := h.digit _ hleft
    cases hd
  cross := by
    rintro before behind rfl hlast
    have hfirst : dropPairs '\\' 'x' (before ++ 'x' :: behind) =
        dropPairs '\\' 'x' before ++ 'x' :: dropPairs '\\' 'x' behind := by
      rw [dropPairs_append fun hp => hlast hp.1, dropPairs_cons fun hp => absurd hp.1 (by decide)]
    -- The `x` survives the first kind of marker, so that it goes with the second.
    have hzero : (dropPairs '\\' 'x' before).getLast? = some '0' := by
      by_contra hother
      have hsecond : 'x' ∈ dropPairs '0' 'x' (dropPairs '\\' 'x' (before ++ 'x' :: behind)) := by
        rw [hfirst]
        exact mem_dropPairs_append_cons (fun hp => hother hp.1) fun hp => absurd hp.1 (by decide)
      have hleft := (mem_codeDigits hsecond).resolve_right (by decide)
      obtain ⟨d, hd⟩ := h.digit _ hleft
      cases hd
    obtain ⟨ds, hds⟩ := List.getLast?_eq_some_iff.mp hzero
    exact dropPairs_eq_append_singleton hds

end

/-! ### The two directions -/

/-- **Every spelling of bytes is read as these bytes**, and conversely whatever is read is made of
digits, separators and markers, with two digits to each byte at least. -/
theorem code_spellings :
    (∀ bs text, bs ≠ [] → Spelling bs text.toList → readCode text = .ok bs) ∧
      ∀ text bs, readCode text = .ok bs → Plain text.toList bs :=
  ⟨fun _ _ hne hs => readCode_ok_iff.mpr ⟨hne, hs.paired⟩, fun _ _ hread =>
    have hcode := readCode_ok_iff.mp hread
    hcode.2.plain hcode.1⟩

/-- Two bytes, written with a marker in front of the second only, with one in front of both, and
with a comma between them; the first text has its digits beside the zero of the marker. -/
theorem code_spellings_mixed :
    readCode "700x47" = .ok [0x70, 0x47] ∧ readCode "\\x70\\x47" = .ok [0x70, 0x47] ∧
      readCode "70,47" = .ok [0x70, 0x47] ∧ Plain "700x47".toList [0x70, 0x47] := by
  have hcomma : Gap [','] := fun c hc => Or.inr (List.mem_singleton.mp hc)
  have hlast : ∀ gap marker, Gap gap → marker ∈ markers →
      Spelling [0x47] (gap ++ (marker ++ ['4', '7'])) := fun gap marker hg hm =>
    @Spelling.cons gap marker [] '4' '7' 4 7 0x47 [] hg hm rfl rfl rfl (.nil Gap.nil)
  have hboth : ∀ marker cs, marker ∈ markers → Spelling [0x47] cs →
      Spelling [0x70, 0x47] (marker ++ '7' :: '0' :: cs) := fun marker cs hm hs =>
    @Spelling.cons [] marker cs '7' '0' 7 0 0x70 [0x47] Gap.nil hm rfl rfl rfl hs
  have hmixed : readCode "700x47" = .ok [0x70, 0x47] :=
    code_spellings.1 _ _ (by decide)
      (hboth [] _ (by decide) (hlast [] ['0', 'x'] Gap.nil (by decide)))
  have hmarked : readCode "\\x70\\x47" = .ok [0x70, 0x47] :=
    code_spellings.1 _ _ (by decide)
      (hboth ['\\', 'x'] _ (by decide) (hlast [] ['\\', 'x'] Gap.nil (by decide)))
  have hcut : readCode "70,47" = .ok [0x70, 0x47] :=
    code_spellings.1 _ _ (by decide)
      (hboth [] _ (by decide) (hlast [','] [] hcomma (by decide)))
  exact ⟨hmixed, hmarked, hcut, code_spellings.2 _ _ hmixed⟩

end Disassembly.CommandLine

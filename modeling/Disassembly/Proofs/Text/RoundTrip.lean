import Disassembly.Native.Messages
import Disassembly.Text.Utf8
import Mathlib.Data.List.Forall2
import Mathlib.Data.List.TakeWhile

/-!
# Text written and read back

A text is spelt by bytes and read back as it was.

* `Utf8.pieces_whole` — a lead byte with bytes in the ranges that it owes is one whole piece;
* `Utf8.spelling` — the bytes of each character are of that form, and spell it;
* `Utf8.decode_encode`, `fieldText_textBytes` — so the bytes of a text read as the text, as a field
  if there is no zero in it.
-/

namespace Disassembly

namespace Utf8

variable {b : UInt8} {rs : List Range} {bs : List UInt8}

/-- `owed` by the numbers of the bytes. -/
theorem owed_eq (b : UInt8) : owed b =
    if b.toNat ≤ 0x7F then some []
    else if b.toNat < 0xC2 then none
    else if b.toNat ≤ 0xDF then some [.tail]
    else if b.toNat = 0xE0 then some [⟨0xA0, 0xBF⟩, .tail]
    else if b.toNat = 0xED then some [⟨0x80, 0x9F⟩, .tail]
    else if b.toNat ≤ 0xEF then some [.tail, .tail]
    else if b.toNat = 0xF0 then some [⟨0x90, 0xBF⟩, .tail, .tail]
    else if b.toNat ≤ 0xF3 then some [.tail, .tail, .tail]
    else if b.toNat = 0xF4 then some [⟨0x80, 0x8F⟩, .tail, .tail]
    else none := by
  simp only [owed, UInt8.le_iff_toNat_le, UInt8.lt_iff_toNat_lt, ← UInt8.toNat_inj]
  rfl

theorem Range.holds_iff (r : Range) (b : UInt8) :
    r.holds b = true ↔ r.low.toNat ≤ b.toNat ∧ b.toNat ≤ r.high.toNat := by
  simp [Range.holds, UInt8.le_iff_toNat_le]

/-- Bytes lie in ranges, one in each. -/
def Fits (rs : List Range) (bs : List UInt8) : Prop :=
  List.Forall₂ (fun r b => r.holds b = true) rs bs

theorem Fits.matching (h : Fits rs bs) (rest : List UInt8) :
    matching rs (bs ++ rest) = bs.length := by
  induction h with
  | nil => cases rest <;> rfl
  | cons hholds _ ih =>
    rw [List.cons_append, Utf8.matching, if_pos hholds, ih]
    rfl

/-- A lead byte and bytes in the ranges that it owes are one piece, whatever follows. -/
theorem pieces_whole (howed : owed b = some rs) (h : Fits rs bs) (rest : List UInt8) :
    pieces (b :: (bs ++ rest)) = .whole (assemble b bs) (b :: bs) :: pieces rest := by
  rw [pieces, howed, Option.getD_some, h.matching, List.take_left, List.drop_left, piece,
    if_pos (List.Forall₂.length_eq h).symm]

/-- A character is spelt by a lead byte and bytes in the ranges that it owes. -/
inductive Spelling (c : Char) : List UInt8 → Prop where
  | mk {b : UInt8} {rs : List Range} {bs : List UInt8} (howed : owed b = some rs)
    (hfits : Fits rs bs) (hchar : assemble b bs = c) : Spelling c (b :: bs)

/-- A byte given by its number lies in a range. -/
theorem Range.holds_ofNat {r : Range} {n : Nat} (hlow : r.low.toNat ≤ n) (hhigh : n ≤ r.high.toNat) :
    r.holds (UInt8.ofNat n) = true := by
  have hsmall := r.high.toNat_lt
  rw [holds_iff, UInt8.toNat_ofNat', Nat.mod_eq_of_lt (by omega)]
  exact ⟨hlow, hhigh⟩

/-- The bytes that continue a character are made from the lowest six bits. -/
theorem Range.tail_holds (n : Nat) : Range.tail.holds (UInt8.ofNat (n % 64 + 128)) = true :=
  holds_ofNat (r := .tail) (Nat.le_add_left 128 _) (by
    have : Range.tail.high.toNat = 191 := rfl
    omega)

/-- The number of a byte that is given by a small number. -/
theorem toNat_ofNat_of_lt {n : Nat} (h : n < 256) : (UInt8.ofNat n).toNat = n := by
  rw [UInt8.toNat_ofNat', Nat.mod_eq_of_lt h]

theorem assemble_eq (b : UInt8) (bs : List UInt8) : assemble b bs =
    Char.ofNat (bs.foldl (fun n c => n * 64 + c.toNat % 64) (leadBits bs.length b)) := rfl

/-- A character of three bytes; the lowest and the surrogates have ranges of their own. -/
theorem spelling_three {v : Nat} (hlow : 2047 < v) (hhigh : v ≤ 65535)
    (hvalid : v < 0xD800 ∨ 0xDFFF < v) : Spelling (Char.ofNat v)
      [UInt8.ofNat (v / 4096 % 16 + 224), UInt8.ofNat (v / 64 % 64 + 128),
        UInt8.ofNat (v % 64 + 128)] := by
  have hchar : assemble (UInt8.ofNat (v / 4096 % 16 + 224))
      [UInt8.ofNat (v / 64 % 64 + 128), UInt8.ofNat (v % 64 + 128)] = Char.ofNat v := by
    simp only [assemble_eq, leadBits, List.foldl_cons, List.foldl_nil, List.length_cons,
      List.length_nil]
    rw [toNat_ofNat_of_lt (by omega), toNat_ofNat_of_lt (by omega), toNat_ofNat_of_lt (by omega)]
    congr 1
    omega
  have howed := owed_eq (UInt8.ofNat (v / 4096 % 16 + 224))
  rw [toNat_ofNat_of_lt (by omega), if_neg (by omega), if_neg (by omega), if_neg (by omega)] at howed
  by_cases hfirst : v / 4096 = 0
  · rw [if_pos (by omega)] at howed
    refine .mk howed (.cons (Range.holds_ofNat ?_ ?_) (.cons (Range.tail_holds _) .nil)) hchar
    · change 160 ≤ _
      omega
    · change _ ≤ 191
      omega
  · rw [if_neg (by omega)] at howed
    by_cases hsurrogate : v / 4096 = 13
    · rw [if_pos (by omega)] at howed
      refine .mk howed (.cons (Range.holds_ofNat ?_ ?_) (.cons (Range.tail_holds _) .nil)) hchar
      · change 128 ≤ _
        omega
      · change _ ≤ 159
        omega
    · rw [if_neg (by omega), if_pos (by omega)] at howed
      exact .mk howed (.cons (Range.tail_holds _) (.cons (Range.tail_holds _) .nil)) hchar

/-- A character of four bytes; the lowest and the highest have ranges of their own. -/
theorem spelling_four {v : Nat} (hlow : 65535 < v) (hhigh : v < 0x110000) :
    Spelling (Char.ofNat v)
      [UInt8.ofNat (v / 262144 % 8 + 240), UInt8.ofNat (v / 4096 % 64 + 128),
        UInt8.ofNat (v / 64 % 64 + 128), UInt8.ofNat (v % 64 + 128)] := by
  have hchar : assemble (UInt8.ofNat (v / 262144 % 8 + 240))
      [UInt8.ofNat (v / 4096 % 64 + 128), UInt8.ofNat (v / 64 % 64 + 128),
        UInt8.ofNat (v % 64 + 128)] = Char.ofNat v := by
    simp only [assemble_eq, leadBits, List.foldl_cons, List.foldl_nil, List.length_cons,
      List.length_nil]
    rw [toNat_ofNat_of_lt (by omega), toNat_ofNat_of_lt (by omega), toNat_ofNat_of_lt (by omega),
      toNat_ofNat_of_lt (by omega)]
    congr 1
    omega
  have howed := owed_eq (UInt8.ofNat (v / 262144 % 8 + 240))
  rw [toNat_ofNat_of_lt (by omega), if_neg (by omega), if_neg (by omega), if_neg (by omega),
    if_neg (by omega), if_neg (by omega), if_neg (by omega)] at howed
  by_cases hfirst : v / 262144 = 0
  · rw [if_pos (by omega)] at howed
    refine .mk howed (.cons (Range.holds_ofNat ?_ ?_)
      (.cons (Range.tail_holds _) (.cons (Range.tail_holds _) .nil))) hchar
    · change 144 ≤ _
      omega
    · change _ ≤ 191
      omega
  · rw [if_neg (by omega)] at howed
    by_cases hlast : v / 262144 = 4
    · rw [if_neg (by omega), if_pos (by omega)] at howed
      refine .mk howed (.cons (Range.holds_ofNat ?_ ?_)
        (.cons (Range.tail_holds _) (.cons (Range.tail_holds _) .nil))) hchar
      · change 128 ≤ _
        omega
      · change _ ≤ 143
        omega
    · rw [if_pos (by omega)] at howed
      exact .mk howed (.cons (Range.tail_holds _)
        (.cons (Range.tail_holds _) (.cons (Range.tail_holds _) .nil))) hchar

/-- **Every character is spelt by one whole piece.** -/
theorem spelling (c : Char) : Spelling c (String.utf8EncodeChar c) := by
  have hvalid : c.val.toNat < 0xD800 ∨ 0xDFFF < c.val.toNat ∧ c.val.toNat < 0x110000 := c.valid
  have hchar : Char.ofNat c.val.toNat = c := Char.ofNat_toNat c
  unfold String.utf8EncodeChar
  generalize c.val.toNat = v at hvalid hchar
  rw [← hchar]
  dsimp only
  split
  · next hone =>
    refine .mk (show owed _ = some [] from ?_) .nil ?_
    · rw [owed_eq, toNat_ofNat_of_lt (by omega), if_pos hone]
    · rw [assemble_eq, List.foldl_nil, List.length_nil, leadBits, toNat_ofNat_of_lt (by omega)]
  · split
    · next hone htwo =>
      refine .mk (show owed _ = some [.tail] from ?_) (.cons (Range.tail_holds v) .nil) ?_
      · rw [owed_eq, toNat_ofNat_of_lt (by omega), if_neg (by omega), if_neg (by omega),
          if_pos (by omega)]
      · simp only [assemble_eq, leadBits, List.foldl_cons, List.foldl_nil, List.length_cons,
          List.length_nil]
        rw [toNat_ofNat_of_lt (by omega), toNat_ofNat_of_lt (by omega)]
        congr 1
        omega
    · split
      · next hone htwo hthree => exact spelling_three (by omega) hthree (by omega)
      · next hone htwo hthree => exact spelling_four (by omega) (by omega)

/-- A spelling is one piece, and the rest is cut as if it stood alone. -/
theorem pieces_encodeChar (c : Char) (rest : List UInt8) :
    pieces (String.utf8EncodeChar c ++ rest) =
      .whole c (String.utf8EncodeChar c) :: pieces rest := by
  have hspelling := spelling c
  generalize String.utf8EncodeChar c = bytes at hspelling
  cases hspelling with
  | mk howed hfits hchar => rw [List.cons_append, pieces_whole howed hfits, hchar]

/-- Behind a text that is spelt, bytes are read as if they stood alone. -/
theorem decode_encode_append (cs : List Char) (rest : List UInt8) :
    decode (encode cs ++ rest) = cs ++ decode rest := by
  induction cs with
  | nil => rfl
  | cons c cs ih =>
    rw [encode, List.flatMap_cons, List.append_assoc, decode, pieces_encodeChar, List.map_cons]
    exact congrArg (c :: ·) ih

/-- **What is written is read back**: the bytes that spell a text read as the text. -/
theorem decode_encode (cs : List Char) : decode (encode cs) = cs := by
  have hnil : decode [] = [] := by simp [decode, pieces]
  have happend := decode_encode_append cs []
  rwa [List.append_nil, hnil, List.append_nil] at happend

end Utf8

/-! ### Fields -/

theorem byteArray_toList_loop (a : ByteArray) (i : Nat) (acc : List UInt8) :
    ByteArray.toList.loop a i acc = acc.reverse ++ a.data.toList.drop i := by
  induction i, acc using ByteArray.toList.loop.induct a with
  | case1 i acc h ih =>
    have hlt : i < a.data.toList.length := by simpa using h
    have hget : a.get! i = a.data.toList[i] := by
      simpa [ByteArray.get!] using getElem!_pos a.data i hlt
    rw [ByteArray.toList.loop, if_pos h, ih, List.drop_eq_getElem_cons hlt, hget]
    simp
  | case2 i acc h =>
    have hle : a.data.toList.length ≤ i := by simpa using h
    rw [ByteArray.toList.loop, if_neg h, List.drop_eq_nil_of_le hle, List.append_nil]

theorem textBytes_eq (s : String) : textBytes s = Utf8.encode s.toList := by
  have hloop := byteArray_toList_loop s.toByteArray 0 []
  have hbytes : s.toByteArray.data.toList = Utf8.encode s.toList := by
    rw [← String.utf8Encode_toList]
    simp [List.utf8Encode, Utf8.encode]
  rw [List.reverse_nil, List.nil_append, List.drop_zero, hbytes] at hloop
  exact hloop

/-- Only the zero character has a zero byte. -/
theorem Utf8.zero_not_mem_encodeChar {c : Char} (hc : c.val.toNat ≠ 0) :
    ∀ b ∈ String.utf8EncodeChar c, b ≠ 0 := by
  have hvalid : c.val.toNat < 0xD800 ∨ 0xDFFF < c.val.toNat ∧ c.val.toNat < 0x110000 := c.valid
  unfold String.utf8EncodeChar
  generalize c.val.toNat = v at hvalid hc
  have hbyte : ∀ n, n % 256 ≠ 0 → UInt8.ofNat n ≠ 0 := by
    intro n hn hzero
    have hnumber := congrArg UInt8.toNat hzero
    rw [UInt8.toNat_ofNat'] at hnumber
    exact hn hnumber
  dsimp only
  split
  · next h => exact List.forall_mem_singleton.mpr (hbyte _ (by omega))
  · split
    · exact List.forall_mem_cons.mpr ⟨hbyte _ (by omega),
        List.forall_mem_singleton.mpr (hbyte _ (by omega))⟩
    · split
      · exact List.forall_mem_cons.mpr ⟨hbyte _ (by omega), List.forall_mem_cons.mpr
          ⟨hbyte _ (by omega), List.forall_mem_singleton.mpr (hbyte _ (by omega))⟩⟩
      · exact List.forall_mem_cons.mpr ⟨hbyte _ (by omega), List.forall_mem_cons.mpr
          ⟨hbyte _ (by omega), List.forall_mem_cons.mpr
            ⟨hbyte _ (by omega), List.forall_mem_singleton.mpr (hbyte _ (by omega))⟩⟩⟩

theorem fieldText_nil : fieldText [] = "" := by
  simp [fieldText, Utf8.decode, Utf8.pieces]

/-- **A text without the zero character reads back as it is**, from a field that holds it. -/
theorem fieldText_textBytes {s : String} (h : ∀ c ∈ s.toList, c.val.toNat ≠ 0) :
    fieldText (textBytes s) = s := by
  have hnozero : ∀ b ∈ Utf8.encode s.toList, (b ≠ 0 : Bool) = true := by
    intro b hb
    obtain ⟨c, hc, hbc⟩ := List.mem_flatMap.mp hb
    simpa using Utf8.zero_not_mem_encodeChar (h c hc) b hbc
  rw [fieldText, textBytes_eq, List.takeWhile_eq_self_iff.mpr hnozero, Utf8.decode_encode,
    String.ofList_toList]

end Disassembly

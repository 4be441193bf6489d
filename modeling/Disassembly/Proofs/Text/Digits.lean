import Disassembly.Text.Blank
import Disassembly.Text.Numeral
import Disassembly.Text.Reading

/-!
# Digits written and read back

A number is written in some base, in letters of either case, with zeros in front or without, and
read back as it was.

* `readFrom` — the number that digits denote, of whatever size;
* `hexDigit?_eq_some_iff` — the characters that are hexadecimal digits, and what they stand for;
* `readFrom_toDigits` — the digits of a number denote it;
* `readWord_eq` — reading a 64-bit number, digit by digit and with every step checked, gives what
  the digits denote if that is small enough, and fails otherwise; `readUnsigned_eq_some`;
* `readFrom_hex`, `readFrom_hexUpperPadded` — the two ways to write a number in hexadecimal;
* `leftpad_toDigits_byte` — a byte has two digits.
-/

namespace Disassembly.Numeral

variable {base : Nat} {c : Char} {cs : List Char}

/-! ### What digits denote -/

/-- The number that a list of digits continues, of whatever size. -/
def readFrom (base : Nat) : Nat → List Char → Option Nat
  | n, [] => some n
  | n, c :: cs =>
    match digit? base c with
    | some d => readFrom base (n * base + d) cs
    | none => none

theorem readFrom_append (base n : Nat) (cs ds : List Char) :
    readFrom base n (cs ++ ds) = (readFrom base n cs).bind fun k => readFrom base k ds := by
  induction cs generalizing n with
  | nil => rfl
  | cons c cs ih =>
    rw [List.cons_append, readFrom, readFrom]
    cases digit? base c with
    | none => rfl
    | some d => exact ih _

/-! ### One digit -/

/-- The hexadecimal digits, by their code points. -/
theorem hexDigit?_eq_some_iff {d : Nat} : hexDigit? c = some d ↔
    48 ≤ c.toNat ∧ c.toNat ≤ 57 ∧ d = c.toNat - 48 ∨
      97 ≤ c.toNat ∧ c.toNat ≤ 102 ∧ d = c.toNat - 87 ∨
      65 ≤ c.toNat ∧ c.toNat ≤ 70 ∧ d = c.toNat - 55 := by
  have hle : ∀ x y : Char, x ≤ y ↔ x.toNat ≤ y.toNat := fun _ _ => Iff.rfl
  have hzero : '0'.toNat = 48 := rfl
  have hnine : '9'.toNat = 57 := rfl
  have ha : 'a'.toNat = 97 := rfl
  have hf : 'f'.toNat = 102 := rfl
  have hA : 'A'.toNat = 65 := rfl
  have hF : 'F'.toNat = 70 := rfl
  unfold hexDigit?
  simp only [hle, hzero, hnine, ha, hf, hA, hF]
  split
  · rw [Option.some.injEq]
    omega
  · split
    · rw [Option.some.injEq]
      omega
    · split
      · rw [Option.some.injEq]
        omega
      · simp only [reduceCtorEq, false_iff]
        omega

/-- Digits are no blanks. -/
theorem isBlank_of_hexDigit {d : Nat} (h : hexDigit? c = some d) : isBlank c = false := by
  have hc := hexDigit?_eq_some_iff.mp h
  simp only [isBlank, blankRanges, List.any_cons, List.any_nil, Bool.or_false, Bool.or_eq_false_iff,
    Bool.and_eq_false_iff, decide_eq_false_iff_not]
  omega

theorem hexDigit?_digitChar : ∀ d < 16, hexDigit? d.digitChar = some d := by
  decide

theorem hexDigit?_toUpper_digitChar : ∀ d < 16, hexDigit? d.digitChar.toUpper = some d := by
  decide

theorem digit?_eq_some {d : Nat} (h : hexDigit? c = some d) (hd : d < base) :
    digit? base c = some d := by
  rw [digit?, h, Option.filter_some, if_pos (decide_eq_true hd)]

theorem hexDigit?_of_digit? {d : Nat} (h : digit? base c = some d) : hexDigit? c = some d :=
  (Option.filter_eq_some_iff.mp h).1

/-! ### Many digits -/

/-- Only digits are read. -/
theorem hexDigit?_of_readFrom {n k : Nat} (h : readFrom base n cs = some k) :
    ∀ c ∈ cs, ∃ d, hexDigit? c = some d := by
  induction cs generalizing n with
  | nil => exact fun c hc => nomatch hc
  | cons c cs ih =>
    rw [readFrom] at h
    cases hd : digit? base c with
    | none =>
      rw [hd] at h
      cases h
    | some d =>
      rw [hd] at h
      exact List.forall_mem_cons.mpr ⟨⟨d, hexDigit?_of_digit? hd⟩, ih h⟩

/-- Zeros in front do not count. -/
theorem readFrom_zeros (hbase : 0 < base) (k : Nat) (cs : List Char) :
    readFrom base 0 (List.replicate k '0' ++ cs) = readFrom base 0 cs := by
  have hzero : digit? base '0' = some 0 := digit?_eq_some rfl hbase
  induction k with
  | zero => rfl
  | succ k ih =>
    rw [List.replicate_succ, List.cons_append, readFrom, hzero]
    dsimp only
    rw [Nat.zero_mul, ih]

/-- **The digits of a number read as the number**, in whatever form the digits are. -/
theorem readFrom_toDigits (hone : 1 < base) {f : Char → Char}
    (hf : ∀ d < base, digit? base (f d.digitChar) = some d) (n : Nat) :
    readFrom base 0 ((Nat.toDigits base n).map f) = some n := by
  induction n using Nat.strongRecOn with
  | ind n ih =>
    rw [Nat.toDigits_eq_if hone]
    split
    · next hlt =>
      rw [List.map_cons, List.map_nil, readFrom, hf n hlt]
      dsimp only
      rw [Nat.zero_mul, Nat.zero_add, readFrom]
    · next hge =>
      have hdiv : n / base < n := Nat.div_lt_self (by omega) hone
      have hmod : n % base < base := Nat.mod_lt n (by omega)
      have hnumber : n / base * base + n % base = n := Nat.div_add_mod' n base
      rw [List.map_append, readFrom_append, ih _ hdiv, Option.bind_some, List.map_cons,
        List.map_nil, readFrom, hf _ hmod]
      dsimp only
      rw [readFrom, hnumber]

/-! ### 64-bit numbers -/

theorem digit?_lt {d : Nat} (h : digit? base c = some d) : d < base :=
  of_decide_eq_true (Option.filter_eq_some_iff.mp h).2

/-- Further digits make a number no smaller. -/
theorem le_of_readFrom {n k : Nat} (h : readFrom base n cs = some k) : n ≤ k := by
  induction cs generalizing n with
  | nil => exact Nat.le_of_eq (Option.some.inj h)
  | cons c cs ih =>
    rw [readFrom] at h
    cases hd : digit? base c with
    | none =>
      rw [hd] at h
      cases h
    | some d =>
      rw [hd] at h
      have hbase : 0 < base := Nat.zero_lt_of_lt (digit?_lt hd)
      calc
        n ≤ n * base := Nat.le_mul_of_pos_right n hbase
        _ ≤ n * base + d := Nat.le_add_right _ d
        _ ≤ k := ih h

/-- One more digit: the product and the sum are as they should be, or the number is too large. -/
theorem readWord_cons (hbase : base ≤ 16) (n : UInt64) {d : Nat} (h : digit? base c = some d)
    (cs : List Char) : readWord base n (c :: cs) =
      if n.toNat * base + d < UInt64.size
      then readWord base (UInt64.ofNat (n.toNat * base + d)) cs else none := by
  have hd : d < base := digit?_lt h
  have hsize : UInt64.size = 2 ^ 64 := rfl
  have hbaseNat : (UInt64.ofNat base).toNat = base := by
    rw [UInt64.toNat_ofNat', Nat.mod_eq_of_lt (by omega)]
  have hdNat : (UInt64.ofNat d).toNat = d := by
    rw [UInt64.toNat_ofNat', Nat.mod_eq_of_lt (by omega)]
  rw [readWord, h]
  show ((checkedMul n (UInt64.ofNat base)).bind fun shifted =>
    (checkedAdd shifted (UInt64.ofNat d)).bind fun next => readWord base next cs) = _
  rw [checkedMul, hbaseNat]
  by_cases hmul : n.toNat * base < UInt64.size
  · have hproduct : (n * UInt64.ofNat base).toNat = n.toNat * base := by
      rw [UInt64.toNat_mul, hbaseNat, Nat.mod_eq_of_lt (by omega)]
    rw [if_pos hmul, Option.bind_some, checkedAdd, hproduct, hdNat]
    by_cases hadd : n.toNat * base + d < UInt64.size
    · have hsum : n * UInt64.ofNat base + UInt64.ofNat d = UInt64.ofNat (n.toNat * base + d) := by
        rw [← UInt64.toNat_inj, UInt64.toNat_add, hproduct, hdNat, UInt64.toNat_ofNat']
      rw [if_pos hadd, if_pos hadd, Option.bind_some, hsum]
    · rw [if_neg hadd, if_neg hadd, Option.bind_none]
  · rw [if_neg hmul, if_neg (by omega), Option.bind_none]

/-- **Counting in 64-bit numbers** gives the number that the digits denote, and nothing if that
needs more than 64 bits: no step wraps around, and none fails that need not. -/
theorem readWord_eq (hbase : base ≤ 16) (n : UInt64) (cs : List Char) :
    readWord base n cs =
      ((readFrom base n.toNat cs).filter (· < UInt64.size)).map UInt64.ofNat := by
  induction cs generalizing n with
  | nil =>
    rw [readWord, readFrom, Option.filter_some, if_pos (decide_eq_true n.toNat_lt), Option.map_some,
      UInt64.ofNat_toNat]
  | cons c cs ih =>
    cases hd : digit? base c with
    | none =>
      rw [readWord, readFrom, hd]
      rfl
    | some d =>
      rw [readWord_cons hbase n hd, readFrom, hd]
      dsimp only
      split
      · next hsmall =>
        rw [ih, UInt64.toNat_ofNat', Nat.mod_eq_of_lt hsmall]
      · next hlarge =>
        -- What is too large once is so to the end.
        cases hk : readFrom base (n.toNat * base + d) cs with
        | none => rfl
        | some k =>
          have hle := le_of_readFrom hk
          rw [Option.filter_some, if_neg (by rw [decide_eq_true_eq]; omega)]
          rfl

/-- Only digits are read, so that there is no sign in front of them. -/
theorem dropPlus_of_readFrom {n k : Nat} (h : readFrom base n cs = some k) : dropPlus cs = cs := by
  cases cs with
  | nil => rfl
  | cons c cs =>
    obtain ⟨d, hd⟩ := hexDigit?_of_readFrom h c List.mem_cons_self
    unfold dropPlus
    split
    · next heq =>
      obtain rfl := (List.cons.inj heq).1
      cases hd
    · rfl

/-- Digits that denote a small enough number are read as a 64-bit number. -/
theorem readUnsigned_eq_some {a : UInt64} (hbase : base ≤ 16) (hne : cs ≠ [])
    (h : readFrom base 0 cs = some a.toNat) : readUnsigned base cs = some a := by
  have hword : readWord base 0 cs = some a := by
    rw [readWord_eq hbase]
    show ((readFrom base 0 cs).filter (· < UInt64.size)).map UInt64.ofNat = some a
    rw [h, Option.filter_some, if_pos (decide_eq_true a.toNat_lt), Option.map_some,
      UInt64.ofNat_toNat]
  rw [readUnsigned, dropPlus_of_readFrom h]
  cases cs with
  | nil => exact absurd rfl hne
  | cons c cs => exact hword

/-! ### Hexadecimal writing -/

theorem readFrom_hex (n : Nat) : readFrom 16 0 (hex n).toList = some n := by
  have h : readFrom 16 0 ((Nat.toDigits 16 n).map id) = some n :=
    readFrom_toDigits (by decide) (fun d hd => digit?_eq_some (hexDigit?_digitChar d hd) hd) n
  rw [List.map_id] at h
  rw [hex, String.toList_ofList, h]

theorem readFrom_hexUpperPadded (width n : Nat) :
    readFrom 16 0 (hexUpperPadded width n).toList = some n := by
  rw [hexUpperPadded, String.toList_ofList, List.leftpad, readFrom_zeros (by decide)]
  exact readFrom_toDigits (by decide)
    (fun d hd => digit?_eq_some (hexDigit?_toUpper_digitChar d hd) hd) n

theorem hex_ne_nil (n : Nat) : (hex n).toList ≠ [] := by
  rw [hex, String.toList_ofList]
  exact Nat.toDigits_ne_nil

/-- A byte has two digits at most; with zeros in front it has two. -/
theorem leftpad_toDigits_byte (f : Char → Char) (hf : f '0' = '0') {n : Nat} (h : n < 256) :
    List.leftpad 2 '0' ((Nat.toDigits 16 n).map f) =
      [f (n / 16).digitChar, f (n % 16).digitChar] := by
  rw [Nat.toDigits_eq_if (by decide)]
  split
  · next hlt =>
    have hdiv : n / 16 = 0 := by omega
    have hmod : n % 16 = n := by omega
    rw [hdiv, hmod]
    show ['0', f n.digitChar] = [f '0', f n.digitChar]
    rw [hf]
  · rw [Nat.toDigits_of_lt_base (by omega)]
    rfl

end Disassembly.Numeral

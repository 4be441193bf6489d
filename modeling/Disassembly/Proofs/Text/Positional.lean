import Disassembly.Proofs.Text.Digits
import Mathlib.Data.List.Forall2
import Mathlib.Data.Nat.Digits.Defs
import Mathlib.Tactic.Ring

/-!
# Numbers in positional notation

What a list of digits denotes, said without reading it: each digit stands for a number below the
base, and the number denoted is the sum of these with their powers of the base.

* `IsDigit` — the digits of a base, letters in either case; `digit?_eq_some_iff`;
* `Positional` — digits and the number they denote; `readFrom_eq_some_iff`, by induction on the
  digits, for the number that digits continue;
* `Unsigned` — with a plus sign in front or without; `readUnsigned_eq_some_iff`, reading a 64-bit
  number gives what is denoted, exactly if that is a 64-bit number.
-/

namespace Disassembly.Numeral

variable {base : Nat} {c : Char} {cs : List Char}

/-! ### Digits -/

/-- A character is the digit that stands for `d`, in either case. -/
def IsDigit (base : Nat) (c : Char) (d : Nat) : Prop :=
  d < base ∧ (c = d.digitChar ∨ c = d.digitChar.toUpper)

theorem isDigit_of_hexDigit? {d : Nat} (h : hexDigit? c = some d) :
    c = d.digitChar ∨ c = d.digitChar.toUpper := by
  have hnumeral : ∀ d < 10, d.digitChar.toNat = d + 48 := by decide
  have hlower : ∀ d < 16, 10 ≤ d → d.digitChar.toNat = d + 87 := by decide
  have hupper : ∀ d < 16, 10 ≤ d → d.digitChar.toUpper.toNat = d + 55 := by decide
  rcases hexDigit?_eq_some_iff.mp h with hc | hc | hc
  · refine Or.inl (Char.toNat_inj.mp ?_)
    rw [hnumeral d (by omega)]
    omega
  · refine Or.inl (Char.toNat_inj.mp ?_)
    rw [hlower d (by omega) (by omega)]
    omega
  · refine Or.inr (Char.toNat_inj.mp ?_)
    rw [hupper d (by omega) (by omega)]
    omega

/-- The digits of a base up to sixteen are those that are read as such. -/
theorem digit?_eq_some_iff (hbase : base ≤ 16) {d : Nat} :
    digit? base c = some d ↔ IsDigit base c d := by
  constructor
  · intro h
    exact ⟨digit?_lt h, isDigit_of_hexDigit? (hexDigit?_of_digit? h)⟩
  · rintro ⟨hd, rfl | rfl⟩
    · exact digit?_eq_some (hexDigit?_digitChar d (by omega)) hd
    · exact digit?_eq_some (hexDigit?_toUpper_digitChar d (by omega)) hd

/-! ### Numbers -/

/-- Digits, at least one and the most significant first, denote a number. -/
inductive Positional (base : Nat) : List Char → Nat → Prop where
  | mk {cs : List Char} {ds : List Nat} (hne : cs ≠ [])
    (hdigits : List.Forall₂ (IsDigit base) cs ds) :
    Positional base cs (Nat.ofDigits base ds.reverse)

/-- A number that is continued by digits moves up by one place for each. -/
theorem readFrom_eq_some_iff (hbase : base ≤ 16) {n k : Nat} : readFrom base n cs = some k ↔
    ∃ ds, List.Forall₂ (IsDigit base) cs ds ∧
      k = n * base ^ cs.length + Nat.ofDigits base ds.reverse := by
  induction cs generalizing n with
  | nil =>
    rw [readFrom, Option.some.injEq]
    constructor
    · rintro rfl
      exact ⟨[], .nil, by simp⟩
    · rintro ⟨ds, hds, rfl⟩
      cases hds
      simp
  | cons c cs ih =>
    -- The first digit goes to the number in front, the others are as in the shorter list.
    have hplace : ∀ {d : Nat} {ds : List Nat}, List.Forall₂ (IsDigit base) cs ds →
        n * base ^ (c :: cs).length + Nat.ofDigits base (d :: ds).reverse =
          (n * base + d) * base ^ cs.length + Nat.ofDigits base ds.reverse := by
      intro d ds hds
      rw [List.reverse_cons, Nat.ofDigits_append, Nat.ofDigits_singleton, List.length_reverse,
        ← hds.length_eq, List.length_cons]
      ring
    rw [readFrom]
    constructor
    · intro h
      cases hd : digit? base c with
      | none =>
        rw [hd] at h
        cases h
      | some d =>
        rw [hd] at h
        obtain ⟨ds, hds, rfl⟩ := ih.mp h
        exact ⟨d :: ds, .cons ((digit?_eq_some_iff hbase).mp hd) hds, (hplace hds).symm⟩
    · rintro ⟨ds, hds, rfl⟩
      cases hds with
      | cons hd hds =>
        rw [(digit?_eq_some_iff hbase).mpr hd]
        exact ih.mpr ⟨_, hds, hplace hds⟩

theorem positional_iff (hbase : base ≤ 16) {n : Nat} :
    Positional base cs n ↔ cs ≠ [] ∧ readFrom base 0 cs = some n := by
  rw [readFrom_eq_some_iff hbase]
  simp only [Nat.zero_mul, Nat.zero_add]
  constructor
  · rintro ⟨hne, hdigits⟩
    exact ⟨hne, _, hdigits, rfl⟩
  · rintro ⟨hne, ds, hdigits, rfl⟩
    exact ⟨hne, hdigits⟩

/-- Digits have values in base sixteen. -/
theorem Positional.digit (hbase : base ≤ 16) {n : Nat} (h : Positional base cs n) :
    ∀ c ∈ cs, ∃ d, hexDigit? c = some d :=
  hexDigit?_of_readFrom ((positional_iff hbase).mp h).2

/-- The digits of a number denote it, in either case and behind any number of zeros. -/
theorem positional_leftpad (hone : 1 < base) (hbase : base ≤ 16) (width : Nat) {f : Char → Char}
    (hf : f = id ∨ f = Char.toUpper) (n : Nat) :
    Positional base (List.leftpad width '0' ((Nat.toDigits base n).map f)) n := by
  have hdigit : ∀ d < base, digit? base (f d.digitChar) = some d := by
    intro d hd
    rcases hf with rfl | rfl
    · exact digit?_eq_some (hexDigit?_digitChar d (by omega)) hd
    · exact digit?_eq_some (hexDigit?_toUpper_digitChar d (by omega)) hd
  rw [positional_iff hbase, List.leftpad, readFrom_zeros (by omega)]
  exact ⟨List.append_ne_nil_of_right_ne_nil _ (mt List.map_eq_nil_iff.mp Nat.toDigits_ne_nil),
    readFrom_toDigits hone hdigit n⟩

/-! ### Unsigned numbers -/

/-- Digits denote a number, with a plus sign in front of them or without. -/
inductive Unsigned (base : Nat) : List Char → Nat → Prop where
  | plain {cs : List Char} {n : Nat} (h : Positional base cs n) : Unsigned base cs n
  | plus {cs : List Char} {n : Nat} (h : Positional base cs n) : Unsigned base ('+' :: cs) n

theorem unsigned_iff (hbase : base ≤ 16) {n : Nat} :
    Unsigned base cs n ↔ Positional base (dropPlus cs) n := by
  constructor
  · intro h
    cases h with
    | plain h => rwa [dropPlus_of_readFrom ((positional_iff hbase).mp h).2]
    | plus h => exact h
  · intro h
    unfold dropPlus at h
    split at h
    · exact .plus h
    · exact .plain h

/-- Digits denote no other number. -/
theorem Unsigned.unique (hbase : base ≤ 16) {n k : Nat} (hn : Unsigned base cs n)
    (hk : Unsigned base cs k) : n = k := by
  rw [unsigned_iff hbase, positional_iff hbase] at hn hk
  exact Option.some.inj (hn.2.symm.trans hk.2)

/-- But for the sign there are digits only. -/
theorem Unsigned.alphabet (hbase : base ≤ 16) {n : Nat} (h : Unsigned base cs n) :
    ∀ c ∈ cs, c = '+' ∨ ∃ d, hexDigit? c = some d := by
  cases h with
  | plain h => exact fun c hc => Or.inr (h.digit hbase c hc)
  | plus h =>
    exact List.forall_mem_cons.mpr ⟨Or.inl rfl, fun c hc => Or.inr (h.digit hbase c hc)⟩

/-- **Reading a 64-bit number** gives the number denoted, exactly if it is a 64-bit number. -/
theorem readUnsigned_eq_some_iff (hbase : base ≤ 16) {a : UInt64} :
    readUnsigned base cs = some a ↔ Unsigned base cs a.toNat := by
  rw [unsigned_iff hbase, positional_iff hbase, readUnsigned]
  constructor
  · intro h
    split at h
    · cases h
    · next digits hne =>
      rw [readWord_eq hbase] at h
      obtain ⟨n, hn, rfl⟩ := Option.map_eq_some_iff.mp h
      obtain ⟨hread, hsmall⟩ := Option.filter_eq_some_iff.mp hn
      rw [UInt64.toNat_ofNat', Nat.mod_eq_of_lt (of_decide_eq_true hsmall)]
      exact ⟨hne, hread⟩
  · rintro ⟨hne, hread⟩
    rw [← readUnsigned_eq_some hbase hne hread, readUnsigned, dropPlus_of_readFrom hread]

end Disassembly.Numeral

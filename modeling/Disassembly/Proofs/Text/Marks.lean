import Disassembly.Proofs.Text.Digits

/-!
# Texts between marks

Texts put together with marks between them can be taken apart again as long as no mark stands in a
text that is followed by one.

* `takeWhile_ne_append`, `append_cons_inj` — a text up to a mark;
* `dashed_inj` — any number of names, each behind a dash, up to a dash with a character that no name
  begins with;
* `toString_int_inj`, `not_mem_toString_int` — integers in decimal, and what is no mark in them.
-/

namespace Disassembly

open Numeral

variable {x : Char} {u u' v v' n : List Char}

/-! ### One text -/

theorem takeWhile_ne_append (h : x ∉ u) (w : List Char) :
    (u ++ x :: w).takeWhile (· != x) = u := by
  have hall : ∀ c ∈ u, (c != x) = true := fun c hc =>
    bne_iff_ne.mpr fun heq => h (heq ▸ hc)
  have hstop : ¬ (x != x) = true := fun hne => bne_iff_ne.mp hne rfl
  rw [List.takeWhile_append_of_pos hall, List.takeWhile_cons_of_neg (p := (· != x)) hstop,
    List.append_nil]

/-- The first mark is where the text in front of it ends. -/
theorem append_cons_inj (hu : x ∉ u) (hu' : x ∉ u') (h : u ++ x :: v = u' ++ x :: v') :
    u = u' ∧ v = v' := by
  have hsame : u = u' := calc
    u = (u ++ x :: v).takeWhile (· != x) := (takeWhile_ne_append hu v).symm
    _ = (u' ++ x :: v').takeWhile (· != x) := by rw [h]
    _ = u' := takeWhile_ne_append hu' v'
  subst hsame
  exact ⟨rfl, (List.cons.inj (List.append_cancel_left h)).2⟩

/-! ### Names behind dashes -/

/-- Names, each behind a dash. -/
def dashed (names : List (List Char)) : List Char :=
  names.flatMap ('-' :: ·)

/-- A name that does not have the dash, and does not begin with `x`. -/
def Dashable (x : Char) (n : List Char) : Prop :=
  '-' ∉ n ∧ n.head? ≠ some x

theorem dashed_cons (n : List Char) (names : List (List Char)) :
    dashed (n :: names) = '-' :: (n ++ dashed names) := by
  rw [dashed, List.flatMap_cons, List.cons_append, dashed]

/-- There is a dash behind each name, be it of the next name or of the end. -/
theorem exists_dashed_append (names : List (List Char)) (v : List Char) :
    ∃ w, dashed names ++ '-' :: v = '-' :: w := by
  cases names with
  | nil => exact ⟨v, rfl⟩
  | cons n names => exact ⟨n ++ dashed names ++ '-' :: v, by rw [dashed_cons, List.cons_append]⟩

/-- The end is no name. -/
theorem Dashable.ne_append (hn : Dashable x n) (hx : x ≠ '-') (v w : List Char) :
    x :: v ≠ n ++ '-' :: w := by
  intro h
  cases n with
  | nil => exact hx (List.cons.inj h).1
  | cons c n => exact hn.2 (congrArg some (List.cons.inj h).1.symm)

/-- **Names behind dashes are told apart**, though the end begins with a dash as well. -/
theorem dashed_inj {names names' : List (List Char)} (hx : x ≠ '-')
    (hnames : ∀ n ∈ names, Dashable x n) (hnames' : ∀ n ∈ names', Dashable x n)
    (h : dashed names ++ '-' :: x :: v = dashed names' ++ '-' :: x :: v') :
    names = names' ∧ v = v' := by
  induction names generalizing names' with
  | nil =>
    cases names' with
    | nil => exact ⟨rfl, (List.cons.inj (List.cons.inj h).2).2⟩
    | cons n names' =>
      obtain ⟨w, hw⟩ := exists_dashed_append names' (x :: v')
      rw [dashed_cons, List.cons_append, List.append_assoc, hw] at h
      exact absurd (List.cons.inj h).2 ((hnames' n List.mem_cons_self).ne_append hx v w)
  | cons n names ih =>
    obtain ⟨w, hw⟩ := exists_dashed_append names (x :: v)
    rw [dashed_cons, List.cons_append, List.append_assoc, hw] at h
    cases names' with
    | nil =>
      exact absurd (List.cons.inj h).2.symm ((hnames n List.mem_cons_self).ne_append hx v' w)
    | cons n' names' =>
      obtain ⟨w', hw'⟩ := exists_dashed_append names' (x :: v')
      rw [dashed_cons, List.cons_append, List.append_assoc, hw'] at h
      obtain ⟨rfl, rfl⟩ := append_cons_inj (hnames n List.mem_cons_self).1
        (hnames' n' List.mem_cons_self).1 (List.cons.inj h).2
      obtain ⟨rfl, rfl⟩ := ih (List.forall_mem_cons.mp hnames).2
        (List.forall_mem_cons.mp hnames').2 (hw.trans hw'.symm)
      exact ⟨rfl, rfl⟩

/-! ### Integers -/

theorem readFrom_repr (k : Nat) : readFrom 10 0 k.repr.toList = some k := by
  have h : readFrom 10 0 ((Nat.toDigits 10 k).map id) = some k :=
    readFrom_toDigits (by decide)
      (fun d hd => digit?_eq_some (hexDigit?_digitChar d (by omega)) hd) k
  rwa [List.map_id, ← String.toList_ofList (l := Nat.toDigits 10 k),
    ← Nat.repr_eq_ofList_toDigits] at h

theorem repr_inj {k l : Nat} (h : k.repr = l.repr) : k = l := by
  have hk := readFrom_repr k
  rw [h, readFrom_repr l] at hk
  exact (Option.some.inj hk).symm

/-- What is no digit is not written in a number. -/
theorem not_mem_repr (hx : hexDigit? x = none) (k : Nat) : x ∉ k.repr.toList := by
  intro hmem
  obtain ⟨d, hd⟩ := hexDigit?_of_readFrom (readFrom_repr k) x hmem
  rw [hx] at hd
  cases hd

/-- No natural number is written with a sign. -/
theorem repr_ne_minus (k l : Nat) : k.repr ≠ "-" ++ l.repr := by
  intro h
  have hminus := not_mem_repr (x := '-') rfl k
  rw [h, String.toList_append] at hminus
  exact hminus (List.mem_append_left _ (List.mem_singleton_self '-'))

/-- **Integers are told apart by their decimal notation.** -/
theorem toString_int_inj {a b : Int} (h : toString a = toString b) : a = b := by
  cases a with
  | ofNat k =>
    cases b with
    | ofNat l => exact congrArg Int.ofNat (repr_inj h)
    | negSucc l => exact absurd h (repr_ne_minus k _)
  | negSucc k =>
    cases b with
    | ofNat l => exact absurd h.symm (repr_ne_minus l _)
    | negSucc l =>
      exact congrArg Int.negSucc (Nat.succ.inj (repr_inj ((String.append_right_inj "-").mp h)))

/-- There is nothing but digits and the sign in an integer. -/
theorem not_mem_toString_int (hx : hexDigit? x = none) (hsign : x ≠ '-') (a : Int) :
    x ∉ (toString a).toList := by
  cases a with
  | ofNat k => exact not_mem_repr hx k
  | negSucc k =>
    show x ∉ ("-" ++ k.succ.repr).toList
    rw [String.toList_append, List.mem_append, not_or]
    exact ⟨fun hmem => hsign (List.mem_singleton.mp hmem), not_mem_repr hx k.succ⟩

end Disassembly

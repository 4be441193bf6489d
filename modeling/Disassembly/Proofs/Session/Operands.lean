import Disassembly.Proofs.Session.Inquiries
import Mathlib.Algebra.BigOperators.Group.List.Basic
import Mathlib.Algebra.GroupWithZero.Nat

/-!
# Enumerating operands

The operands of one kind are counted and found by their positions, the first of which is one.  A
detail enumerates its operands so, and a record those of its detail.

* `placesOf` — the indices of the operands of a kind; `getElem?_filter_eq` and
  `getElem?_placesOf` lead from positions to indices and back;
* `Enumerates` — counts and positions go through a list of operands without loss or repetition;
  `Detail.enumerates` — those of a detail do;
* `Record.value_inquire_detail`, `Record.sound_inquireAll` — what a record says of its detail, by
  itself and after other queries, on any engine;
* `Record.operands_enumerated` — counts and positions of details and of records.
-/

namespace Disassembly

/-! ### Places -/

/-- The indices of the operands of a kind, in order. -/
def placesOf (os : List Operand) (k : OperandKind) : List Nat :=
  os.findIdxs fun o => o.kind == k

/-- What is kept at a position stood at the index that has this position among those kept. -/
theorem getElem?_filter_eq {α : Type} (q : α → Bool) (l : List α) (p : Nat) :
    (l.filter q)[p]? = (l.findIdxs q)[p]?.bind fun i => l[i]? := by
  have hlen : (l.filter q).length = (l.findIdxs q).length := by
    rw [List.length_findIdxs, List.countP_eq_length_filter]
  by_cases hp : p < (l.filter q).length
  · have hp' : p < (l.findIdxs q).length := hlen ▸ hp
    rw [List.getElem?_eq_getElem hp, List.getElem?_eq_getElem hp', Option.bind_some,
      List.getElem_filter_eq_getElem_getElem_findIdxs hp, List.getElem?_eq_getElem]
  · rw [List.getElem?_eq_none (by omega), List.getElem?_eq_none (by omega), Option.bind_none]

/-- The index of an operand has as many places of its kind before it as there are such operands. -/
theorem getElem?_placesOf {os : List Operand} {i : Nat} {o : Operand} (h : os[i]? = some o) :
    (placesOf os o.kind)[(os.take i).countP fun x => x.kind == o.kind]? = some i := by
  obtain ⟨hi, rfl⟩ := List.getElem?_eq_some_iff.mp h
  have hsplit : os.take i ++ os[i] :: os.drop (i + 1) = os := by
    rw [← List.drop_eq_getElem_cons hi, List.take_append_drop]
  have hplaces := @List.findIdxs_append _ (os.take i) (os[i] :: os.drop (i + 1))
    (fun x => x.kind == os[i].kind) 0
  rw [hsplit, List.findIdxs_cons, if_pos (beq_self_eq_true _), List.length_take_of_le hi.le,
    Nat.zero_add] at hplaces
  rw [placesOf, hplaces, List.getElem?_append_right (by rw [List.length_findIdxs]),
    List.length_findIdxs, Nat.sub_self, List.getElem?_cons_zero]

theorem sum_countP_kind (os : List Operand) :
    (OperandKind.all.map fun k => os.countP fun o => o.kind == k).sum = os.length := by
  induction os with
  | nil => rfl
  | cons o os ih =>
    have hone : (OperandKind.all.map fun k => if (o.kind == k) = true then 1 else 0).sum = 1 := by
      cases o.kind <;> rfl
    simp only [List.countP_cons]
    rw [List.sum_map_add, ih, hone, List.length_cons]

/-! ### Counts and positions -/

/-- Counts and positions go through the operands of each kind in order, from position one on. -/
structure Enumerates (os : List Operand) (count : OperandKind → Nat)
    (find : OperandKind → Nat → Option Operand) : Prop where
  isSome_iff : ∀ k p, (find k p).isSome = true ↔ 1 ≤ p ∧ p ≤ count k
  kind : ∀ k p o, find k p = some o → o.kind = k
  listed : ∀ k, (List.range (count k)).map (fun p => find k (p + 1)) =
    (os.filter fun o => o.kind == k).map some
  places : ∀ k p, find k (p + 1) = (placesOf os k)[p]?.bind fun i => os[i]?
  increasing : ∀ k, (placesOf os k).Pairwise (· < ·)
  /-- Every operand is found, at its own index, at the position behind the earlier ones. -/
  found : ∀ (i : Nat) (o : Operand), os[i]? = some o →
    let earlier := (os.take i).countP fun x => x.kind == o.kind
    find o.kind (1 + earlier) = some o ∧ (placesOf os o.kind)[earlier]? = some i
  total : (OperandKind.all.map count).sum = os.length

namespace Detail

theorem opFind_succ (d : Detail) (k : OperandKind) (p : Nat) :
    d.opFind k (p + 1) = (placesOf d.operands k)[p]?.bind fun i => d.operands[i]? :=
  getElem?_filter_eq _ d.operands p

theorem opCount_eq_countP (d : Detail) (k : OperandKind) :
    d.opCount k = d.operands.countP fun o => o.kind == k :=
  List.countP_eq_length_filter.symm

/-- **A detail enumerates its operands.** -/
theorem enumerates (d : Detail) : Enumerates d.operands d.opCount d.opFind where
  isSome_iff := by
    intro k p
    cases p with
    | zero => simp [opFind]
    | succ p =>
      show (d.ofKind k)[p]?.isSome = true ↔ 1 ≤ p + 1 ∧ p + 1 ≤ (d.ofKind k).length
      rw [Option.isSome_iff_ne_none, ne_eq, List.getElem?_eq_none_iff]
      omega
  kind := by
    intro k p o ho
    cases p with
    | zero => cases ho
    | succ p =>
      have hmem : o ∈ d.ofKind k := List.mem_of_getElem? ho
      exact eq_of_beq (List.mem_filter.mp hmem).2
  listed := by
    intro k
    apply List.ext_getElem
    · rw [List.length_map, List.length_range, List.length_map]
      rfl
    · intro p h₁ h₂
      rw [List.length_map] at h₂
      rw [List.getElem_map, List.getElem_map, List.getElem_range]
      exact List.getElem?_eq_getElem h₂
  places := d.opFind_succ
  increasing := fun k => List.pairwise_findIdxs
  found := by
    intro i o ho earlier
    have hplace : (placesOf d.operands o.kind)[earlier]? = some i := getElem?_placesOf ho
    refine ⟨?_, hplace⟩
    rw [Nat.add_comm, opFind_succ, hplace, Option.bind_some, ho]
  total := by
    rw [← sum_countP_kind]
    exact congrArg List.sum (List.map_congr_left fun k _ => d.opCount_eq_countP k)

end Detail

/-! ### Records -/

/-- An instruction has its detail at hand if it has text and a block. -/
theorem Insn.detail_isOk_iff (i : Insn) :
    (∃ d, i.detail = .ok d) ↔ i.diet = false ∧ i.hasDetail = true := by
  unfold detail diet hasDetail
  cases i.text <;> cases i.block <;> simp

namespace Record

variable {B : Backend}

/-- What a record gives as its detail, on an engine that need not be mute. -/
theorem value_readDetail {r : Record} (h : r.Sound) (s : B.State) :
    ((r.readDetail : Attempt B (Detail × Record)).run s).value =
      match r.insn.detail with
      | .ok x => .ok (x, r.remember true)
      | .error c => Insn.refused (B.phrase s) c := by
  cases hdetail : r.insn.detail with
  | ok x =>
    obtain ⟨es, hrun, -⟩ := readDetail_of_ok h hdetail s
    rw [hrun]
  | error c =>
    rw [readDetail_of_error hdetail]
    exact congrArg Outcome.value (Attempt.run_refuse c s)

/-- A query about the detail has the answer of the instruction, and leaves a record of it. -/
theorem value_inquire_detail {r : Record} (h : r.Sound) (q : DetailQuery) (s : B.State) :
    ((r.inquire (.detail q) : Dialogue B (Except Error Answer × Record)) s).value =
      (r.insn.answer (B.phrase s) (.detail q), r.remember true) := by
  have hread := value_readDetail h s
  rw [inquire, Dialogue.run_bind, hread, Insn.answer]
  cases hdetail : r.insn.detail with
  | ok x => rfl
  | error c => exact congrArg (Prod.mk _) (h.remember_of_error hdetail true).symm

theorem record_inquire {r : Record} (h : r.Sound) (q : Query) (s : B.State) :
    ((r.inquire q : Dialogue B (Except Error Answer × Record)) s).value.2 =
      r.remember q.readsDetail := by
  cases q with
  | detail q => exact congrArg Prod.snd (value_inquire_detail h q s)
  | _ => rfl

/-- Queries leave a record of the same instruction that remembers nothing but the truth. -/
theorem sound_inquireAll {r : Record} (h : r.Sound) (qs : List Query) (s : B.State) :
    let after := ((r.inquireAll qs : Dialogue B (List (Except Error Answer) × Record)) s).value.2
    after.Sound ∧ after.insn = r.insn := by
  induction qs generalizing r s with
  | nil => exact ⟨h, rfl⟩
  | cons q qs ih =>
    have hrecord := record_inquire h q s
    rw [inquireAll, Dialogue.run_bind]
    generalize (r.inquire q : Dialogue B (Except Error Answer × Record)) s = first at hrecord
    obtain ⟨⟨answer, r₁⟩, s₁, es⟩ := first
    obtain rfl : r₁ = r.remember q.readsDetail := hrecord
    obtain ⟨hsound, hinsn⟩ := ih (h.remember q.readsDetail) s₁
    exact ⟨hsound, hinsn.trans (r.insn_remember q.readsDetail)⟩

/-- **Counts and positions enumerate the operands**, of every detail, and of every record that has
its detail at hand, whatever it was asked before.  A record that has not refuses them for the reason
for which it refuses its detail.  Of the three readings of an operand each is there exactly for its
kinds. -/
theorem operands_enumerated :
    (∀ d : Detail, Enumerates d.operands d.opCount d.opFind) ∧
      (∀ o : Operand, (o.reg.isSome = true ↔ o.kind = .reg) ∧
        (o.imm.isSome = true ↔ o.kind = .imm ∨ o.kind = .cimm ∨ o.kind = .pimm) ∧
        (o.mem.isSome = true ↔ o.kind = .mem)) ∧
      ∀ (B : Backend) (i : Insn) (before : List Query) (s s' : B.State),
        let r := (((Record.mk i none).inquireAll before :
          Dialogue B (List (Except Error Answer) × Record)) s).value.2
        let ask (q : DetailQuery) :=
          ((r.inquire (.detail q) : Dialogue B (Except Error Answer × Record)) s').value.1
        (i.diet = false ∧ i.hasDetail = true → ∃ d count find,
          ask .whole = .ok (.detail d) ∧ (∀ k, ask (.opCount k) = .ok (.count (count k))) ∧
            (∀ k p, ask (.opFind k p) = .ok (.found (find k p))) ∧
            Enumerates d.operands count find) ∧
          (¬ (i.diet = false ∧ i.hasDetail = true) → ∃ e, ask .whole = .error e ∧
            ∀ k p, ask (.opCount k) = .error e ∧ ask (.opFind k p) = .error e) := by
  refine ⟨Detail.enumerates, ?_, ?_⟩
  · rintro ⟨value, shift, ext, size⟩
    cases value <;> simp [Operand.reg, Operand.imm, Operand.mem, Operand.kind, OperandValue.kind]
  · intro B i before s s' r ask
    obtain ⟨hsound, hinsn⟩ := sound_inquireAll (sound_fresh i) before s
    have hask : ∀ q, ask q = i.answer (B.phrase s') (.detail q) := by
      intro q
      have hvalue := value_inquire_detail hsound q s'
      rw [hinsn] at hvalue
      exact congrArg Prod.fst hvalue
    rw [← Insn.detail_isOk_iff]
    constructor
    · rintro ⟨d, hd⟩
      have hanswer : ∀ q, ask q = .ok (q.answer d) := by
        intro q
        rw [hask, Insn.answer, hd]
      exact ⟨d, d.opCount, d.opFind, hanswer _, fun k => hanswer _, fun k p => hanswer _,
        d.enumerates⟩
    · intro hnone
      cases hdetail : i.detail with
      | ok d => exact absurd ⟨d, hdetail⟩ hnone
      | error c =>
        have hrefused : ∀ q, ask q = Insn.refused (B.phrase s') c := by
          intro q
          rw [hask, Insn.answer, hdetail]
        exact ⟨_, hrefused _, fun k p => ⟨hrefused _, hrefused _⟩⟩

end Record

end Disassembly

import Disassembly.Proofs.Session.Course

/-!
# Journals of runs

A run is looked back on through its journal: each of its moves with the report of what it came to.

* `Desk.reach` — the desk and the engine after moves, so that a reachable state is one of these;
* `Desk.journal` — the moves with their reports; both follow a run that is made in two parts
  (`Desk.reach_append`, `Desk.journal_append`);
* `Desk.engine?_put`, `Desk.engine?_remove` — what filling and emptying a slot do to each slot.
-/

namespace Disassembly

variable {B : Backend}

/-! ### Slots -/

section Lookup

variable {κ ν : Type} [DecidableEq κ] [BEq κ] [LawfulBEq κ]

theorem lookup_cons_eq (k : κ) (p : κ × ν) (l : List (κ × ν)) :
    (p :: l).lookup k = if k = p.1 then some p.2 else l.lookup k := by
  rw [List.lookup_cons]
  by_cases h : k = p.1
  · simp [h]
  · rw [beq_false_of_ne h, if_neg h]

theorem lookup_filter_ne (key k : κ) (l : List (κ × ν)) :
    (l.filter fun p => p.1 ≠ key).lookup k = if k = key then none else l.lookup k := by
  induction l with
  | nil => simp
  | cons p l ih =>
    by_cases hp : p.1 = key
    · rw [List.filter_cons_of_neg (by simp [hp]), ih, lookup_cons_eq, hp]
      by_cases h : k = key <;> simp [h]
    · rw [List.filter_cons_of_pos (by simp [hp]), lookup_cons_eq, ih, lookup_cons_eq]
      by_cases h : k = p.1
      · have hne : k ≠ key := fun heq => hp (h.symm.trans heq)
        rw [if_pos h, if_pos h, if_neg hne]
      · rw [if_neg h, if_neg h]

end Lookup

namespace Desk

theorem lookup_insert (slot k : Nat) (e : Engine) (l : List (Nat × Engine)) :
    (insert slot e l).lookup k = if k = slot then some e else l.lookup k := by
  induction l with
  | nil =>
    show [(slot, e)].lookup k = _
    rw [lookup_cons_eq]
  | cons p l ih =>
    rw [insert]
    by_cases hlt : slot < p.1
    · rw [if_pos hlt, lookup_cons_eq]
    · rw [if_neg hlt]
      by_cases heq : slot = p.1
      · rw [if_pos heq, lookup_cons_eq, lookup_cons_eq, ← heq]
        by_cases h : k = slot <;> simp [h]
      · rw [if_neg heq, lookup_cons_eq, lookup_cons_eq, ih]
        by_cases h : k = p.1
        · have hne : k ≠ slot := fun hk => heq (hk.symm.trans h)
          rw [if_pos h, if_pos h, if_neg hne]
        · rw [if_neg h, if_neg h]

theorem engine?_put (d : Desk) (slot k : Nat) (e : Engine) :
    (d.put slot e).engine? k = if k = slot then some e else d.engine? k :=
  lookup_insert slot k e d.engines

theorem engine?_remove (d : Desk) (slot k : Nat) :
    (d.remove slot).engine? k = if k = slot then none else d.engine? k :=
  lookup_filter_ne slot k d.engines

theorem engine?_congr {d d' : Desk} (h : d'.engines = d.engines) (k : Nat) :
    d'.engine? k = d.engine? k := by
  show d'.engines.lookup k = d.engines.lookup k
  rw [h]

/-! ### Runs in two parts -/

/-- Where moves lead: the desk and the native engine after them. -/
def reach (d : Desk) (s : B.State) : List (Move B) → Desk × B.State
  | [] => (d, s)
  | m :: ms => (d.move s m).desk.reach (d.move s m).state ms

/-- The moves of a run, each with what it came to. -/
def journal (d : Desk) (s : B.State) (ms : List (Move B)) : List (Move B × Report B) :=
  ms.zip (d.run s ms)

theorem journal_cons (d : Desk) (s : B.State) (m : Move B) (ms : List (Move B)) :
    d.journal s (m :: ms) =
      (m, d.move s m) :: (d.move s m).desk.journal (d.move s m).state ms := rfl

theorem reach_append (d : Desk) (s : B.State) (ms ms' : List (Move B)) :
    d.reach s (ms ++ ms') = (d.reach s ms).1.reach (d.reach s ms).2 ms' := by
  induction ms generalizing d s with
  | nil => rfl
  | cons m ms ih =>
    rw [List.cons_append, reach, ih]
    rfl

theorem journal_append (d : Desk) (s : B.State) (ms ms' : List (Move B)) :
    d.journal s (ms ++ ms') =
      d.journal s ms ++ (d.reach s ms).1.journal (d.reach s ms).2 ms' := by
  induction ms generalizing d s with
  | nil => rfl
  | cons m ms ih =>
    rw [List.cons_append, journal_cons, ih, journal_cons]
    rfl

theorem run_append (d : Desk) (s : B.State) (ms ms' : List (Move B)) :
    d.run s (ms ++ ms') = d.run s ms ++ (d.reach s ms).1.run (d.reach s ms).2 ms' := by
  induction ms generalizing d s with
  | nil => rfl
  | cons m ms ih =>
    rw [List.cons_append, run, ih]
    rfl

/-- A report of a run is that of a move made where earlier moves lead. -/
theorem exists_reach_of_mem_run {d : Desk} {s : B.State} {ms : List (Move B)} {r : Report B}
    (hr : r ∈ d.run s ms) : ∃ before m after, ms = before ++ m :: after ∧
      r = (d.reach s before).1.move (d.reach s before).2 m := by
  induction ms generalizing d s with
  | nil => cases hr
  | cons m ms ih =>
    rcases List.mem_cons.mp hr with rfl | hmem
    · exact ⟨[], m, ms, rfl, rfl⟩
    · obtain ⟨before, m', after, rfl, heq⟩ := ih hmem
      exact ⟨m :: before, m', after, rfl, heq⟩

end Desk

end Disassembly

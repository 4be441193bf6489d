import Disassembly.Proofs.Session.Veils

/-!
# States that no question tells apart

Two states of a native engine can be the same to whoever asks it questions.  Then whatever is done
with the engine comes to the same from both, with the same events, and ends in states that are the
same again.

* `Backend.Indistinct` — whatever is asked, one question after another, the answers are equal;
* `Backend.veiled_indistinct` — so nothing has to be hidden in them, and what is known of engines
  under a veil holds with equality;
* `Dialogue.Same.eq` — what it is that comes to the same;
* `Engine.same_openWith`, `Engine.same_configure`, `Engine.same_disasm`, `Engine.same_regName`,
  `Record.same_readDetail` — what is done with one engine.
-/

namespace Disassembly

variable {B : Backend} {α β : Type} {s s' s'' : B.State}

namespace Backend

/-- The answers to questions that are asked one after another. -/
def answers (B : Backend) (s : B.State) : List Call → List ((c : Call) × c.Answer)
  | [] => []
  | c :: cs => ⟨c, (B.answer s c).1⟩ :: B.answers (B.answer s c).2 cs

/-- Two states in which all questions, in whatever order they are asked, have the same answers. -/
def Indistinct (B : Backend) (s s' : B.State) : Prop :=
  ∀ cs, B.answers s cs = B.answers s' cs

theorem Indistinct.refl (s : B.State) : B.Indistinct s s :=
  fun _ => rfl

theorem Indistinct.symm (h : B.Indistinct s s') : B.Indistinct s' s :=
  fun cs => (h cs).symm

theorem Indistinct.trans (h : B.Indistinct s s') (h' : B.Indistinct s' s'') : B.Indistinct s s'' :=
  fun cs => (h cs).trans (h' cs)

theorem Indistinct.answer (h : B.Indistinct s s') (c : Call) :
    (B.answer s c).1 = (B.answer s' c).1 := by
  have hone := (List.cons.inj (h [c])).1
  exact eq_of_heq (Sigma.mk.inj hone).2

theorem Indistinct.next (h : B.Indistinct s s') (c : Call) :
    B.Indistinct (B.answer s c).2 (B.answer s' c).2 :=
  fun cs => (List.cons.inj (h (c :: cs))).2

end Backend

/-- Answers in which nothing is hidden are equal. -/
theorem Veil.Answers.eq_of_nothing {c : Call} {a a' : c.Answer}
    (h : Veil.Answers .nothing c a a') : a = a' := by
  cases c with
  | disasm k code address count =>
    obtain ⟨n, array⟩ := a
    obtain ⟨n', array'⟩ := a'
    obtain ⟨hcount, harray⟩ := h
    obtain rfl : n = n' := hcount
    cases harray with
    | none => rfl
    | @some x x' hsome =>
      obtain ⟨number, insns⟩ := x
      obtain ⟨number', insns'⟩ := x'
      obtain ⟨hnumber, hinsns⟩ := hsome
      obtain rfl : number = number' := hnumber
      obtain rfl : insns = insns' := List.forall₂_eq_eq_eq ▸ hinsns
      rfl
  | _ => exact h

/-- **States that no question tells apart** are states under a veil that hides nothing. -/
theorem Backend.veiled_indistinct (B : Backend) : B.Veiled .nothing B.Indistinct Eq where
  answers h c := h.answer c ▸ Veil.answers_refl _ _ _
  next h c := h.next c
  flavour _ := trivial
  call _ _ _ h := h.eq_of_nothing ▸ rfl
  log _ _ _ := rfl

/-! ### Dialogues and attempts -/

theorem SameResult.mono {Q Q' : α → β → Prop} (hQ : ∀ a b, Q a b → Q' a b) {r : Except Error α}
    {r' : Except Error β} (h : SameResult Q r r') : SameResult Q' r r' := by
  cases h with
  | error e => exact .error e
  | ok h => exact .ok (hQ _ _ h)

namespace Dialogue

variable {R : B.State → B.State → Prop} {E : Event → Event → Prop}

/-- Where events are compared by equality, a dialogue from related states comes to the same. -/
theorem Same.eq {x : Dialogue B α} (h : Same R Eq x) (hs : R s s') :
    (x s).value = (x s').value ∧ R (x s).state (x s').state ∧ (x s).events = (x s').events := by
  obtain ⟨hvalue, hstate, hevents⟩ := h s s' hs
  rw [List.forall₂_eq_eq_eq] at hevents
  exact ⟨hvalue, hstate, hevents⟩

end Dialogue

/-- An attempt that is like itself, with values that are equal, has equal results. -/
theorem Attempt.Alike.same {R : B.State → B.State → Prop} {E : Event → Event → Prop}
    {Q : α → α → Prop} {x : Attempt B α} (h : Attempt.Alike R E Q x x) (hQ : ∀ a b, Q a b → a = b) :
    Attempt.Same R E x := by
  intro s s' hs
  obtain ⟨hvalue, hrest⟩ := h s s' hs
  exact ⟨(hvalue.mono hQ).eq, hrest⟩

/-! ### One engine -/

open Attempt

namespace Engine

theorem same_openWith (arch : Arch) (mode : Mode) :
    Same B.Indistinct Eq (openWith arch mode : Attempt B Engine) :=
  (alike_openWith B.veiled_indistinct arch mode).same fun _ _ h => h.1

theorem same_configure (e : Engine) (x : Setting) :
    Same B.Indistinct Eq (e.configure x : Attempt B Engine) :=
  (e.alike_configure B.veiled_indistinct x).same fun _ _ h => h.1

theorem same_regName (e : Engine) (id : UInt32) :
    Same B.Indistinct Eq (e.regName id : Attempt B (Option String)) :=
  (e.alike_regName B.veiled_indistinct id).same fun _ _ h => h

theorem same_disasm (e : Engine) (code : List UInt8) (address : UInt64) (count : Nat) :
    Same B.Indistinct Eq (e.disasm code address count : Attempt B (List Insn)) := by
  have hnative : Same B.Indistinct Eq
      (e.decodeNative code address count : Attempt B (List NativeInsn)) :=
    (e.alike_decodeNative B.veiled_indistinct code address count).same fun l l' hl => by
      rw [← List.forall₂_eq_eq_eq]
      exact hl
  exact hnative.bind fun _ => same_pure _

end Engine

/-- Reading a detail asks nothing. -/
theorem Record.same_readDetail (r : Record) :
    Same B.Indistinct Eq (r.readDetail : Attempt B (Detail × Record)) := by
  unfold readDetail
  split
  · exact same_refuse B.veiled_indistinct _
  · split
    · exact same_refuse B.veiled_indistinct _
    · exact same_pure _
    · exact .bind (same_of (Dialogue.same_log rfl)) fun _ => same_pure _

end Disassembly

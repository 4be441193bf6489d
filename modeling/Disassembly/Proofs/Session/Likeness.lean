import Disassembly.Proofs.Session.Veils

/-!
# Operations of two engines side by side

What is said of operations on an engine behind a veil goes for records and for desks.

* `Record.Alike`, `Reply.Alike`, `Desk.Alike` — two sides that differ in nothing one can ask for;
* `Record.alike_inquireAll` — queries have the same answers on both sides;
* `Desk.alike_step` — every operation on a desk comes to the same on both sides, and keeps engines
  under the veil unless it turns on what is hidden (`Desk.Unveils`).

With nothing hidden, equal states and a relation that asks something of each event alone, this says
what events an operation can leave behind.
-/

namespace Disassembly

variable {B : Backend} {α β : Type} {v : Veil} {R : B.State → B.State → Prop}
  {E : Event → Event → Prop} {Q : α → β → Prop}

open Attempt

/-! ### Operations on records -/

namespace Insn.Alike

variable {i i' : Insn}

theorem diet (h : Insn.Alike v i i') : i.diet = i'.diet := by
  unfold Insn.diet
  rw [h.text]

theorem marked (h : Insn.Alike v i i') : i.marked = i'.marked := by
  unfold Insn.marked
  rw [h.address]

theorem decodingLine (h : Insn.Alike v i i') : i.decodingLine = i'.decodingLine := by
  unfold Insn.decodingLine
  rw [h.arch, h.marked]

theorem display (h : Insn.Alike v i i') : i.display = i'.display := by
  unfold Insn.display
  rw [h.marked, h.text, h.id]

theorem fullLine (h : Insn.Alike v i i') : i.fullLine = i'.fullLine := by
  unfold Insn.fullLine Insn.byteColumn
  rw [h.text, h.address, h.bytes]

theorem shown (h : Insn.Alike v i i') : i.shown = i'.shown := by
  unfold Insn.shown
  rw [h.id, h.marked, h.bytes, h.text, h.arch, h.hasDetail]

end Insn.Alike

/-- Two answers that differ at most in an instruction, and there in nothing one can ask for. -/
inductive Answer.Alike (v : Veil) : Answer → Answer → Prop where
  | plain {a : Answer} (ha : ∀ i m o, a ≠ .summary i m o) : Alike v a a
  | summary {i i' : Insn} (h : Insn.Alike v i i') (mnemonic opStr : Except Error String) :
    Alike v (.summary i mnemonic opStr) (.summary i' mnemonic opStr)

/-- Two records whose instructions are alike and which remember the same. -/
structure Record.Alike (v : Veil) (r r' : Record) : Prop where
  insn : Insn.Alike v r.insn r'.insn
  decoded : r.decoded = r'.decoded

/-- Related values, with records that are alike. -/
structure Record.With (v : Veil) (Q : α → β → Prop) (p : α × Record) (p' : β × Record) :
    Prop where
  value : Q p.1 p'.1
  record : Record.Alike v p.2 p'.2

namespace Record

open Dialogue

/-- A relation of events that is fit for the log record of decoding a detail, too. -/
def Looks (E : Event → Event → Prop) : Prop :=
  ∀ i : Insn, E (.log i.decodingLine.1 i.decodingLine.2) (.log i.decodingLine.1 i.decodingLine.2)

variable {r r' : Record}

theorem same_readText (h : B.Veiled v R E) (r : Record) (part : Rendering → String) :
    Attempt.Same R E (r.readText part : Attempt B String) := by
  unfold readText
  split
  · exact Attempt.same_pure _
  · exact Attempt.same_refuse h _

theorem readText_congr (hr : Record.Alike v r r') (part : Rendering → String) :
    (r'.readText part : Attempt B String) = r.readText part := by
  unfold readText
  rw [hr.insn.text]

/-- With text, alike instructions have no block, or blocks that decode alike. -/
theorem blocks_alike {i i' : Insn} (h : Insn.Alike v i i') (htext : i.diet = false) :
    (i.block = none ∧ i'.block = none) ∨ ∃ b b', i.block = some b ∧ i'.block = some b' ∧
      Detail.decode i.arch b = Detail.decode i'.arch b' := by
  obtain ⟨t, ht⟩ : ∃ t, i.text = some t :=
    Option.isSome_iff_exists.mp (by simpa [Insn.diet] using htext)
  have hdetail := h.detail
  unfold Insn.detail at hdetail
  rw [← h.text, ht] at hdetail
  cases hblock : i.block with
  | none =>
    cases hblock' : i'.block with
    | none => exact Or.inl ⟨rfl, rfl⟩
    | some b' =>
      rw [hblock, hblock'] at hdetail
      cases hdetail
  | some b =>
    cases hblock' : i'.block with
    | none =>
      rw [hblock, hblock'] at hdetail
      cases hdetail
    | some b' =>
      rw [hblock, hblock'] at hdetail
      exact Or.inr ⟨b, b', rfl, rfl, Except.ok.inj hdetail⟩

/-- **A block that may differ is not read**: there is no text to go with it, or no block at all. -/
theorem alike_readDetail (h : B.Veiled v R E) (hlooks : Looks E) (hr : Record.Alike v r r') :
    Attempt.Alike R E (Record.With v Eq)
      (r.readDetail : Attempt B (Detail × Record)) r'.readDetail := by
  unfold readDetail
  rw [← hr.insn.diet]
  cases hdiet : r.insn.diet with
  | true => exact Attempt.alike_refuse h _
  | false =>
    rw [← hr.decoded]
    rcases blocks_alike hr.insn hdiet with ⟨hblock, hblock'⟩ | ⟨b, b', hblock, hblock', hsame⟩
    · rw [hblock, hblock']
      exact Attempt.alike_refuse h _
    · rw [hblock, hblock']
      cases hdecoded : r.decoded with
      | some d => exact Attempt.alike_pure ⟨rfl, hr⟩
      | none =>
        have hlog : Attempt.Same R E (Attempt.log .trace r.insn.decodingLine.2 :
            Attempt B Unit) := same_of (same_log (hlooks r.insn))
        simp only [← hsame]
        show Attempt.Alike R E _ (Attempt.log .trace r.insn.decodingLine.2 >>= _)
          (Attempt.log .trace r'.insn.decodingLine.2 >>= _)
        rw [← hr.insn.decodingLine]
        exact hlog.then fun _ => Attempt.alike_pure ⟨rfl, ⟨hr.insn, rfl⟩⟩

theorem alike_summary (h : B.Veiled v R E) (hr : Record.Alike v r r') :
    Dialogue.Alike R E (Answer.Alike v) (r.summary : Dialogue B Answer) r'.summary := by
  unfold summary
  rw [readText_congr hr, readText_congr hr]
  exact Dialogue.Same.then (r.same_readText h _) fun _ =>
    Dialogue.Same.then (r.same_readText h _) fun _ => Dialogue.alike_pure (.summary hr.insn _ _)

theorem alike_text (h : B.Veiled v R E) (hr : Record.Alike v r r')
    (part : Rendering → String) :
    Dialogue.Alike R E (Record.With v (SameResult (Answer.Alike v)))
      (do return ((← (r.readText part).run).map .text, r) :
        Dialogue B (Except Error Answer × Record))
      (do return ((← (r'.readText part).run).map .text, r')) := by
  rw [readText_congr hr]
  refine Dialogue.Same.then (r.same_readText h part) fun t => Dialogue.alike_pure ⟨?_, hr⟩
  cases t with
  | error e => exact .error e
  | ok t => exact .ok (.plain (fun _ _ _ hne => nomatch hne))

/-- **Every query** has the same answer on both sides. -/
theorem alike_inquire (h : B.Veiled v R E) (hlooks : Looks E) (hr : Record.Alike v r r')
    (q : Query) :
    Dialogue.Alike R E (Record.With v (SameResult (Answer.Alike v)))
      (r.inquire q : Dialogue B (Except Error Answer × Record)) (r'.inquire q) := by
  have hplain : ∀ {a a' : Answer}, a = a' → (∀ i m o, a ≠ .summary i m o) →
      Dialogue.Alike R E (Record.With v (SameResult (Answer.Alike v)))
        (Pure.pure (.ok a, r) : Dialogue B (Except Error Answer × Record))
        (Pure.pure (.ok a', r')) := by
    rintro a _ rfl ha
    exact Dialogue.alike_pure ⟨.ok (.plain ha), hr⟩
  cases q with
  | mnemonic => exact alike_text h hr _
  | opStr => exact alike_text h hr _
  | hasDetail => exact hplain (congrArg _ hr.insn.hasDetail) fun _ _ _ hne => nomatch hne
  | display => exact hplain (congrArg _ hr.insn.display) fun _ _ _ hne => nomatch hne
  | fullLine => exact hplain (congrArg _ hr.insn.fullLine) fun _ _ _ hne => nomatch hne
  | shown => exact hplain (congrArg _ hr.insn.shown) fun _ _ _ hne => nomatch hne
  | summary =>
    exact (alike_summary h hr).bind fun _ _ ha => Dialogue.alike_pure ⟨.ok ha, hr⟩
  | detail q =>
    refine Dialogue.Alike.bind (alike_readDetail h hlooks hr) fun p p' hp => ?_
    cases hp with
    | error e => exact Dialogue.alike_pure ⟨.error e, hr⟩
    | @ok p p' hp =>
      obtain ⟨d, r₁⟩ := p
      obtain ⟨d', r₁'⟩ := p'
      obtain ⟨hd, hr₁⟩ := hp
      obtain rfl : d = d' := hd
      refine Dialogue.alike_pure ⟨.ok (.plain ?_), hr₁⟩
      cases q <;> exact fun _ _ _ hne => nomatch hne

theorem alike_inquireAll (h : B.Veiled v R E) (hlooks : Looks E) (hr : Record.Alike v r r')
    (qs : List Query) :
    Dialogue.Alike R E (Record.With v (List.Forall₂ (SameResult (Answer.Alike v))))
      (r.inquireAll qs : Dialogue B (List (Except Error Answer) × Record))
      (r'.inquireAll qs) := by
  induction qs generalizing r r' with
  | nil => exact Dialogue.alike_pure ⟨.nil, hr⟩
  | cons q qs ih =>
    exact (alike_inquire h hlooks hr q).bind fun _ _ hfirst =>
      (ih hfirst.record).bind fun _ _ hrest =>
        Dialogue.alike_pure ⟨.cons hfirst.value hrest.value, hrest.record⟩

end Record

/-! ### Operations on a desk -/

/-- Whether an operation looks at the detail of records. -/
def Op.examines : Op → Bool
  | .act _ (.examine _ _ _) => true
  | .inquire _ _ _ => true
  | _ => false

/-- Two replies that differ at most in instructions, and there in nothing one can ask for. -/
inductive Reply.Alike (v : Veil) : Reply → Reply → Prop where
  | done : Alike v .done .done
  | failed (e : Error) : Alike v (.failed e) (.failed e)
  | noEngine : Alike v .noEngine .noEngine
  | noRecord : Alike v .noRecord .noRecord
  | name (n : Option String) : Alike v (.name n) (.name n)
  | code (c : ErrorCode) : Alike v (.code c) (.code c)
  | text (s : String) : Alike v (.text s) (.text s)
  | flag (b : Bool) : Alike v (.flag b) (.flag b)
  | version (x : Version) : Alike v (.version x) (.version x)
  | records {l l' : List Answer} (h : List.Forall₂ (Answer.Alike v) l l') :
    Alike v (.records l) (.records l')
  | liteRecords (l : List LiteInsn) : Alike v (.liteRecords l) (.liteRecords l)
  | walk {c c' : Cursor Insn} {l l' : List (Option Insn × Cursor Insn)}
    (hstart : List.Forall₂ (Insn.Alike v) c.rest c'.rest)
    (hsteps : List.Forall₂ (fun p p' => Option.Rel (Insn.Alike v) p.1 p'.1 ∧
      List.Forall₂ (Insn.Alike v) p.2.rest p'.2.rest) l l') : Alike v (.walk c l) (.walk c' l')
  | lite (c c' : Cursor LiteInsn) : Alike v (.lite c c') (.lite c c')
  | answers {l l' : List (Except Error Answer)}
    (h : List.Forall₂ (SameResult (Answer.Alike v)) l l') : Alike v (.answers l) (.answers l')
  | examined {l l' : List (Answer × Except Error Detail)}
    (h : List.Forall₂ (fun p p' => Answer.Alike v p.1 p'.1 ∧ p.2 = p'.2) l l') :
    Alike v (.examined l) (.examined l')

theorem Reply.alike_ofResult {r : Except Error α} {r' : Except Error β} {f : α → Reply}
    {g : β → Reply} (h : SameResult Q r r') (hf : ∀ a b, Q a b → Reply.Alike v (f a) (g b)) :
    Reply.Alike v (.ofResult r f) (.ofResult r' g) := by
  cases h with
  | error e => exact .failed e
  | ok hab => exact hf _ _ hab

/-- Cursors over lists that are alike hand out what is alike. -/
theorem Cursor.walk_alike {c c' : Cursor Insn} (h : List.Forall₂ (Insn.Alike v) c.rest c'.rest)
    (steps : Nat) :
    List.Forall₂ (fun p p' => Option.Rel (Insn.Alike v) p.1 p'.1 ∧
      List.Forall₂ (Insn.Alike v) p.2.rest p'.2.rest) (c.walk steps) (c'.walk steps) := by
  induction steps generalizing c c' with
  | zero => exact .nil
  | succ steps ih =>
    have hnext : Option.Rel (Insn.Alike v) c.next.1 c'.next.1 ∧
        List.Forall₂ (Insn.Alike v) c.next.2.rest c'.next.2.rest := by
      obtain ⟨l⟩ := c
      obtain ⟨l'⟩ := c'
      cases h with
      | nil => exact ⟨.none, .nil⟩
      | cons hfirst hrest => exact ⟨.some hfirst, hrest⟩
    exact .cons hnext (ih hnext.2)

/-- Two desks with the same engines, and with records that are alike under the same names. -/
structure Desk.Alike (v : Veil) (d d' : Desk) : Prop where
  engines : d.engines = d'.engines
  kept : List.Forall₂ (fun p p' => p.1 = p'.1 ∧ List.Forall₂ (Record.Alike v) p.2 p'.2)
    d.kept d'.kept

namespace Desk

/-- The engines of a desk are all under the veil. -/
def Admitted (v : Veil) (d : Desk) : Prop :=
  ∀ slot e, d.engine? slot = some e → v.Admits e

/-- An operation turned on what the veil hides. -/
def Unveils (v : Veil) (o : Op) (r : Reply) : Prop :=
  v = .detail ∧ (∃ slot, o = .act slot (.setDetail true)) ∧ r = .done

/-- What an operation comes to on both sides. -/
structure Continued (v : Veil) (o : Op) (p p' : Reply × Desk) : Prop where
  reply : Reply.Alike v p.1 p'.1
  desk : Desk.Alike v p.2 p'.2
  admitted : ¬ Unveils v o p.1 → p.2.Admitted v

variable {d d' : Desk}

theorem Admitted.of_engines (h : d.Admitted v) (hd : d'.engines = d.engines) : d'.Admitted v :=
  fun slot e he => h slot e ((engine?_congr hd slot).symm.trans he)

theorem Admitted.put (h : d.Admitted v) {slot : Nat} {e : Engine} (he : v.Admits e) :
    (d.put slot e).Admitted v := by
  intro k e' hk
  rw [engine?_put] at hk
  split at hk
  · exact Option.some.inj hk ▸ he
  · exact h k e' hk

theorem Admitted.remove (h : d.Admitted v) (slot : Nat) : (d.remove slot).Admitted v := by
  intro k e hk
  rw [engine?_remove] at hk
  split at hk
  · cases hk
  · exact h k e hk

namespace Alike

theorem engine? (h : Desk.Alike v d d') (slot : Nat) : d'.engine? slot = d.engine? slot :=
  engine?_congr h.engines.symm slot

theorem put (h : Desk.Alike v d d') (slot : Nat) (e : Engine) :
    Desk.Alike v (d.put slot e) (d'.put slot e) :=
  ⟨congrArg (insert slot e) h.engines, h.kept⟩

theorem remove (h : Desk.Alike v d d') (slot : Nat) :
    Desk.Alike v (d.remove slot) (d'.remove slot) :=
  ⟨congrArg (List.filter _) h.engines, h.kept⟩

theorem keep (h : Desk.Alike v d d') (name : Option String) {l l' : List Record}
    (hl : List.Forall₂ (Record.Alike v) l l') : Desk.Alike v (d.keep name l) (d'.keep name l') := by
  cases name with
  | none => exact h
  | some n =>
    refine ⟨h.engines, .cons ⟨rfl, hl⟩ ?_⟩
    refine List.rel_filter (fun p p' hp => ?_) h.kept
    show decide (p.1 ≠ n) = true ↔ decide (p'.1 ≠ n) = true
    rw [hp.1]

theorem record? (h : Desk.Alike v d d') (name : String) (index : Nat) :
    Option.Rel (Record.Alike v) (d.record? name index) (d'.record? name index) := by
  have hindex : ∀ {l l' : List Record}, List.Forall₂ (Record.Alike v) l l' →
      ∀ i : Nat, Option.Rel (Record.Alike v) l[i]? l'[i]? := by
    intro l l' hl
    induction hl with
    | nil => exact fun _ => .none
    | cons hfirst _ ih =>
      intro i
      cases i with
      | zero => exact .some hfirst
      | succ i => exact ih i
  have hkept := h.kept
  unfold Desk.record?
  generalize d.kept = l at hkept
  generalize d'.kept = l' at hkept
  induction hkept with
  | nil => exact .none
  | @cons p p' _ _ hp _ ih =>
    rw [lookup_cons_eq, lookup_cons_eq, ← hp.1]
    split
    · exact hindex hp.2 index
    · exact ih

theorem setRecord (h : Desk.Alike v d d') (name : String) (index : Nat) {r r' : Record}
    (hr : Record.Alike v r r') :
    Desk.Alike v (d.setRecord name index r) (d'.setRecord name index r') := by
  have hset : ∀ {l l' : List Record}, List.Forall₂ (Record.Alike v) l l' → ∀ i,
      List.Forall₂ (Record.Alike v) (l.set i r) (l'.set i r') := by
    intro l l' hl
    induction hl with
    | nil => exact fun _ => .nil
    | cons hfirst hrest ih =>
      intro i
      cases i with
      | zero => exact .cons hr hrest
      | succ i => exact .cons hfirst (ih i)
  refine ⟨h.engines, ?_⟩
  show List.Forall₂ _ (d.kept.map _) (d'.kept.map _)
  rw [List.forall₂_map_left_iff, List.forall₂_map_right_iff]
  refine h.kept.imp fun p p' hp => ?_
  rw [← hp.1]
  split
  · exact ⟨rfl, hset hp.2 index⟩
  · exact hp

end Alike

theorem alike_present (h : B.Veiled v R E) (hd : Desk.Alike v d d') (hadm : d.Admitted v)
    {r r' : Except Error (List Insn)} (hr : SameResult (List.Forall₂ (Insn.Alike v)) r r')
    (name : Option String) (o : Op) :
    Dialogue.Alike R E (Continued v o) (d.present r name : Dialogue B (Reply × Desk))
      (d'.present r' name) := by
  cases hr with
  | error e => exact Dialogue.alike_pure ⟨.failed e, hd, fun _ => hadm⟩
  | @ok l l' hl =>
    have hrecords : List.Forall₂ (Record.Alike v) (l.map fun i => Record.mk i none)
        (l'.map fun i => Record.mk i none) := by
      rw [List.forall₂_map_left_iff, List.forall₂_map_right_iff]
      exact hl.imp fun _ _ hi => ⟨hi, rfl⟩
    have hsummaries := Dialogue.alike_mapM (fun _ _ hr => Record.alike_summary h hr) hrecords
    refine hsummaries.unrecorded.bind fun _ _ hanswers => Dialogue.alike_pure
      ⟨.records hanswers, hd.keep name hrecords, fun _ => hadm.of_engines ?_⟩
    cases name with
    | none => rfl
    | some n => rfl

theorem alike_examine (h : B.Veiled v R E) (hlooks : Record.Looks E) {i i' : Insn}
    (hi : Insn.Alike v i i') :
    Dialogue.Alike R E (fun p p' => Answer.Alike v p.1 p'.1 ∧ p.2 = p'.2)
      (examine i : Dialogue B (Answer × Except Error Detail)) (examine i') := by
  have hr : Record.Alike v (Record.mk i none) (Record.mk i' none) := ⟨hi, rfl⟩
  refine (Record.alike_summary h hr).unrecorded.bind fun _ _ hanswer =>
    Dialogue.Alike.bind (Record.alike_readDetail h hlooks hr) fun p p' hp =>
      Dialogue.alike_pure ⟨hanswer, ?_⟩
  cases hp with
  | error e => rfl
  | ok hp => exact congrArg Except.ok hp.value

/-- A setter keeps both desks alike, and under the veil unless it turns on what is hidden. -/
theorem alike_commit (h : B.Veiled v R E) (hd : Desk.Alike v d d') (hadm : d.Admitted v)
    (slot : Nat) {e : Engine} (he : v.Admits e) (x : Setting) {a : Action}
    (ha : x = .detail true → a = .setDetail true) :
    Dialogue.Alike R E (Continued v (.act slot a))
      (do return d.commit slot (← (e.configure x).run) : Dialogue B (Reply × Desk))
      (do return d'.commit slot (← (e.configure x).run)) := by
  refine Dialogue.Alike.bind (e.alike_configure h x) fun r r' hr => Dialogue.alike_pure ?_
  cases hr with
  | error err => exact ⟨.failed err, hd, fun _ => hadm⟩
  | @ok e₁ e₂ heq =>
    obtain ⟨rfl, rfl⟩ := heq
    refine ⟨.done, hd.put slot _, fun hveiled => hadm.put (Veil.admits_accept he ?_)⟩
    intro hdetail hx
    exact hveiled ⟨hdetail, ⟨slot, congrArg _ (ha hx)⟩, rfl⟩

/-- **An action on an engine** comes to the same on both sides. -/
theorem alike_act (h : B.Veiled v R E) (hd : Desk.Alike v d d') (hadm : d.Admitted v)
    (slot : Nat) {e : Engine} (he : v.Admits e) (a : Action)
    (hlooks : (Op.act slot a).examines = true → Record.Looks E) :
    Dialogue.Alike R E (Continued v (.act slot a))
      (d.act slot e a : Dialogue B (Reply × Desk)) (d'.act slot e a) := by
  have hstay : ∀ {α : Type} {x : Attempt B α} {f : α → Reply}, Attempt.Alike R E Eq x x →
      (∀ r, Reply.Alike v (f r) (f r)) →
      Dialogue.Alike R E (Continued v (.act slot a))
        (do return (.ofResult (← x.run) f, d) : Dialogue B (Reply × Desk))
        (do return (.ofResult (← x.run) f, d')) := by
    intro α x f hx hf
    refine Dialogue.Alike.bind hx fun r r' hr => Dialogue.alike_pure ⟨?_, hd, fun _ => hadm⟩
    refine Reply.alike_ofResult hr ?_
    rintro r _ rfl
    exact hf r
  cases a with
  | close =>
    refine Dialogue.Same.then (e.same_close h) fun r => Dialogue.alike_pure
      ⟨?_, hd.remove slot, fun _ => hadm.remove slot⟩
    exact Reply.alike_ofResult (SameResult.refl r) fun _ _ _ => .done
  | drop =>
    exact Dialogue.Same.then (e.same_drop h) fun _ => Dialogue.alike_pure
      ⟨.done, hd.remove slot, fun _ => hadm.remove slot⟩
  | setDialect x => exact alike_commit h hd hadm slot he (.dialect x) fun hx => nomatch hx
  | setDetail on =>
    refine alike_commit h hd hadm slot he (.detail on) fun hx => ?_
    rw [Setting.detail.inj hx]
  | setMode m => exact alike_commit h hd hadm slot he (.mode m) fun hx => nomatch hx
  | regName id => exact hstay (e.alike_regName h id) .name
  | insnName id => exact hstay (e.alike_insnName h id) .name
  | errno => exact hstay (Attempt.Same.alike (e.same_errno h)) .code
  | shown => exact Dialogue.alike_pure ⟨.text _, hd, fun _ => hadm⟩
  | disasm code address count name =>
    exact Dialogue.Alike.bind (Engine.alike_disasm h he code address count) fun _ _ hr =>
      alike_present h hd hadm hr name _
  | iterate code address count steps =>
    refine Dialogue.Alike.bind (Engine.alike_disasm h he code address count) fun _ _ hr =>
      Dialogue.alike_pure ⟨?_, hd, fun _ => hadm⟩
    exact Reply.alike_ofResult hr fun l l' hl => .walk hl (Cursor.walk_alike hl steps)
  | lite code address count =>
    exact hstay (Engine.alike_disasmLite h he code address count) fun _ => .lite _ _
  | examine code address count =>
    refine Dialogue.Alike.bind (Engine.alike_disasm h he code address count) fun r r' hr => ?_
    cases hr with
    | error err => exact Dialogue.alike_pure ⟨.failed err, hd, fun _ => hadm⟩
    | ok hl =>
      refine (Dialogue.alike_mapM (fun _ _ hi => alike_examine h (hlooks rfl) hi) hl).bind
        fun _ _ hanswers => Dialogue.alike_pure ⟨.examined hanswers, hd, fun _ => hadm⟩

theorem same_dropSlot (h : B.Veiled v R E) (d : Desk) (slot : Nat) :
    Dialogue.Same R E (d.dropSlot slot : Dialogue B Unit) := by
  unfold dropSlot
  split
  · exact Engine.same_drop h _
  · exact Dialogue.same_pure _

/-- **Every operation** on desks that are alike comes to the same on both sides. -/
theorem alike_step (h : B.Veiled v R E) (hd : Desk.Alike v d d') (hadm : d.Admitted v) {o : Op}
    (hlooks : o.examines = true → Record.Looks E) :
    Dialogue.Alike R E (Continued v o) (d.step o : Dialogue B (Reply × Desk)) (d'.step o) := by
  have hstay : ∀ {α : Type} {x : Dialogue B α} {f : α → Reply}, Dialogue.Same R E x →
      (∀ r, Reply.Alike v (f r) (f r)) →
      Dialogue.Alike R E (Continued v o) (do return (f (← x), d) : Dialogue B (Reply × Desk))
        (do return (f (← x), d')) :=
    fun hx hf => hx.then fun r => Dialogue.alike_pure ⟨hf r, hd, fun _ => hadm⟩
  have hresult : ∀ {α : Type} {f : α → Reply} (r : Except Error α),
      (∀ a, Reply.Alike v (f a) (f a)) →
      Reply.Alike v (.ofResult r f) (.ofResult r f) := by
    intro α f r hf
    refine Reply.alike_ofResult (SameResult.refl r) ?_
    rintro a _ rfl
    exact hf a
  cases o with
  | openEngine slot arch mode =>
    refine Dialogue.Alike.bind (Engine.alike_openWith h arch mode) fun r r' hr => ?_
    cases hr with
    | error e => exact Dialogue.alike_pure ⟨.failed e, hd, fun _ => hadm⟩
    | @ok e e' heq =>
      obtain ⟨rfl, he⟩ := heq
      have hslot : (d'.dropSlot slot : Dialogue B Unit) = d.dropSlot slot := by
        unfold dropSlot
        rw [hd.engine?]
      dsimp only
      rw [hslot]
      exact (d.same_dropSlot h slot).then fun _ =>
        Dialogue.alike_pure ⟨.done, hd.put slot e, fun _ => hadm.put he⟩
  | act slot a =>
    rw [step, step, hd.engine?]
    cases he : d.engine? slot with
    | some e => exact alike_act h hd hadm slot (hadm slot e he) a hlooks
    | none => exact Dialogue.alike_pure ⟨.noEngine, hd, fun _ => hadm⟩
  | quick arch mode code address count name =>
    exact Dialogue.Alike.bind (alike_disasmQuick h arch mode code address count) fun _ _ hr =>
      alike_present h hd hadm hr name _
  | liteQuick arch mode code address count =>
    refine Dialogue.Alike.bind (alike_disasmLiteQuick h arch mode code address count)
      fun _ _ hr => Dialogue.alike_pure ⟨?_, hd, fun _ => hadm⟩
    rw [hr.eq]
    exact hresult _ .liteRecords
  | inquire name index queries =>
    have hrecord := hd.record? name index
    rw [step, step]
    generalize d.record? name index = r at hrecord
    generalize d'.record? name index = r' at hrecord
    cases hrecord with
    | none => exact Dialogue.alike_pure ⟨.noRecord, hd, fun _ => hadm⟩
    | some hr =>
      exact (Record.alike_inquireAll h (hlooks rfl) hr queries).bind fun _ _ hanswers =>
        Dialogue.alike_pure ⟨.answers hanswers.value, hd.setRecord name index hanswers.record,
          fun _ => hadm.of_engines rfl⟩
  | version => exact hstay (Dialogue.same_ask h rfl) .version
  | supports query => exact hstay (Dialogue.same_ask h rfl) .flag
  | message status => exact hstay (Dialogue.same_message h status) .text
  | describeBuild => exact hstay (Dialogue.same_describeBuild h) .text
  | checkVersion => exact hstay (same_checkVersion h) fun r => hresult r fun _ => .done
  | status status => exact hstay (Attempt.same_check h status) fun r => hresult r fun _ => .done

/-- Dropping the engines that are left comes to the same, whatever they are. -/
theorem same_dropAll (h : B.Veiled v R E) (l : List (Nat × Engine)) :
    Dialogue.Same R E (dropAll l : Dialogue B Unit) := by
  induction l with
  | nil => exact Dialogue.same_pure _
  | cons p l ih => exact (p.2.same_drop h).bind fun _ => ih

end Desk

end Disassembly

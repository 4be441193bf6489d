import Disassembly.Proofs.Session.Likeness

/-!
# What is gated does not leak

An engine built without text, and an engine while detail is off, hand out with their entries what
nobody asked for.  Two scripts that differ in that alone are told apart by no session.

* `Script.Alike`, `Script.veiled` — scripts that differ in nothing but what a veil hides answer
  every call alike;
* `Desk.alike_run`, `Session.alike_play` — a run comes to the same on both sides, step by step, as
  long as what is hidden is not turned on;
* `Session.Alike.marked` — all that is open and kept in it is of the kind that the veil is over;
* `Record.inquire_of_diet`, `Desk.step_of_diet`, `Record.inquire_of_bare` — what one is told instead.
-/

namespace Disassembly

variable {v : Veil}

/-! ### Scripts side by side -/

/-- Two scripted decodes that differ in nothing but what a veil hides. -/
inductive ScriptedDecode.Alike (v : Veil) : ScriptedDecode → ScriptedDecode → Prop where
  | null (count : Nat) : Alike v (.null count) (.null count)
  | insns {l l' : List NativeInsn} (h : List.Forall₂ v.Hides l l') (withheld : Bool) :
    Alike v (.insns l withheld) (.insns l' withheld)

/-- Two events of which both are the same call, with answers that differ in nothing but what a veil
hides, or both the same log record. -/
inductive Event.Alike (v : Veil) : Event → Event → Prop where
  | call {c : Call} {a a' : c.Answer} (h : v.Answers c a a') : Alike v (.call c a) (.call c a')
  | log (level : Level) (message : String) : Alike v (.log level message) (.log level message)

theorem Event.alike_lists {es es' : List Event} (h : List.Forall₂ (Event.Alike v) es es') :
    callsOf es = callsOf es' ∧ logsOf es = logsOf es' := by
  induction h with
  | nil => exact ⟨rfl, rfl⟩
  | cons he _ ih =>
    obtain ⟨hcalls, hlogs⟩ := ih
    cases he with
    | @call c _ _ _ => exact ⟨congrArg (c :: ·) hcalls, hlogs⟩
    | log level message => exact ⟨hcalls, congrArg ((level, message) :: ·) hlogs⟩

namespace Script

/-- Two scripts that differ in nothing but what a veil hides in their decodes. -/
structure Alike (v : Veil) (s s' : Script) : Prop where
  same : s' = { s with decodes := s'.decodes }
  decodes : List.Forall₂ (ScriptedDecode.Alike v) s.decodes s'.decodes
  /-- Both are of the kind that the veil is good for. -/
  flavour : v.Flavour (s.supported.contains Capability.diet.raw)

variable {s s' : Script}

theorem Alike.decode (h : Alike v s s') :
    Decoded.Alike v.Hides s.decode.1 s'.decode.1 ∧ Alike v s.decode.2 s'.decode.2 := by
  obtain ⟨l', rfl⟩ : ∃ l', s' = { s with decodes := l' } := ⟨_, h.same⟩
  have hparts : ∀ {l l' : List ScriptedDecode}, List.Forall₂ (ScriptedDecode.Alike v) l l' →
      ScriptedDecode.Alike v (l.headD (.insns [] false)) (l'.headD (.insns [] false)) ∧
        List.Forall₂ (ScriptedDecode.Alike v) l.tail l'.tail := by
    intro l l' hl
    cases hl with
    | nil => exact ⟨.insns .nil false, .nil⟩
    | cons hfirst hrest => exact ⟨hfirst, hrest⟩
  obtain ⟨hhead, htail⟩ := hparts h.decodes
  have hafter : ∀ n, Alike v { s with decodes := s.decodes.tail, arrays := n }
      { s with decodes := l'.tail, arrays := n } := fun _ => ⟨rfl, htail, h.flavour⟩
  unfold Script.decode
  dsimp only at hhead htail ⊢
  generalize s.decodes.headD (.insns [] false) = first at hhead
  generalize l'.headD (.insns [] false) = first' at hhead
  cases hhead with
  | null count => exact ⟨⟨rfl, .none⟩, hafter s.arrays⟩
  | insns hentries withheld =>
    cases hentries with
    | nil => exact ⟨⟨rfl, .none⟩, hafter s.arrays⟩
    | cons hn hrest =>
      refine ⟨⟨?_, .some ⟨rfl, .cons hn hrest⟩⟩, hafter (s.arrays + 1)⟩
      dsimp only
      rw [List.length_cons, List.length_cons, hrest.length_eq]

/-- **Scripts that differ in nothing but what is hidden answer every call alike.** -/
theorem Alike.answer (h : Alike v s s') (c : Call) :
    v.Answers c (s.answer c).1 (s'.answer c).1 ∧ Alike v (s.answer c).2 (s'.answer c).2 := by
  cases c with
  | disasm hd code address count => exact h.decode
  | openEngine arch mode =>
    obtain ⟨l', rfl⟩ : ∃ l', s' = { s with decodes := l' } := ⟨_, h.same⟩
    by_cases hok : next s.openings = 0
    · rw [answer_opened arch mode hok, answer_opened (s := { s with decodes := l' }) arch mode hok]
      exact ⟨rfl, rfl, h.decodes, h.flavour⟩
    · rw [answer_unopened arch mode hok,
        answer_unopened (s := { s with decodes := l' }) arch mode hok]
      exact ⟨rfl, rfl, h.decodes, h.flavour⟩
  | _ =>
    obtain ⟨l', rfl⟩ : ∃ l', s' = { s with decodes := l' } := ⟨_, h.same⟩
    exact ⟨rfl, rfl, h.decodes, h.flavour⟩

theorem veiled (v : Veil) : backend.Veiled v (Alike v) (Event.Alike v) where
  answers h c := (Alike.answer h c).1
  next h c := (Alike.answer h c).2
  flavour h := h.flavour
  call _ _ _ h := .call h
  log level message _ := .log level message

/-- Two changes to scripts that keep them alike: the same change, or decodes that differ in nothing
but what a veil hides. -/
inductive Change.Alike (v : Veil) : Change → Change → Prop where
  | decodes {l l' : List ScriptedDecode} (h : List.Forall₂ (ScriptedDecode.Alike v) l l') :
    Alike v (.decodes l) (.decodes l')
  /-- An engine does not gain or lose its texts. -/
  | supported (l : List Int32) (h : v.Flavour (l.contains Capability.diet.raw)) :
    Alike v (.supported l) (.supported l)
  | other {c : Change} (hdecodes : ∀ l, c ≠ .decodes l) (hsupported : ∀ l, c ≠ .supported l) :
    Alike v c c

theorem Alike.change (h : Alike v s s') {c c' : Change} (hc : Change.Alike v c c') :
    Alike v (s.change c) (s'.change c') := by
  obtain ⟨l', rfl⟩ : ∃ l', s' = { s with decodes := l' } := ⟨_, h.same⟩
  cases hc with
  | decodes hl => exact ⟨rfl, hl, h.flavour⟩
  | supported l hl => exact ⟨rfl, h.decodes, hl⟩
  | other hdecodes hsupported =>
    cases c with
    | decodes l => exact absurd rfl (hdecodes l)
    | supported l => exact absurd rfl (hsupported l)
    | _ => exact ⟨rfl, h.decodes, h.flavour⟩

theorem Alike.changes (h : Alike v s s') {l l' : List Change}
    (hl : List.Forall₂ (Change.Alike v) l l') :
    Alike v (l.foldl Script.change s) (l'.foldl Script.change s') := by
  induction hl generalizing s s' with
  | nil => exact h
  | cons hc _ ih => exact ih (h.change hc)

end Script

/-! ### Runs side by side -/

/-- Two moves of which both are the same operation, or both changes that keep scripts alike. -/
inductive Move.Alike (v : Veil) : Move Script.backend → Move Script.backend → Prop where
  | op (o : Op) : Alike v (.op o) (.op o)
  | change {l l' : List Script.Change} (h : List.Forall₂ (Script.Change.Alike v) l l') :
    Alike v (.change l) (.change l')

/-- Two reports that tell nothing apart but what a veil hides: the replies are alike, the open
engines and the calls are the same, and so is the log. -/
structure Report.Alike (v : Veil) (r r' : Report Script.backend) : Prop where
  reply : Reply.Alike v r.reply r'.reply
  desk : Desk.Alike v r.desk r'.desk
  admitted : r.desk.Admitted v
  state : Script.Alike v r.state r'.state
  calls : callsOf r.events = callsOf r'.events
  logs : logsOf r.events = logsOf r'.events

/-- Two sessions that tell nothing apart but what a veil hides. -/
structure Session.Alike (v : Veil) (x x' : Session Script.backend) : Prop where
  reports : List.Forall₂ (Report.Alike v) x.reports x'.reports
  calls : callsOf x.cleared.events = callsOf x'.cleared.events
  logs : logsOf x.cleared.events = logsOf x'.cleared.events

namespace Desk

variable {d d' : Desk} {s s' : Script}

theorem alike_move (hs : Script.Alike v s s') (hd : Desk.Alike v d d') (hadm : d.Admitted v)
    {m m' : Move Script.backend} (hm : Move.Alike v m m')
    (hveiled : ∀ o, m = .op o → ¬ Unveils v o (d.move s m).reply) :
    Report.Alike v (d.move s m) (d'.move s' m') := by
  cases hm with
  | op o =>
    have hlooks : o.examines = true → Record.Looks (Event.Alike v) := fun _ i => .log _ _
    obtain ⟨hcontinued, hstate, hevents⟩ :=
      alike_step (Script.veiled v) hd hadm hlooks s s' hs
    obtain ⟨hcalls, hlogs⟩ := Event.alike_lists hevents
    exact ⟨hcontinued.reply, hcontinued.desk, hcontinued.admitted (hveiled o rfl), hstate, hcalls,
      hlogs⟩
  | change hl => exact ⟨.done, hd, hadm, hs.changes hl, rfl, rfl⟩

/-- **A run comes to the same on both sides**, as long as no operation turns on what is hidden. -/
theorem alike_run (hs : Script.Alike v s s') (hd : Desk.Alike v d d') (hadm : d.Admitted v)
    {ms ms' : List (Move Script.backend)} (hms : List.Forall₂ (Move.Alike v) ms ms')
    (hveiled : ∀ p ∈ d.journal s ms, ∀ o, p.1 = .op o → ¬ Unveils v o p.2.reply) :
    List.Forall₂ (Report.Alike v) (d.run s ms) (d'.run s' ms') := by
  induction hms generalizing d d' s s' with
  | nil => exact .nil
  | @cons m m' ms ms' hm _ ih =>
    change ∀ p ∈ (m, d.move s m) :: (d.move s m).desk.journal (d.move s m).state ms, _ at hveiled
    have hfirst := alike_move hs hd hadm hm (hveiled _ List.mem_cons_self)
    refine .cons hfirst (ih hfirst.state hfirst.desk hfirst.admitted ?_)
    intro p hp
    exact hveiled p (List.mem_cons_of_mem _ hp)

end Desk

theorem Session.alike_play {s s' : Script} (hs : Script.Alike v s s')
    {ms ms' : List (Move Script.backend)} (hms : List.Forall₂ (Move.Alike v) ms ms')
    (hveiled : ∀ p ∈ Desk.journal {} s ms, ∀ o, p.1 = .op o → ¬ Desk.Unveils v o p.2.reply) :
    Session.Alike v (Session.play s ms) (Session.play s' ms') := by
  have hempty : Desk.Alike v {} {} := ⟨rfl, .nil⟩
  have hadm : Desk.Admitted v {} := fun _ _ he => nomatch he
  have hreports := Desk.alike_run hs hempty hadm hms hveiled
  have hlast : ∀ {l l' : List (Report Script.backend)}, List.Forall₂ (Report.Alike v) l l' →
      Option.Rel (Report.Alike v) l.getLast? l'.getLast? := by
    intro l l' hl
    rw [List.getLast?_eq_head?_reverse, List.getLast?_eq_head?_reverse]
    have hreverse := List.forall₂_reverse_iff.mpr hl
    generalize l.reverse = back at hreverse
    generalize l'.reverse = back' at hreverse
    cases hreverse with
    | nil => exact .none
    | cons hr _ => exact .some hr
  replace hlast := hlast hreports
  -- Clearing starts where the last report ends, with the same engines on both sides.
  have hclear : ∀ {d d' : Desk} {s s' : Script}, Script.Alike v s s' → d.engines = d'.engines →
      callsOf ((d.clear : Dialogue Script.backend Unit) s).events =
        callsOf ((d'.clear : Dialogue Script.backend Unit) s').events ∧
      logsOf ((d.clear : Dialogue Script.backend Unit) s).events =
        logsOf ((d'.clear : Dialogue Script.backend Unit) s').events := by
    intro d d' s s' hs hengines
    obtain ⟨-, -, hevents⟩ := Desk.same_dropAll (Script.veiled v) d.engines s s' hs
    unfold Desk.clear
    rw [← hengines]
    exact Event.alike_lists hevents
  unfold Session.play
  generalize Desk.run {} s ms = reports at hreports hlast
  generalize Desk.run {} s' ms' = reports' at hreports hlast
  dsimp only
  generalize reports.getLast? = last at hlast
  generalize reports'.getLast? = last' at hlast
  cases hlast with
  | none =>
    have hnone : ({} : Desk).engines = ({} : Desk).engines := rfl
    obtain ⟨hcalls, hlogs⟩ := hclear hs hnone
    exact ⟨.nil, hcalls, hlogs⟩
  | some hr =>
    obtain ⟨hcalls, hlogs⟩ := hclear hr.state hr.desk.engines
    exact ⟨hreports, hcalls, hlogs⟩

/-- All engines and records of such a session are of the kind that the veil is over. -/
theorem Session.Alike.marked {x x' : Session Script.backend} (h : Session.Alike v x x') :
    ∀ r ∈ x.reports, (∀ slot e, r.desk.engine? slot = some e → v.Admits e) ∧
      ∀ name i y, r.desk.record? name i = some y → v.Marks y.insn := by
  have hmarked : ∀ r r', Report.Alike v r r' →
      ((∀ slot e, r.desk.engine? slot = some e → v.Admits e) ∧
        ∀ name i y, r.desk.record? name i = some y → v.Marks y.insn) ∧ True := by
    intro r r' hr
    refine ⟨⟨hr.admitted, fun name i y hy => ?_⟩, trivial⟩
    have hrecord := hr.desk.record? name i
    rw [hy] at hrecord
    generalize r'.desk.record? name i = y' at hrecord
    cases hrecord with
    | some halike => exact halike.insn.marks
  exact ((List.forall₂_and_left _ _).mp (h.reports.imp hmarked)).1

/-! ### What one is told instead -/

variable {B : Backend}

/-- Whether a query is answered from the text of a record or from its detail. -/
def Query.needsText : Query → Bool
  | .mnemonic => true
  | .opStr => true
  | .detail _ => true
  | _ => false

/-- An outcome that is a refusal in the engine's words, for which it was asked and nothing else. -/
structure Refuses {α : Type} (s : B.State) (c : ErrorCode) (value : Error → α)
    (out : Outcome B.State α) : Prop where
  value : out.value = value (.engine c (B.words s c.raw))
  calls : callsOf out.events = [.strerror c.raw]
  logs : logsOf out.events = []

/-- An instruction without text shows its address and its number. -/
theorem Insn.display_of_diet {i : Insn} (h : i.diet = true) :
    i.display = i.marked ++ ":\t" ++ ("<id " ++ toString i.id.toNat ++ ">") := by
  have htext : i.text = none := Option.isNone_iff_eq_none.mp h
  unfold Insn.display
  rw [htext]

/-- In columns it shows its address and its bytes. -/
theorem Insn.fullLine_of_diet {i : Insn} (h : i.diet = true) :
    i.fullLine = Numeral.hexUpperPadded 8 i.address.toNat ++ " | " ++
      Numeral.column 24 i.byteColumn ++ " | " ++ Numeral.column 6 "?" ++ " " := by
  have htext : i.text = none := Option.isNone_iff_eq_none.mp h
  unfold Insn.fullLine
  rw [htext]
  exact String.append_empty

namespace Record

/-- **A record without text has neither texts nor detail**, whatever was captured with it and
whatever it remembers. -/
theorem inquire_of_diet {r : Record} (h : r.insn.diet = true) {q : Query}
    (hq : q.needsText = true) (s : B.State) :
    Refuses s .dietUnsupported (fun err => (.error err, r))
      ((r.inquire q : Dialogue B (Except Error Answer × Record)) s) := by
  have htext : r.insn.text = none := Option.isNone_iff_eq_none.mp h
  have hread : ∀ part, (r.readText part : Attempt B String) = Attempt.refuse .dietUnsupported := by
    intro part
    unfold readText
    rw [htext]
  have hdetail : (r.readDetail : Attempt B (Detail × Record)) =
      Attempt.refuse .dietUnsupported := by
    unfold readDetail
    rw [h]
    rfl
  cases q with
  | mnemonic =>
    rw [inquire, Dialogue.run_bind, hread, Attempt.run_refuse]
    exact ⟨rfl, rfl, rfl⟩
  | opStr =>
    rw [inquire, Dialogue.run_bind, hread, Attempt.run_refuse]
    exact ⟨rfl, rfl, rfl⟩
  | detail q =>
    rw [inquire, Dialogue.run_bind, hdetail, Attempt.run_refuse]
    exact ⟨rfl, rfl, rfl⟩
  | _ => cases hq

/-- A record with text that was decoded without detail has no detail. -/
theorem inquire_of_bare {r : Record} (htext : r.insn.diet = false)
    (hbare : r.insn.hasDetail = false) (q : DetailQuery) (s : B.State) :
    Refuses s .detailNotRequested (fun err => (.error err, r))
      ((r.inquire (.detail q) : Dialogue B (Except Error Answer × Record)) s) := by
  have hblock : r.insn.block = none := by
    unfold Insn.hasDetail at hbare
    simpa using hbare
  have hdetail : (r.readDetail : Attempt B (Detail × Record)) =
      Attempt.refuse .detailNotRequested := by
    unfold readDetail
    rw [htext, hblock]
    rfl
  rw [inquire, Dialogue.run_bind, hdetail, Attempt.run_refuse]
  exact ⟨rfl, rfl, rfl⟩

end Record

/-- **An engine without text names nothing and decodes to no text**, and is not even asked. -/
theorem Desk.step_of_diet {d : Desk} {slot : Nat} {e : Engine} (he : d.engine? slot = some e)
    (hdiet : e.diet = true) {a : Action} (ha : a.needsText = true) (s : B.State) :
    Refuses s .dietUnsupported (fun err => (.failed err, d))
      ((d.step (.act slot a) : Dialogue B (Reply × Desk)) s) := by
  have hensure : (e.ensureNotDiet : Attempt B Unit) = Attempt.refuse .dietUnsupported := by
    unfold Engine.ensureNotDiet
    rw [if_pos hdiet]
  rw [step, he]
  cases a with
  | regName id =>
    show Refuses s _ _ ((d.act slot e (.regName id) : Dialogue B (Reply × Desk)) s)
    rw [act, Dialogue.run_bind, Engine.regName, hensure, Attempt.run_bind, Attempt.run_refuse]
    exact ⟨rfl, rfl, rfl⟩
  | insnName id =>
    show Refuses s _ _ ((d.act slot e (.insnName id) : Dialogue B (Reply × Desk)) s)
    rw [act, Dialogue.run_bind, Engine.insnName, hensure, Attempt.run_bind, Attempt.run_refuse]
    exact ⟨rfl, rfl, rfl⟩
  | lite code address count =>
    show Refuses s _ _ ((d.act slot e (.lite code address count) : Dialogue B (Reply × Desk)) s)
    rw [act, Dialogue.run_bind, Engine.disasmLite, hensure, Attempt.run_bind, Attempt.run_refuse]
    exact ⟨rfl, rfl, rfl⟩
  | _ => cases ha

/-- **What is gated does not leak.**  Sessions with two engines built without text that differ in
nothing but the texts of entries and the contents of their blocks come to the same: the same replies,
calls and open engines.  Their records have no texts and no detail, whether or not a block was
captured, and show address, number and bytes alone; names and the lite path are refused before the
engine is asked.  Sessions with two engines with text that differ in nothing but the blocks of
entries come to the same too, as long as detail is not turned on; and their records have no
detail. -/
theorem Session.gating_leaks_nothing :
    (∀ (s s' : Script) (ms ms' : List (Move Script.backend)), Script.Alike .text s s' →
      List.Forall₂ (Move.Alike .text) ms ms' →
      Session.Alike .text (Session.play s ms) (Session.play s' ms') ∧
      ∀ r ∈ (Session.play s ms).reports,
        (∀ slot e, r.desk.engine? slot = some e → e.diet = true) ∧
        ∀ name i x, r.desk.record? name i = some x → x.insn.diet = true) ∧
    (∀ (r : Record) (s : Script), r.insn.diet = true →
      (∀ q : Query, q.needsText = true → Refuses s .dietUnsupported (fun err => (.error err, r))
        ((r.inquire q : Dialogue Script.backend (Except Error Answer × Record)) s)) ∧
      r.insn.display = r.insn.marked ++ ":\t" ++ ("<id " ++ toString r.insn.id.toNat ++ ">") ∧
      r.insn.fullLine = Numeral.hexUpperPadded 8 r.insn.address.toNat ++ " | " ++
        Numeral.column 24 r.insn.byteColumn ++ " | " ++ Numeral.column 6 "?" ++ " ") ∧
    (∀ (d : Desk) (slot : Nat) (e : Engine) (a : Action) (s : Script),
      d.engine? slot = some e → e.diet = true → a.needsText = true →
      Refuses s .dietUnsupported (fun err => (.failed err, d))
        ((d.step (.act slot a) : Dialogue Script.backend (Reply × Desk)) s)) ∧
    (∀ (s s' : Script) (ms ms' : List (Move Script.backend)), Script.Alike .detail s s' →
      List.Forall₂ (Move.Alike .detail) ms ms' →
      (∀ p ∈ Desk.journal {} s ms, ∀ slot, p.1 = .op (.act slot (.setDetail true)) →
        p.2.reply ≠ .done) →
      Session.Alike .detail (Session.play s ms) (Session.play s' ms') ∧
      ∀ r ∈ (Session.play s ms).reports, ∀ name i x, r.desk.record? name i = some x →
        x.insn.diet = false ∧ x.insn.hasDetail = false) ∧
    (∀ (r : Record) (s : Script) (q : DetailQuery), r.insn.diet = false →
      r.insn.hasDetail = false → Refuses s .detailNotRequested (fun err => (.error err, r))
        ((r.inquire (.detail q) : Dialogue Script.backend (Except Error Answer × Record)) s)) := by
  refine ⟨?_, ?_, ?_, ?_, ?_⟩
  · intro s s' ms ms' hs hms
    have halike : Session.Alike .text (Session.play s ms) (Session.play s' ms') := by
      refine Session.alike_play hs hms ?_
      rintro p _ o _ ⟨htext, -⟩
      cases htext
    exact ⟨halike, halike.marked⟩
  · intro r s hdiet
    exact ⟨fun q hq => Record.inquire_of_diet (B := Script.backend) hdiet hq s,
      Insn.display_of_diet hdiet, Insn.fullLine_of_diet hdiet⟩
  · intro d slot e a s he hdiet ha
    exact Desk.step_of_diet (B := Script.backend) he hdiet ha s
  · intro s s' ms ms' hs hms hoff
    have halike : Session.Alike .detail (Session.play s ms) (Session.play s' ms') := by
      refine Session.alike_play hs hms ?_
      rintro p hp o ho ⟨-, ⟨slot, rfl⟩, hdone⟩
      exact hoff p hp slot ho hdone
    exact ⟨halike, fun r hr => (halike.marked r hr).2⟩
  · intro r s q htext hbare
    exact Record.inquire_of_bare (B := Script.backend) htext hbare q s

/-- A text is hidden without text, and a block is hidden while detail cannot be turned on. -/
theorem Session.gating_leaks_nothing_nop :
    let nop (text : UInt8) (block : Option Block) : NativeInsn :=
      ⟨1, 16, 1, .replicate 16 0x90, [text], [], block⟩
    let ms : List (Move Script.backend) := [.op (.openEngine 0 .x86 .width32),
      .op (.act 0 (.setDetail true)), .op (.act 0 (.disasm [0x90] 16 1 (some "nop"))),
      .op (.inquire "nop" 0 [.mnemonic, .hasDetail, .display])]
    let textless (text : UInt8) (block : Block) : Script :=
      { supported := [0x10000], decodes := [.insns [nop text (some block)] false] }
    let refusing (block : Option Block) : Script :=
      { options := [3], decodes := [.insns [nop 110 block] false] }
    Session.Alike .text (Session.play (textless 110 (.ofBytes [])) ms)
        (Session.play (textless 120 (.ofBytes [1])) ms) ∧
      Session.Alike .detail (Session.play (refusing none) ms)
        (Session.play (refusing (some (.ofBytes []))) ms) := by
  intro nop ms textless refusing
  obtain ⟨htext, -, -, hdetail, -⟩ := Session.gating_leaks_nothing
  have hms : ∀ v : Veil, List.Forall₂ (Move.Alike v) ms ms := fun _ =>
    .cons (.op _) (.cons (.op _) (.cons (.op _) (.cons (.op _) .nil)))
  have htexts : Veil.Hides .text (nop 110 (some (.ofBytes []))) (nop 120 (some (.ofBytes [1]))) :=
    ⟨rfl, rfl, rfl, rfl, Eq.refl true⟩
  have htextless : Script.Alike .text (textless 110 (.ofBytes [])) (textless 120 (.ofBytes [1])) :=
    ⟨rfl, .cons (.insns (.cons htexts .nil) false) .nil, rfl⟩
  have hblocks : Veil.Hides .detail (nop 110 none) (nop 110 (some (.ofBytes []))) := rfl
  have hrefusing : Script.Alike .detail (refusing none) (refusing (some (.ofBytes []))) :=
    ⟨rfl, .cons (.insns (.cons hblocks .nil) false) .nil, rfl⟩
  refine ⟨(htext _ _ ms ms htextless (hms .text)).1,
    (hdetail _ _ ms ms hrefusing (hms .detail) ?_).1⟩
  intro p hp slot hop hdone
  change p ∈ [(_, _), (_, _), (_, _), (_, _)] at hp
  simp only [List.mem_cons, List.not_mem_nil, or_false] at hp
  rcases hp with rfl | rfl | rfl | rfl
  · cases hop
  · cases hdone
  · cases hop
  · cases hop

/-- A block that was captured on an engine without text is not to be had. -/
example : ((Desk.run (B := Script.backend) {}
    { supported := [0x10000],
      decodes := [.insns [⟨1, 16, 1, .replicate 16 0x90, [110], [], some (.ofBytes [])⟩] false] }
    [.op (.openEngine 0 .x86 .width32), .op (.act 0 (.setDetail true)),
      .op (.act 0 (.disasm [0x90] 16 1 (some "nop"))),
      .op (.inquire "nop" 0 [.hasDetail, .display])]).getLast?.map Report.reply) =
    some (.answers [.ok (.flag true), .ok (.text "0x10:\t<id 1>")]) := by rfl

end Disassembly

import Disassembly.Proofs.Session.Gates
import Disassembly.Proofs.Session.Likeness

/-!
# Shortcuts

There are shorter ways to what a session can do.  The lite path decodes to place and text alone; the
helpers for one use open an engine, use it and close it.  Neither comes to anything else than the
long way does.

* `LiteInsn.Mirrors` — what a lite record and a full one have in common, their texts included;
* `Engine.run_decodeNative_of_clear`, `Engine.decodeNative_fails` — a decode fails only if nothing was
  counted and the engine says that something is wrong;
* `Engine.decodeNative_congr` — what both paths have in common hangs on the engine's answers alone;
* `Desk.session_spec` — three operations on an empty slot come to what an engine for one use does,
  so that the helpers for one use are such sessions (`Desk.quick_spec`, `Desk.liteQuick_spec`), if
  they are not refused before (`Desk.liteQuick_of_mismatch`, `Desk.liteQuick_of_diet`);
* `Desk.quick_alike` — the two helpers make the same calls from the opening on.
-/

namespace Disassembly

variable {B : Backend} {α β : Type}

/-! ### The lite path -/

/-- A lite record that says of an instruction what the full record says.  Only where there are no
operands do their texts differ, by the tab in front of these. -/
structure LiteInsn.Mirrors (l : LiteInsn) (i : Insn) : Prop where
  address : l.address = i.address
  size : l.size = i.size
  size_le : l.size ≤ maxInsnBytes
  text : i.text = some l.text
  display : l.text.opStr ≠ "" → l.display = i.display
  display_bare : l.text.opStr = "" → l.display = i.display ++ "\t"

theorem LiteInsn.mirrors_ofNative (arch : Arch) (detail : Bool) (n : NativeInsn) :
    (LiteInsn.ofNative n).Mirrors (Insn.ofNative arch false detail n) := by
  have hbytes : n.bytes.toList.length = maxInsnBytes := n.bytes.length_toList
  refine ⟨rfl, ?_, Nat.min_le_right _ _, rfl, ?_, ?_⟩
  · show min n.size.toNat maxInsnBytes =
      (n.bytes.toList.take (min n.size.toNat maxInsnBytes)).length
    rw [List.length_take, hbytes]
    omega
  · intro hop
    have hop' : (fieldText n.opStr).isEmpty = false := String.isEmpty_eq_false_iff.mpr hop
    show Numeral.marked n.address.toNat ++ ":\t" ++ fieldText n.mnemonic ++ "\t" ++
        fieldText n.opStr =
      Numeral.marked n.address.toNat ++ ":\t" ++ (if (fieldText n.opStr).isEmpty then
        fieldText n.mnemonic else fieldText n.mnemonic ++ "\t" ++ fieldText n.opStr)
    rw [hop']
    simp only [String.append_assoc, Bool.false_eq_true, if_false]
  · intro hop
    have hop' : fieldText n.opStr = "" := hop
    show Numeral.marked n.address.toNat ++ ":\t" ++ fieldText n.mnemonic ++ "\t" ++
        fieldText n.opStr =
      Numeral.marked n.address.toNat ++ ":\t" ++ (if (fieldText n.opStr).isEmpty then
        fieldText n.mnemonic else fieldText n.mnemonic ++ "\t" ++ fieldText n.opStr) ++ "\t"
    rw [hop', String.append_empty]
    simp [String.append_assoc]

/-- What is read from an attempt, entry by entry, changes nothing but its value. -/
theorem Attempt.run_read (x : Attempt B (List α)) (read : α → β) (s : B.State) :
    (do return (← x).map read : Attempt B (List β)).run s =
      ⟨(x.run s).value.map (List.map read), (x.run s).state, (x.run s).events⟩ := by
  rw [Attempt.run_bind]
  cases (x.run s).value with
  | ok l => simp [Except.map]
  | error err => rfl

/-- A status of zero passes. -/
theorem Attempt.run_check_zero (s : B.State) :
    (check 0 : Attempt B Unit).run s = ⟨.ok (), s, []⟩ := rfl

/-- What becomes of an engine once it has decoded: it is asked for its status, or what it handed out
is released, or neither. -/
def Backend.Settles (B : Backend) (h : Handle) (s s' : B.State) : Prop :=
  s' = s ∨ s' = (B.answer s (.errno h)).2 ∨ ∃ n k, s' = (B.answer s (.free n k)).2

namespace Engine

theorem run_disasm (e : Engine) (code : List UInt8) (address : UInt64) (count : Nat)
    (s : B.State) :
    let out := (e.decodeNative code address count : Attempt B (List NativeInsn)).run s
    (e.disasm code address count : Attempt B (List Insn)).run s =
      ⟨out.value.map (List.map (Insn.ofNative e.arch e.diet e.detail)), out.state, out.events⟩ :=
  Attempt.run_read _ _ s

theorem run_disasmLite {e : Engine} (hdiet : e.diet = false) (code : List UInt8)
    (address : UInt64) (count : Nat) (s : B.State) :
    let out := (e.decodeNative code address count : Attempt B (List NativeInsn)).run s
    (e.disasmLite code address count : Attempt B (List LiteInsn)).run s =
      ⟨out.value.map (List.map LiteInsn.ofNative), out.state, out.events⟩ := by
  rw [disasmLite, ensureNotDiet_eq hdiet, Attempt.run_bind, Attempt.run_pure]
  exact Attempt.run_read _ _ s

/-- A decode succeeds if something was counted, or the engine says that nothing is wrong. -/
theorem run_decodeNative_of_clear {e : Engine} {code : List UInt8} {address : UInt64} {count : Nat}
    {d : Decoded} {s s₁ : B.State}
    (hd : B.answer s (.disasm e.handle code address count) = (d, s₁))
    (hclear : d.count = 0 → (B.answer s₁ (.errno e.handle)).1 = (0 : Status)) :
    ∃ s₂ es, (e.decodeNative code address count : Attempt B (List NativeInsn)).run s =
        ⟨.ok d.entries, s₂, es⟩ ∧ B.Settles e.handle s₁ s₂ := by
  simp only [decodeNative, Attempt.run_bind, Attempt.ask_eq, Attempt.run_of, Dialogue.run_ask, hd,
    Attempt.run_log]
  by_cases hcount : d.count = 0
  · simp only [hcount, if_true, Attempt.run_bind, Attempt.run_of, Dialogue.run_ask, hclear hcount,
      Attempt.run_check_zero, Attempt.run_pure]
    exact ⟨_, _, rfl, Or.inr (Or.inl rfl)⟩
  · cases harray : d.array with
    | some a =>
      simp only [hcount, if_false]
      exact ⟨_, _, rfl, Or.inr (Or.inr ⟨_, _, rfl⟩)⟩
    | none =>
      simp only [hcount, if_false, Attempt.run_pure]
      exact ⟨_, _, rfl, Or.inl rfl⟩

/-- A decode fails if nothing was counted and the engine says that something is wrong. -/
theorem decodeNative_fails {e : Engine} {code : List UInt8} {address : UInt64} {count : Nat}
    {d : Decoded} {s s₁ : B.State}
    (hd : B.answer s (.disasm e.handle code address count) = (d, s₁)) (hcount : d.count = 0)
    (hstatus : (B.answer s₁ (.errno e.handle)).1 ≠ (0 : Status)) :
    ∃ err, ((e.decodeNative code address count : Attempt B (List NativeInsn)).run s).value =
      .error err := by
  obtain ⟨err, herr⟩ := Attempt.check_fails hstatus (B.answer s₁ (.errno e.handle)).2
  simp only [decodeNative, Attempt.run_bind, Attempt.ask_eq, Attempt.run_of, Dialogue.run_ask, hd,
    Attempt.run_log, hcount, if_true, herr]
  exact ⟨err, rfl⟩

/-- Two states of a native engine in which it answers a decode, and what is asked about it, the
same. -/
structure SameDecode (B : Backend) (e : Engine) (code : List UInt8) (address : UInt64)
    (count : Nat) (s s' : B.State) : Prop where
  decoded : (B.answer s (.disasm e.handle code address count)).1 =
    (B.answer s' (.disasm e.handle code address count)).1
  errno : (B.answer (B.answer s (.disasm e.handle code address count)).2 (.errno e.handle)).1 =
    (B.answer (B.answer s' (.disasm e.handle code address count)).2 (.errno e.handle)).1
  strerror : ∀ status,
    (B.answer (B.answer (B.answer s (.disasm e.handle code address count)).2
      (.errno e.handle)).2 (.strerror status)).1 =
    (B.answer (B.answer (B.answer s' (.disasm e.handle code address count)).2
      (.errno e.handle)).2 (.strerror status)).1

/-- What becomes of a status hangs on the engine's words for it alone. -/
theorem check_congr (status : Status) {s s' : B.State}
    (h : ∀ status, (B.answer s (.strerror status)).1 = (B.answer s' (.strerror status)).1) :
    ((Attempt.check status : Attempt B Unit).run s).value =
        ((Attempt.check status : Attempt B Unit).run s').value ∧
      ((Attempt.check status : Attempt B Unit).run s).events =
        ((Attempt.check status : Attempt B Unit).run s').events := by
  unfold Attempt.check
  split
  · exact ⟨rfl, rfl⟩
  · next code _ _ =>
    rw [Attempt.run_refuse, Attempt.run_refuse]
    unfold Backend.words
    rw [h code.raw]
    exact ⟨rfl, rfl⟩
  · exact ⟨rfl, rfl⟩

/-- **A native decode hangs on its answers alone.** -/
theorem decodeNative_congr {e : Engine} {code : List UInt8} {address : UInt64} {count : Nat}
    {s s' : B.State} (h : SameDecode B e code address count s s') :
    let out := (e.decodeNative code address count : Attempt B (List NativeInsn)).run s
    let out' := (e.decodeNative code address count : Attempt B (List NativeInsn)).run s'
    out.value = out'.value ∧ out.events = out'.events := by
  obtain ⟨hdecoded, herrno, hwords⟩ := h
  simp only [decodeNative, Attempt.run_bind, Attempt.ask_eq, Attempt.run_of, Dialogue.run_ask,
    Attempt.run_log]
  generalize B.answer s (.disasm e.handle code address count) = p at hdecoded herrno hwords ⊢
  generalize B.answer s' (.disasm e.handle code address count) = p' at hdecoded herrno hwords ⊢
  obtain ⟨d, s₁⟩ := p
  obtain ⟨d', s₁'⟩ := p'
  obtain rfl : d = d' := hdecoded
  dsimp only at herrno hwords ⊢
  by_cases hcount : d.count = 0
  · simp only [hcount, if_true, Attempt.run_bind, Attempt.run_of, Dialogue.run_ask]
    generalize B.answer s₁ (.errno e.handle) = q at herrno hwords ⊢
    generalize B.answer s₁' (.errno e.handle) = q' at herrno hwords ⊢
    obtain ⟨status, s₂⟩ := q
    obtain ⟨status', s₂'⟩ := q'
    obtain rfl : status = status' := herrno
    obtain ⟨hvalue, hevents⟩ := check_congr status hwords
    dsimp only at hvalue hevents ⊢
    rw [hvalue, hevents]
    cases ((Attempt.check status : Attempt B Unit).run s₂').value with
    | ok _ => exact ⟨rfl, rfl⟩
    | error err => exact ⟨rfl, rfl⟩
  · simp only [if_neg hcount]
    cases d.array with
    | none => exact ⟨rfl, rfl⟩
    | some a => exact ⟨rfl, rfl⟩

/-- **The lite path agrees with the full path.**  On an engine with text, whatever its configuration,
and wherever it gives the same answers, they make the same calls with the same answers, and leave the
same log; they fail alike, or decode to as many records, in the same order, that mirror each
other. -/
theorem lite_agrees {e : Engine} (hdiet : e.diet = false) (code : List UInt8) (address : UInt64)
    (count : Nat) {s s' : B.State} (h : SameDecode B e code address count s s') :
    let lite := (e.disasmLite code address count : Attempt B (List LiteInsn)).run s
    let full := (e.disasm code address count : Attempt B (List Insn)).run s'
    lite.events = full.events ∧
      SameResult (List.Forall₂ LiteInsn.Mirrors) lite.value full.value := by
  obtain ⟨hvalue, hevents⟩ := decodeNative_congr h
  rw [run_disasmLite hdiet, run_disasm, hdiet]
  refine ⟨hevents, ?_⟩
  dsimp only at hvalue ⊢
  rw [hvalue]
  cases ((e.decodeNative code address count : Attempt B (List NativeInsn)).run s').value with
  | error err => exact .error err
  | ok l =>
    refine .ok ?_
    rw [List.forall₂_map_left_iff, List.forall₂_map_right_iff, List.forall₂_same]
    exact fun n _ => LiteInsn.mirrors_ofNative e.arch e.detail n

/-- Two scripts that have nothing in common but their next decode. -/
theorem lite_agrees_nop :
    let e : Engine := ⟨⟨1⟩, .x86, false, .width32, some .intel, true⟩
    let nop : NativeInsn := ⟨1, 16, 40, .replicate 16 0x90, [110, 111, 112], [], none⟩
    let s : Script := { decodes := [.insns [nop] false] }
    let s' : Script := { decodes := [.insns [nop] false, .null 3], closings := [1], opened := 7 }
    let lite := (e.disasmLite [0x90] 16 0 : Attempt Script.backend (List LiteInsn)).run s
    let full := (e.disasm [0x90] 16 0 : Attempt Script.backend (List Insn)).run s'
    e.diet = false ∧ SameDecode Script.backend e [0x90] 16 0 s s' ∧ lite.events = full.events ∧
      SameResult (List.Forall₂ LiteInsn.Mirrors) lite.value full.value := by
  intro e nop s s' lite full
  have hsame : SameDecode Script.backend e [0x90] 16 0 s s' := ⟨rfl, rfl, fun _ => rfl⟩
  exact ⟨rfl, hsame, lite_agrees rfl [0x90] 16 0 hsame⟩

end Engine

/-! ### Sessions for one use -/

/-- What three operations report that open an engine, use it and close it, and what is reported for
all of them together: the first failure, or else what the use came to. -/
inductive Reply.Shortened (used short : α → Reply) : List Reply → Reply → Prop where
  | unopened (err : Error) : Shortened used short [.failed err, .noEngine, .noEngine] (.failed err)
  | unused (err : Error) (r : Reply) : Shortened used short [.done, .failed err, r] (.failed err)
  | unclosed (a : α) (err : Error) :
    Shortened used short [.done, used a, .failed err] (.failed err)
  | served (a : α) : Shortened used short [.done, used a, .done] (short a)

/-- Open an engine in a slot, do one thing with it, close it. -/
def Move.session (slot : Nat) (arch : Arch) (mode : Mode) (a : Action) : List (Move B) :=
  [.op (.openEngine slot arch mode), .op (.act slot a), .op (.act slot .close)]

namespace Desk

/-- A slot that was filled and emptied is as empty as before. -/
theorem remove_put {d : Desk} {slot : Nat} (h : d.engine? slot = none) (e : Engine) :
    (d.put slot e).remove slot = d := by
  have hne : ∀ p ∈ d.engines, p.1 ≠ slot := fun p hp => slot_ne_of_engine? h hp
  have hinsert : (insert slot e d.engines).filter (fun p => p.1 ≠ slot) = d.engines := by
    generalize d.engines = l at hne
    induction l with
    | nil => simp [insert]
    | cons p l ih =>
      have hp : p.1 ≠ slot := hne p List.mem_cons_self
      have hl : ∀ q ∈ l, q.1 ≠ slot := fun q hq => hne q (List.mem_cons_of_mem _ hq)
      rw [insert]
      split
      · rw [List.filter_cons_of_neg (by simp)]
        exact List.filter_eq_self.mpr fun q hq => by simpa using hne q hq
      · split
        · next heq => exact absurd heq.symm hp
        · rw [List.filter_cons_of_pos (by simpa using hp), ih hl]
  show { d with engines := (insert slot e d.engines).filter fun p => p.1 ≠ slot } = d
  rw [hinsert]

variable {d : Desk} {slot : Nat} {a : Action} {use : Engine → Attempt B α} {used : α → Reply}
  {s : B.State}

/-- **A session for one use** on an empty slot leaves the desk as it was, and has the events, the
state and the reply of an engine for one use. -/
theorem session_spec (short : α → Reply) (hslot : d.engine? slot = none) (arch : Arch) (mode : Mode)
    (hact : ∀ e s₁, ((Engine.openWith arch mode : Attempt B Engine).run s).value = .ok e →
      ((Engine.openWith arch mode : Attempt B Engine).run s).state = s₁ →
      let out := (use e).run s₁
      ((d.put slot e).act slot e a : Dialogue B (Reply × Desk)) s₁ =
        ⟨(.ofResult out.value used, d.put slot e), out.state, out.events⟩) :
    let session := d.run s (Move.session slot arch mode a)
    let out := (withEngine arch mode use).run s
    session.flatMap Report.events = out.events ∧
      d.reach s (Move.session slot arch mode a) = (d, out.state) ∧
      Reply.Shortened used short (session.map Report.reply) (.ofResult out.value short) := by
  rcases hopen : (Engine.openWith arch mode : Attempt B Engine).run s with ⟨value, s₁, es⟩
  cases value with
  | error err =>
    have hfirst : (d.step (.openEngine slot arch mode) : Dialogue B (Reply × Desk)) s =
        ⟨(.failed err, d), s₁, es⟩ := by
      rw [step, Dialogue.run_bind, hopen]
      simp
    have hrest : ∀ a, (d.step (.act slot a) : Dialogue B (Reply × Desk)) s₁ =
        ⟨(.noEngine, d), s₁, []⟩ := by
      intro a
      rw [step, hslot]
      rfl
    have hout : (withEngine arch mode use).run s = ⟨.error err, s₁, es⟩ := by
      rw [withEngine, Attempt.run_bind, hopen]
    simp only [Move.session, run, reach, move, hfirst, hrest, hout, List.flatMap_cons,
      List.flatMap_nil, List.append_nil, List.map_cons, List.map_nil]
    exact ⟨trivial, trivial, .unopened err⟩
  | ok e =>
    have hfirst : (d.step (.openEngine slot arch mode) : Dialogue B (Reply × Desk)) s =
        ⟨(.done, d.put slot e), s₁, es⟩ := by
      rw [step, Dialogue.run_bind, hopen]
      simp [dropSlot, hslot]
    have hfilled : (d.put slot e).engine? slot = some e := by
      rw [engine?_put, if_pos rfl]
    have hsecond : ((d.put slot e).step (.act slot a) : Dialogue B (Reply × Desk)) s₁ =
        ⟨(.ofResult ((use e).run s₁).value used, d.put slot e), ((use e).run s₁).state,
          ((use e).run s₁).events⟩ := by
      rw [step, hfilled]
      exact hact e s₁ (by rw [hopen]) (by rw [hopen])
    have hthird : ∀ s₂, ((d.put slot e).step (.act slot .close) : Dialogue B (Reply × Desk)) s₂ =
        ⟨(.ofResult ((e.close : Attempt B Unit).run s₂).value fun _ => .done, d),
          ((e.close : Attempt B Unit).run s₂).state,
          ((e.close : Attempt B Unit).run s₂).events⟩ := by
      intro s₂
      rw [step, hfilled]
      show ((d.put slot e).act slot e .close : Dialogue B (Reply × Desk)) s₂ = _
      rw [act, Dialogue.run_bind, remove_put hslot]
      simp
    simp only [Move.session, run, reach, move, hfirst, hsecond, hthird, run_withEngine hopen,
      List.flatMap_cons, List.flatMap_nil, List.append_nil, List.map_cons, List.map_nil]
    refine ⟨trivial, trivial, ?_⟩
    cases ((use e).run s₁).value with
    | error err => exact .unused err _
    | ok a =>
      cases ((e.close : Attempt B Unit).run ((use e).run s₁).state).value with
      | error err => exact .unclosed a err
      | ok _ => exact .served a

end Desk

/-! ### The helpers for one use -/

/-- The summary of an instruction, in given words. -/
def Insn.summarized (say : ErrorCode → String) (i : Insn) : Answer :=
  .summary i (i.textOf say Rendering.mnemonic) (i.textOf say Rendering.opStr)

/-- The records of a decode as a reply. -/
def Reply.summaries (say : ErrorCode → String) (l : List Insn) : Reply :=
  .records (l.map (Insn.summarized say))

/-- A result is a reply of the kind it is made for exactly if it is there. -/
theorem Reply.ofResult_iff {read : α → Reply} {kind : β → Reply} (hread : ∀ a, ∃ b, read a = kind b)
    (hkind : ∀ b err, kind b ≠ .failed err) (r : Except Error α) :
    (∃ b, Reply.ofResult r read = kind b) ↔ ∃ a, r = .ok a := by
  cases r with
  | error err =>
    constructor
    · rintro ⟨b, hb⟩
      exact absurd hb.symm (hkind b err)
    · rintro ⟨_, ⟨⟩⟩
  | ok a => exact ⟨fun _ => ⟨a, rfl⟩, fun _ => hread a⟩

/-- A cursor at the start of a decode and behind its first record, as a reply. -/
def Reply.cursors (l : List LiteInsn) : Reply :=
  .lite (.start l) (Cursor.start l).next.2

namespace Desk

/-- Describing records that are not kept leaves everything as it was. -/
theorem run_present (hB : B.Mute) (d : Desk) (r : Except Error (List Insn)) (s : B.State) :
    (d.present r none : Dialogue B (Reply × Desk)) s =
      ⟨(.ofResult r (Reply.summaries (B.phrase s)), d), s, []⟩ := by
  cases r with
  | error err => rfl
  | ok l =>
    have hsummary : ∀ i : Insn, ∃ es, ((Record.mk i none).summary : Dialogue B Answer) s =
        ⟨i.summarized (B.phrase s), s, es⟩ := by
      intro i
      obtain ⟨es, hrun, -, -⟩ := (Record.mk i none).readText_spec hB Rendering.mnemonic s
      obtain ⟨es', hrun', -, -⟩ := (Record.mk i none).readText_spec hB Rendering.opStr s
      rw [Record.summary, Dialogue.run_bind, hrun, Dialogue.run_bind, hrun']
      exact ⟨_, rfl⟩
    have hall : ∀ l : List Insn, ∃ es,
        ((l.map fun i => Record.mk i none).mapM Record.summary : Dialogue B (List Answer)) s =
          ⟨l.map (Insn.summarized (B.phrase s)), s, es⟩ := by
      intro l
      induction l with
      | nil => exact ⟨[], rfl⟩
      | cons i l ih =>
        obtain ⟨es, hfirst⟩ := hsummary i
        obtain ⟨es', hrest⟩ := ih
        rw [List.map_cons, List.mapM_cons, Dialogue.run_bind, hfirst, Dialogue.run_bind, hrest]
        exact ⟨_, rfl⟩
    obtain ⟨es, hrun⟩ := hall l
    rw [present, Dialogue.run_bind, Dialogue.unrecorded, hrun]
    rfl

variable {d : Desk} {slot : Nat} {s : B.State}

/-- **The full helper is a session for one use.** -/
theorem quick_spec (hB : B.Mute) (hwords : B.FixedWords) (hslot : d.engine? slot = none)
    (arch : Arch) (mode : Mode) (code : List UInt8) (address : UInt64) (count : Nat) :
    let moves : List (Move B) := Move.session slot arch mode (.disasm code address count none)
    let quick := (d.step (.quick arch mode code address count none) :
      Dialogue B (Reply × Desk)) s
    quick.events = (d.run s moves).flatMap Report.events ∧
      d.reach s moves = (d, quick.state) ∧ quick.value.2 = d ∧
      Reply.Shortened (Reply.summaries (B.phrase s)) (Reply.summaries (B.phrase s))
        ((d.run s moves).map Report.reply) quick.value.1 := by
  -- The words are those of the first state, whenever records are described.
  have hsay : ∀ {α : Type} {x : Attempt B α}, Attempt.Faithful x → ∀ s,
      B.phrase (x.run s).state = B.phrase s := by
    intro α x hx s
    funext c
    exact congrFun ((hx s).words_eq hwords) c.raw
  have hact : ∀ e s₁, ((Engine.openWith arch mode : Attempt B Engine).run s).value = .ok e →
      ((Engine.openWith arch mode : Attempt B Engine).run s).state = s₁ →
      let out := (e.disasm code address count : Attempt B (List Insn)).run s₁
      ((d.put slot e).act slot e (.disasm code address count none) :
          Dialogue B (Reply × Desk)) s₁ =
        ⟨(.ofResult out.value (Reply.summaries (B.phrase s)), d.put slot e), out.state,
          out.events⟩ := by
    rintro e _ - rfl
    rw [act, Dialogue.run_bind, run_present hB, hsay (e.faithful_disasm code address count),
      hsay (Engine.faithful_openWith arch mode)]
    simp
  obtain ⟨hevents, hreach, hreply⟩ := session_spec (Reply.summaries (B.phrase s)) hslot arch mode
    hact
  have hquick : (d.step (.quick arch mode code address count none) :
      Dialogue B (Reply × Desk)) s =
      (let out := (withEngine arch mode fun e => e.disasm code address count :
        Attempt B (List Insn)).run s
      ⟨(.ofResult out.value (Reply.summaries (B.phrase s)), d), out.state, out.events⟩) := by
    rw [step, Dialogue.run_bind, run_present hB,
      hsay (faithful_disasmQuick arch mode code address count), disasmQuick]
    simp
  dsimp only
  rw [hquick]
  exact ⟨hevents.symm, hreach, rfl, hreply⟩

/-- What the lite helper looks at before it opens an engine. -/
def checks : List (Move B) :=
  [.op .checkVersion, .op (.supports Capability.diet.raw)]

theorem liteQuick_eq (d : Desk) (arch : Arch) (mode : Mode) (code : List UInt8)
    (address : UInt64) (count : Nat) (s : B.State) :
    (d.step (.liteQuick arch mode code address count) : Dialogue B (Reply × Desk)) s =
      (let out := (disasmLiteQuick arch mode code address count :
        Attempt B (List LiteInsn)).run s
      ⟨(.ofResult out.value .liteRecords, d), out.state, out.events⟩) := by
  rw [step, Dialogue.run_bind]
  simp

/-- Another version than the expected one is all that the lite helper finds out. -/
theorem liteQuick_of_mismatch (d : Desk) (arch : Arch) (mode : Mode) (code : List UInt8)
    (address : UInt64) (count : Nat) {s : B.State}
    (hversion : (B.answer s .version).1.matchesExpected = false) :
    let quick := (d.step (.liteQuick arch mode code address count) :
      Dialogue B (Reply × Desk)) s
    (∃ m, quick.value = (.failed (.engine .versionMismatch m), d)) ∧
      quick.events = ((d.step .checkVersion : Dialogue B (Reply × Desk)) s).events ∧
      NoOpenings quick.events := by
  obtain ⟨m, s₁, es, hrun, hdealings⟩ := run_checkVersion_of_mismatch hversion
  have hcheck : (d.step .checkVersion : Dialogue B (Reply × Desk)) s =
      ⟨(.failed (.engine .versionMismatch m), d), s₁,
        .call .version (B.answer s .version).1 :: es⟩ := by
    rw [step, Dialogue.run_bind, hrun]
    simp [Reply.ofResult]
  have hlite : (disasmLiteQuick arch mode code address count :
      Attempt B (List LiteInsn)).run s = ⟨.error (.engine .versionMismatch m), s₁,
        .call .version (B.answer s .version).1 :: es⟩ := by
    rw [disasmLiteQuick, Attempt.run_bind, hrun]
  dsimp only
  rw [liteQuick_eq, hlite, hcheck]
  refine ⟨⟨m, rfl⟩, rfl, noOpenings_of_dealings ?_⟩
  rw [dealings_cons, hdealings]
  exact noOpenings_nil

/-- With the expected version the two checks are two calls. -/
theorem run_checks (d : Desk) {s : B.State}
    (hversion : (B.answer s .version).1.matchesExpected = true) :
    let s₁ := (B.answer s .version).2
    let answer := B.answer s₁ (.support Capability.diet.raw)
    (d.run s checks).flatMap Report.events =
        [.call .version (B.answer s .version).1,
          .call (.support Capability.diet.raw) answer.1] ∧
      (d.run s checks).map Report.reply = [.done, .flag answer.1] ∧
      d.reach s checks = (d, answer.2) := by
  have hcheck : (d.step .checkVersion : Dialogue B (Reply × Desk)) s =
      ⟨(.done, d), (B.answer s .version).2, [.call .version (B.answer s .version).1]⟩ := by
    rw [step, Dialogue.run_bind, run_checkVersion hversion]
    rfl
  simp only [checks, run, reach, move, hcheck]
  exact ⟨rfl, rfl, rfl⟩

/-- On an engine without text the lite helper stops after its two checks. -/
theorem liteQuick_of_diet (d : Desk) (arch : Arch) (mode : Mode) (code : List UInt8)
    (address : UInt64) (count : Nat) {s : B.State}
    (hversion : (B.answer s .version).1.matchesExpected = true)
    (hdiet : (B.answer (B.answer s .version).2 (.support Capability.diet.raw)).1 = true) :
    let quick := (d.step (.liteQuick arch mode code address count) :
      Dialogue B (Reply × Desk)) s
    (∃ m, quick.value = (.failed (.engine .dietUnsupported m), d)) ∧
      callsOf quick.events = callsOf ((d.run s checks).flatMap Report.events) ++
        [.strerror ErrorCode.dietUnsupported.raw] ∧
      NoOpenings quick.events := by
  obtain ⟨hevents, -, -⟩ := d.run_checks hversion
  rw [liteQuick_eq, disasmLiteQuick, Attempt.run_after (run_checkVersion hversion),
    Attempt.run_after (Attempt.run_supports hdiet), if_pos rfl, Attempt.run_bind,
    Attempt.run_refuse, hevents]
  refine ⟨⟨_, rfl⟩, rfl, noOpenings_of_dealings ?_⟩
  exact noOpenings_nil

/-- Once its two checks are passed, the lite helper uses an engine of its own. -/
theorem run_disasmLiteQuick (arch : Arch) (mode : Mode) (code : List UInt8) (address : UInt64)
    (count : Nat) {s : B.State} (hversion : (B.answer s .version).1.matchesExpected = true)
    (htext : (B.answer (B.answer s .version).2 (.support Capability.diet.raw)).1 = false) :
    (disasmLiteQuick arch mode code address count : Attempt B (List LiteInsn)).run s =
      (let out := (withEngine arch mode fun e => e.disasmLite code address count :
        Attempt B (List LiteInsn)).run
          (B.answer (B.answer s .version).2 (.support Capability.diet.raw)).2
      ⟨out.value, out.state, .call .version (B.answer s .version).1 ::
        .call (.support Capability.diet.raw) false :: out.events⟩) := by
  rw [disasmLiteQuick, Attempt.run_after (run_checkVersion hversion),
    Attempt.run_after (Attempt.run_supports htext)]
  rfl

/-- **The lite helper is a session for one use** too, once its two checks are passed. -/
theorem liteQuick_spec (hslot : d.engine? slot = none) (arch : Arch) (mode : Mode)
    (code : List UInt8) (address : UInt64) (count : Nat)
    (hversion : (B.answer s .version).1.matchesExpected = true)
    (htext : (B.answer (B.answer s .version).2 (.support Capability.diet.raw)).1 = false) :
    let moves : List (Move B) := checks ++ Move.session slot arch mode (.lite code address count)
    let quick := (d.step (.liteQuick arch mode code address count) :
      Dialogue B (Reply × Desk)) s
    quick.events = (d.run s moves).flatMap Report.events ∧
      d.reach s moves = (d, quick.state) ∧ quick.value.2 = d ∧
      Reply.Shortened Reply.cursors Reply.liteRecords
        (((d.run s moves).map Report.reply).drop 2) quick.value.1 := by
  obtain ⟨hchecks, hreplies, hreached⟩ := d.run_checks hversion
  generalize hs₂ : (B.answer (B.answer s .version).2 (.support Capability.diet.raw)).2 = s₂
    at hreached
  have hact : ∀ e s₁, ((Engine.openWith arch mode : Attempt B Engine).run s₂).value = .ok e →
      ((Engine.openWith arch mode : Attempt B Engine).run s₂).state = s₁ →
      let out := (e.disasmLite code address count : Attempt B (List LiteInsn)).run s₁
      ((d.put slot e).act slot e (.lite code address count) : Dialogue B (Reply × Desk)) s₁ =
        ⟨(.ofResult out.value Reply.cursors, d.put slot e), out.state, out.events⟩ := by
    intro e s₁ _ _
    rw [act, Dialogue.run_bind]
    simp only [Dialogue.run_pure, List.append_nil]
    rfl
  obtain ⟨hevents, hreach, hreply⟩ := session_spec Reply.liteRecords hslot arch mode hact
  dsimp only
  rw [liteQuick_eq, run_disasmLiteQuick arch mode code address count hversion htext, hs₂,
    run_append, reach_append, hreached, List.flatMap_append, hevents, hchecks, htext, hreach,
    List.map_append, hreplies]
  exact ⟨rfl, rfl, rfl, hreply⟩

end Desk

/-- Whether a call asks for a handle. -/
def Call.opens : Call → Bool
  | .openEngine _ _ => true
  | _ => false

/-- The calls among events, from the first on that asks for a handle. -/
def callsFromOpening (es : List Event) : List Call :=
  (callsOf es).dropWhile fun c => !c.opens

/-- On an engine with text the two uses make the same calls and succeed alike. -/
theorem withEngine_lite (hB : B.FixedDiet) {s : B.State} (htext : B.diet s = false) (arch : Arch)
    (mode : Mode) (code : List UInt8) (address : UInt64) (count : Nat) :
    let lite := (withEngine arch mode fun e => e.disasmLite code address count :
      Attempt B (List LiteInsn)).run s
    let full := (withEngine arch mode fun e => e.disasm code address count :
      Attempt B (List Insn)).run s
    lite.events = full.events ∧ SameResult (fun _ _ => True) lite.value full.value := by
  rcases hopen : (Engine.openWith arch mode : Attempt B Engine).run s with ⟨value, s₁, es⟩
  cases value with
  | error err =>
    intro lite full
    have hlite : lite = ⟨.error err, s₁, es⟩ := by
      show (withEngine arch mode _).run s = _
      rw [withEngine, Attempt.run_bind, hopen]
    have hfull : full = ⟨.error err, s₁, es⟩ := by
      show (withEngine arch mode _).run s = _
      rw [withEngine, Attempt.run_bind, hopen]
    rw [hlite, hfull]
    exact ⟨rfl, .error err⟩
  | ok e =>
    have hdiet : e.diet = false := by
      have hsame := Engine.diet_openWith hB (s := s) (e := e) (by rw [hopen])
      rw [hsame, htext]
    simp only [run_withEngine hopen, Engine.run_disasmLite hdiet, Engine.run_disasm]
    refine ⟨trivial, ?_⟩
    generalize (e.decodeNative code address count : Attempt B (List NativeInsn)).run s₁ = out
    cases out.value with
    | error err => exact .error err
    | ok l =>
      cases ((e.close : Attempt B Unit).run out.state).value with
      | error err => exact .error err
      | ok _ => exact .ok trivial

namespace Desk

/-- **The two helpers open alike**: on an engine with text that keeps its state when it is asked for
its version and its flavour, they make the same calls from the opening on, and succeed alike. -/
theorem quick_alike (hB : B.Mute) (hdiet : B.FixedDiet) (d : Desk) (arch : Arch) (mode : Mode)
    (code : List UInt8) (address : UInt64) (count : Nat) {s : B.State}
    (hversion : (B.answer s .version).2 = s)
    (hsupport : (B.answer s (.support Capability.diet.raw)).2 = s) (htext : B.diet s = false) :
    let quick := (d.step (.quick arch mode code address count none) :
      Dialogue B (Reply × Desk)) s
    let lite := (d.step (.liteQuick arch mode code address count) :
      Dialogue B (Reply × Desk)) s
    callsFromOpening quick.events = callsFromOpening lite.events ∧
      ((∃ l, quick.value.1 = .records l) ↔ ∃ l, lite.value.1 = .liteRecords l) := by
  have hquick : ∃ say, (d.step (.quick arch mode code address count none) :
      Dialogue B (Reply × Desk)) s =
      (let out := (withEngine arch mode fun e => e.disasm code address count :
        Attempt B (List Insn)).run s
      ⟨(.ofResult out.value (Reply.summaries say), d), out.state, out.events⟩) := by
    rw [step, Dialogue.run_bind, run_present hB, disasmQuick]
    simp only [List.append_nil]
    exact ⟨_, rfl⟩
  obtain ⟨say, hquick⟩ := hquick
  -- What is made of the results succeeds exactly if they do.
  have hrecords : ∀ r : Except Error (List Insn),
      (∃ l, Reply.ofResult r (Reply.summaries say) = .records l) ↔ ∃ l, r = .ok l :=
    Reply.ofResult_iff (fun _ => ⟨_, rfl⟩) fun _ _ => Reply.noConfusion
  have hliteRecords : ∀ r : Except Error (List LiteInsn),
      (∃ l, Reply.ofResult r .liteRecords = .liteRecords l) ↔ ∃ l, r = .ok l :=
    Reply.ofResult_iff (fun l => ⟨l, rfl⟩) fun _ _ => Reply.noConfusion
  dsimp only
  rw [hquick, liteQuick_eq, hrecords, hliteRecords]
  cases hexpected : (B.answer s .version).1.matchesExpected with
  | false =>
    obtain ⟨m, s₁, es, hrun, -⟩ := run_checkVersion_of_mismatch hexpected
    have hfull : (withEngine arch mode fun e => e.disasm code address count :
        Attempt B (List Insn)).run s = ⟨.error (.engine .versionMismatch m), s₁,
          .call .version (B.answer s .version).1 :: es⟩ := by
      rw [withEngine, Attempt.run_bind, Engine.openWith, Attempt.run_bind, hrun]
    have hlite : (disasmLiteQuick arch mode code address count :
        Attempt B (List LiteInsn)).run s = ⟨.error (.engine .versionMismatch m), s₁,
          .call .version (B.answer s .version).1 :: es⟩ := by
      rw [disasmLiteQuick, Attempt.run_bind, hrun]
    rw [hfull, hlite]
    exact ⟨rfl, (SameResult.error (Q := fun _ _ => True) _).ok_iff⟩
  | true =>
    have hflavour : (B.answer (B.answer s .version).2 (.support Capability.diet.raw)).1 =
        false := by
      rw [hversion]
      exact htext
    rw [run_disasmLiteQuick arch mode code address count hexpected hflavour, hversion, hsupport]
    obtain ⟨hevents, hresult⟩ := withEngine_lite hdiet htext arch mode code address count
    dsimp only at hevents hresult ⊢
    refine ⟨?_, hresult.ok_iff.symm⟩
    rw [← hevents]
    rfl

/-- **The shortcuts equal explicit sessions.**  To decode with the full helper is to open an engine
in an empty slot, to decode with it, and to close it, whatever came of the decode: the same events,
the same engine afterwards, and the first failure or all records for a reply.  The lite helper is the
same with the lite path, after it has asked for the version and for the flavour; another version or
an engine without text is refused there, in this order, and nothing is opened.  On an engine with
text both helpers make the same calls from the opening on, and one succeeds exactly if the other
does. -/
theorem shortcuts_equal_sessions :
    (∀ (d : Desk) (slot : Nat) (arch : Arch) (mode : Mode) (code : List UInt8)
      (address : UInt64) (count : Nat) (s : Script), d.engine? slot = none →
      let say := Script.backend.phrase s
      let moves := Move.session slot arch mode (.disasm code address count none)
      let session := d.run (B := Script.backend) s moves
      let quick := (d.step (.quick arch mode code address count none) :
        Dialogue Script.backend (Reply × Desk)) s
      quick.events = session.flatMap Report.events ∧ d.reach s moves = (d, quick.state) ∧
        quick.value.2 = d ∧ Reply.Shortened (Reply.summaries say) (Reply.summaries say)
          (session.map Report.reply) quick.value.1) ∧
    (∀ (d : Desk) (slot : Nat) (arch : Arch) (mode : Mode) (code : List UInt8)
      (address : UInt64) (count : Nat) (s : Script), d.engine? slot = none →
      let moves := checks ++ Move.session slot arch mode (.lite code address count)
      let session := d.run (B := Script.backend) s moves
      let checked := d.run (B := Script.backend) s checks
      let quick := (d.step (.liteQuick arch mode code address count) :
        Dialogue Script.backend (Reply × Desk)) s
      let diet := s.supported.contains Capability.diet.raw
      (s.version.matchesExpected = false →
        (∃ m, quick.value = (.failed (.engine .versionMismatch m), d)) ∧
          quick.events = ((d.step .checkVersion :
            Dialogue Script.backend (Reply × Desk)) s).events ∧ NoOpenings quick.events) ∧
      (s.version.matchesExpected = true → diet = true →
        (∃ m, quick.value = (.failed (.engine .dietUnsupported m), d)) ∧
          callsOf quick.events = callsOf (checked.flatMap Report.events) ++
            [.strerror ErrorCode.dietUnsupported.raw] ∧ NoOpenings quick.events) ∧
      (s.version.matchesExpected = true → diet = false →
        quick.events = session.flatMap Report.events ∧ d.reach s moves = (d, quick.state) ∧
          quick.value.2 = d ∧ Reply.Shortened Reply.cursors Reply.liteRecords
            ((session.map Report.reply).drop 2) quick.value.1)) ∧
    (∀ (d : Desk) (arch : Arch) (mode : Mode) (code : List UInt8) (address : UInt64)
      (count : Nat) (s : Script), s.supported.contains Capability.diet.raw = false →
      let quick := (d.step (.quick arch mode code address count none) :
        Dialogue Script.backend (Reply × Desk)) s
      let lite := (d.step (.liteQuick arch mode code address count) :
        Dialogue Script.backend (Reply × Desk)) s
      callsFromOpening quick.events = callsFromOpening lite.events ∧
        ((∃ l, quick.value.1 = .records l) ↔ ∃ l, lite.value.1 = .liteRecords l)) := by
  refine ⟨?_, ?_, ?_⟩
  · intro d slot arch mode code address count s hslot
    exact quick_spec (B := Script.backend) Script.mute_backend Script.fixedWords_backend hslot arch
      mode code address count
  · intro d slot arch mode code address count s hslot moves session checked quick diet
    refine ⟨?_, ?_, ?_⟩
    · intro hversion
      exact liteQuick_of_mismatch (B := Script.backend) d arch mode code address count hversion
    · intro hversion hdiet
      exact liteQuick_of_diet (B := Script.backend) d arch mode code address count hversion hdiet
    · intro hversion htext
      exact liteQuick_spec (B := Script.backend) hslot arch mode code address count hversion htext
  · intro d arch mode code address count s htext
    exact quick_alike (B := Script.backend) Script.mute_backend Script.fixedDiet_backend d arch mode
      code address count rfl rfl htext

/-- Helpers for which a decode fails and then the close, beside an engine that stays in its slot: the
failed decode is what they report.  The lite helper does not come so far with another version or with
a diet engine. -/
theorem shortcuts_equal_sessions_failing :
    let d : Desk := { engines := [(1, ⟨⟨9⟩, .x86, false, .width32, some .intel, false⟩)] }
    let s : Script := { decodes := [.null 0], errnos := [1], closings := [3] }
    let older : Script := { s with minor := 0 }
    let diet : Script := { s with supported := [Capability.diet.raw] }
    let moves : List (Move Script.backend) :=
      Move.session 0 .x86 .width32 (.disasm [0x90] 0 1 none)
    let liteMoves : List (Move Script.backend) :=
      checks ++ Move.session 0 .x86 .width32 (.lite [0x90] 0 1)
    let quick := (d.step (.quick .x86 .width32 [0x90] 0 1 none) :
      Dialogue Script.backend (Reply × Desk)) s
    let lite := fun s => (d.step (.liteQuick .x86 .width32 [0x90] 0 1) :
      Dialogue Script.backend (Reply × Desk)) s
    d.engine? 0 = none ∧ s.version.matchesExpected = true ∧
      s.supported.contains Capability.diet.raw = false ∧
      callsOf quick.events = [.version, .openEngine .x86 .width32, .support 0x10000,
        .disasm ⟨1⟩ [0x90] 0 1, .errno ⟨1⟩, .strerror 1, .close ⟨1⟩, .strerror 3] ∧
      (∃ m, quick.value.1 = .failed (.engine .outOfMemory m)) ∧
      quick.events = (d.run s moves).flatMap Report.events ∧ d.reach s moves = (d, quick.state) ∧
      (lite s).events = (d.run s liteMoves).flatMap Report.events ∧
      d.reach s liteMoves = (d, (lite s).state) ∧
      callsFromOpening quick.events = callsFromOpening (lite s).events ∧
      (older.version.matchesExpected = false ∧
        (∃ m, (lite older).value = (.failed (.engine .versionMismatch m), d)) ∧
        NoOpenings (lite older).events) ∧
      diet.version.matchesExpected = true ∧ diet.supported.contains Capability.diet.raw = true ∧
      (∃ m, (lite diet).value = (.failed (.engine .dietUnsupported m), d)) ∧
      NoOpenings (lite diet).events := by
  have hquick :
      let quick := (step { engines := [(1, ⟨⟨9⟩, .x86, false, .width32, some .intel, false⟩)] }
          (.quick .x86 .width32 [0x90] 0 1 none) : Dialogue Script.backend (Reply × Desk))
        { decodes := [.null 0], errnos := [1], closings := [3] }
      callsOf quick.events = [.version, .openEngine .x86 .width32, .support 0x10000,
        .disasm ⟨1⟩ [0x90] 0 1, .errno ⟨1⟩, .strerror 1, .close ⟨1⟩, .strerror 3] ∧
      ∃ m, quick.value.1 = .failed (.engine .outOfMemory m) := ⟨by decide, _, rfl⟩
  intro d s older diet moves liteMoves quick lite
  have hslot : d.engine? 0 = none := rfl
  have hversion : s.version.matchesExpected = true := by decide
  have htext : s.supported.contains Capability.diet.raw = false := by decide
  have holder : older.version.matchesExpected = false := by decide
  have hdietVersion : diet.version.matchesExpected = true := by decide
  have hdiet : diet.supported.contains Capability.diet.raw = true := by decide
  obtain ⟨hfull, hlite, halike⟩ := shortcuts_equal_sessions
  obtain ⟨hevents, hreach, -, -⟩ := hfull d 0 .x86 .width32 [0x90] 0 1 s hslot
  obtain ⟨-, -, hserved⟩ := hlite d 0 .x86 .width32 [0x90] 0 1 s hslot
  obtain ⟨hliteEvents, hliteReach, -, -⟩ := hserved hversion htext
  obtain ⟨hmismatch, -, -⟩ := hlite d 0 .x86 .width32 [0x90] 0 1 older hslot
  obtain ⟨hrefused, -, hunopened⟩ := hmismatch holder
  obtain ⟨-, hflavour, -⟩ := hlite d 0 .x86 .width32 [0x90] 0 1 diet hslot
  obtain ⟨hrefused', -, hunopened'⟩ := hflavour hdietVersion hdiet
  obtain ⟨hcalls, hfailed⟩ := hquick
  exact ⟨hslot, hversion, htext, hcalls, hfailed, hevents, hreach, hliteEvents, hliteReach,
    (halike d .x86 .width32 [0x90] 0 1 s htext).1, ⟨holder, hrefused, hunopened⟩, hdietVersion,
    hdiet, hrefused', hunopened'⟩

end Desk

end Disassembly

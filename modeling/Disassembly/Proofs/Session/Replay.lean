import Disassembly.Native.Script
import Disassembly.Session.Desk

/-!
# Transcripts replay

The events of a dialogue are its whole traffic with the engine: put to the engine again, their
calls get the answers they record and leave the engine where the dialogue left it.

* `Backend.Replays` — events replay from one state of the engine to another;
* `Dialogue.Faithful`, `Attempt.Faithful` — whatever the engine, the events replay;
* `Desk.faithful_step` — every operation on a desk is faithful, as long as asking for a message
  leaves the engine as it was (`Backend.Mute`), since descriptions of records are not recorded;
* `Script.Numbers` — what a scripted engine gives out, handles (`Script.opened_of_replays`) and
  arrays (`Script.handed_of_replays`), it numbers in order, so that none is given out twice.
-/

namespace Disassembly

/-- Events replay: each call gets the answer it records, and the last one leaves the engine in
the second state. -/
def Backend.Replays (B : Backend) : B.State → List Event → B.State → Prop
  | s, [], s' => s' = s
  | s, .call c a :: es, s' => a = (B.answer s c).1 ∧ B.Replays (B.answer s c).2 es s'
  | s, .log _ _ :: es, s' => B.Replays s es s'
  | s, .line _ :: es, s' => B.Replays s es s'
  | s, .load _ :: es, s' => B.Replays s es s'

/-- Asking for the message of a status leaves the engine as it was. -/
def Backend.Mute (B : Backend) : Prop :=
  ∀ (s : B.State) (status : Status), (B.answer s (.strerror status)).2 = s

theorem Script.mute_backend : Script.backend.Mute :=
  fun _ _ => rfl

variable {B : Backend} {α β : Type}

theorem Backend.Replays.append {s s' s'' : B.State} {es es' : List Event}
    (h : B.Replays s es s') (h' : B.Replays s' es' s'') : B.Replays s (es ++ es') s'' := by
  induction es generalizing s with
  | nil =>
    rw [Replays] at h
    rw [← h]
    exact h'
  | cons e es ih =>
    cases e with
    | call c a => exact ⟨h.1, ih h.2⟩
    | log l m => exact ih (s := s) h
    | line t => exact ih (s := s) h
    | load p => exact ih (s := s) h

/-! ### Dialogues -/

namespace Dialogue

/-- The events of a dialogue replay, whatever state the engine is in. -/
def Faithful (x : Dialogue B α) : Prop :=
  ∀ s, B.Replays s (x s).events (x s).state

/-- A dialogue leaves the engine as it was. -/
def Steady (x : Dialogue B α) : Prop :=
  ∀ s, (x s).state = s

theorem faithful_pure (a : α) : Faithful (Pure.pure a : Dialogue B α) :=
  fun _ => rfl

theorem Faithful.bind {x : Dialogue B α} {f : α → Dialogue B β} (hx : Faithful x)
    (hf : ∀ a, Faithful (f a)) : Faithful (x >>= f) :=
  fun s => (hx s).append (hf (x s).value (x s).state)

theorem faithful_ask (c : Call) : Faithful (ask c : Dialogue B c.Answer) :=
  fun _ => ⟨rfl, rfl⟩

theorem faithful_log (level : Level) (m : String) : Faithful (log level m : Dialogue B Unit) :=
  fun _ => rfl

theorem faithful_message (status : Status) : Faithful (message status : Dialogue B String) := by
  refine .bind (faithful_ask _) fun answer => ?_
  cases answer with
  | none => exact faithful_pure _
  | some bytes => exact faithful_pure _

theorem Steady.bind {x : Dialogue B α} {f : α → Dialogue B β} (hx : Steady x)
    (hf : ∀ a, Steady (f a)) : Steady (x >>= f) :=
  fun s => (hf (x s).value (x s).state).trans (hx s)

theorem steady_message (hB : B.Mute) (status : Status) :
    Steady (message status : Dialogue B String) := by
  refine .bind (fun s => hB s status) fun answer => ?_
  cases answer with
  | none => exact fun _ => rfl
  | some bytes => exact fun _ => rfl

theorem steady_mapM {f : α → Dialogue B β} (hf : ∀ a, Steady (f a)) (l : List α) :
    Steady (l.mapM f) := by
  induction l with
  | nil => exact fun _ => rfl
  | cons a l ih =>
    rw [List.mapM_cons]
    exact (hf a).bind fun _ => ih.bind fun _ _ => rfl

/-- What is not recorded replays if it did nothing to the engine. -/
theorem Steady.faithful_unrecorded {x : Dialogue B α} (hx : Steady x) : Faithful x.unrecorded :=
  fun s => hx s

theorem faithful_mapM {f : α → Dialogue B β} (hf : ∀ a, Faithful (f a)) (l : List α) :
    Faithful (l.mapM f) := by
  induction l with
  | nil => exact faithful_pure _
  | cons a l ih =>
    rw [List.mapM_cons]
    exact (hf a).bind fun _ => ih.bind fun _ => faithful_pure _

theorem faithful_supportedOf (l : List Arch) :
    Faithful (supportedOf l : Dialogue B (List Arch)) := by
  induction l with
  | nil => exact faithful_pure _
  | cons a l ih => exact .bind (faithful_ask _) fun _ => ih.bind fun _ => faithful_pure _

theorem faithful_describeBuild : Faithful (describeBuild : Dialogue B String) :=
  .bind (faithful_ask _) fun _ => .bind (faithful_supportedOf _) fun _ =>
    .bind (faithful_ask _) fun _ => faithful_pure _

end Dialogue

/-! ### Attempts -/

namespace Attempt

open Dialogue

/-- The events of an attempt replay, whether it succeeds or fails. -/
def Faithful (x : Attempt B α) : Prop :=
  Dialogue.Faithful x.run

theorem faithful_pure (a : α) : Faithful (Pure.pure a : Attempt B α) :=
  fun _ => rfl

theorem faithful_throw (e : Error) : Faithful (throw e : Attempt B α) :=
  fun _ => rfl

theorem faithful_of {x : Dialogue B α} (hx : Dialogue.Faithful x) : Faithful (of x) :=
  hx.bind fun _ => Dialogue.faithful_pure _

theorem Faithful.bind {x : Attempt B α} {f : α → Attempt B β} (hx : Faithful x)
    (hf : ∀ a, Faithful (f a)) : Faithful (x >>= f) := by
  refine Dialogue.Faithful.bind hx fun r => ?_
  cases r with
  | ok a => exact hf a
  | error e => exact Dialogue.faithful_pure _

theorem faithful_ask (c : Call) : Faithful (ask c : Attempt B c.Answer) :=
  faithful_of (Dialogue.faithful_ask c)

theorem faithful_log (level : Level) (m : String) : Faithful (log level m : Attempt B Unit) :=
  faithful_of (Dialogue.faithful_log level m)

theorem faithful_refuse (code : ErrorCode) : Faithful (refuse code : Attempt B α) :=
  (faithful_of (faithful_message _)).bind fun _ => faithful_throw _

theorem faithful_check (status : Status) : Faithful (check status : Attempt B Unit) := by
  unfold check
  split
  · exact faithful_pure _
  · exact faithful_refuse _
  · exact faithful_throw _

theorem faithful_ofExcept (r : Except Error α) : Faithful (ofExcept r : Attempt B α) := by
  cases r with
  | ok a => exact faithful_pure a
  | error e => exact faithful_throw e

end Attempt

open Attempt

theorem faithful_checkVersion : Faithful (checkVersion : Attempt B Unit) := by
  refine .bind (faithful_ask _) fun v => ?_
  split
  · exact faithful_pure _
  · exact .bind (faithful_log _ _) fun _ => faithful_refuse _

/-! ### Operations on one engine -/

namespace Engine

theorem faithful_openWith (arch : Arch) (mode : Mode) :
    Faithful (openWith arch mode : Attempt B Engine) := by
  refine .bind faithful_checkVersion fun _ => ?_
  split
  · exact .bind (faithful_ask _) fun _ => .bind (faithful_check _) fun _ =>
      .bind (faithful_of (Dialogue.faithful_ask _)) fun _ => .bind (faithful_log _ _) fun _ =>
        faithful_pure _
  · exact .bind (faithful_log _ _) fun _ => faithful_refuse _

theorem faithful_close (e : Engine) : Faithful (e.close : Attempt B Unit) := by
  rw [close_eq]
  exact .bind (faithful_ask _) fun _ => .bind (faithful_log _ _) fun _ => faithful_check _

theorem faithful_drop (e : Engine) : Dialogue.Faithful (e.drop : Dialogue B Unit) := by
  rw [drop_eq]
  refine .bind e.faithful_close fun r => ?_
  cases r with
  | ok _ => exact Dialogue.faithful_pure _
  | error err => exact Dialogue.faithful_log _ _

theorem faithful_option (e : Engine) (x : Setting) : Faithful (e.option x : Attempt B Unit) :=
  .bind (faithful_ask _) fun _ => faithful_check _

theorem faithful_setDialect (e : Engine) (x : Dialect) :
    Faithful (e.setDialect x : Attempt B Engine) :=
  .bind (e.faithful_option _) fun _ => .bind (faithful_log _ _) fun _ => faithful_pure _

theorem faithful_setDetail (e : Engine) (on : Bool) :
    Faithful (e.setDetail on : Attempt B Engine) :=
  .bind (e.faithful_option _) fun _ => .bind (faithful_log _ _) fun _ => faithful_pure _

theorem faithful_setMode (e : Engine) (m : Mode) : Faithful (e.setMode m : Attempt B Engine) := by
  unfold setMode
  split
  · exact .bind (e.faithful_option _) fun _ => .bind (faithful_log _ _) fun _ => faithful_pure _
  · exact faithful_refuse _

theorem faithful_errno (e : Engine) : Faithful (e.errno : Attempt B ErrorCode) := by
  refine .bind (faithful_ask _) fun status => ?_
  split
  · exact faithful_pure _
  · exact faithful_throw _

theorem faithful_ensureNotDiet (e : Engine) : Faithful (e.ensureNotDiet : Attempt B Unit) := by
  unfold ensureNotDiet
  split
  · exact faithful_refuse _
  · exact faithful_pure _

theorem faithful_regName (e : Engine) (id : UInt32) :
    Faithful (e.regName id : Attempt B (Option String)) :=
  .bind e.faithful_ensureNotDiet fun _ => .bind (faithful_ask _) fun _ => faithful_pure _

theorem faithful_insnName (e : Engine) (id : UInt32) :
    Faithful (e.insnName id : Attempt B (Option String)) :=
  .bind e.faithful_ensureNotDiet fun _ => .bind (faithful_ask _) fun _ => faithful_pure _

theorem faithful_decodeNative (e : Engine) (code : List UInt8) (address : UInt64) (count : Nat) :
    Faithful (e.decodeNative code address count : Attempt B (List NativeInsn)) := by
  refine .bind (faithful_ask _) fun decoded => .bind (faithful_log _ _) fun _ => ?_
  split
  · exact .bind (faithful_ask _) fun _ => .bind (faithful_check _) fun _ => faithful_pure _
  · split
    · exact .bind (faithful_ask _) fun _ => faithful_pure _
    · exact faithful_pure _

theorem faithful_disasm (e : Engine) (code : List UInt8) (address : UInt64) (count : Nat) :
    Faithful (e.disasm code address count : Attempt B (List Insn)) :=
  .bind (e.faithful_decodeNative _ _ _) fun _ => faithful_pure _

theorem faithful_disasmLite (e : Engine) (code : List UInt8) (address : UInt64) (count : Nat) :
    Faithful (e.disasmLite code address count : Attempt B (List LiteInsn)) :=
  .bind e.faithful_ensureNotDiet fun _ => .bind (e.faithful_decodeNative _ _ _) fun _ =>
    faithful_pure _

end Engine

theorem faithful_withEngine (arch : Arch) (mode : Mode) {use : Engine → Attempt B α}
    (huse : ∀ e, Faithful (use e)) : Faithful (withEngine arch mode use) :=
  .bind (Engine.faithful_openWith arch mode) fun e => .bind (faithful_of (huse e)) fun _ =>
    .bind (faithful_of e.faithful_close) fun _ => .bind (faithful_ofExcept _) fun _ =>
      .bind (faithful_ofExcept _) fun _ => faithful_pure _

theorem faithful_disasmQuick (arch : Arch) (mode : Mode) (code : List UInt8) (address : UInt64)
    (count : Nat) : Faithful (disasmQuick arch mode code address count : Attempt B (List Insn)) :=
  faithful_withEngine arch mode fun e => e.faithful_disasm code address count

theorem faithful_disasmLiteQuick (arch : Arch) (mode : Mode) (code : List UInt8)
    (address : UInt64) (count : Nat) :
    Faithful (disasmLiteQuick arch mode code address count : Attempt B (List LiteInsn)) := by
  refine .bind faithful_checkVersion fun _ =>
    .bind (faithful_of (Dialogue.faithful_ask _)) fun diet => ?_
  have hlite : Faithful
      (withEngine arch mode fun e => e.disasmLite code address count : Attempt B _) :=
    faithful_withEngine arch mode fun e => e.faithful_disasmLite code address count
  cases diet with
  | true => exact .bind (faithful_refuse _) fun _ => hlite
  | false => exact hlite

/-! ### Operations on records -/

namespace Record

theorem faithful_readText (r : Record) (part : Rendering → String) :
    Faithful (r.readText part : Attempt B String) := by
  unfold readText
  split
  · exact faithful_pure _
  · exact faithful_refuse _

theorem faithful_readDetail (r : Record) :
    Faithful (r.readDetail : Attempt B (Detail × Record)) := by
  unfold readDetail
  split
  · exact faithful_refuse _
  · split
    · exact faithful_refuse _
    · exact faithful_pure _
    · exact .bind (faithful_log _ _) fun _ => faithful_pure _

theorem faithful_summary (r : Record) : Dialogue.Faithful (r.summary : Dialogue B Answer) :=
  .bind (r.faithful_readText _) fun _ => .bind (r.faithful_readText _) fun _ =>
    Dialogue.faithful_pure _

theorem faithful_inquire (r : Record) (q : Query) :
    Dialogue.Faithful (r.inquire q : Dialogue B (Except Error Answer × Record)) := by
  cases q with
  | mnemonic => exact .bind (r.faithful_readText _) fun _ => Dialogue.faithful_pure _
  | opStr => exact .bind (r.faithful_readText _) fun _ => Dialogue.faithful_pure _
  | hasDetail => exact Dialogue.faithful_pure _
  | display => exact Dialogue.faithful_pure _
  | fullLine => exact Dialogue.faithful_pure _
  | shown => exact Dialogue.faithful_pure _
  | summary => exact .bind r.faithful_summary fun _ => Dialogue.faithful_pure _
  | detail q =>
    refine .bind r.faithful_readDetail fun result => ?_
    cases result with
    | ok p => exact Dialogue.faithful_pure _
    | error e => exact Dialogue.faithful_pure _

theorem faithful_inquireAll (r : Record) (qs : List Query) :
    Dialogue.Faithful (r.inquireAll qs : Dialogue B (List (Except Error Answer) × Record)) := by
  induction qs generalizing r with
  | nil => exact Dialogue.faithful_pure _
  | cons q qs ih =>
    exact .bind (r.faithful_inquire q) fun first => .bind (ih first.2) fun _ =>
      Dialogue.faithful_pure _

theorem steady_readText (hB : B.Mute) (r : Record) (part : Rendering → String) :
    Dialogue.Steady (r.readText part : Attempt B String).run := by
  unfold readText
  split
  · exact fun _ => rfl
  · exact fun s => Dialogue.steady_message hB _ s

theorem steady_summary (hB : B.Mute) (r : Record) :
    Dialogue.Steady (r.summary : Dialogue B Answer) :=
  .bind (r.steady_readText hB _) fun _ => .bind (r.steady_readText hB _) fun _ _ => rfl

end Record

/-! ### Operations on a desk -/

namespace Desk

theorem faithful_present (hB : B.Mute) (d : Desk) (result : Except Error (List Insn))
    (name : Option String) :
    Dialogue.Faithful (d.present result name : Dialogue B (Reply × Desk)) := by
  cases result with
  | error e => exact Dialogue.faithful_pure _
  | ok insns =>
    exact .bind (Dialogue.steady_mapM (fun r => r.steady_summary hB) _).faithful_unrecorded
      fun _ => Dialogue.faithful_pure _

theorem faithful_examine (hB : B.Mute) (i : Insn) :
    Dialogue.Faithful (examine i : Dialogue B (Answer × Except Error Detail)) :=
  .bind ((Record.mk i none).steady_summary hB).faithful_unrecorded fun _ =>
    .bind (Record.mk i none).faithful_readDetail fun _ => Dialogue.faithful_pure _

theorem faithful_act (hB : B.Mute) (d : Desk) (slot : Nat) (e : Engine) (a : Action) :
    Dialogue.Faithful (d.act slot e a : Dialogue B (Reply × Desk)) := by
  cases a with
  | close => exact .bind e.faithful_close fun _ => Dialogue.faithful_pure _
  | drop => exact .bind e.faithful_drop fun _ => Dialogue.faithful_pure _
  | setDialect x => exact .bind (e.faithful_setDialect x) fun _ => Dialogue.faithful_pure _
  | setDetail on => exact .bind (e.faithful_setDetail on) fun _ => Dialogue.faithful_pure _
  | setMode m => exact .bind (e.faithful_setMode m) fun _ => Dialogue.faithful_pure _
  | regName id => exact .bind (e.faithful_regName id) fun _ => Dialogue.faithful_pure _
  | insnName id => exact .bind (e.faithful_insnName id) fun _ => Dialogue.faithful_pure _
  | errno => exact .bind e.faithful_errno fun _ => Dialogue.faithful_pure _
  | shown => exact Dialogue.faithful_pure _
  | disasm code address count name =>
    exact .bind (e.faithful_disasm code address count) fun r => d.faithful_present hB r name
  | iterate code address count steps =>
    exact .bind (e.faithful_disasm code address count) fun _ => Dialogue.faithful_pure _
  | lite code address count =>
    exact .bind (e.faithful_disasmLite code address count) fun _ => Dialogue.faithful_pure _
  | examine code address count =>
    refine .bind (e.faithful_disasm code address count) fun r => ?_
    cases r with
    | error err => exact Dialogue.faithful_pure _
    | ok l =>
      exact .bind (Dialogue.faithful_mapM (faithful_examine hB) l) fun _ => Dialogue.faithful_pure _

theorem faithful_dropSlot (d : Desk) (slot : Nat) :
    Dialogue.Faithful (d.dropSlot slot : Dialogue B Unit) := by
  unfold dropSlot
  split
  · exact Engine.faithful_drop _
  · exact Dialogue.faithful_pure _

/-- Every operation on a desk is faithful. -/
theorem faithful_step (hB : B.Mute) (d : Desk) (o : Op) :
    Dialogue.Faithful (d.step o : Dialogue B (Reply × Desk)) := by
  cases o with
  | openEngine slot arch mode =>
    refine .bind (Engine.faithful_openWith arch mode) fun r => ?_
    cases r with
    | error e => exact Dialogue.faithful_pure _
    | ok e => exact .bind (d.faithful_dropSlot slot) fun _ => Dialogue.faithful_pure _
  | act slot a =>
    rw [step]
    split
    · exact d.faithful_act hB slot _ a
    · exact Dialogue.faithful_pure _
  | quick arch mode code address count name =>
    exact .bind (faithful_disasmQuick arch mode code address count) fun r =>
      d.faithful_present hB r name
  | liteQuick arch mode code address count =>
    exact .bind (faithful_disasmLiteQuick arch mode code address count) fun _ =>
      Dialogue.faithful_pure _
  | inquire name index queries =>
    rw [step]
    split
    · exact Dialogue.faithful_pure _
    · exact .bind (Record.faithful_inquireAll _ queries) fun _ => Dialogue.faithful_pure _
  | version => exact .bind (Dialogue.faithful_ask _) fun _ => Dialogue.faithful_pure _
  | supports query => exact .bind (Dialogue.faithful_ask _) fun _ => Dialogue.faithful_pure _
  | message status =>
    exact .bind (Dialogue.faithful_message status) fun _ => Dialogue.faithful_pure _
  | describeBuild => exact .bind Dialogue.faithful_describeBuild fun _ => Dialogue.faithful_pure _
  | checkVersion => exact .bind faithful_checkVersion fun _ => Dialogue.faithful_pure _
  | status status => exact .bind (faithful_check status) fun _ => Dialogue.faithful_pure _

theorem faithful_dropAll (l : List (Nat × Engine)) :
    Dialogue.Faithful (dropAll l : Dialogue B Unit) := by
  induction l with
  | nil => exact Dialogue.faithful_pure _
  | cons p l ih => exact .bind p.2.faithful_drop fun _ => ih

end Desk

/-! ### What a scripted engine numbers -/

namespace Event

/-- The handle that a successful opening gives. -/
def opens? : Event → Option Handle
  | .call (.openEngine _ _) answer => if answer.1 = 0 then some answer.2 else none
  | _ => none

/-- The array that a decode hands out. -/
def hands? : Event → Option NativeArray
  | .call (.disasm _ _ _ _) decoded => decoded.array
  | _ => none

end Event

namespace Script

/-- Among events the numbers that are given out are those that follow on the count `given` of the
first script, up to its count in the second. -/
structure Numbers (number? : Event → Option Nat) (given : Script → Nat) (s : Script)
    (es : List Event) (s' : Script) : Prop where
  le : given s ≤ given s'
  eq_range : es.filterMap number? = List.range' (given s + 1) (given s' - given s)

variable {number? : Event → Option Nat} {given : Script → Nat} {s s' s'' : Script}
  {es es' : List Event}

theorem Numbers.nil (s : Script) : Numbers number? given s [] s :=
  ⟨Nat.le_refl _, by simp⟩

theorem Numbers.append (h : Numbers number? given s es s') (h' : Numbers number? given s' es' s'') :
    Numbers number? given s (es ++ es') s'' := by
  have hle := h.le
  have hle' := h'.le
  refine ⟨Nat.le_trans hle hle', ?_⟩
  have hnext : given s' + 1 = given s + 1 + (given s' - given s) := by omega
  have hcount : given s'' - given s = given s' - given s + (given s'' - given s') := by omega
  rw [List.filterMap_append, h.eq_range, h'.eq_range, hnext, hcount, List.range'_append_1]

theorem Numbers.nodup (h : Numbers number? given s es s') : (es.filterMap number?).Nodup := by
  rw [h.eq_range]
  exact List.nodup_range'

/-- An event that gives no number. -/
theorem numbers_same {e : Event} (hnone : number? e = none) (hsame : given s' = given s) :
    Numbers number? given s [e] s' := by
  refine ⟨Nat.le_of_eq hsame.symm, ?_⟩
  rw [List.filterMap_cons_none hnone, hsame, Nat.sub_self]
  rfl

/-- An event that gives the next number. -/
theorem numbers_next {e : Event} (hnumber : number? e = some (given s + 1))
    (hnext : given s' = given s + 1) : Numbers number? given s [e] s' := by
  refine ⟨by omega, ?_⟩
  rw [List.filterMap_cons_some hnumber, hnext, Nat.add_sub_cancel_left]
  rfl

/-- A call at a time is enough. -/
theorem numbers_of_replays
    (hcall : ∀ s c, Numbers number? given s [.call c (s.answer c).1] (s.answer c).2)
    (hother : ∀ e : Event, e.call? = none → number? e = none)
    (h : backend.Replays s es s') : Numbers number? given s es s' := by
  induction es generalizing s with
  | nil =>
    have hstate : s' = s := h
    rw [hstate]
    exact Numbers.nil s
  | cons e es ih =>
    have hskip : ∀ {e : Event}, e.call? = none → backend.Replays s es s' →
        Numbers number? given s (e :: es) s' := by
      intro e he hes
      have hrest := ih hes
      exact ⟨hrest.le, by rw [List.filterMap_cons_none (hother e he)]; exact hrest.eq_range⟩
    cases e with
    | call c a =>
      obtain ⟨ha, hes⟩ := h
      rw [ha]
      exact (hcall s c).append (ih hes)
    | log l m => exact hskip rfl h
    | line t => exact hskip rfl h
    | load p => exact hskip rfl h

theorem opened_decode (s : Script) : s.decode.2.opened = s.opened := by
  unfold decode
  split <;> rfl

/-- A decode hands out no array, or one with the next number. -/
theorem arrays_decode (s : Script) :
    (s.decode.1.array = none ∧ s.decode.2.arrays = s.arrays) ∨
      ∃ a, s.decode.1.array = some a ∧ a.number = s.arrays + 1 ∧
        s.decode.2.arrays = s.arrays + 1 := by
  unfold decode
  split
  · exact Or.inl ⟨rfl, rfl⟩
  · exact Or.inl ⟨rfl, rfl⟩
  · exact Or.inr ⟨_, rfl, rfl, rfl⟩

theorem answer_opened {s : Script} (arch : Arch) (mode : Mode) (hok : next s.openings = 0) :
    s.answer (.openEngine arch mode) = ((0, ⟨s.opened + 1⟩),
      { s with openings := s.openings.tail, opened := s.opened + 1 }) :=
  if_pos hok

theorem answer_unopened {s : Script} (arch : Arch) (mode : Mode) (hfail : next s.openings ≠ 0) :
    s.answer (.openEngine arch mode) =
      ((next s.openings, ⟨0⟩), { s with openings := s.openings.tail }) :=
  if_neg hfail

/-- Handles are numbered in the order in which they are opened. -/
theorem opened_of_replays (h : backend.Replays s es s') :
    Numbers (fun e => e.opens?.map Handle.value) opened s es s' := by
  refine numbers_of_replays (fun s c => ?_) (fun e he => ?_) h
  · cases c with
    | openEngine arch mode =>
      by_cases hok : next s.openings = 0
      · rw [answer_opened arch mode hok]
        exact numbers_next rfl rfl
      · rw [answer_unopened arch mode hok]
        exact numbers_same (by rw [Event.opens?, if_neg hok]; rfl) rfl
    | disasm hd code address count => exact numbers_same rfl (opened_decode s)
    | _ => exact numbers_same rfl rfl
  · cases e with
    | call c a => cases he
    | _ => rfl

/-- Arrays are numbered in the order in which they are handed out. -/
theorem handed_of_replays (h : backend.Replays s es s') :
    Numbers (fun e => e.hands?.map NativeArray.number) arrays s es s' := by
  refine numbers_of_replays (fun s c => ?_) (fun e he => ?_) h
  · cases c with
    | openEngine arch mode =>
      by_cases hok : next s.openings = 0
      · rw [answer_opened arch mode hok]
        exact numbers_same rfl rfl
      · rw [answer_unopened arch mode hok]
        exact numbers_same rfl rfl
    | disasm hd code address count =>
      have hanswer : s.answer (.disasm hd code address count) = s.decode := rfl
      rw [hanswer]
      rcases arrays_decode s with ⟨hnone, hsame⟩ | ⟨a, hsome, hnumber, hnext⟩
      · exact numbers_same (by rw [Event.hands?, hnone]; rfl) hsame
      · exact numbers_next (by rw [Event.hands?, hsome, ← hnumber]; rfl) hnext
    | _ => exact numbers_same rfl rfl
  · cases e with
    | call c a => cases he
    | _ => rfl

/-- Changing the answers of a script leaves its counts alone. -/
theorem counts_change (s : Script) (c : Change) :
    (s.change c).opened = s.opened ∧ (s.change c).arrays = s.arrays := by
  cases c <;> exact ⟨rfl, rfl⟩

theorem counts_changes (s : Script) (l : List Change) :
    (l.foldl change s).opened = s.opened ∧ (l.foldl change s).arrays = s.arrays := by
  induction l generalizing s with
  | nil => exact ⟨rfl, rfl⟩
  | cons c l ih =>
    rw [List.foldl_cons]
    exact ⟨(ih _).1.trans (counts_change s c).1, (ih _).2.trans (counts_change s c).2⟩

end Script

end Disassembly

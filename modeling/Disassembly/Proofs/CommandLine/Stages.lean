import Disassembly.CommandLine.Run
import Disassembly.Proofs.Library.Resolution
import Disassembly.Proofs.Session.Gates
import Disassembly.Proofs.Session.Inquiries

/-!
# The stages of the program

* `Dialogue.Quiet` — what is done with an engine or a library prints no line and logs nothing that
  a reader asks for with the first grade of verbosity;
* `Stage.run_bind` and its like — the stages of the program run one after another, up to the first
  that fails;
* `Arguments.run_library` — looking for the library succeeds if one of the candidates loads;
* `Backend.Constant` — an engine that can be asked about itself, and for names, without a trace.
-/

namespace Disassembly

/-! ### Quiet dialogues -/

namespace Event

/-- The message that an event logs for information. -/
def info? : Event → Option String
  | .log .info m => some m
  | _ => none

/-- An event that neither prints nor informs. -/
def Silent (e : Event) : Prop :=
  e.line? = none ∧ e.info? = none

theorem silent_call (c : Call) (a : c.Answer) : (Event.call c a).Silent :=
  ⟨rfl, rfl⟩

end Event

/-- The messages logged for information among events. -/
def infosOf (es : List Event) : List String :=
  es.filterMap Event.info?

theorem linesOf_append (es es' : List Event) : linesOf (es ++ es') = linesOf es ++ linesOf es' :=
  List.filterMap_append

theorem callsOf_append (es es' : List Event) : callsOf (es ++ es') = callsOf es ++ callsOf es' :=
  List.filterMap_append

theorem infosOf_append (es es' : List Event) : infosOf (es ++ es') = infosOf es ++ infosOf es' :=
  List.filterMap_append

/-- An outcome behind events that came before it. -/
def Outcome.behind {σ α : Type} (es : List Event) (out : Outcome σ α) : Outcome σ α :=
  ⟨out.value, out.state, es ++ out.events⟩

section

variable {σ α : Type} (es es' : List Event) (out : Outcome σ α)

theorem Outcome.behind_behind : (out.behind es').behind es = out.behind (es ++ es') :=
  congrArg (Outcome.mk out.value out.state) (List.append_assoc es es' out.events).symm

theorem linesOf_behind : linesOf (out.behind es).events = linesOf es ++ linesOf out.events :=
  linesOf_append _ _

theorem callsOf_behind : callsOf (out.behind es).events = callsOf es ++ callsOf out.events :=
  callsOf_append _ _

theorem infosOf_behind : infosOf (out.behind es).events = infosOf es ++ infosOf out.events :=
  infosOf_append _ _

theorem dealings_behind : dealings (out.behind es).events = dealings es ++ dealings out.events :=
  dealings_append _ _

end

theorem silent_nil {es : List Event} (h : ∀ e ∈ es, e.Silent) : linesOf es = [] ∧ infosOf es = [] :=
  ⟨List.filterMap_eq_nil_iff.mpr fun e he => (h e he).1,
    List.filterMap_eq_nil_iff.mpr fun e he => (h e he).2⟩

/-- Events that only log for information. -/
theorem events_of_infos (l : List String) : linesOf (l.map (Event.log .info)) = [] ∧
    infosOf (l.map (Event.log .info)) = l ∧ dealings (l.map (Event.log .info)) = [] := by
  induction l with
  | nil => exact ⟨rfl, rfl, rfl⟩
  | cons m l ih => exact ⟨ih.1, congrArg (m :: ·) ih.2.1, ih.2.2⟩

theorem dealings_of_callsOf {es : List Event} (h : callsOf es = []) : dealings es = [] := by
  refine List.filter_eq_nil_iff.mpr fun e he hdeals => ?_
  have hnone := List.filterMap_eq_nil_iff.mp h e he
  cases e with
  | call c a => cases hnone
  | _ => cases hdeals

variable {B : Backend} {α β ε : Type}

namespace Dialogue

/-- All events are silent. -/
def Quiet (x : Dialogue B α) : Prop :=
  ∀ s, ∀ e ∈ (x s).events, e.Silent

theorem quiet_pure (a : α) : Quiet (Pure.pure a : Dialogue B α) :=
  fun _ _ he => nomatch he

theorem Quiet.bind {x : Dialogue B α} {f : α → Dialogue B β} (hx : Quiet x)
    (hf : ∀ a, Quiet (f a)) : Quiet (x >>= f) := by
  intro s
  rw [run_bind]
  exact List.forall_mem_append.mpr ⟨hx s, hf _ _⟩

/-- A quiet attempt after another. -/
theorem Quiet.andThen {x : ExceptT ε (Dialogue B) α} {f : α → ExceptT ε (Dialogue B) β}
    (hx : Quiet x.run) (hf : ∀ a, Quiet (f a).run) : Quiet (x >>= f).run := by
  rw [ExceptT.run_bind]
  refine hx.bind fun r => ?_
  cases r with
  | ok a => exact hf a
  | error e => exact quiet_pure _

theorem quiet_ask (c : Call) : Quiet (ask c : Dialogue B c.Answer) :=
  fun _ => List.forall_mem_singleton.mpr (Event.silent_call c _)

theorem quiet_log {level : Level} (hlevel : level ≠ .info) (m : String) :
    Quiet (log level m : Dialogue B Unit) := by
  refine fun _ => List.forall_mem_singleton.mpr ⟨rfl, ?_⟩
  cases level with
  | info => exact absurd rfl hlevel
  | _ => rfl

theorem quiet_message (status : Status) : Quiet (message status : Dialogue B String) := by
  intro s
  rw [run_message]
  exact List.forall_mem_singleton.mpr (Event.silent_call _ _)

end Dialogue

namespace Attempt

open Dialogue

theorem quiet_of {x : Dialogue B α} (hx : Quiet x) : Quiet (of x).run :=
  hx.bind fun _ => quiet_pure _

theorem quiet_ask (c : Call) : Quiet (ask c : Attempt B c.Answer).run :=
  quiet_of (Dialogue.quiet_ask c)

theorem quiet_log {level : Level} (hlevel : level ≠ .info) (m : String) :
    Quiet (log level m : Attempt B Unit).run :=
  quiet_of (Dialogue.quiet_log hlevel m)

theorem quiet_refuse (code : ErrorCode) : Quiet (refuse code : Attempt B α).run :=
  .andThen (quiet_of (quiet_message _)) fun _ => quiet_pure _

theorem quiet_check (status : Status) : Quiet (check status : Attempt B Unit).run := by
  unfold check
  split
  · exact quiet_pure _
  · exact quiet_refuse _
  · exact quiet_pure _

end Attempt

open Dialogue Attempt

theorem quiet_checkVersion : Quiet (checkVersion : Attempt B Unit).run := by
  refine .andThen (Attempt.quiet_ask _) fun v => ?_
  split
  · exact quiet_pure _
  · exact .andThen (Attempt.quiet_log (by decide) _) fun _ => quiet_refuse _

namespace Engine

theorem quiet_openWith (arch : Arch) (mode : Mode) :
    Quiet (openWith arch mode : Attempt B Engine).run := by
  refine .andThen quiet_checkVersion fun _ => ?_
  split
  · exact .andThen (Attempt.quiet_ask _) fun _ => .andThen (quiet_check _) fun _ =>
      .andThen (quiet_of (Dialogue.quiet_ask _)) fun _ =>
        .andThen (Attempt.quiet_log (by decide) _) fun _ => quiet_pure _
  · exact .andThen (Attempt.quiet_log (by decide) _) fun _ => quiet_refuse _

theorem quiet_close (e : Engine) : Quiet (e.close : Attempt B Unit).run := by
  rw [close_eq]
  exact .andThen (Attempt.quiet_ask _) fun _ =>
    .andThen (Attempt.quiet_log (by decide) _) fun _ => quiet_check _

theorem quiet_drop (e : Engine) : Quiet (e.drop : Dialogue B Unit) := by
  rw [drop_eq]
  refine .bind e.quiet_close fun r => ?_
  cases r with
  | ok _ => exact quiet_pure _
  | error err => exact Dialogue.quiet_log (by decide) _

theorem quiet_option (e : Engine) (x : Setting) : Quiet (e.option x : Attempt B Unit).run :=
  .andThen (Attempt.quiet_ask _) fun _ => quiet_check _

theorem quiet_configure (e : Engine) (x : Setting) : Quiet (e.configure x : Attempt B Engine).run := by
  have hcommit : ∀ (x : Setting) (text : String) (after : Engine), Quiet (do
      e.option x
      Attempt.log .debug text
      return after : Attempt B Engine).run := fun x text after =>
    .andThen (e.quiet_option x) fun _ =>
      .andThen (Attempt.quiet_log (by decide) text) fun _ => quiet_pure _
  cases x with
  | dialect t => exact hcommit _ _ _
  | detail on => exact hcommit _ _ _
  | mode m =>
    simp only [configure, setMode]
    split
    · exact hcommit _ _ _
    · exact quiet_refuse _

theorem quiet_disasm (e : Engine) (code : List UInt8) (address : UInt64) (count : Nat) :
    Quiet (e.disasm code address count : Attempt B (List Insn)).run := by
  refine .andThen (.andThen (Attempt.quiet_ask _) fun decoded =>
    .andThen (Attempt.quiet_log (by decide) _) fun _ => ?_) fun _ => quiet_pure _
  split
  · exact .andThen (Attempt.quiet_ask _) fun _ => .andThen (quiet_check _) fun _ => quiet_pure _
  · split
    · exact .andThen (Attempt.quiet_ask _) fun _ => quiet_pure _
    · exact quiet_pure _

end Engine

theorem Record.quiet_readDetail (r : Record) :
    Quiet (r.readDetail : Attempt B (Detail × Record)).run := by
  unfold readDetail
  split
  · exact quiet_refuse _
  · split
    · exact quiet_refuse _
    · exact quiet_pure _
    · exact .andThen (Attempt.quiet_log (by decide) _) fun _ => quiet_pure _

namespace Cell

theorem quiet_tryLoad (l : Loader) (path : String) :
    Quiet (tryLoad l path : Dialogue B (Except Error String)) := by
  intro s
  rw [run_tryLoad]
  exact List.forall_mem_singleton.mpr ⟨rfl, rfl⟩

theorem quiet_search (l : Loader) (tried paths : List String) :
    Quiet (search l tried paths : Dialogue B (Except Error String)) := by
  induction paths generalizing tried with
  | nil => exact .bind (Dialogue.quiet_log (by decide) _) fun _ => quiet_pure _
  | cons path paths ih =>
    refine .bind (quiet_tryLoad l path) fun r => ?_
    cases r with
    | ok found => exact .bind (Dialogue.quiet_log (by decide) _) fun _ => quiet_pure _
    | error e => exact .bind (Dialogue.quiet_log (by decide) _) fun _ => ih _

end Cell

namespace CommandLine

/-! ### Running stages -/

namespace Stage

@[simp]
theorem run_bind (x : Stage B α) (f : α → Stage B β) (s : B.State) :
    (x >>= f).run s =
      match (x.run s).value with
      | .ok a =>
        ⟨((f a).run (x.run s).state).value, ((f a).run (x.run s).state).state,
          (x.run s).events ++ ((f a).run (x.run s).state).events⟩
      | .error e => ⟨.error e, (x.run s).state, (x.run s).events⟩ := by
  rw [ExceptT.run_bind, Dialogue.run_bind]
  cases (x.run s).value with
  | ok a => rfl
  | error e => simp

@[simp]
theorem run_of (x : Dialogue B α) (s : B.State) :
    (of x).run s = ⟨.ok (x s).value, (x s).state, (x s).events⟩ := by
  change (⟨.ok (x s).value, (x s).state, (x s).events ++ []⟩ : Outcome B.State (Except Failure α)) = _
  rw [List.append_nil]

@[simp]
theorem run_pure (a : α) (s : B.State) : (Pure.pure a : Stage B α).run s = ⟨.ok a, s, []⟩ := rfl

@[simp]
theorem run_throw (f : Failure) (s : B.State) :
    (throw f : Stage B α).run s = ⟨.error f, s, []⟩ := rfl

@[simp]
theorem run_attempt (x : Attempt B α) (s : B.State) : (attempt x).run s =
    ⟨(x.run s).value.mapError fun e => ⟨e.message, none⟩, (x.run s).state, (x.run s).events⟩ := by
  rw [attempt, run_bind, run_of]
  cases (x.run s).value with
  | ok a => simp [Except.mapError]
  | error e => simp [Except.mapError]

@[simp]
theorem run_during (what : String) (x : Attempt B α) (s : B.State) : (during what x).run s =
    ⟨(x.run s).value.mapError fun e => ⟨what, some e.message⟩, (x.run s).state,
      (x.run s).events⟩ := by
  rw [during, run_bind, run_of]
  cases (x.run s).value with
  | ok a => simp [Except.mapError]
  | error e => simp [Except.mapError]

/-- A stage after one that succeeded. -/
theorem run_after {x : Stage B α} {f : α → Stage B β} {s s₁ : B.State} {a : α} {es : List Event}
    (hx : x.run s = ⟨.ok a, s₁, es⟩) : (x >>= f).run s = ((f a).run s₁).behind es := by
  rw [run_bind, hx]
  rfl

/-- No stage follows one that failed. -/
theorem run_failed {x : Stage B α} {f : α → Stage B β} {s s₁ : B.State} {e : Failure}
    {es : List Event} (hx : x.run s = ⟨.error e, s₁, es⟩) : (x >>= f).run s = ⟨.error e, s₁, es⟩ := by
  rw [run_bind, hx]

end Stage

/-! ### The library -/

namespace Arguments

/-- The places where the program looks for the library. -/
def candidates (a : Arguments) (w : Surroundings) : List String :=
  match a.lib with
  | some path => [path]
  | none => w.searchPaths

/-- Looking for the library. -/
def library (a : Arguments) (w : Surroundings) : Dialogue B Cell :=
  match a.lib with
  | some path => Cell.empty.initFrom w path
  | none => Cell.empty.init w

/-- A cell that is written for a path says whether the library there loads. -/
theorem run_initFrom (w : Surroundings) (path : String) (s : B.State) :
    ∃ c es, (Cell.empty.initFrom w path : Dialogue B Cell) s = ⟨c, s, es⟩ ∧
      (c.result = .ok () ↔ w.loader.load path = .ok ()) ∧ dealings es = [] ∧
        ∀ e ∈ es, e.Silent := by
  have hsilent : ∀ e ∈ [Event.log .debug ("loading capstone from " ++ path), .load path],
      e.Silent :=
    List.forall_mem_cons.mpr ⟨⟨rfl, rfl⟩, List.forall_mem_singleton.mpr ⟨rfl, rfl⟩⟩
  simp only [Cell.initFrom, Dialogue.run_bind, Cell.run_tryLoad]
  cases hload : w.loader.load path with
  | ok u => exact ⟨_, _, rfl, by simp [Cell.ofResult, Cell.result], rfl, hsilent⟩
  | error err => exact ⟨_, _, rfl, by simp [Cell.ofResult, Cell.result], rfl, hsilent⟩

/-- A cell that is written by a search says whether a library loads anywhere. -/
theorem run_init (w : Surroundings) (s : B.State) :
    ∃ c es, (Cell.empty.init w : Dialogue B Cell) s = ⟨c, s, es⟩ ∧
      (c.result = .ok () ↔ ∃ path ∈ w.searchPaths, w.loader.load path = .ok ()) ∧
        dealings es = [] ∧ ∀ e ∈ es, e.Silent := by
  obtain ⟨tried, r, hsearch, hspec⟩ := Cell.search_spec (B := B) w.loader w.searchPaths
  obtain ⟨hvalue, hstate, -, hcalls⟩ := hspec [] s
  have hquiet := Cell.quiet_search (B := B) w.loader [] w.searchPaths s
  rcases hout : (Cell.search w.loader [] w.searchPaths : Dialogue B (Except Error String)) s with
    ⟨value, s₁, es⟩
  rw [hout] at hvalue hstate hcalls hquiet
  obtain rfl : s₁ = s := hstate
  have hrun : (Cell.empty.init w : Dialogue B Cell) s₁ = ⟨Cell.ofResult value, s₁, es⟩ := by
    simp only [Cell.init, Dialogue.run_bind, hout, Dialogue.run_pure, List.append_nil]
  refine ⟨_, _, hrun, ?_, dealings_of_callsOf hcalls, hquiet⟩
  dsimp only at hvalue
  rw [hvalue]
  cases hsearch with
  | @found before after path hpaths hbefore hload =>
    have hmem : path ∈ w.searchPaths := hpaths ▸ List.mem_append_right _ List.mem_cons_self
    simp only [Except.mapError, Cell.ofResult, Cell.result, true_iff]
    exact ⟨path, hmem, hload⟩
  | @nowhere errs herrs =>
    simp only [Except.mapError, Cell.ofResult, Cell.result, reduceCtorEq, false_iff]
    rintro ⟨path, hpath, hload⟩
    have hboth := herrs.imp fun p err herr =>
      (⟨by simp [herr], herr⟩ : w.loader.load p ≠ .ok () ∧ w.loader.load p = .error err)
    exact absurd hload (((List.forall₂_and_left _ _).mp hboth).1 path hpath)

/-- **The library is found if a candidate loads**, and nothing is asked or printed on the way. -/
theorem run_library (a : Arguments) (w : Surroundings) (s : B.State) :
    ∃ c es, (a.library w : Dialogue B Cell) s = ⟨c, s, es⟩ ∧
      (c.result = .ok () ↔ ∃ path ∈ a.candidates w, w.loader.load path = .ok ()) ∧
      dealings es = [] ∧ ∀ e ∈ es, e.Silent := by
  unfold library candidates
  cases a.lib with
  | some path =>
    obtain ⟨c, es, hrun, hresult, hrest⟩ := run_initFrom (B := B) w path s
    refine ⟨c, es, hrun, hresult.trans ?_, hrest⟩
    simp
  | none => exact run_init w s

end Arguments

end CommandLine

/-! ### Names of registers -/

namespace Backend

/-- The name that an engine has for a register in some state. -/
def nameOf (B : Backend) (s : B.State) (h : Handle) (id : UInt32) : Option String :=
  (B.answer s (.regName h id)).1.map fieldText

/-- Asking for the name of a register leaves the engine as it was. -/
def Discreet (B : Backend) : Prop :=
  ∀ s h id, (B.answer s (.regName h id)).2 = s

end Backend

theorem Script.discreet_backend : Script.backend.Discreet :=
  fun _ _ _ => rfl

/-- The handle that can be asked for names: only an engine that is not diet has them. -/
def Engine.namer (e : Engine) : Option Handle :=
  if e.diet then none else some e.handle

/-- What an engine that is not diet is asked for the name of a register. -/
theorem Engine.run_regName (hB : B.Discreet) {e : Engine} (he : e.diet = false) (id : UInt32)
    (s : B.State) : (e.regName id : Attempt B (Option String)).run s =
      ⟨.ok (B.nameOf s e.handle id), s,
        [.call (.regName e.handle id) (B.answer s (.regName e.handle id)).1]⟩ := by
  rw [regName, ensureNotDiet_eq he]
  simp only [Attempt.run_bind, Attempt.run_pure, Attempt.ask_eq, Attempt.run_of, Dialogue.run_ask,
    hB s e.handle id]
  rfl

/-- An engine that says the same of itself whatever it is asked, and can be asked about itself and
for names without a trace. -/
structure Backend.Constant (B : Backend) : Prop where
  version : B.FixedVersion
  diet : B.FixedDiet
  words : B.FixedWords
  still : B.Still
  discreet : B.Discreet

theorem Backend.Constant.mute (hB : B.Constant) : B.Mute :=
  fun s status => hB.still s (.strerror status) (B.answer s (.strerror status)).1 rfl

theorem Script.constant_backend : Script.backend.Constant :=
  ⟨fixedVersion_backend, fixedDiet_backend, fixedWords_backend, still_backend, discreet_backend⟩

end Disassembly

import Disassembly.Proofs.Session.Arrays

/-!
# What becomes of a status

Opening, setting an option, closing and asking for the last status each bring back a status, zero
if all went well.  An operation is `Truthful` if it succeeds exactly when all the statuses it got
are zero, and otherwise fails with the first that is not, as `Reported` says: with the code that has
its number and the engine's own words for it, or with the bare number where there is no such code.

* `Truthful.bind` — one truthful step after another is truthful, as long as the engine keeps to its
  words (`Backend.FixedWords`);
* `Truthful.asked` — the one step that looks at a status;
* `truthful_withEngine` — of an engine's use and its closing the use is reported first;
* `Yields` — a decode that succeeds gives the entries that the engine handed out.
-/

namespace Disassembly

variable {B : Backend} {α β : Type}

/-! ### Statuses and words -/

namespace Event

/-- The status that an event brings back. -/
def status? : Event → Option Status
  | .call (.openEngine _ _) answer => some answer.1
  | .call (.close _) status => some status
  | .call (.option _ _) status => some status
  | .call (.errno _) status => some status
  | _ => none

/-- The status for which the engine's words are asked. -/
def explains? : Event → Option Status
  | .call (.strerror status) _ => some status
  | _ => none

theorem status?_of_not_deals {e : Event} (h : e.deals = false) : e.status? = none := by
  cases e with
  | call c a => cases c <;> first | rfl | cases h
  | _ => rfl

end Event

/-- The statuses that events bring back, in order. -/
def statusesOf (es : List Event) : List Status :=
  es.filterMap Event.status?

theorem statusesOf_append (es es' : List Event) :
    statusesOf (es ++ es') = statusesOf es ++ statusesOf es' :=
  List.filterMap_append

theorem statusesOf_dealings (es : List Event) : statusesOf (dealings es) = statusesOf es :=
  filterMap_dealings (fun _ => Event.status?_of_not_deals) es

/-- What is said for a status, given the engine's bytes for it. -/
def wording (status : Status) : Option (List UInt8) → String
  | some bytes => fieldText bytes
  | none => "unknown error code " ++ toString status.toInt

/-- The words of an engine in some state. -/
def Backend.words (B : Backend) (s : B.State) (status : Status) : String :=
  wording status (B.answer s (.strerror status)).1

/-- No call changes the words. -/
def Backend.FixedWords (B : Backend) : Prop :=
  ∀ s c, B.words (B.answer s c).2 = B.words s

/-- What a script says of itself stays as it is when it is asked. -/
theorem Script.standing_answer (s : Script) (c : Call) :
    (s.answer c).2.version = s.version ∧ (s.answer c).2.messages = s.messages := by
  cases c with
  | openEngine arch mode =>
    rw [answer]
    split <;> exact ⟨rfl, rfl⟩
  | disasm h code address count =>
    rw [answer, decode]
    split <;> exact ⟨rfl, rfl⟩
  | _ => exact ⟨rfl, rfl⟩

theorem Script.fixedWords_backend : Script.backend.FixedWords := by
  intro s c
  funext status
  have hmessages := (Script.standing_answer s c).2
  exact congrArg (fun l => wording status ((l.lookup status).getD (nativeMessage status))) hmessages

theorem Backend.Replays.words_eq (hB : B.FixedWords) {s s' : B.State} {es : List Event}
    (h : B.Replays s es s') : B.words s' = B.words s := by
  induction es generalizing s with
  | nil =>
    have hstate : s' = s := h
    rw [hstate]
  | cons e es ih =>
    cases e with
    | call c a => exact (ih h.2).trans (hB s c)
    | log l m => exact ih (s := s) h
    | line t => exact ih (s := s) h
    | load p => exact ih (s := s) h

/-- The error that a status is reported as, in given words. -/
inductive Reported (words : Status → String) (status : Status) : Error → Prop where
  | code (c : ErrorCode) (hc : c.raw = status) (hknown : 1 ≤ status ∧ status ≤ 10) :
    Reported words status (.engine c (words status))
  | unknown (hunknown : ¬ (1 ≤ status ∧ status ≤ 10)) :
    Reported words status (.unknownStatus status)

theorem ErrorCode.raw_known {c : ErrorCode} (hc : c ≠ .ok) : 1 ≤ c.raw ∧ c.raw ≤ 10 := by
  cases c with
  | ok => exact absurd rfl hc
  | _ => decide

/-- The statuses from one to ten have a code. -/
theorem ErrorCode.ofRaw?_of_known {status : Status} (h : 1 ≤ status ∧ status ≤ 10) :
    ∃ c, ofRaw? status = some c := by
  have hlow : 1 ≤ status.toInt := Int32.le_iff_toInt_le.mp h.1
  have hhigh : status.toInt ≤ 10 := Int32.le_iff_toInt_le.mp h.2
  have hnumber : ∃ c : ErrorCode, c.raw.toInt = status.toInt := by
    have hten : status.toInt = 1 ∨ status.toInt = 2 ∨ status.toInt = 3 ∨ status.toInt = 4 ∨
        status.toInt = 5 ∨ status.toInt = 6 ∨ status.toInt = 7 ∨ status.toInt = 8 ∨
        status.toInt = 9 ∨ status.toInt = 10 := by omega
    rcases hten with h | h | h | h | h | h | h | h | h | h
    · exact ⟨.outOfMemory, h.symm⟩
    · exact ⟨.unsupportedArch, h.symm⟩
    · exact ⟨.invalidHandle, h.symm⟩
    · exact ⟨.invalidHandleRef, h.symm⟩
    · exact ⟨.unsupportedMode, h.symm⟩
    · exact ⟨.unsupportedOption, h.symm⟩
    · exact ⟨.detailNotRequested, h.symm⟩
    · exact ⟨.memSetupFailure, h.symm⟩
    · exact ⟨.versionMismatch, h.symm⟩
    · exact ⟨.dietUnsupported, h.symm⟩
  obtain ⟨c, hc⟩ := hnumber
  have hraw : c.raw = status := Int32.toInt_inj.mp hc
  exact ⟨c, hraw ▸ ofRaw?_raw c⟩

theorem Dialogue.run_message (status : Status) (s : B.State) :
    (Dialogue.message status : Dialogue B String) s =
      ⟨B.words s status, (B.answer s (.strerror status)).2,
        [.call (.strerror status) (B.answer s (.strerror status)).1]⟩ := by
  unfold Dialogue.message Backend.words
  rw [Dialogue.run_bind, Dialogue.run_ask]
  cases (B.answer s (.strerror status)).1 with
  | some bytes => rfl
  | none => rfl

theorem Attempt.run_refuse (code : ErrorCode) (s : B.State) :
    (Attempt.refuse code : Attempt B α).run s =
      ⟨.error (.engine code (B.words s code.raw)), (B.answer s (.strerror code.raw)).2,
        [.call (.strerror code.raw) (B.answer s (.strerror code.raw)).1]⟩ := by
  unfold Attempt.refuse
  rw [Attempt.run_bind, Attempt.run_of, Dialogue.run_message]
  rfl

/-- A status other than zero is reported, and only a known one is asked about. -/
theorem Attempt.check_reports {status : Status} (h : status ≠ 0) (s : B.State) :
    let out := (Attempt.check status : Attempt B Unit).run s
    (∃ err, out.value = .error err ∧ Reported (B.words s) status err) ∧
      ∀ x ∈ out.events.filterMap Event.explains?, 1 ≤ x ∧ x ≤ 10 := by
  unfold Attempt.check
  split
  · next hok => exact absurd (ErrorCode.raw_of_ofRaw? hok).symm h
  · next code hne hcode =>
    have hraw := ErrorCode.raw_of_ofRaw? hcode
    have hknown := ErrorCode.raw_known fun hok : code = .ok => hne hok
    rw [Attempt.run_refuse]
    refine ⟨⟨_, rfl, ?_⟩, ?_⟩
    · rw [hraw] at hknown ⊢
      exact .code code hraw hknown
    · intro x hx
      rw [List.mem_singleton.mp hx]
      exact hknown
  · next hnone =>
    refine ⟨⟨_, rfl, .unknown fun hknown => ?_⟩, fun x hx => nomatch hx⟩
    obtain ⟨c, hc⟩ := ErrorCode.ofRaw?_of_known hknown
    rw [hnone] at hc
    cases hc

/-- An attempt after one that succeeded. -/
theorem Attempt.run_after {x : Attempt B α} {f : α → Attempt B β} {s s₁ : B.State} {a : α}
    {es : List Event} (hx : x.run s = ⟨.ok a, s₁, es⟩) : (x >>= f).run s =
      ⟨((f a).run s₁).value, ((f a).run s₁).state, es ++ ((f a).run s₁).events⟩ := by
  rw [Attempt.run_bind, hx]

theorem Attempt.run_supports {c : Capability} {s : B.State} {b : Bool}
    (h : (B.answer s (.support c.raw)).1 = b) : (Attempt.of (Dialogue.supports c)).run s =
      ⟨.ok b, (B.answer s (.support c.raw)).2, [.call (.support c.raw) b]⟩ := by
  rw [Attempt.run_of, Dialogue.supports, Dialogue.run_ask, h]

/-- Two attempts in a row, the second made whatever came of the first, whose failure wins. -/
theorem Attempt.run_both (x : Attempt B α) (y : Attempt B Unit) (s : B.State) :
    (do
      let used ← Attempt.of x.run
      let closed ← Attempt.of y.run
      let result ← ofExcept used
      ofExcept closed
      return result : Attempt B α).run s =
      ⟨(x.run s).value.bind fun a => (y.run (x.run s).state).value.map fun _ => a,
        (y.run (x.run s).state).state, (x.run s).events ++ (y.run (x.run s).state).events⟩ := by
  cases hused : (x.run s).value with
  | error err => simp [hused, Except.bind]
  | ok a =>
    cases hclosed : (y.run (x.run s).state).value with
    | error err => simp [hused, hclosed, Except.bind, Except.map]
    | ok u => simp [hused, hclosed, Except.bind, Except.map]

/-! ### Truthful outcomes -/

/-- The first status among events that is not zero. -/
def firstFailure (es : List Event) : Option Status :=
  (statusesOf es).find? (· ≠ 0)

theorem firstFailure_append (es es' : List Event) :
    firstFailure (es ++ es') = (firstFailure es).or (firstFailure es') := by
  rw [firstFailure, statusesOf_append, List.find?_append]
  rfl

theorem firstFailure_cons {e : Event} {status : Status} (he : e.status? = some status)
    (es : List Event) :
    firstFailure (e :: es) = if status = 0 then firstFailure es else some status := by
  rw [firstFailure, statusesOf, List.filterMap_cons_some he, List.find?_cons]
  by_cases h : status = 0
  · simp [h, firstFailure, statusesOf]
  · simp [h]

/-- An outcome accounts for the statuses among its events: it is a success if all of them are
zero, and otherwise the failure that the first other one is reported as; and the engine's words
are asked only for statuses that have a code. -/
structure Truthful {σ : Type} (words : Status → String) (out : Outcome σ (Except Error α)) :
    Prop where
  ok : firstFailure out.events = none → ∃ a, out.value = .ok a
  error : ∀ status, firstFailure out.events = some status →
    ∃ err, out.value = .error err ∧ Reported words status err
  known : ∀ status ∈ out.events.filterMap Event.explains?, 1 ≤ status ∧ status ≤ 10

namespace Truthful

variable {words : Status → String} {s : B.State}

/-- A success that got no status. -/
theorem quiet {σ : Type} {out : Outcome σ (Except Error α)} {a : α} (hvalue : out.value = .ok a)
    (hstatuses : statusesOf out.events = [])
    (hexplains : out.events.filterMap Event.explains? = []) : Truthful words out := by
  have hnone : firstFailure out.events = none := by
    rw [firstFailure, hstatuses]
    rfl
  refine ⟨fun _ => ⟨a, hvalue⟩, ?_, ?_⟩
  · intro status hfirst
    rw [hnone] at hfirst
    cases hfirst
  · intro status hstatus
    rw [hexplains] at hstatus
    cases hstatus

/-- A truthful success got no status but zero. -/
theorem firstFailure_of_ok {σ : Type} {out : Outcome σ (Except Error α)} (h : Truthful words out)
    {a : α} (hvalue : out.value = .ok a) : firstFailure out.events = none := by
  cases hfirst : firstFailure out.events with
  | none => rfl
  | some status =>
    obtain ⟨err, herr, -⟩ := h.error status hfirst
    rw [hvalue] at herr
    cases herr

/-- A truthful failure got another status than zero. -/
theorem reported_of_error {σ : Type} {out : Outcome σ (Except Error α)} (h : Truthful words out)
    {err : Error} (hvalue : out.value = .error err) :
    ∃ status, firstFailure out.events = some status ∧ Reported words status err := by
  cases hfirst : firstFailure out.events with
  | none =>
    obtain ⟨a, ha⟩ := h.ok hfirst
    rw [hvalue] at ha
    cases ha
  | some status =>
    obtain ⟨err', herr, hreported⟩ := h.error status hfirst
    rw [hvalue] at herr
    cases herr
    exact ⟨status, rfl, hreported⟩

/-- A status that nobody knows is reported as its number. -/
theorem value_of_unknown {σ : Type} {out : Outcome σ (Except Error α)} (h : Truthful words out)
    {status : Status} (hfirst : firstFailure out.events = some status)
    (hunknown : ¬ (1 ≤ status ∧ status ≤ 10)) : out.value = .error (.unknownStatus status) := by
  obtain ⟨err, hvalue, hreported⟩ := h.error status hfirst
  cases hreported with
  | code c hc hknown => exact absurd hknown hunknown
  | unknown _ => exact hvalue

/-- Two truthful outcomes in a row, of which a failure of the first is reported. -/
theorem append {σ τ γ : Type} {x : Outcome σ (Except Error α)} {y : Outcome τ (Except Error β)}
    {out : Outcome τ (Except Error γ)} (hx : Truthful words x) (hy : Truthful words y)
    (hevents : out.events = x.events ++ y.events)
    (hfirst : ∀ err, x.value = .error err → out.value = .error err)
    (hsecond : ∀ a err, x.value = .ok a → y.value = .error err → out.value = .error err)
    (hboth : ∀ a b, x.value = .ok a → y.value = .ok b → ∃ c, out.value = .ok c) :
    Truthful words out := by
  have hknown : ∀ status ∈ out.events.filterMap Event.explains?, 1 ≤ status ∧ status ≤ 10 := by
    rw [hevents, List.filterMap_append]
    exact List.forall_mem_append.mpr ⟨hx.known, hy.known⟩
  have hfailure : firstFailure out.events = (firstFailure x.events).or (firstFailure y.events) := by
    rw [hevents, firstFailure_append]
  cases hvalue : x.value with
  | error err =>
    obtain ⟨status, hstatus, hreported⟩ := hx.reported_of_error hvalue
    rw [hstatus, Option.some_or] at hfailure
    refine ⟨?_, ?_, hknown⟩
    · intro hnone
      rw [hfailure] at hnone
      cases hnone
    · intro status' hsome
      rw [hfailure] at hsome
      cases hsome
      exact ⟨err, hfirst err hvalue, hreported⟩
  | ok a =>
    rw [hx.firstFailure_of_ok hvalue, Option.none_or] at hfailure
    refine ⟨?_, ?_, hknown⟩
    · intro hnone
      obtain ⟨b, hb⟩ := hy.ok (hfailure ▸ hnone)
      exact hboth a b hvalue hb
    · intro status hsome
      obtain ⟨err, herr, hreported⟩ := hy.error status (hfailure ▸ hsome)
      exact ⟨err, hsecond a err hvalue herr, hreported⟩

/-- One truthful step after another. -/
theorem bind {x : Attempt B α} {f : α → Attempt B β} (hx : Truthful words (x.run s))
    (hf : ∀ a, (x.run s).value = .ok a → Truthful words ((f a).run (x.run s).state)) :
    Truthful words ((x >>= f).run s) := by
  rw [Attempt.run_bind]
  cases hvalue : (x.run s).value with
  | error err =>
    obtain ⟨status, hstatus, hreported⟩ := hx.reported_of_error hvalue
    refine ⟨?_, ?_, hx.known⟩
    · intro hnone
      rw [hstatus] at hnone
      cases hnone
    · intro status' hsome
      rw [hstatus] at hsome
      cases hsome
      exact ⟨err, rfl, hreported⟩
  | ok a =>
    refine hx.append (hf a hvalue) rfl ?_ (fun _ _ _ herr => herr) (fun _ b _ hb => ⟨b, hb⟩)
    intro err herr
    rw [hvalue] at herr
    cases herr

/-- A call that brings back a status, and what is made of it: another status than zero is
reported. -/
theorem asked {c : Call} {status : Status} {f : c.Answer → Attempt B α}
    {rest : Outcome B.State (Except Error α)}
    (hrest : (f (B.answer s c).1).run (B.answer s c).2 = rest)
    (hstatus : (Event.call c (B.answer s c).1).status? = some status)
    (hexplains : (Event.call c (B.answer s c).1).explains? = none)
    (hzero : status = 0 → Truthful words rest)
    (hfail : status ≠ 0 → (∃ err, rest.value = .error err ∧ Reported words status err) ∧
      ∀ x ∈ rest.events.filterMap Event.explains?, 1 ≤ x ∧ x ≤ 10) :
    Truthful words ((Attempt.ask c >>= f).run s) := by
  have hrun : (Attempt.ask c >>= f).run s =
      ⟨rest.value, rest.state, .call c (B.answer s c).1 :: rest.events⟩ := by
    rw [Attempt.run_bind, Attempt.ask_eq, Attempt.run_of, Dialogue.run_ask, ← hrest]
    rfl
  have hfailure := firstFailure_cons hstatus rest.events
  have hasks := List.filterMap_cons_none (l := rest.events) hexplains
  rw [hrun]
  by_cases h : status = 0
  · rw [if_pos h] at hfailure
    obtain ⟨hok, herror, hknown⟩ := hzero h
    exact ⟨fun hnone => hok (hfailure ▸ hnone), fun x hx => herror x (hfailure ▸ hx),
      fun x hx => hknown x (hasks ▸ hx)⟩
  · rw [if_neg h] at hfailure
    obtain ⟨⟨err, herr, hreported⟩, hknown⟩ := hfail h
    refine ⟨?_, ?_, fun x hx => hknown x (hasks ▸ hx)⟩
    · intro hnone
      rw [hfailure] at hnone
      cases hnone
    · intro x hx
      rw [hfailure] at hx
      cases hx
      exact ⟨err, herr, hreported⟩

/-- A call that brings back a status, which is checked before anything else is done. -/
theorem checked (hB : B.FixedWords) {c : Call} {status : Status} {f : c.Answer → Attempt B α}
    {g : Attempt B α}
    (hf : f (B.answer s c).1 = (Attempt.check status >>= fun _ => g))
    (hstatus : (Event.call c (B.answer s c).1).status? = some status)
    (hexplains : (Event.call c (B.answer s c).1).explains? = none)
    (hg : Truthful (B.words s) (g.run (B.answer s c).2)) :
    Truthful (B.words s) ((Attempt.ask c >>= f).run s) := by
  refine asked rfl hstatus hexplains ?_ ?_
  · intro hzero
    rw [hf, hzero, Attempt.run_bind]
    exact hg
  · intro hother
    obtain ⟨⟨err, herr, hreported⟩, hknown⟩ := Attempt.check_reports hother (B.answer s c).2
    rw [hB s c] at hreported
    rw [hf, Attempt.run_bind, herr]
    exact ⟨⟨err, rfl, hreported⟩, hknown⟩

/-- A question that brings back no status. -/
theorem asked_quietly {c : Call} (hstatus : (Event.call c (B.answer s c).1).status? = none)
    (hexplains : (Event.call c (B.answer s c).1).explains? = none) :
    Truthful words ((Attempt.of (Dialogue.ask c) : Attempt B c.Answer).run s) := by
  refine quiet (a := (B.answer s c).1) rfl ?_ ?_
  · exact List.filterMap_cons_none hstatus
  · exact List.filterMap_cons_none hexplains

theorem logged (level : Level) (m : String) :
    Truthful words ((Attempt.log level m : Attempt B Unit).run s) :=
  quiet rfl rfl rfl

theorem returned (a : α) : Truthful words ((Pure.pure a : Attempt B α).run s) :=
  quiet rfl rfl rfl

/-- A use and what is done after it whatever came of it. -/
theorem both {x : Attempt B α} {y : Attempt B Unit} (hx : Truthful words (x.run s))
    (hy : Truthful words (y.run (x.run s).state)) :
    Truthful words ((do
      let used ← Attempt.of x.run
      let closed ← Attempt.of y.run
      let result ← ofExcept used
      ofExcept closed
      return result : Attempt B α).run s) := by
  rw [Attempt.run_both]
  refine hx.append hy rfl ?_ ?_ ?_
  · intro err hused
    rw [hused]
    rfl
  · intro a err hused hclosed
    rw [hused, hclosed]
    rfl
  · intro a u hused hclosed
    rw [hused, hclosed]
    exact ⟨a, rfl⟩

end Truthful

/-! ### Operations -/

/-- The expected version lets one go on without a word. -/
theorem run_checkVersion {s : B.State} (h : (B.answer s .version).1.matchesExpected = true) :
    (checkVersion : Attempt B Unit).run s =
      ⟨.ok (), (B.answer s .version).2, [.call .version (B.answer s .version).1]⟩ := by
  simp [checkVersion, h]

namespace Engine

theorem truthful_openWith (hB : B.FixedWords) {arch : Arch} {mode : Mode} {s : B.State}
    (hversion : (B.answer s .version).1.matchesExpected = true)
    (hmode : mode.supportedBy arch = true) :
    Truthful (B.words s) ((openWith arch mode : Attempt B Engine).run s) := by
  refine Truthful.bind ?_ ?_
  · rw [run_checkVersion hversion]
    exact .quiet rfl rfl rfl
  · intro _ _
    rw [run_checkVersion hversion, if_pos hmode, ← hB s .version]
    refine Truthful.checked hB rfl rfl rfl ?_
    refine Truthful.bind (Truthful.asked_quietly rfl rfl) fun diet _ => ?_
    exact Truthful.bind (Truthful.logged _ _) fun _ _ => Truthful.returned _

theorem truthful_close (hB : B.FixedWords) (e : Engine) (s : B.State) :
    Truthful (B.words s) ((e.close : Attempt B Unit).run s) := by
  rw [close_eq]
  refine Truthful.asked rfl rfl rfl ?_ ?_
  · intro hzero
    rw [hzero]
    exact .quiet rfl rfl rfl
  · intro hother
    obtain ⟨⟨err, herr, hreported⟩, hknown⟩ :=
      Attempt.check_reports hother (B.answer s (.close e.handle)).2
    rw [hB s (.close e.handle)] at hreported
    rw [Attempt.run_bind, Attempt.run_log]
    exact ⟨⟨err, herr, hreported⟩, hknown⟩

theorem truthful_option (hB : B.FixedWords) (e : Engine) (x : Setting) (s : B.State) :
    Truthful (B.words s) ((e.option x : Attempt B Unit).run s) :=
  Truthful.checked hB (bind_pure_unit).symm rfl rfl (Truthful.returned ())

/-- A setter is refused only where the architecture does not take the setting. -/
theorem truthful_configure (hB : B.FixedWords) {e : Engine} {x : Setting}
    (hfits : x.fits e.arch = true) (s : B.State) :
    Truthful (B.words s) ((e.configure x : Attempt B Engine).run s) := by
  have hcommit : ∀ (text : String) (after : Engine), Truthful (B.words s) ((do
      e.option x
      Attempt.log .debug text
      return after : Attempt B Engine).run s) := fun text after =>
    Truthful.bind (e.truthful_option hB x s) fun _ _ =>
      Truthful.bind (Truthful.logged _ _) fun _ _ => Truthful.returned _
  cases x with
  | dialect t => exact hcommit _ _
  | detail on => exact hcommit _ _
  | mode m =>
    have hmode : m.supportedBy e.arch = true := hfits
    rw [configure, setMode, if_pos hmode]
    exact hcommit _ _

theorem truthful_decodeNative (hB : B.FixedWords) (e : Engine) (code : List UInt8)
    (address : UInt64) (count : Nat) (s : B.State) :
    Truthful (B.words s)
      ((e.decodeNative code address count : Attempt B (List NativeInsn)).run s) := by
  refine Truthful.bind (Truthful.asked_quietly rfl rfl) fun decoded _ =>
    Truthful.bind (Truthful.logged _ _) fun _ _ => ?_
  rw [← hB s (.disasm e.handle code address count)]
  by_cases hcount : decoded.count = 0
  · rw [if_pos hcount]
    exact Truthful.checked hB rfl rfl rfl (Truthful.returned _)
  · rw [if_neg hcount]
    cases decoded.array with
    | none => exact Truthful.returned _
    | some a =>
      exact Truthful.bind (Truthful.asked_quietly rfl rfl) fun _ _ => Truthful.returned _

theorem truthful_disasm (hB : B.FixedWords) (e : Engine) (code : List UInt8) (address : UInt64)
    (count : Nat) (s : B.State) :
    Truthful (B.words s) ((e.disasm code address count : Attempt B (List Insn)).run s) :=
  Truthful.bind (e.truthful_decodeNative hB code address count s) fun _ _ => Truthful.returned _

theorem truthful_disasmLite (hB : B.FixedWords) {e : Engine} (hdiet : e.diet = false)
    (code : List UInt8) (address : UInt64) (count : Nat) (s : B.State) :
    Truthful (B.words s)
      ((e.disasmLite code address count : Attempt B (List LiteInsn)).run s) := by
  rw [disasmLite, ensureNotDiet_eq hdiet]
  refine Truthful.bind (Truthful.returned _) fun _ _ => ?_
  exact Truthful.bind (e.truthful_decodeNative hB code address count s) fun _ _ =>
    Truthful.returned _

end Engine

/-- **A failing use is reported before a failing closing.** -/
theorem truthful_withEngine (hB : B.FixedWords) {arch : Arch} {mode : Mode}
    {use : Engine → Attempt B α} {s : B.State}
    (hversion : (B.answer s .version).1.matchesExpected = true)
    (hmode : mode.supportedBy arch = true) (hfaithful : ∀ e, Attempt.Faithful (use e))
    (huse : ∀ e s₁, ((Engine.openWith arch mode : Attempt B Engine).run s).value = .ok e →
      Truthful (B.words s₁) ((use e).run s₁)) :
    Truthful (B.words s) ((withEngine arch mode use).run s) := by
  refine Truthful.bind (Engine.truthful_openWith hB hversion hmode) fun e he => ?_
  have hopened := (Engine.faithful_openWith (B := B) arch mode s).words_eq hB
  rw [← hopened]
  generalize ((Engine.openWith arch mode : Attempt B Engine).run s).state = s₁
  have hused := (hfaithful e s₁).words_eq hB
  refine Truthful.both (huse e s₁ he) ?_
  have hclose := e.truthful_close hB ((use e).run s₁).state
  rwa [hused] at hclose

/-! ### What a decode yields -/

/-- An outcome that has one decode among its events and, if it is a success, the entries of that
decode, read one by one. -/
def Yields {σ : Type} (read : NativeInsn → α) (out : Outcome σ (Except Error (List α))) : Prop :=
  ∃ d, out.events.filterMap Event.decoded? = [d] ∧ ∀ l, out.value = .ok l → l = d.entries.map read

/-- A success on a decode that counted nothing is empty. -/
theorem Yields.empty {σ : Type} {read : NativeInsn → α} {out : Outcome σ (Except Error (List α))}
    (h : Yields read out) {d : Decoded} (hd : d ∈ out.events.filterMap Event.decoded?)
    (hcount : d.count = 0) {l : List α} (hvalue : out.value = .ok l) : l = [] := by
  obtain ⟨d', hone, hentries⟩ := h
  rw [hone] at hd
  have hnone : d'.entries = [] := by
    rw [← List.mem_singleton.mp hd, Decoded.entries, hcount]
    cases d.array <;> rfl
  rw [hentries l hvalue, hnone]
  rfl

theorem filterMap_decoded? {es es' : List Event} (h : dealings es = es') :
    es.filterMap Event.decoded? = es'.filterMap Event.decoded? := by
  rw [← h]
  exact (filterMap_dealings (fun _ he => (Event.plain_of_not_deals he).decoded?) es).symm

namespace Engine

/-- A decode that succeeds returns the entries handed out. -/
theorem decodeNative_value {e : Engine} {code : List UInt8} {address : UInt64} {count : Nat}
    {s : B.State} {l : List NativeInsn}
    (h : ((e.decodeNative code address count : Attempt B (List NativeInsn)).run s).value = .ok l) :
    l = (B.answer s (.disasm e.handle code address count)).1.entries := by
  simp only [decodeNative, Attempt.run_bind, Attempt.ask_eq, Attempt.run_of, Dialogue.run_ask,
    Attempt.run_log] at h
  generalize B.answer s (.disasm e.handle code address count) = p at h ⊢
  obtain ⟨d, s₁⟩ := p
  by_cases hcount : d.count = 0
  · simp only [hcount, if_true, Attempt.run_bind, Attempt.run_of, Dialogue.run_ask] at h
    generalize (Attempt.check (B.answer s₁ (.errno e.handle)).1 : Attempt B Unit).run
      (B.answer s₁ (.errno e.handle)).2 = out at h
    cases hvalue : out.value with
    | error err =>
      rw [hvalue] at h
      cases h
    | ok _ =>
      rw [hvalue] at h
      exact (Except.ok.inj h).symm
  · rw [if_neg hcount] at h
    cases harray : d.array with
    | none =>
      rw [harray] at h
      exact (Except.ok.inj h).symm
    | some a =>
      rw [harray] at h
      exact (Except.ok.inj h).symm

theorem yields_decodeNative (e : Engine) (code : List UInt8) (address : UInt64) (count : Nat)
    (s : B.State) :
    Yields id ((e.decodeNative code address count : Attempt B (List NativeInsn)).run s) := by
  -- The decode is the first event, and there is one among the dealings.
  have hhead : ∃ rest, ((e.decodeNative code address count :
      Attempt B (List NativeInsn)).run s).events =
        .call (.disasm e.handle code address count)
          (B.answer s (.disasm e.handle code address count)).1 :: rest := by
    rw [decodeNative, Attempt.run_bind, Attempt.ask_eq, Attempt.run_of, Dialogue.run_ask]
    exact ⟨_, rfl⟩
  have hone : ∃ d, ((e.decodeNative code address count :
      Attempt B (List NativeInsn)).run s).events.filterMap Event.decoded? = [d] := by
    have hspec := e.decodeNative_spec code address count s
    generalize hes : dealings ((e.decodeNative code address count :
      Attempt B (List NativeInsn)).run s).events = es at hspec
    rw [filterMap_decoded? hes]
    cases hspec with
    | mk d hrelease =>
      refine ⟨d, ?_⟩
      cases hrelease <;> rfl
  obtain ⟨rest, hrest⟩ := hhead
  obtain ⟨d, hd⟩ := hone
  refine ⟨d, hd, fun l hl => ?_⟩
  rw [hrest] at hd
  have hsame : (B.answer s (.disasm e.handle code address count)).1 = d :=
    (List.cons.inj hd).1
  rw [List.map_id, ← hsame]
  exact decodeNative_value hl

/-- The entries of a decode, read one by one after it. -/
theorem yields_read {x : Attempt B (List NativeInsn)} {s : B.State} (hx : Yields id (x.run s))
    (read : NativeInsn → α) :
    Yields read ((do return (← x).map read : Attempt B (List α)).run s) := by
  obtain ⟨d, hone, hentries⟩ := hx
  rw [Attempt.run_bind]
  cases hvalue : (x.run s).value with
  | error err => exact ⟨d, hone, fun l hl => nomatch hl⟩
  | ok l =>
    refine ⟨d, ?_, ?_⟩
    · simpa using hone
    · intro l' hl'
      have hsame := hentries l hvalue
      rw [List.map_id] at hsame
      cases hl'
      rw [hsame]

theorem yields_disasm (e : Engine) (code : List UInt8) (address : UInt64) (count : Nat)
    (s : B.State) : Yields (Insn.ofNative e.arch e.diet e.detail)
      ((e.disasm code address count : Attempt B (List Insn)).run s) :=
  yields_read (e.yields_decodeNative code address count s) _

theorem yields_disasmLite {e : Engine} (hdiet : e.diet = false) (code : List UInt8)
    (address : UInt64) (count : Nat) (s : B.State) : Yields LiteInsn.ofNative
      ((e.disasmLite code address count : Attempt B (List LiteInsn)).run s) := by
  have hyields := yields_read (e.yields_decodeNative code address count s) LiteInsn.ofNative
  rw [disasmLite, Attempt.run_bind]
  simpa [ensureNotDiet, hdiet] using hyields

end Engine

/-- An engine for one use that was opened is used and closed. -/
theorem run_withEngine {arch : Arch} {mode : Mode} {use : Engine → Attempt B α} {s s₁ : B.State}
    {e : Engine} {es : List Event}
    (hopen : (Engine.openWith arch mode : Attempt B Engine).run s = ⟨.ok e, s₁, es⟩) :
    let used := (use e).run s₁
    let closed := (e.close : Attempt B Unit).run used.state
    (withEngine arch mode use).run s =
      ⟨used.value.bind fun a => closed.value.map fun _ => a, closed.state,
        es ++ (used.events ++ closed.events)⟩ := by
  intro used closed
  rw [withEngine, Attempt.run_bind, hopen]
  dsimp only
  rw [Attempt.run_both]

/-- What an engine for one use yields is what its use does. -/
theorem yields_withEngine {arch : Arch} {mode : Mode} {use : Engine → Attempt B (List α)}
    {read : NativeInsn → α} {s s₁ : B.State} {e : Engine} {es : List Event}
    (hopen : (Engine.openWith arch mode : Attempt B Engine).run s = ⟨.ok e, s₁, es⟩)
    (huse : Yields read ((use e).run s₁)) : Yields read ((withEngine arch mode use).run s) := by
  have hnone : es.filterMap Event.decoded? = [] := by
    have hopening := Engine.openWith_spec (B := B) arch mode s
    rw [hopen] at hopening
    generalize hes : dealings es = es' at hopening
    rw [filterMap_decoded? hes]
    exact List.filterMap_eq_nil_iff.mpr fun x hx => (hopening.plain x hx).decoded?
  obtain ⟨d, hone, hentries⟩ := huse
  rw [run_withEngine hopen]
  refine ⟨d, ?_, ?_⟩
  · have hclose := filterMap_decoded? (e.dealings_close ((use e).run s₁).state)
    rw [List.filterMap_append, List.filterMap_append, hnone, hone, hclose]
    rfl
  · intro l hl
    cases hused : ((use e).run s₁).value with
    | error err =>
      rw [hused] at hl
      cases hl
    | ok l' =>
      rw [hused] at hl
      cases hclosed : ((e.close : Attempt B Unit).run ((use e).run s₁).state).value with
      | error err =>
        simp only [hclosed] at hl
        cases hl
      | ok u =>
        simp only [hclosed] at hl
        rw [← hentries l' hused]
        exact (Except.ok.inj hl).symm

end Disassembly

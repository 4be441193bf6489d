import Disassembly.Proofs.Session.Journal
import Disassembly.Proofs.Session.Statuses

/-!
# The configuration of an engine

An engine remembers what it was opened as and what the native engine accepted since.

* `Engine.Admission` — all that opening can come to, with the events in full: version, mode, handle
  and capability, one after the other;
* `Desk.Effect` — all that an operation can do to the engines of a desk, by its reply;
* `Engine.Configured` — a configuration is the one it was opened with, but for the last accepted
  setting of each kind;
* `Desk.engine_stems` — over a run every engine goes back to its opening and is configured by the
  settings accepted after it.
-/

namespace Disassembly

variable {B : Backend}

/-! ### Opening in full -/

/-- Another version than the expected one is reported, with a log record and nothing more. -/
theorem run_checkVersion_of_mismatch {s : B.State}
    (h : (B.answer s .version).1.matchesExpected = false) :
    ∃ m s₁ es, (checkVersion : Attempt B Unit).run s = ⟨.error (.engine .versionMismatch m), s₁,
      .call .version (B.answer s .version).1 :: es⟩ ∧ dealings es = [] := by
  simp only [checkVersion, Attempt.run_bind, Attempt.ask_eq, Attempt.run_of, Dialogue.run_ask, h,
    Bool.false_eq_true, if_false, Attempt.run_log, Attempt.run_refuse]
  exact ⟨_, _, _, rfl, rfl⟩

namespace Engine

/-- All that opening an engine can come to: the version is asked for, then the mode is looked at,
then the handle is asked for, and with a handle whether the engine is diet. -/
inductive Admission (arch : Arch) (mode : Mode) (v : Version) :
    Except Error Engine → List Event → Prop where
  | mismatch {m : String} {es : List Event} (hv : v.matchesExpected = false)
    (hes : dealings es = []) :
    Admission arch mode v (.error (.engine .versionMismatch m)) (.call .version v :: es)
  | unfit {m : String} {es : List Event} (hv : v.matchesExpected = true)
    (hmode : mode.supportedBy arch = false) (hes : dealings es = []) :
    Admission arch mode v (.error (.engine .unsupportedMode m)) (.call .version v :: es)
  | failed {err : Error} {status : Status} {h : Handle} {es : List Event}
    (hv : v.matchesExpected = true) (hmode : mode.supportedBy arch = true) (hstatus : status ≠ 0)
    (hes : dealings es = []) : Admission arch mode v (.error err)
      (.call .version v :: .call (.openEngine arch mode) (status, h) :: es)
  | opened {h : Handle} {diet : Bool} {es : List Event} (hv : v.matchesExpected = true)
    (hmode : mode.supportedBy arch = true) (hes : dealings es = []) :
    Admission arch mode v (.ok ⟨h, arch, diet, mode, arch.defaultDialect, false⟩)
      (.call .version v :: .call (.openEngine arch mode) (0, h) :: .call (.support 0x10000) diet ::
        es)

theorem openWith_admission (arch : Arch) (mode : Mode) (s : B.State) :
    Admission arch mode (B.answer s .version).1
      ((openWith arch mode : Attempt B Engine).run s).value
      ((openWith arch mode : Attempt B Engine).run s).events := by
  rw [openWith, Attempt.run_bind]
  cases hv : (B.answer s .version).1.matchesExpected with
  | false =>
    obtain ⟨m, s₁, es, hrun, hes⟩ := run_checkVersion_of_mismatch hv
    rw [hrun]
    exact .mismatch hv hes
  | true =>
    rw [run_checkVersion hv]
    cases hmode : mode.supportedBy arch with
    | false =>
      simp only [Bool.false_eq_true, if_false, Attempt.run_bind, Attempt.run_log,
        Attempt.run_refuse, List.cons_append, List.nil_append]
      exact .unfit hv hmode rfl
    | true =>
      simp only [if_true, Attempt.run_bind, Attempt.ask_eq, Attempt.run_of, Dialogue.run_ask]
      rcases hanswer : B.answer (B.answer s .version).2 (.openEngine arch mode) with
        ⟨⟨status, handle⟩, s₂⟩
      by_cases hstatus : status = 0
      · subst hstatus
        have hcheck : (Attempt.check 0 : Attempt B Unit).run s₂ = ⟨.ok (), s₂, []⟩ := rfl
        simp only [hcheck, Dialogue.supports, Dialogue.run_ask, Attempt.run_log, Attempt.run_pure,
          List.cons_append, List.nil_append]
        exact .opened hv hmode rfl
      · obtain ⟨⟨err, herr, -⟩, -⟩ := Attempt.check_reports hstatus s₂
        have hnone := Attempt.dealings_check status s₂
        simp only [herr, List.cons_append, List.nil_append]
        exact .failed hv hmode hstatus hnone

end Engine

/-! ### What an operation does to the engines -/

/-- Whether an action can fill, change or empty its slot. -/
def Action.configures : Action → Bool
  | .close => true
  | .drop => true
  | .setDialect _ => true
  | .setDetail _ => true
  | .setMode _ => true
  | _ => false

namespace Op

/-- Whether an operation can fill, change or empty a slot. -/
def configures : Op → Bool
  | .openEngine _ _ _ => true
  | .act _ a => a.configures
  | _ => false

/-- The slot of an operation on an engine of the desk. -/
def slot? : Op → Option Nat
  | .openEngine slot _ _ => some slot
  | .act slot _ => some slot
  | _ => none

end Op

theorem Action.configures_of_setting? {a : Action} {x : Setting} (ha : a.setting? = some x) :
    a.configures = true := by
  cases a <;> first | rfl | cases ha

namespace Desk

/-- All that an operation can do to the engines of a desk, by its reply and its events. -/
inductive Effect (d : Desk) : Op → Reply → List Event → Desk → Prop where
  | opened {slot : Nat} {arch : Arch} {mode : Mode} {v : Version} {e : Engine} {es es' : List Event}
    (hopen : Engine.Admission arch mode v (.ok e) es) :
    Effect d (.openEngine slot arch mode) .done (es ++ es') (d.put slot e)
  | accepted {slot : Nat} {a : Action} {e : Engine} {x : Setting} {es : List Event}
    (he : d.engine? slot = some e) (ha : a.setting? = some x) (hfits : x.fits e.arch = true) :
    Effect d (.act slot a) .done es (d.put slot (e.accept x))
  | emptied {slot : Nat} {a : Action} {r : Reply} {es : List Event} (ha : a.setting? = none)
    (hconf : a.configures = true) : Effect d (.act slot a) r es (d.remove slot)
  | unchanged {o : Op} {r : Reply} {es : List Event} {d' : Desk} (hd : d'.engines = d.engines)
    (hr : o.configures = true → r ≠ .done) : Effect d o r es d'

theorem Effect.of_not_configures {d d' : Desk} {o : Op} {r : Reply} {es : List Event}
    (hd : d'.engines = d.engines) (ho : o.configures = false) : Effect d o r es d' :=
  .unchanged hd fun hconf => absurd (ho.symm.trans hconf) Bool.false_ne_true

theorem Effect.of_ne_done {d d' : Desk} {o : Op} {r : Reply} {es : List Event}
    (hd : d'.engines = d.engines) (hr : r ≠ .done) : Effect d o r es d' :=
  .unchanged hd fun _ => hr

/-- A setter commits its setting if the architecture takes it and the engine accepts it, and nothing
otherwise. -/
theorem commit_configure (d : Desk) (slot : Nat) (e : Engine) (x : Setting) (s : B.State) :
    let result := ((e.configure x : Attempt B Engine).run s).value
    if x.fits e.arch = true ∧ (B.answer s (.option e.handle x)).1 = 0 then
      d.commit slot result = (.done, d.put slot (e.accept x))
    else ∃ err, d.commit slot result = (.failed err, d) := by
  intro result
  have hspec := e.configure_spec x s
  have hrejected : (∃ err, result = .error err) → ∃ err, d.commit slot result = (.failed err, d) := by
    rintro ⟨err, herr⟩
    rw [herr]
    exact ⟨err, rfl⟩
  cases hfits : x.fits e.arch with
  | false =>
    simp only [hfits, Bool.false_eq_true, if_false] at hspec
    rw [if_neg fun h => nomatch h.1]
    exact hrejected hspec.2
  | true =>
    simp only [hfits, if_true] at hspec
    obtain ⟨-, hvalue⟩ := hspec
    by_cases hstatus : (B.answer s (.option e.handle x)).1 = 0
    · rw [if_pos hstatus] at hvalue
      have haccepted : result = .ok (e.accept x) := hvalue
      rw [if_pos ⟨rfl, hstatus⟩, haccepted]
      rfl
    · rw [if_neg hstatus] at hvalue
      rw [if_neg fun h => hstatus h.2]
      exact hrejected hvalue

/-- What a setter comes to at a desk. -/
theorem value_step_of_setting? {d : Desk} {slot : Nat} {e : Engine} {a : Action} {x : Setting}
    (he : d.engine? slot = some e) (ha : a.setting? = some x) (s : B.State) :
    ((d.step (.act slot a) : Dialogue B (Reply × Desk)) s).value =
      d.commit slot ((e.configure x : Attempt B Engine).run s).value := by
  rw [step, he]
  cases a <;> cases ha <;> rfl

theorem effect_of_setting? {d : Desk} {slot : Nat} {e : Engine} {a : Action} {x : Setting}
    (he : d.engine? slot = some e) (ha : a.setting? = some x) (s : B.State) :
    let out := (d.step (.act slot a) : Dialogue B (Reply × Desk)) s
    Effect d (.act slot a) out.value.1 out.events out.value.2 := by
  intro out
  have hvalue : out.value = d.commit slot ((e.configure x : Attempt B Engine).run s).value :=
    value_step_of_setting? he ha s
  have hcommit := d.commit_configure slot e x s
  rw [hvalue]
  by_cases h : x.fits e.arch = true ∧ (B.answer s (.option e.handle x)).1 = 0
  · rw [if_pos h] at hcommit
    rw [hcommit]
    exact .accepted he ha h.1
  · rw [if_neg h] at hcommit
    obtain ⟨err, herr⟩ := hcommit
    rw [herr]
    exact .of_ne_done rfl Reply.noConfusion

theorem effect_act {d : Desk} {slot : Nat} {e : Engine} (he : d.engine? slot = some e) (a : Action)
    (s : B.State) :
    let out := (d.step (.act slot a) : Dialogue B (Reply × Desk)) s
    Effect d (.act slot a) out.value.1 out.events out.value.2 := by
  have hstep : (d.step (.act slot a) : Dialogue B (Reply × Desk)) = d.act slot e a := by
    rw [step, he]
  cases a with
  | setDialect x => exact effect_of_setting? he rfl s
  | setDetail on => exact effect_of_setting? he rfl s
  | setMode m => exact effect_of_setting? he rfl s
  | close =>
    rw [hstep]
    exact .emptied rfl rfl
  | drop =>
    rw [hstep]
    exact .emptied rfl rfl
  | disasm code address count name =>
    rw [hstep]
    obtain ⟨-, hengines⟩ := d.present_spec ((e.disasm code address count).run s).value name
      ((e.disasm code address count).run s).state
    exact .of_not_configures hengines rfl
  | examine code address count =>
    rw [hstep]
    refine .of_not_configures ?_ rfl
    cases hresult : ((e.disasm code address count : Attempt B (List Insn)).run s).value with
    | error err => simp [act, hresult]
    | ok l => simp [act, hresult]
  | _ =>
    rw [hstep]
    exact .of_not_configures rfl rfl

/-- **An operation has one of the effects there are.** -/
theorem step_effect (d : Desk) (o : Op) (s : B.State) :
    let out := (d.step o : Dialogue B (Reply × Desk)) s
    Effect d o out.value.1 out.events out.value.2 := by
  cases o with
  | openEngine slot arch mode =>
    have hopen := Engine.openWith_admission (B := B) arch mode s
    cases hvalue : ((Engine.openWith arch mode : Attempt B Engine).run s).value with
    | error err =>
      simp only [step, Dialogue.run_bind, hvalue]
      exact .of_ne_done rfl Reply.noConfusion
    | ok e =>
      rw [hvalue] at hopen
      simp only [step, Dialogue.run_bind, hvalue, Dialogue.run_pure]
      exact .opened hopen
  | act slot a =>
    cases he : d.engine? slot with
    | none =>
      simp only [step, he]
      exact .of_ne_done rfl Reply.noConfusion
    | some e => exact effect_act he a s
  | quick arch mode code address count name =>
    obtain ⟨-, hengines⟩ := d.present_spec
      ((disasmQuick arch mode code address count : Attempt B (List Insn)).run s).value name
      ((disasmQuick arch mode code address count : Attempt B (List Insn)).run s).state
    exact .of_not_configures hengines rfl
  | inquire name index queries =>
    refine .of_not_configures ?_ rfl
    cases hrecord : d.record? name index with
    | none => simp [step, hrecord]
    | some r => simp [step, hrecord, setRecord]
  | _ => exact .of_not_configures rfl rfl

/-- Where the engine of a slot comes from, after an operation on a desk. -/
inductive Origin (d : Desk) (slot : Nat) : Op → Reply → List Event → Engine → Prop where
  | opened {arch : Arch} {mode : Mode} {v : Version} {e : Engine} {es es' : List Event}
    (hopen : Engine.Admission arch mode v (.ok e) es) :
    Origin d slot (.openEngine slot arch mode) .done (es ++ es') e
  | accepted {a : Action} {e : Engine} {x : Setting} {es : List Event}
    (he : d.engine? slot = some e) (ha : a.setting? = some x) (hfits : x.fits e.arch = true) :
    Origin d slot (.act slot a) .done es (e.accept x)
  /-- It was there, and the operation is about another slot or did not succeed in changing this. -/
  | kept {o : Op} {r : Reply} {es : List Event} {e : Engine} (he : d.engine? slot = some e)
    (ho : o.slot? = some slot → o.configures = true → r ≠ .done) : Origin d slot o r es e

theorem Effect.origin {d d' : Desk} {o : Op} {r : Reply} {es : List Event} {slot : Nat} {e : Engine}
    (h : d.Effect o r es d') (he : d'.engine? slot = some e) : Origin d slot o r es e := by
  have hother : ∀ {k : Nat}, slot ≠ k → some k ≠ some slot :=
    fun hne heq => hne (Option.some.inj heq).symm
  cases h with
  | @opened k arch mode v e₁ es₁ es₂ hopen =>
    rw [engine?_put] at he
    by_cases hslot : slot = k
    · rw [if_pos hslot] at he
      cases he
      rw [hslot]
      exact .opened hopen
    · rw [if_neg hslot] at he
      exact .kept he fun ho => absurd ho (hother hslot)
  | @accepted k a e₁ x es hold ha hfits =>
    rw [engine?_put] at he
    by_cases hslot : slot = k
    · rw [if_pos hslot] at he
      cases he
      rw [hslot]
      exact .accepted hold ha hfits
    · rw [if_neg hslot] at he
      exact .kept he fun ho => absurd ho (hother hslot)
  | @emptied k a r es ha hconf =>
    rw [engine?_remove] at he
    by_cases hslot : slot = k
    · rw [if_pos hslot] at he
      cases he
    · rw [if_neg hslot] at he
      exact .kept he fun ho => absurd ho (hother hslot)
  | unchanged hsame hr =>
    rw [engine?_congr hsame] at he
    exact .kept he fun _ => hr

/-- The engine of a slot after an operation has an origin before it. -/
theorem origin_step {d : Desk} {o : Op} {s : B.State} {slot : Nat} {e : Engine}
    (he : ((d.step o : Dialogue B (Reply × Desk)) s).value.2.engine? slot = some e) :
    let out := (d.step o : Dialogue B (Reply × Desk)) s
    Origin d slot o out.value.1 out.events e :=
  (d.step_effect o s).origin he

end Desk

/-! ### The last accepted settings -/

namespace Setting

/-- The mode that a setting chooses. -/
def mode? : Setting → Option Mode
  | .mode m => some m
  | _ => none

/-- The dialect that a setting chooses. -/
def dialect? : Setting → Option Dialect
  | .dialect x => some x
  | _ => none

/-- Whether a setting turns detail on or off. -/
def detail? : Setting → Option Bool
  | .detail on => some on
  | _ => none

end Setting

/-- An engine's configuration is the one it was opened with, but for the last accepted setting of
each kind. -/
structure Engine.Configured (a : Arch) (m : Mode) (xs : List Setting) (e : Engine) : Prop where
  arch : e.arch = a
  mode : e.mode = (xs.filterMap Setting.mode?).getLast?.getD m
  dialect : e.dialect =
    (xs.filterMap Setting.dialect?).getLast?.or (if a = .x86 then some .intel else none)
  detail : e.detail = (xs.filterMap Setting.detail?).getLast?.getD false

namespace Engine

/-- A fresh engine is configured by nothing. -/
theorem configured_fresh (h : Handle) (arch : Arch) (diet : Bool) (mode : Mode) :
    Configured arch mode [] ⟨h, arch, diet, mode, arch.defaultDialect, false⟩ := by
  refine ⟨rfl, rfl, ?_, rfl⟩
  cases arch <;> rfl

/-- An accepted setting is the last of its kind, and no other kind has to do with it. -/
theorem Configured.accept {arch : Arch} {mode : Mode} {xs : List Setting} {e : Engine}
    (h : Configured arch mode xs e) (x : Setting) :
    Configured arch mode (xs ++ [x]) (e.accept x) := by
  cases x with
  | dialect t =>
    exact ⟨h.arch, by simpa [Setting.mode?, Engine.accept] using h.mode,
      by simp [Setting.dialect?, Engine.accept],
      by simpa [Setting.detail?, Engine.accept] using h.detail⟩
  | detail on =>
    exact ⟨h.arch, by simpa [Setting.mode?, Engine.accept] using h.mode,
      by simpa [Setting.dialect?, Engine.accept] using h.dialect,
      by simp [Setting.detail?, Engine.accept]⟩
  | mode m =>
    exact ⟨h.arch, by simp [Setting.mode?, Engine.accept],
      by simpa [Setting.dialect?, Engine.accept] using h.dialect,
      by simpa [Setting.detail?, Engine.accept] using h.detail⟩

end Engine

/-- Whether an entry of a journal opened an engine into a slot. -/
def opensInto (slot : Nat) : Move B × Report B → Bool
  | (.op (.openEngine k _ _), ⟨.done, _, _, _⟩) => k == slot
  | _ => false

/-- The setting that the engine of a slot accepted in an entry of a journal. -/
def acceptedBy (slot : Nat) : Move B × Report B → Option Setting
  | (.op (.act k a), ⟨.done, _, _, _⟩) => if k = slot then a.setting? else none
  | _ => none

/-- An engine stems from an opening into a slot, the last one in a journal, which gave its handle
and was told whether it is diet, and is configured by what was accepted since. -/
def Engine.Stems (slot : Nat) (j : List (Move B × Report B)) (e : Engine) : Prop :=
  ∃ before arch mode r v es after,
    j = before ++ (.op (.openEngine slot arch mode), r) :: after ∧
    r.events = .call .version v :: .call (.openEngine arch mode) (0, e.handle) ::
      .call (.support 0x10000) e.diet :: es ∧
    r.reply = .done ∧ (∀ x ∈ after, opensInto slot x = false) ∧
    e.Configured arch mode (after.filterMap (acceptedBy slot))

namespace Engine.Stems

variable {slot : Nat} {j : List (Move B × Report B)} {e : Engine}

theorem opened {arch : Arch} {mode : Mode} {v : Version} {es es' : List Event} {r : Report B}
    (hopen : Admission arch mode v (.ok e) es) (hevents : r.events = es ++ es')
    (hdone : r.reply = .done) : Stems slot (j ++ [(.op (.openEngine slot arch mode), r)]) e := by
  cases hopen with
  | @opened h diet es hv hmode hes =>
    refine ⟨j, arch, mode, r, v, es ++ es', [], rfl, hevents, hdone, ?_, ?_⟩
    · intro x hx
      cases hx
    · exact configured_fresh h arch diet mode

/-- A later entry that opens nothing into the slot, and what it got accepted. -/
theorem extend (h : Stems slot j e) {entry : Move B × Report B} {e' : Engine}
    (hopens : opensInto slot entry = false) (hhandle : e'.handle = e.handle)
    (hdiet : e'.diet = e.diet)
    (hconf : ∀ {arch mode xs}, e.Configured arch mode xs →
      e'.Configured arch mode (xs ++ (acceptedBy slot entry).toList)) :
    Stems slot (j ++ [entry]) e' := by
  obtain ⟨before, arch, mode, r, v, es, after, rfl, hevents, hdone, hnone, hconfigured⟩ := h
  refine ⟨before, arch, mode, r, v, es, after ++ [entry], ?_, ?_, hdone, ?_, ?_⟩
  · rw [List.append_assoc, List.cons_append]
  · rw [hevents, hhandle, hdiet]
  · intro x hx
    rcases List.mem_append.mp hx with hmem | hmem
    · exact hnone x hmem
    · rw [List.mem_singleton.mp hmem]
      exact hopens
  · have haccepted : [entry].filterMap (acceptedBy slot) = (acceptedBy slot entry).toList := by
      cases h : acceptedBy slot entry <;> simp [h]
    rw [List.filterMap_append, haccepted]
    exact hconf hconfigured

/-- A later entry that has to do with another slot, or with none. -/
theorem skip (h : Stems slot j e) {entry : Move B × Report B}
    (hopens : opensInto slot entry = false) (haccepted : acceptedBy slot entry = none) :
    Stems slot (j ++ [entry]) e := by
  refine h.extend hopens rfl rfl ?_
  intro arch mode xs hconf
  rw [haccepted, Option.toList_none, List.append_nil]
  exact hconf

end Engine.Stems

namespace Desk

variable {slot : Nat} {e : Engine}

/-- An entry that is about another slot, configures nothing or is not carried out leaves no mark on
a slot. -/
theorem unmarked {o : Op} {r : Report B}
    (h : o.slot? = some slot → o.configures = true → r.reply ≠ .done) :
    opensInto slot (.op o, r) = false ∧ acceptedBy slot (.op o, r) = none := by
  obtain ⟨reply, d', s', es⟩ := r
  cases o with
  | openEngine k arch mode =>
    by_cases hslot : k = slot
    · have hne := h (congrArg some hslot) rfl
      cases reply <;> first | exact ⟨rfl, rfl⟩ | exact absurd rfl hne
    · cases reply <;> simp [opensInto, acceptedBy, hslot]
  | act k a =>
    by_cases hslot : k = slot
    · cases ha : a.setting? with
      | none => cases reply <;> simp [opensInto, acceptedBy, ha]
      | some x =>
        have hne := h (congrArg some hslot) (Action.configures_of_setting? ha)
        cases reply <;> first | exact ⟨rfl, rfl⟩ | exact absurd rfl hne
    · cases reply <;> simp [opensInto, acceptedBy, hslot]
  | _ => exact ⟨rfl, rfl⟩

/-- One operation more: the engine of a slot is a new one, or the one it was with one setting more,
or the one it was. -/
theorem stems_step {d : Desk} {s : B.State} {j : List (Move B × Report B)}
    (hd : ∀ slot e, d.engine? slot = some e → Engine.Stems slot j e) (o : Op)
    (he : (d.move s (.op o)).desk.engine? slot = some e) :
    Engine.Stems slot (j ++ [(.op o, d.move s (.op o))]) e := by
  have horigin : Origin d slot o (d.move s (.op o)).reply (d.move s (.op o)).events e :=
    origin_step he
  generalize d.move s (.op o) = r at horigin
  obtain ⟨reply, d', s', es⟩ := r
  cases horigin with
  | opened hopen => exact .opened hopen rfl rfl
  | @accepted a e₀ x es hold ha hfits =>
    refine (hd slot e₀ hold).extend rfl (e₀.accept_handle x) (by cases x <;> rfl) ?_
    intro arch mode xs hconf
    simp only [acceptedBy, if_true, ha]
    exact hconf.accept x
  | kept hold ho =>
    obtain ⟨hopens, haccepted⟩ := unmarked (r := (⟨reply, d', s', es⟩ : Report B)) ho
    exact (hd slot e hold).skip hopens haccepted

/-- **Over a run every engine stems from an opening** and is configured by what it accepted
since. -/
theorem engine_stems (s : B.State) (ms : List (Move B))
    (he : (reach {} s ms).1.engine? slot = some e) : Engine.Stems slot (journal {} s ms) e := by
  induction ms using List.reverseRecOn generalizing slot e with
  | nil => cases he
  | append_singleton ms m ih =>
    rw [reach_append] at he
    rw [journal_append]
    cases m with
    | op o => exact stems_step (fun slot e => ih) o he
    | change l => exact (ih he).skip rfl rfl

/-- A setter leaves the desk as it was, or its setting is accepted. -/
theorem step_setting {d : Desk} {a : Action} {x : Setting} (he : d.engine? slot = some e)
    (ha : a.setting? = some x) (s : B.State) :
    let out := (d.step (.act slot a) : Dialogue B (Reply × Desk)) s
    if x.fits e.arch = true ∧ (B.answer s (.option e.handle x)).1 = 0 then
      out.value.1 = .done ∧ out.value.2.engine? slot = some (e.accept x)
    else (∃ err, out.value.1 = .failed err) ∧ out.value.2 = d := by
  intro out
  have hvalue : out.value = d.commit slot ((e.configure x : Attempt B Engine).run s).value :=
    value_step_of_setting? he ha s
  have hcommit := d.commit_configure slot e x s
  rw [hvalue]
  split
  · next h =>
    rw [if_pos h] at hcommit
    rw [hcommit]
    exact ⟨rfl, (d.engine?_put slot slot _).trans (if_pos rfl)⟩
  · next h =>
    rw [if_neg h] at hcommit
    obtain ⟨err, herr⟩ := hcommit
    rw [herr]
    exact ⟨⟨err, rfl⟩, rfl⟩

/-- An operation leaves the engines of all slots but its own alone. -/
theorem engine?_step_of_ne (d : Desk) (s : B.State) {o : Op} (ho : o.slot? ≠ some slot) :
    ((d.step o : Dialogue B (Reply × Desk)) s).value.2.engine? slot = d.engine? slot := by
  have heffect := d.step_effect (B := B) o s
  generalize (d.step o : Dialogue B (Reply × Desk)) s = out at heffect ⊢
  obtain ⟨⟨reply, d'⟩, s', es⟩ := out
  cases heffect with
  | @opened k arch mode v e₁ es₁ es₂ hopen =>
    exact (d.engine?_put k slot e₁).trans (if_neg fun h => ho (congrArg some h.symm))
  | @accepted k a e₁ x es hold ha hfits =>
    exact (d.engine?_put k slot _).trans (if_neg fun h => ho (congrArg some h.symm))
  | @emptied k a reply es ha hconf =>
    exact (d.engine?_remove k slot).trans (if_neg fun h => ho (congrArg some h.symm))
  | unchanged hsame hr => exact engine?_congr hsame slot

/-- An operation that configures nothing leaves all engines alone. -/
theorem engines_step (d : Desk) (s : B.State) {o : Op} (ho : o.configures = false) :
    ((d.step o : Dialogue B (Reply × Desk)) s).value.2.engines = d.engines := by
  have heffect := d.step_effect (B := B) o s
  generalize (d.step o : Dialogue B (Reply × Desk)) s = out at heffect ⊢
  obtain ⟨⟨reply, d'⟩, s', es⟩ := out
  cases heffect with
  | opened hopen => cases ho
  | accepted hold ha hfits => cases ho.symm.trans (Action.configures_of_setting? ha)
  | emptied ha hconf => cases ho.symm.trans hconf
  | unchanged hsame hr => exact hsame

end Desk

/-- **The configuration of an engine is what it was opened with and what it accepted last.**
Wherever moves lead, the engine of a slot stems from the last opening there, and each part of its
configuration is the last setting of its kind that it accepted since, or else what it started with.
A setter that is refused, here or by the engine, leaves the desk as it was, and one that is not
changes its own part; whatever is done with one slot leaves the others alone, and what is no opening,
closing or setting leaves all of them alone. -/
theorem Session.configuration_last_accepted :
    (∀ (s : Script) (ms : List (Move Script.backend)) slot e,
      (Desk.reach {} s ms).1.engine? slot = some e →
        Engine.Stems slot (Desk.journal {} s ms) e) ∧
    (∀ (d : Desk) (s : Script) slot e a x, d.engine? slot = some e → a.setting? = some x →
      let out := (d.step (.act slot a) : Dialogue Script.backend (Reply × Desk)) s
      if x.fits e.arch = true ∧ (s.answer (.option e.handle x)).1 = 0 then
        out.value.1 = .done ∧ out.value.2.engine? slot = some (e.accept x)
      else (∃ err, out.value.1 = .failed err) ∧ out.value.2 = d) ∧
    (∀ (d : Desk) (s : Script) o slot, o.slot? ≠ some slot →
      ((d.step o : Dialogue Script.backend (Reply × Desk)) s).value.2.engine? slot =
        d.engine? slot) ∧
    (∀ (d : Desk) (s : Script) o, o.configures = false →
      ((d.step o : Dialogue Script.backend (Reply × Desk)) s).value.2.engines = d.engines) := by
  refine ⟨?_, ?_, ?_, ?_⟩
  · intro s ms slot e he
    exact Desk.engine_stems (B := Script.backend) s ms he
  · intro d s slot e a x he ha
    exact Desk.step_setting (B := Script.backend) he ha s
  · intro d s o slot ho
    exact d.engine?_step_of_ne (B := Script.backend) s ho
  · intro d s o ho
    exact d.engines_step (B := Script.backend) s ho

/-- Of two settings the second is not accepted. -/
example : (Desk.reach (B := Script.backend) {} { options := [0, 77] }
    [.op (.openEngine 0 .x86 .width32), .op (.act 0 (.setDialect .att)),
      .op (.act 0 (.setDetail true))]).1.engine? 0 =
    some ⟨⟨1⟩, .x86, false, .width32, some .att, false⟩ := by rfl

end Disassembly

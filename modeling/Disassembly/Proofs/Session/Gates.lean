import Disassembly.Proofs.Mode.Flags
import Disassembly.Proofs.Session.Configuration
import Mathlib.Data.List.Pairwise

/-!
# The gates before an engine

An engine is asked for only after it answered with the expected version, and only for a mode that
the architecture takes; the mode of an open engine is changed only to such a mode.

* `Gated` — every opening among events has passed both gates; `Gated.append` puts events together,
  and `Desk.gated_step` holds of every operation on a desk;
* `Desk.option_step`, `Desk.takes_of_engine?` — the settings that reach an engine fit it, and so
  does the mode of every engine that a run leads to;
* `Gate` — what the gates let through and what they turn away, and how; so it is for opening an
  engine (`Engine.Admission.gate`) and for engines of one use (`gate_withEngine`).
-/

namespace Disassembly

variable {B : Backend} {α β : Type}

theorem Version.matchesExpected_iff {v : Version} :
    v.matchesExpected = true ↔ v.major = 2 ∧ v.minor = 1 := by
  show (v.major == 2 && v.minor == 1) = true ↔ _
  rw [Bool.and_eq_true, beq_iff_eq, beq_iff_eq]

/-! ### Openings among events -/

/-- The architecture and the mode for which an event asks for an engine. -/
def Event.asksOpen? : Event → Option (Arch × Mode)
  | .call (.openEngine arch mode) _ => some (arch, mode)
  | _ => none

theorem Event.asksOpen?_of_not_deals {e : Event} (h : e.deals = false) : e.asksOpen? = none := by
  cases e with
  | call c a => cases c <;> first | rfl | cases h
  | _ => rfl

/-- Events that ask for no engine. -/
def NoOpenings (es : List Event) : Prop :=
  ∀ e ∈ es, e.asksOpen? = none

theorem noOpenings_nil : NoOpenings [] :=
  fun _ he => nomatch he

theorem noOpenings_of_dealings {es : List Event} (h : NoOpenings (dealings es)) : NoOpenings es :=
  forall_of_dealings (fun _ => Event.asksOpen?_of_not_deals) h

/-- Before every opening among events stands an answer with the expected version, and the mode is
one that the architecture takes. -/
def Gated (es : List Event) : Prop :=
  ∀ pre arch mode answer post, es = pre ++ .call (.openEngine arch mode) answer :: post →
    (∃ before v, pre = before ++ [.call .version v] ∧ v.major = 2 ∧ v.minor = 1) ∧
      Mode.Takes arch mode

theorem NoOpenings.gated {es : List Event} (h : NoOpenings es) : Gated es := by
  intro pre arch mode answer post hsplit
  have hmem : .call (.openEngine arch mode) answer ∈ es := by
    rw [hsplit]
    exact List.mem_append_right _ List.mem_cons_self
  cases h _ hmem

theorem gated_of_no_dealings {es : List Event} (h : dealings es = []) : Gated es := by
  apply NoOpenings.gated
  apply noOpenings_of_dealings
  rw [h]
  exact noOpenings_nil

/-- The events of one opening after another, each with its own gates. -/
theorem Gated.append {es es' : List Event} (h : Gated es) (h' : Gated es') : Gated (es ++ es') := by
  intro pre arch mode answer post hsplit
  rcases List.append_eq_append_iff.mp hsplit with ⟨between, hpre, hes'⟩ | ⟨rest, hes, hrest⟩
  · obtain ⟨⟨before, v, hbefore, hv⟩, hmode⟩ := h' between arch mode answer post hes'
    exact ⟨⟨es ++ before, v, by rw [hpre, hbefore, List.append_assoc], hv⟩, hmode⟩
  · cases rest with
    | nil =>
      obtain ⟨⟨before, v, hbefore, -⟩, -⟩ := h' [] arch mode answer post hrest.symm
      simp at hbefore
    | cons e rest =>
      obtain ⟨rfl, -⟩ := List.cons.inj hrest
      exact h pre arch mode answer rest hes

theorem gated_opening {arch : Arch} {mode : Mode} {v : Version} (hv : v.matchesExpected = true)
    (hmode : mode.supportedBy arch = true) (answer : Status × Handle) :
    Gated [.call .version v, .call (.openEngine arch mode) answer] := by
  intro pre arch' mode' answer' post hsplit
  match pre with
  | [] => cases (List.cons.inj hsplit).1
  | [e] =>
    obtain ⟨rfl, hrest⟩ := List.cons.inj hsplit
    cases (List.cons.inj hrest).1
    exact ⟨⟨[], v, rfl, Version.matchesExpected_iff.mp hv⟩, Mode.takes_of_supportedBy hmode⟩
  | e :: e' :: pre => simp at hsplit

/-! ### Operations that open an engine -/

namespace Engine

theorem Admission.gated {arch : Arch} {mode : Mode} {v : Version} {r : Except Error Engine}
    {es : List Event} (h : Admission arch mode v r es) : Gated es := by
  cases h with
  | mismatch hv hes => exact gated_of_no_dealings hes
  | unfit hv hmode hes => exact gated_of_no_dealings hes
  | @failed err status h es hv hmode hstatus hes =>
    exact (gated_opening hv hmode (status, h)).append (gated_of_no_dealings hes)
  | @opened h diet es hv hmode hes =>
    have hrest : dealings (.call (.support 0x10000) diet :: es) = [] := hes
    exact (gated_opening hv hmode (0, h)).append (gated_of_no_dealings hrest)

theorem gated_openWith (arch : Arch) (mode : Mode) (s : B.State) :
    Gated ((openWith arch mode : Attempt B Engine).run s).events :=
  (openWith_admission arch mode s).gated

theorem noOpenings_close (e : Engine) (s : B.State) :
    NoOpenings ((e.close : Attempt B Unit).run s).events := by
  apply noOpenings_of_dealings
  rw [e.dealings_close]
  exact List.forall_mem_singleton.mpr rfl

theorem noOpenings_drop (e : Engine) (s : B.State) :
    NoOpenings ((e.drop : Dialogue B Unit) s).events := by
  apply noOpenings_of_dealings
  rw [e.dealings_drop]
  exact List.forall_mem_singleton.mpr rfl

theorem Decoding.noOpenings {h : Handle} {code : List UInt8} {address : UInt64} {count : Nat}
    {es : List Event} (hes : Decoding h code address count es) : NoOpenings es := by
  cases hes with
  | mk d hrelease =>
    refine List.forall_mem_cons.mpr ⟨rfl, ?_⟩
    cases hrelease with
    | empty status hcount => exact List.forall_mem_singleton.mpr rfl
    | null hcount harray => exact noOpenings_nil
    | freed a hcount harray => exact List.forall_mem_singleton.mpr rfl

theorem noOpenings_disasm (e : Engine) (code : List UInt8) (address : UInt64) (count : Nat)
    (s : B.State) : NoOpenings ((e.disasm code address count : Attempt B (List Insn)).run s).events :=
  noOpenings_of_dealings (e.disasm_spec code address count s).noOpenings

theorem noOpenings_disasmLite (e : Engine) (code : List UInt8) (address : UInt64) (count : Nat)
    (s : B.State) :
    NoOpenings ((e.disasmLite code address count : Attempt B (List LiteInsn)).run s).events := by
  have hspec := e.disasmLite_spec code address count s
  apply noOpenings_of_dealings
  cases hdiet : e.diet with
  | true =>
    rw [hdiet, if_pos rfl] at hspec
    rw [hspec]
    exact noOpenings_nil
  | false =>
    rw [hdiet] at hspec
    exact Decoding.noOpenings hspec

end Engine

/-- One attempt after another, each with its own gates. -/
theorem Gated.bind {x : Attempt B α} {f : α → Attempt B β} {s : B.State}
    (hx : Gated (x.run s).events) (hf : ∀ a s₁, Gated ((f a).run s₁).events) :
    Gated ((x >>= f).run s).events := by
  rw [Attempt.run_bind]
  cases (x.run s).value with
  | error err => exact hx
  | ok a => exact hx.append (hf a _)

theorem gated_withEngine {arch : Arch} {mode : Mode} {use : Engine → Attempt B α}
    (huse : ∀ e s₁, NoOpenings ((use e).run s₁).events) (s : B.State) :
    Gated ((withEngine arch mode use).run s).events := by
  have hgated := Engine.gated_openWith (B := B) arch mode s
  rcases hopen : (Engine.openWith arch mode : Attempt B Engine).run s with ⟨value, s₁, es⟩
  rw [hopen] at hgated
  cases value with
  | error err =>
    rw [withEngine, Attempt.run_bind, hopen]
    exact hgated
  | ok e =>
    rw [run_withEngine hopen]
    exact hgated.append ((huse e s₁).gated.append (e.noOpenings_close _).gated)

/-- Whether an operation asks for an engine. -/
def Op.opens : Op → Bool
  | .openEngine _ _ _ => true
  | .quick _ _ _ _ _ _ => true
  | .liteQuick _ _ _ _ _ => true
  | _ => false

namespace Desk

theorem Course.noOpenings {d d' : Desk} {o : Op} {es : List Event} (hcourse : d.Course o es d')
    (ho : o.opens = false) : NoOpenings es := by
  cases hcourse with
  | unopened hopen => cases ho
  | opened hopen hold => cases ho
  | replaced hopen hold status => cases ho
  | closed he ha status => exact List.forall_mem_singleton.mpr rfl
  | accepted he ha hfits => exact List.forall_mem_singleton.mpr rfl
  | rejected he ha hfits hstatus => exact List.forall_mem_singleton.mpr rfl
  | @asked slot a e c he ha hdiet answer =>
    refine List.forall_mem_singleton.mpr ?_
    cases a <;> cases ha <;> rfl
  | decoded he ha hdiet hes hsame => exact hes.noOpenings
  | @errand o arch mode code address count es d' ho' hes hsame =>
    cases o <;> cases ho' <;> cases ho
  | _ => exact noOpenings_nil

theorem gated_liteQuick (arch : Arch) (mode : Mode) (code : List UInt8) (address : UInt64)
    (count : Nat) (s : B.State) :
    Gated ((disasmLiteQuick arch mode code address count :
      Attempt B (List LiteInsn)).run s).events := by
  have hlite : ∀ s₁, Gated ((withEngine arch mode fun e => e.disasmLite code address count :
      Attempt B (List LiteInsn)).run s₁).events :=
    gated_withEngine fun e s₁ => e.noOpenings_disasmLite code address count s₁
  rw [disasmLiteQuick]
  refine Gated.bind ?_ fun _ s₁ => Gated.bind ?_ fun diet s₂ => ?_
  · exact gated_of_no_dealings (dealings_checkVersion s)
  · exact NoOpenings.gated (List.forall_mem_singleton.mpr rfl)
  · cases diet with
    | false => exact hlite s₂
    | true =>
      refine Gated.bind ?_ fun _ s₃ => hlite s₃
      exact gated_of_no_dealings (Attempt.dealings_refuse _ s₂)

theorem gated_of_not_opens (hB : B.FixedDiet) (d : Desk) {o : Op} (ho : o.opens = false)
    (s : B.State) : Gated ((d.step o : Dialogue B (Reply × Desk)) s).events :=
  (noOpenings_of_dealings ((d.step_course hB o s).noOpenings ho)).gated

/-- **Every operation on a desk passes the gates** before it asks for an engine. -/
theorem gated_step (hB : B.FixedDiet) (d : Desk) (o : Op) (s : B.State) :
    Gated ((d.step o : Dialogue B (Reply × Desk)) s).events := by
  cases o with
  | openEngine slot arch mode =>
    have hdrop : ∀ s₁ : B.State, Gated ((d.dropSlot slot : Dialogue B Unit) s₁).events := by
      intro s₁
      apply NoOpenings.gated
      rw [dropSlot]
      cases d.engine? slot with
      | none => exact noOpenings_nil
      | some old => exact old.noOpenings_drop s₁
    rw [step, Dialogue.run_bind]
    refine (Engine.gated_openWith arch mode s).append ?_
    cases ((Engine.openWith arch mode : Attempt B Engine).run s).value with
    | error err => exact noOpenings_nil.gated
    | ok e => exact (hdrop _).append noOpenings_nil.gated
  | quick arch mode code address count name =>
    rw [step, Dialogue.run_bind]
    refine (gated_withEngine (fun e s₁ => e.noOpenings_disasm code address count s₁) s).append ?_
    exact gated_of_no_dealings (d.present_spec _ name _).1
  | liteQuick arch mode code address count =>
    rw [step, Dialogue.run_bind]
    exact (gated_liteQuick arch mode code address count s).append noOpenings_nil.gated
  | _ => exact d.gated_of_not_opens hB rfl s

/-! ### Settings that reach an engine -/

/-- A setting that reaches an engine is put to one of the desk, and its architecture takes it. -/
theorem Course.of_option {d d' : Desk} {o : Op} {es : List Event} (hcourse : d.Course o es d')
    {h : Handle} {x : Setting} {status : Status} (hmem : .call (.option h x) status ∈ es) :
    ∃ slot e, d.engine? slot = some e ∧ e.handle = h ∧ x.fits e.arch = true := by
  have hopening : ∀ {arch mode r es}, Engine.Opening arch mode r es →
      .call (.option h x) status ∉ es := by
    intro arch mode r es hopen
    cases hopen <;> simp
  have hdecoding : ∀ {k code address count es}, Engine.Decoding k code address count es →
      .call (.option h x) status ∉ es := by
    intro k code address count es hes
    cases hes with
    | mk d hrelease => cases hrelease <;> simp
  cases hcourse with
  | unopened hopen => exact absurd hmem (hopening hopen)
  | opened hopen hold => exact absurd hmem (hopening hopen)
  | replaced hopen hold status' =>
    rcases List.mem_append.mp hmem with hmem | hmem
    · exact absurd hmem (hopening hopen)
    · simp at hmem
  | @accepted slot a e x' he ha hfits =>
    cases List.mem_singleton.mp hmem
    exact ⟨slot, e, he, rfl, hfits⟩
  | @rejected slot a e x' he ha hfits status' hstatus =>
    cases List.mem_singleton.mp hmem
    exact ⟨slot, e, he, rfl, hfits⟩
  | @asked slot a e c he ha hdiet answer =>
    cases a <;> cases ha <;> simp at hmem
  | decoded he ha hdiet hes hsame => exact absurd hmem (hdecoding hes)
  | errand ho hes hsame =>
    cases hes with
    | unopened hopen => exact absurd hmem (hopening hopen)
    | @served k es huse closing =>
      have hused : .call (.option h x) status ∈ es := by simpa using hmem
      exact absurd hused (hdecoding huse)
  | _ => simp at hmem

theorem option_step (hB : B.FixedDiet) {d : Desk} {o : Op} {s : B.State} {h : Handle} {x : Setting}
    {status : Status}
    (hmem : .call (.option h x) status ∈ ((d.step o : Dialogue B (Reply × Desk)) s).events) :
    ∃ slot e, d.engine? slot = some e ∧ e.handle = h ∧ x.fits e.arch = true :=
  (d.step_course hB o s).of_option (List.mem_filter.mpr ⟨hmem, rfl⟩)

/-- **The mode of an engine is one that its architecture takes**, wherever moves lead. -/
theorem takes_of_engine? (s : B.State) (ms : List (Move B)) {slot : Nat} {e : Engine}
    (he : (reach {} s ms).1.engine? slot = some e) : Mode.Takes e.arch e.mode := by
  induction ms using List.reverseRecOn generalizing slot e with
  | nil => cases he
  | append_singleton ms m ih =>
    rw [reach_append] at he
    generalize (reach {} s ms).1 = d at he ih
    generalize (reach {} s ms).2 = s₁ at he
    cases m with
    | change l => exact ih he
    | op o =>
      replace he : ((d.step o : Dialogue B (Reply × Desk)) s₁).value.2.engine? slot = some e := he
      have horigin := origin_step he
      generalize (d.step o : Dialogue B (Reply × Desk)) s₁ = out at horigin
      obtain ⟨⟨reply, d'⟩, s', es⟩ := out
      cases horigin with
      | opened hopen =>
        cases hopen with
        | opened hv hmode hes => exact Mode.takes_of_supportedBy hmode
      | @accepted a e₀ x es hold ha hfits =>
        have htakes := ih hold
        cases x with
        | mode m => exact Mode.takes_of_supportedBy hfits
        | dialect t => exact htakes
        | detail on => exact htakes
      | kept hold ho => exact ih hold

end Desk

/-! ### What the gates let through -/

/-- What the gates make of an attempt to get an engine, by the version that the engine answers with,
the mode, and whether the attempt is refused for the engine being diet: another version is reported
before the mode is looked at, then an unfit mode, both without any call about a handle; the engine is
asked otherwise. -/
structure Gate {σ : Type} (v : Version) (refused : Bool) (arch : Arch) (mode : Mode)
    (out : Outcome σ (Except Error α)) : Prop where
  mismatch : ¬ (v.major = 2 ∧ v.minor = 1) →
    (∃ m, out.value = .error (.engine .versionMismatch m)) ∧ dealings out.events = []
  unfit : v.major = 2 ∧ v.minor = 1 → refused = false → ¬ Mode.Takes arch mode →
    (∃ m, out.value = .error (.engine .unsupportedMode m)) ∧ dealings out.events = []
  passed : v.major = 2 ∧ v.minor = 1 → refused = false → Mode.Takes arch mode →
    ∃ answer, .call (.openEngine arch mode) answer ∈ out.events

theorem gate_of_mismatch {σ : Type} {v : Version} {refused : Bool} {arch : Arch} {mode : Mode}
    {out : Outcome σ (Except Error α)} {m : String} (hv : v.matchesExpected = false)
    (hvalue : out.value = .error (.engine .versionMismatch m)) (hes : dealings out.events = []) :
    Gate v refused arch mode out := by
  have hno : ¬ (v.major = 2 ∧ v.minor = 1) := by
    rw [← Version.matchesExpected_iff, hv]
    exact Bool.false_ne_true
  exact ⟨fun _ => ⟨⟨m, hvalue⟩, hes⟩, fun hyes => absurd hyes hno, fun hyes => absurd hyes hno⟩

theorem Engine.Admission.gate {σ : Type} {arch : Arch} {mode : Mode} {v : Version}
    {out : Outcome σ (Except Error Engine)} (h : Admission arch mode v out.value out.events) :
    Gate v false arch mode out := by
  obtain ⟨value, s, es⟩ := out
  cases h with
  | mismatch hv hes => exact gate_of_mismatch hv rfl hes
  | @unfit m es hv hmode hes =>
    have hyes := Version.matchesExpected_iff.mp hv
    have hno : ¬ Mode.Takes arch mode := by
      rw [Mode.takes_iff, hmode]
      exact Bool.false_ne_true
    exact ⟨fun h => absurd hyes h, fun _ _ _ => ⟨⟨m, rfl⟩, hes⟩, fun _ _ h => absurd h hno⟩
  | @failed err status handle es hv hmode hstatus hes =>
    have hyes := Version.matchesExpected_iff.mp hv
    have htakes := Mode.takes_of_supportedBy hmode
    exact ⟨fun h => absurd hyes h, fun _ _ h => absurd htakes h,
      fun _ _ _ => ⟨(status, handle), List.mem_cons_of_mem _ List.mem_cons_self⟩⟩
  | @opened handle diet es hv hmode hes =>
    have hyes := Version.matchesExpected_iff.mp hv
    have htakes := Mode.takes_of_supportedBy hmode
    exact ⟨fun h => absurd hyes h, fun _ _ h => absurd htakes h,
      fun _ _ _ => ⟨(0, handle), List.mem_cons_of_mem _ List.mem_cons_self⟩⟩

/-- An engine for one use passes the gates of its opening. -/
theorem gate_withEngine (arch : Arch) (mode : Mode) (use : Engine → Attempt B α) (s : B.State) :
    Gate (B.answer s .version).1 false arch mode ((withEngine arch mode use).run s) := by
  have hgate := (Engine.openWith_admission (B := B) arch mode s).gate
  rcases hopen : (Engine.openWith arch mode : Attempt B Engine).run s with ⟨value, s₁, es⟩
  rw [hopen] at hgate
  obtain ⟨hmismatch, hunfit, hpassed⟩ := hgate
  cases value with
  | error err =>
    have hrun : (withEngine arch mode use).run s = ⟨.error err, s₁, es⟩ := by
      rw [withEngine, Attempt.run_bind, hopen]
    rw [hrun]
    refine ⟨fun h => ?_, fun h hr ht => ?_, hpassed⟩
    · obtain ⟨⟨m, hm⟩, hnone⟩ := hmismatch h
      cases hm
      exact ⟨⟨m, rfl⟩, hnone⟩
    · obtain ⟨⟨m, hm⟩, hnone⟩ := hunfit h hr ht
      cases hm
      exact ⟨⟨m, rfl⟩, hnone⟩
  | ok e =>
    rw [run_withEngine hopen]
    refine ⟨fun h => ?_, fun h hr ht => ?_, fun h hr ht => ?_⟩
    · obtain ⟨⟨m, hm⟩, -⟩ := hmismatch h
      cases hm
    · obtain ⟨⟨m, hm⟩, -⟩ := hunfit h hr ht
      cases hm
    · obtain ⟨answer, hanswer⟩ := hpassed h hr ht
      exact ⟨answer, List.mem_append_left _ hanswer⟩

/-- No call changes the version. -/
def Backend.FixedVersion (B : Backend) : Prop :=
  ∀ s c, (B.answer (B.answer s c).2 .version).1 = (B.answer s .version).1

theorem Script.fixedVersion_backend : Script.backend.FixedVersion :=
  fun s c => (Script.standing_answer s c).1

/-- A question that is asked before leaves the gates where they are. -/
theorem Gate.after {γ : Type} {v : Version} {refused : Bool} {arch : Arch} {mode : Mode}
    {x : Attempt B γ} {f : γ → Attempt B α} {s s₁ : B.State} {a : γ} {e : Event}
    (hx : x.run s = ⟨.ok a, s₁, [e]⟩) (he : e.deals = false)
    (hf : Gate v refused arch mode ((f a).run s₁)) : Gate v refused arch mode ((x >>= f).run s) := by
  have hrun : (x >>= f).run s =
      ⟨((f a).run s₁).value, ((f a).run s₁).state, e :: ((f a).run s₁).events⟩ :=
    Attempt.run_after hx
  have hdealings : dealings (e :: ((f a).run s₁).events) = dealings ((f a).run s₁).events := by
    rw [dealings_cons, he]
    rfl
  obtain ⟨hmismatch, hunfit, hpassed⟩ := hf
  rw [hrun]
  refine ⟨?_, ?_, ?_⟩
  · rw [hdealings]
    exact hmismatch
  · rw [hdealings]
    exact hunfit
  · intro h hr ht
    obtain ⟨answer, hanswer⟩ := hpassed h hr ht
    exact ⟨answer, List.mem_cons_of_mem e hanswer⟩

/-- The decode to place and text looks at the version first, and at the mode unless the engine is
diet. -/
theorem gate_disasmLiteQuick (hB : B.FixedVersion) (hD : B.FixedDiet) (arch : Arch) (mode : Mode)
    (code : List UInt8) (address : UInt64) (count : Nat) (s : B.State) :
    Gate (B.answer s .version).1 (B.diet s) arch mode
      ((disasmLiteQuick arch mode code address count : Attempt B (List LiteInsn)).run s) := by
  cases hv : (B.answer s .version).1.matchesExpected with
  | false =>
    obtain ⟨m, s₁, es, hrun, hes⟩ := run_checkVersion_of_mismatch hv
    rw [disasmLiteQuick, Attempt.run_bind, hrun]
    exact gate_of_mismatch hv rfl hes
  | true =>
    have hyes := Version.matchesExpected_iff.mp hv
    cases hdiet : B.diet s with
    | true =>
      have hrefused : ¬ true = false := fun hr => absurd hr.symm Bool.false_ne_true
      exact ⟨fun h => absurd hyes h, fun _ hr => absurd hr hrefused,
        fun _ hr => absurd hr hrefused⟩
    | false =>
      have hgate := gate_withEngine arch mode
        (fun e : Engine => (e.disasmLite code address count : Attempt B (List LiteInsn)))
        (B.answer (B.answer s .version).2 (.support Capability.diet.raw)).2
      rw [hB, hB] at hgate
      have hsame : (B.answer (B.answer s .version).2 (.support Capability.diet.raw)).1 = false :=
        (hD s .version).trans hdiet
      exact Gate.after (run_checkVersion hv) rfl (Gate.after (Attempt.run_supports hsame) rfl hgate)

/-- A mode that the architecture does not take is refused without a word to the engine, and the
engine is asked for any other. -/
theorem Engine.setMode_gate (e : Engine) (mode : Mode) (s : B.State) :
    let out := (e.setMode mode : Attempt B Engine).run s
    (¬ Mode.Takes e.arch mode →
      (∃ m, out.value = .error (.engine .unsupportedOption m)) ∧ dealings out.events = []) ∧
    (Mode.Takes e.arch mode →
      ∃ status, .call (.option e.handle (.mode mode)) status ∈ out.events) := by
  intro out
  refine ⟨?_, ?_⟩
  · intro hno
    have hmode : ¬ mode.supportedBy e.arch = true := fun h => hno (Mode.takes_of_supportedBy h)
    have hout : out = (Attempt.refuse .unsupportedOption : Attempt B Engine).run s := by
      show (e.setMode mode : Attempt B Engine).run s = _
      rw [setMode, if_neg hmode]
    rw [hout, Attempt.dealings_refuse]
    exact ⟨Attempt.refuse_fails .unsupportedOption s, rfl⟩
  · intro htakes
    have hspec := e.configure_spec (.mode mode) s
    have hfits : (Setting.mode mode).fits e.arch = true := htakes.supportedBy
    rw [if_pos hfits] at hspec
    have hdealings : dealings out.events = [.call (.option e.handle (.mode mode)) _] := hspec.1
    have hmem := hdealings ▸ List.mem_singleton_self _
    exact ⟨_, (List.mem_filter.mp hmem).1⟩

/-! ### Whole sessions -/

theorem eq_of_nodup_filterMap {γ δ : Type} {f : γ → Option δ} {l : List γ}
    (hn : (l.filterMap f).Nodup) {x y : γ} (hx : x ∈ l) (hy : y ∈ l) {b : δ} (hfx : f x = some b)
    (hfy : f y = some b) : x = y := by
  have hpair := List.pairwise_filterMap.mp hn
  have hsymm : Std.Symm fun x y => ∀ b, f x = some b → ∀ c, f y = some c → b ≠ c :=
    ⟨fun x y h b hb c hc => (h c hc b hb).symm⟩
  by_contra hne
  exact hpair.forall hx hy hne b hfx b hfy rfl

/-- Clearing a desk only closes. -/
theorem Desk.dealings_dropAll (l : List (Nat × Engine)) (s : B.State) :
    ∀ x ∈ dealings (dropAll l s : Outcome B.State Unit).events,
      ∃ h status, x = .call (.close h) status := by
  induction l generalizing s with
  | nil => exact fun x hx => nomatch hx
  | cons p l ih =>
    rw [dropAll, Dialogue.run_bind, dealings_append, p.2.dealings_drop]
    refine List.forall_mem_append.mpr ⟨?_, ih _⟩
    exact List.forall_mem_singleton.mpr ⟨_, _, rfl⟩

theorem Session.mem_events {x : Session B} {e : Event} :
    e ∈ x.events ↔ (∃ r ∈ x.reports, e ∈ r.events) ∨ e ∈ x.cleared.events := by
  rw [events, List.mem_append, List.mem_flatMap]

/-- An event of a session is one of an operation, or closes a handle. -/
theorem Session.mem_events_play {s : B.State} {ms : List (Move B)} {e : Event}
    (he : e ∈ (play s ms).events) (hdeals : e.deals = true) :
    (∃ before o after, ms = before ++ .op o :: after ∧
      e ∈ ((Desk.reach {} s before).1.step o (Desk.reach {} s before).2 :
        Outcome B.State (Reply × Desk)).events) ∨ ∃ h status, e = .call (.close h) status := by
  rcases mem_events.mp he with ⟨r, hr, her⟩ | hcleared
  · rw [reports_play] at hr
    obtain ⟨before, m, after, rfl, rfl⟩ := Desk.exists_reach_of_mem_run hr
    cases m with
    | op o => exact Or.inl ⟨before, o, after, rfl, her⟩
    | change l => cases her
  · obtain ⟨d, s₁, hclear⟩ := cleared_play s ms
    rw [hclear] at hcleared
    exact Or.inr (Desk.dealings_dropAll d.engines s₁ e (List.mem_filter.mpr ⟨hcleared, hdeals⟩))

/-- The opening that an engine stems from is an event of the session. -/
theorem Session.opening_of_engine? {s : B.State} {before : List (Move B)} (after : List (Move B))
    {slot : Nat} {e : Engine} (he : (Desk.reach {} s before).1.engine? slot = some e) :
    ∃ mode, .call (.openEngine e.arch mode) (0, e.handle) ∈ (play s (before ++ after)).events := by
  obtain ⟨j, arch, mode, r, v, es, later, hj, hevents, -, -, hconf⟩ := Desk.engine_stems s before he
  rw [hconf.arch]
  refine ⟨mode, mem_events.mpr (Or.inl ⟨r, ?_, ?_⟩)⟩
  · have hentry : (.op (.openEngine slot arch mode), r) ∈ Desk.journal {} s before := by
      rw [hj]
      exact List.mem_append_right _ List.mem_cons_self
    rw [reports_play, Desk.run_append]
    exact List.mem_append_left _ (List.of_mem_zip hentry).2
  · rw [hevents]
    exact List.mem_cons_of_mem _ List.mem_cons_self

theorem Session.takes_of_mem_reports {s : B.State} {ms : List (Move B)} {r : Report B}
    (hr : r ∈ (play s ms).reports) {slot : Nat} {e : Engine} (he : r.desk.engine? slot = some e) :
    Mode.Takes e.arch e.mode := by
  rw [reports_play] at hr
  obtain ⟨before, m, after, rfl, rfl⟩ := Desk.exists_reach_of_mem_run hr
  have hreach : (Desk.reach {} s (before ++ [m])).1.engine? slot = some e := by
    rw [Desk.reach_append]
    exact he
  exact Desk.takes_of_engine? s (before ++ [m]) hreach

/-- **Version and mode are gates.**  Whatever a script answers, and however it is changed between
moves: every opening of an operation has right before it an answer with the expected version, and
asks for a mode that the architecture takes; a mode that is set on a handle is one that the
architecture takes for which the handle was opened; and the mode of every engine that a desk holds is
one too.  The modes that an architecture takes are those that are accepted, of all masks there are;
with any other an engine is neither opened nor set, and the refusal says so, but for another version,
which is reported first. -/
theorem Session.version_and_mode_gated (s : Script) (ms : List (Move Script.backend)) :
    (∀ r ∈ (play s ms).reports, Gated r.events) ∧ NoOpenings (play s ms).cleared.events ∧
    (∀ pre h mode status post,
      (play s ms).events = pre ++ .call (.option h (.mode mode)) status :: post →
        (∃ arch m, .call (.openEngine arch m) (0, h) ∈ pre) ∧
        ∀ arch m, .call (.openEngine arch m) (0, h) ∈ (play s ms).events → Mode.Takes arch mode) ∧
    (∀ r ∈ (play s ms).reports, ∀ slot e, r.desk.engine? slot = some e →
      Mode.Takes e.arch e.mode) ∧
    (∀ arch mode, mode.supportedBy arch = true ↔ Mode.Takes arch mode) ∧
    (∀ (s₁ : Script) arch mode, Gate s₁.version false arch mode
      ((Engine.openWith arch mode : Attempt Script.backend Engine).run s₁)) ∧
    (∀ (s₁ : Script) arch mode code address count, Gate s₁.version false arch mode
      ((disasmQuick arch mode code address count : Attempt Script.backend _).run s₁)) ∧
    (∀ (s₁ : Script) arch mode code address count,
      Gate s₁.version (s₁.supported.contains 0x10000) arch mode
        ((disasmLiteQuick arch mode code address count : Attempt Script.backend _).run s₁)) ∧
    (∀ (s₁ : Script) (e : Engine) mode,
      let out := (e.setMode mode : Attempt Script.backend Engine).run s₁
      (¬ Mode.Takes e.arch mode →
        (∃ m, out.value = .error (.engine .unsupportedOption m)) ∧ dealings out.events = []) ∧
      (Mode.Takes e.arch mode →
        ∃ status, .call (.option e.handle (.mode mode)) status ∈ out.events)) := by
  obtain ⟨horderly, -, hnodup⟩ := events_orderly s ms
  refine ⟨?_, ?_, ?_, ?_, ?_, ?_, ?_, ?_, ?_⟩
  · intro r hr
    obtain ⟨d, s₁, m, rfl⟩ := Desk.exists_move_of_mem_run (reports_play s ms ▸ hr)
    cases m with
    | op o => exact d.gated_step Script.fixedDiet_backend o s₁
    | change l => exact noOpenings_nil.gated
  · obtain ⟨d, s₁, hcleared⟩ := cleared_play s ms
    rw [hcleared]
    apply noOpenings_of_dealings
    intro e he
    obtain ⟨h, status, rfl⟩ := Desk.dealings_dropAll d.engines s₁ e he
    rfl
  · intro pre h mode status post hsplit
    rw [hsplit] at horderly
    refine ⟨?_, ?_⟩
    · have hopened := (horderly.of_mentions (hsplit ▸ hnodup) rfl).1
      exact mem_opens.mp hopened
    · intro arch m hopen
      have hmem : .call (.option h (.mode mode)) status ∈ (play s ms).events := by
        rw [hsplit]
        exact List.mem_append_right _ List.mem_cons_self
      rcases mem_events_play hmem rfl with ⟨before, o, after, hms, hop⟩ | ⟨k, closing, hclose⟩
      · obtain ⟨slot, e, he, hhandle, hfits⟩ := Desk.option_step Script.fixedDiet_backend hop
        obtain ⟨m', hopen'⟩ := opening_of_engine? (.op o :: after) he
        rw [← hms, hhandle] at hopen'
        have hsame := eq_of_nodup_filterMap hnodup hopen hopen' (b := h) rfl rfl
        cases hsame
        exact Mode.takes_of_supportedBy hfits
      · cases hclose
  · intro r hr slot e he
    exact takes_of_mem_reports (B := Script.backend) hr he
  · intro arch mode
    exact Mode.takes_iff.symm
  · intro s₁ arch mode
    exact (Engine.openWith_admission (B := Script.backend) arch mode s₁).gate
  · intro s₁ arch mode code address count
    exact gate_withEngine (B := Script.backend) arch mode _ s₁
  · intro s₁ arch mode code address count
    exact gate_disasmLiteQuick Script.fixedVersion_backend Script.fixedDiet_backend arch mode code
      address count s₁
  · intro s₁ e mode
    exact e.setMode_gate (B := Script.backend) mode s₁

/-- Another version is turned away, whatever the mode. -/
example : callsOf (Session.play (B := Script.backend) { minor := 2 }
    [.op (.openEngine 0 .x86 .littleEndian)]).events = [.version, .strerror 9] := by rfl

end Disassembly

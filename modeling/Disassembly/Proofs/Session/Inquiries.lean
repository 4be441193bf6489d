import Disassembly.Proofs.Session.Statuses

/-!
# Asking a record

A record decodes its block when it is first asked about it and remembers the result.  Nothing but
the log shows this: a record that remembers the truth (`Record.Sound`) answers as if it had nothing
to remember.

* `Record.remember`, `Record.trace` — the memory of a record that was asked for its detail or not,
  and the log of it; asking twice is like asking once (`Record.remember_remember`,
  `Record.trace_append`);
* `Record.readText_spec`, `Record.readDetail_spec` — the two ways of looking at a record;
* `Record.inquireAll_spec` — queries one after another have the answers of `Insn.answer`, leave the
  engine as it was, and ask it only for the words of a refusal.
-/

namespace Disassembly

variable {B : Backend}

/-- Whether a query is answered from the detail. -/
def Query.readsDetail : Query → Bool
  | .detail _ => true
  | _ => false

namespace Insn

/-- The codes with which a query is refused. -/
def refusals (i : Insn) : Query → List ErrorCode
  | .mnemonic => if i.diet then [.dietUnsupported] else []
  | .opStr => if i.diet then [.dietUnsupported] else []
  | .summary => if i.diet then [.dietUnsupported, .dietUnsupported] else []
  | .detail _ =>
    match i.detail with
    | .ok _ => []
    | .error c => [c]
  | _ => []

/-- The log record of decoding the detail. -/
def decodingLine (i : Insn) : Level × String :=
  (.trace, "decoding " ++ i.arch.name ++ " detail at " ++ i.marked)

end Insn

/-- The words of an engine for a code. -/
def Backend.phrase (B : Backend) (s : B.State) (c : ErrorCode) : String :=
  B.words s c.raw

namespace Record

/-- A record remembers nothing but the detail of its instruction. -/
def Sound (r : Record) : Prop :=
  ∀ x, r.decoded = some x → r.insn.detail = .ok x

/-- The record after it was asked for its detail, or was not. -/
def remember (r : Record) (asked : Bool) : Record :=
  if asked then { r with decoded := r.insn.detail.toOption } else r

/-- The log of a record that is asked for its detail, or is not. -/
def trace (r : Record) (asked : Bool) : List (Level × String) :=
  if asked && r.decoded.isNone && r.insn.detail.toOption.isSome then [r.insn.decodingLine] else []

theorem insn_remember (r : Record) (asked : Bool) : (r.remember asked).insn = r.insn := by
  cases asked <;> rfl

theorem Sound.remember {r : Record} (h : r.Sound) (asked : Bool) : (r.remember asked).Sound := by
  cases asked with
  | false => exact h
  | true =>
    intro x hx
    replace hx : r.insn.detail.toOption = some x := hx
    show r.insn.detail = .ok x
    cases hdetail : r.insn.detail with
    | ok y =>
      rw [hdetail] at hx
      rw [Option.some.inj hx]
    | error c =>
      rw [hdetail] at hx
      cases hx

theorem sound_fresh (i : Insn) : (Record.mk i none).Sound :=
  fun _ hx => nomatch hx

theorem remember_remember (r : Record) (a b : Bool) :
    (r.remember a).remember b = r.remember (a || b) := by
  cases a <;> cases b <;> rfl

theorem trace_append (r : Record) (a b : Bool) :
    r.trace a ++ (r.remember a).trace b = r.trace (a || b) := by
  cases a with
  | false => rfl
  | true =>
    have hnone : (r.remember true).trace b = [] := by
      show (if b && r.insn.detail.toOption.isNone && r.insn.detail.toOption.isSome then _ else _) = _
      cases r.insn.detail.toOption <;> simp
    rw [hnone, List.append_nil, Bool.true_or]

/-- A fresh record logs if it is asked for its detail and has text and a block. -/
theorem trace_fresh (i : Insn) (asked : Bool) : (Record.mk i none).trace asked =
    if asked = true ∧ i.diet = false ∧ i.hasDetail = true then [i.decodingLine] else [] := by
  have hdetail : i.detail.toOption.isSome = (!i.diet && i.hasDetail) := by
    unfold Insn.detail Insn.diet Insn.hasDetail
    cases i.text <;> cases i.block <;> rfl
  show (if asked && true && i.detail.toOption.isSome then _ else _) = _
  rw [hdetail]
  cases asked <;> cases i.diet <;> cases i.hasDetail <;> rfl

/-- What a record remembers it need not decode. -/
theorem Sound.remember_eq {r : Record} (h : r.Sound) {x : Detail} (hx : r.decoded = some x)
    (asked : Bool) : r.remember asked = r ∧ r.trace asked = [] := by
  have hdetail := h x hx
  obtain ⟨i, m⟩ := r
  subst hx
  cases asked with
  | false => exact ⟨rfl, rfl⟩
  | true =>
    refine ⟨?_, rfl⟩
    show Record.mk i i.detail.toOption = _
    rw [hdetail]
    rfl

/-- Where there is no detail there is nothing to remember. -/
theorem Sound.remember_of_error {r : Record} (h : r.Sound) {c : ErrorCode}
    (hc : r.insn.detail = .error c) (asked : Bool) : r.remember asked = r := by
  obtain ⟨i, m⟩ := r
  cases m with
  | some x => cases hc.symm.trans (h x rfl)
  | none =>
    cases asked with
    | false => rfl
    | true =>
      show Record.mk i i.detail.toOption = _
      rw [show i.detail = .error c from hc]
      rfl

/-! ### Looking at a record -/

theorem refuse_spec {α : Type} (hB : B.Mute) (c : ErrorCode) (s : B.State) :
    ∃ es, (Attempt.refuse c : Attempt B α).run s = ⟨Insn.refused (B.phrase s) c, s, es⟩ ∧
      callsOf es = [.strerror c.raw] ∧ logsOf es = [] := by
  rw [Attempt.run_refuse, hB s c.raw]
  exact ⟨_, rfl, rfl, rfl⟩

theorem readText_spec (hB : B.Mute) (r : Record) (part : Rendering → String) (s : B.State) :
    ∃ es, (r.readText part : Attempt B String).run s = ⟨r.insn.textOf (B.phrase s) part, s, es⟩ ∧
      callsOf es = (if r.insn.diet then [.strerror ErrorCode.dietUnsupported.raw] else []) ∧
      logsOf es = [] := by
  unfold readText Insn.textOf Insn.diet
  cases r.insn.text with
  | some t => exact ⟨[], rfl, rfl, rfl⟩
  | none => exact refuse_spec hB .dietUnsupported s

/-- Where there is no detail, asking for it is refused. -/
theorem readDetail_of_error {r : Record} {c : ErrorCode} (hc : r.insn.detail = .error c) :
    (r.readDetail : Attempt B (Detail × Record)) = Attempt.refuse c := by
  unfold readDetail
  cases htext : r.insn.text with
  | none =>
    rw [Insn.detail, htext] at hc
    obtain rfl := Except.error.inj hc
    rw [Insn.diet, htext]
    rfl
  | some t =>
    cases hblock : r.insn.block with
    | none =>
      rw [Insn.detail, htext, hblock] at hc
      obtain rfl := Except.error.inj hc
      rw [Insn.diet, htext]
      rfl
    | some b =>
      rw [Insn.detail, htext, hblock] at hc
      cases hc

/-- The detail is decoded unless it is remembered, and remembered from then on. -/
theorem readDetail_of_ok {r : Record} (h : r.Sound) {x : Detail} (hx : r.insn.detail = .ok x)
    (s : B.State) :
    ∃ es, (r.readDetail : Attempt B (Detail × Record)).run s =
        ⟨.ok (x, r.remember true), s, es⟩ ∧
      callsOf es = [] ∧ logsOf es = r.trace true := by
  unfold readDetail
  cases htext : r.insn.text with
  | none =>
    rw [Insn.detail, htext] at hx
    cases hx
  | some t =>
    rw [Insn.diet, htext]
    cases hblock : r.insn.block with
    | none =>
      rw [Insn.detail, htext, hblock] at hx
      cases hx
    | some b =>
      have hdetail := hx
      rw [Insn.detail, htext, hblock] at hx
      obtain rfl := Except.ok.inj hx
      cases hdecoded : r.decoded with
      | some y =>
        obtain ⟨hsame, hnone⟩ := h.remember_eq hdecoded true
        obtain rfl := Except.ok.inj ((h y hdecoded).symm.trans hdetail)
        rw [hsame, hnone]
        exact ⟨[], rfl, rfl, rfl⟩
      | none =>
        have hline : r.trace true = [r.insn.decodingLine] := by
          rw [trace, hdecoded, hdetail]
          rfl
        rw [hline, remember, hdetail]
        exact ⟨[.log .trace _], rfl, rfl, rfl⟩

theorem readDetail_spec (hB : B.Mute) {r : Record} (h : r.Sound) (s : B.State) :
    ∃ es, (r.readDetail : Attempt B (Detail × Record)).run s =
        ⟨match r.insn.detail with
          | .ok x => .ok (x, r.remember true)
          | .error c => Insn.refused (B.phrase s) c, s, es⟩ ∧
      callsOf es = (match r.insn.detail with
        | .ok _ => []
        | .error c => [.strerror c.raw]) ∧
      logsOf es = r.trace true := by
  cases hdetail : r.insn.detail with
  | ok x => exact readDetail_of_ok h hdetail s
  | error c =>
    have hnone : r.trace true = [] := by
      rw [trace, hdetail]
      simp [Except.toOption]
    rw [readDetail_of_error hdetail, hnone]
    exact refuse_spec hB c s

/-! ### Queries -/

/-- What queries on a record come to: the answers are those of its instruction, in the words that
the engine has at the time; the engine stays as it was and is asked for nothing but these words; and
what the record remembers and logs hangs on whether it was asked for its detail. -/
structure Answered {α : Type} (r : Record) (s : B.State) (answers : α) (refusals : List ErrorCode)
    (asked : Bool) (out : Outcome B.State (α × Record)) : Prop where
  answers : out.value.1 = answers
  record : out.value.2 = r.remember asked
  state : out.state = s
  calls : callsOf out.events = refusals.map fun c => .strerror c.raw
  logs : logsOf out.events = r.trace asked

theorem answered_quietly {r : Record} {s : B.State} (x : Except Error Answer) :
    Answered r s x [] false ⟨(x, r), s, []⟩ :=
  ⟨rfl, rfl, rfl, rfl, rfl⟩

theorem answered_text (hB : B.Mute) (r : Record) (part : Rendering → String) (s : B.State) :
    Answered r s ((r.insn.textOf (B.phrase s) part).map Answer.text)
      (if r.insn.diet then [.dietUnsupported] else []) false
      ((do return ((← (r.readText part).run).map .text, r) :
        Dialogue B (Except Error Answer × Record)) s) := by
  obtain ⟨es, hrun, hcalls, hlogs⟩ := r.readText_spec hB part s
  rw [Dialogue.run_bind, hrun]
  refine ⟨rfl, rfl, rfl, ?_, ?_⟩
  · show callsOf (es ++ []) = _
    rw [List.append_nil, hcalls]
    cases r.insn.diet <;> rfl
  · show logsOf (es ++ []) = _
    rw [List.append_nil, hlogs]
    rfl

theorem answered_summary (hB : B.Mute) (r : Record) (s : B.State) :
    Answered r s (r.insn.answer (B.phrase s) .summary) (r.insn.refusals .summary) false
      ((r.inquire .summary : Dialogue B (Except Error Answer × Record)) s) := by
  obtain ⟨es, hrun, hcalls, hlogs⟩ := r.readText_spec hB Rendering.mnemonic s
  obtain ⟨es', hrun', hcalls', hlogs'⟩ := r.readText_spec hB Rendering.opStr s
  rw [inquire, Dialogue.run_bind, summary, Dialogue.run_bind, hrun, Dialogue.run_bind, hrun']
  refine ⟨rfl, rfl, rfl, ?_, ?_⟩
  · show callsOf (es ++ (es' ++ []) ++ []) = _
    rw [List.append_nil, List.append_nil, callsOf, List.filterMap_append]
    show callsOf es ++ callsOf es' = _
    rw [hcalls, hcalls', Insn.refusals]
    cases r.insn.diet <;> rfl
  · show logsOf (es ++ (es' ++ []) ++ []) = _
    rw [List.append_nil, List.append_nil, logsOf, List.filterMap_append]
    show logsOf es ++ logsOf es' = _
    rw [hlogs, hlogs']
    rfl

theorem answered_detail (hB : B.Mute) {r : Record} (h : r.Sound) (q : DetailQuery) (s : B.State) :
    Answered r s (r.insn.answer (B.phrase s) (.detail q)) (r.insn.refusals (.detail q)) true
      ((r.inquire (.detail q) : Dialogue B (Except Error Answer × Record)) s) := by
  obtain ⟨es, hrun, hcalls, hlogs⟩ := readDetail_spec hB h s
  rw [inquire, Dialogue.run_bind, hrun, Insn.answer, Insn.refusals]
  cases hdetail : r.insn.detail with
  | ok x =>
    rw [hdetail] at hcalls
    refine ⟨rfl, rfl, rfl, ?_, ?_⟩
    · show callsOf (es ++ []) = _
      rw [List.append_nil, hcalls]
      rfl
    · show logsOf (es ++ []) = _
      rw [List.append_nil, hlogs]
  | error c =>
    rw [hdetail] at hcalls
    have hnothing := h.remember_of_error hdetail true
    refine ⟨rfl, hnothing.symm, rfl, ?_, ?_⟩
    · show callsOf (es ++ []) = _
      rw [List.append_nil, hcalls]
      rfl
    · show logsOf (es ++ []) = _
      rw [List.append_nil, hlogs]

/-- **A query is answered from the instruction**, whatever the record remembers. -/
theorem inquire_spec (hB : B.Mute) {r : Record} (h : r.Sound) (q : Query) (s : B.State) :
    Answered r s (r.insn.answer (B.phrase s) q) (r.insn.refusals q) q.readsDetail
      ((r.inquire q : Dialogue B (Except Error Answer × Record)) s) := by
  cases q with
  | mnemonic => exact r.answered_text hB Rendering.mnemonic s
  | opStr => exact r.answered_text hB Rendering.opStr s
  | summary => exact r.answered_summary hB s
  | detail q => exact answered_detail hB h q s
  | _ => exact answered_quietly _

/-- **Queries one after another** are answered each for itself. -/
theorem inquireAll_spec (hB : B.Mute) {r : Record} (h : r.Sound) (qs : List Query) (s : B.State) :
    Answered r s (qs.map (r.insn.answer (B.phrase s))) (qs.flatMap r.insn.refusals)
      (qs.any Query.readsDetail)
      ((r.inquireAll qs : Dialogue B (List (Except Error Answer) × Record)) s) := by
  induction qs generalizing r with
  | nil => exact ⟨rfl, rfl, rfl, rfl, rfl⟩
  | cons q qs ih =>
    have hfirst := inquire_spec hB h q s
    rw [inquireAll, Dialogue.run_bind]
    generalize (r.inquire q : Dialogue B (Except Error Answer × Record)) s = first at hfirst
    obtain ⟨⟨answer, r₁⟩, s₁, es⟩ := first
    obtain ⟨hanswer, hrecord, hstate, hcalls, hlogs⟩ := hfirst
    dsimp only at hanswer hrecord hstate hcalls hlogs
    subst hanswer hrecord hstate
    have hrest := ih (h.remember q.readsDetail)
    rw [insn_remember] at hrest
    dsimp only
    rw [Dialogue.run_bind]
    generalize ((r.remember q.readsDetail).inquireAll qs :
      Dialogue B (List (Except Error Answer) × Record)) s₁ = rest at hrest
    obtain ⟨⟨answers, r₂⟩, s₂, es'⟩ := rest
    obtain ⟨hanswers, hrecord, hstate, hcalls', hlogs'⟩ := hrest
    dsimp only at hanswers hrecord hstate hcalls' hlogs'
    subst hanswers hrecord hstate
    refine ⟨rfl, ?_, rfl, ?_, ?_⟩
    · rw [List.any_cons]
      exact r.remember_remember _ _
    · show callsOf (es ++ (es' ++ [])) = _
      rw [List.append_nil, callsOf, List.filterMap_append, List.flatMap_cons, List.map_append]
      exact congrArg₂ (· ++ ·) hcalls hcalls'
    · show logsOf (es ++ (es' ++ [])) = _
      rw [List.append_nil, logsOf, List.filterMap_append, List.any_cons, ← trace_append]
      exact congrArg₂ (· ++ ·) hlogs hlogs'

end Record

end Disassembly

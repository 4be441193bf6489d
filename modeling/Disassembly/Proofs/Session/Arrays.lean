import Disassembly.Proofs.Session.Lifecycle

/-!
# The release of arrays

An array is handed out by a decode and is to be freed with the count that came with it, unless
that count is zero.

* `DecodesOnce` — events with one decode, the release of what it handed out, and no closing before
  that;
* `Desk.step_decodes` — an operation comes to that if it gets to decode (`Op.Decodes`), and deals
  in no array otherwise;
* `Desk.transcript_balanced` — over a run the arrays freed are the ones owed, in that order.
-/

namespace Disassembly

/-! ### Arrays among events -/

/-- The number and the count with which an array that was handed out is to be freed. -/
def Decoded.owed? (x : Decoded) : Option (Nat × Nat) :=
  if x.count = 0 then none else x.array.map fun a => (a.number, x.count)

namespace Event

/-- What a decode hands out. -/
def decoded? : Event → Option Decoded
  | .call (.disasm _ _ _ _) x => some x
  | _ => none

/-- The number and the count with which an array is freed. -/
def frees? : Event → Option (Nat × Nat)
  | .call (.free number count) _ => some (number, count)
  | _ => none

/-- The number and the count with which an array is to be freed after an event. -/
def owes? (e : Event) : Option (Nat × Nat) :=
  e.decoded?.bind Decoded.owed?

/-- The handle whose status is asked for. -/
def asksStatus? : Event → Option Handle
  | .call (.errno h) _ => some h
  | _ => none

/-- An event that has nothing to do with arrays. -/
structure Plain (e : Event) : Prop where
  decoded? : e.decoded? = none
  frees? : e.frees? = none
  asksStatus? : e.asksStatus? = none

theorem plain_of_not_deals {e : Event} (h : e.deals = false) : e.Plain := by
  cases e with
  | call c a => cases c <;> first | exact ⟨rfl, rfl, rfl⟩ | cases h
  | _ => exact ⟨rfl, rfl, rfl⟩

theorem Plain.owes? {e : Event} (h : e.Plain) : e.owes? = none := by
  rw [Event.owes?, h.decoded?]
  rfl

end Event

/-- One decode among events: right after it, before any closing, the engine's status is asked for
if nothing was counted, and what is owed is freed. -/
def DecodesOnce (es : List Event) : Prop :=
  ∃ before h code address count x between after,
    es = before ++ .call (.disasm h code address count) x :: (between ++ after) ∧
    (∀ e ∈ before ++ after, e.Plain) ∧
    (∀ e ∈ between, e.decoded? = none) ∧
    (∀ e ∈ before ++ between, e.closes? = none) ∧
    between.filterMap Event.asksStatus? = (if x.count = 0 then [h] else []) ∧
    between.filterMap Event.frees? = x.owed?.toList

/-- Events without decodes and releases. -/
def NoArrays (es : List Event) : Prop :=
  ∀ e ∈ es, e.decoded? = none ∧ e.frees? = none

theorem noArrays_of_plain {es : List Event} (h : ∀ e ∈ es, e.Plain) : NoArrays es :=
  fun e he => ⟨(h e he).decoded?, (h e he).frees?⟩

/-- What holds of each event that is no dealing holds of all events if it does of the dealings. -/
theorem forall_of_dealings {P : Event → Prop} (hP : ∀ e, e.deals = false → P e) {es : List Event}
    (h : ∀ e ∈ dealings es, P e) : ∀ e ∈ es, P e := by
  intro e he
  cases hdeals : e.deals with
  | false => exact hP e hdeals
  | true => exact h e (List.mem_filter.mpr ⟨he, hdeals⟩)

theorem filterMap_dealings {α : Type} {f : Event → Option α}
    (hf : ∀ e, e.deals = false → f e = none) (es : List Event) :
    (dealings es).filterMap f = es.filterMap f := by
  rw [dealings, List.filterMap_filter]
  apply List.filterMap_congr
  intro e _
  cases hdeals : e.deals with
  | true => rfl
  | false => exact (hf e hdeals).symm

/-- Log records and questions about the engine as a whole make no difference. -/
theorem decodesOnce_of_dealings {es : List Event} (h : DecodesOnce (dealings es)) :
    DecodesOnce es := by
  obtain ⟨before, h, code, address, count, x, between, after, heq, hplain, hdecoded, hcloses,
    hasks, hfrees⟩ := h
  obtain ⟨es₁, rest, rfl, rfl, hrest⟩ := List.filter_eq_append_iff.mp heq
  obtain ⟨skipped, rest, rfl, hskipped, -, hrest⟩ := List.filter_eq_cons_iff.mp hrest
  obtain ⟨es₂, es₃, rfl, rfl, rfl⟩ := List.filter_eq_append_iff.mp hrest
  have hskip : ∀ e ∈ skipped, e.deals = false := fun e he => by simpa using hskipped e he
  have hplain' : ∀ e ∈ skipped, e.Plain := fun e he => Event.plain_of_not_deals (hskip e he)
  have hopen' : ∀ e ∈ skipped, e.closes? = none :=
    fun e he => (handles_of_not_deals (hskip e he)).2.1
  obtain ⟨hbefore, hafter⟩ := List.forall_mem_append.mp hplain
  obtain ⟨hopen, hbetween⟩ := List.forall_mem_append.mp hcloses
  refine ⟨es₁ ++ skipped, h, code, address, count, x, es₂, es₃, by simp, ?_, ?_, ?_, ?_, ?_⟩
  · simp only [List.forall_mem_append]
    exact ⟨⟨forall_of_dealings (fun e => Event.plain_of_not_deals) hbefore, hplain'⟩,
      forall_of_dealings (fun e => Event.plain_of_not_deals) hafter⟩
  · exact forall_of_dealings (fun e he => (Event.plain_of_not_deals he).decoded?) hdecoded
  · simp only [List.forall_mem_append]
    exact ⟨⟨forall_of_dealings (fun e he => (handles_of_not_deals he).2.1) hopen, hopen'⟩,
      forall_of_dealings (fun e he => (handles_of_not_deals he).2.1) hbetween⟩
  · rw [← hasks]
    exact (filterMap_dealings (fun e he => (Event.plain_of_not_deals he).asksStatus?) es₂).symm
  · rw [← hfrees]
    exact (filterMap_dealings (fun e he => (Event.plain_of_not_deals he).frees?) es₂).symm

theorem plain_nil {es : List Event} (h : ∀ e ∈ es, e.Plain) :
    es.filterMap Event.frees? = [] ∧ es.filterMap Event.owes? = [] :=
  ⟨List.filterMap_eq_nil_iff.mpr fun e he => (h e he).frees?,
    List.filterMap_eq_nil_iff.mpr fun e he => (h e he).owes?⟩

/-- One decode frees what it owes. -/
theorem DecodesOnce.balanced {es : List Event} (h : DecodesOnce es) :
    es.filterMap Event.frees? = es.filterMap Event.owes? := by
  obtain ⟨before, h, code, address, count, x, between, after, rfl, hplain, hdecoded, -, -,
    hfrees⟩ := h
  obtain ⟨hbefore, hafter⟩ := List.forall_mem_append.mp hplain
  obtain ⟨hfrees₁, howes₁⟩ := plain_nil hbefore
  obtain ⟨hfrees₂, howes₂⟩ := plain_nil hafter
  have howes : between.filterMap Event.owes? = [] := by
    apply List.filterMap_eq_nil_iff.mpr
    intro e he
    rw [Event.owes?, hdecoded e he]
    rfl
  have hdecode : [Event.call (.disasm h code address count) x].filterMap Event.owes? =
      x.owed?.toList := by
    cases howed : x.owed? <;> simp [Event.owes?, Event.decoded?, howed]
  rw [List.filterMap_append, List.filterMap_append, hfrees₁, howes₁, ← List.singleton_append,
    List.filterMap_append, List.filterMap_append, List.filterMap_append, List.filterMap_append,
    hfrees, hfrees₂, howes, howes₂, hdecode]
  simp [Event.frees?]

theorem NoArrays.balanced {es : List Event} (h : NoArrays es) :
    es.filterMap Event.frees? = es.filterMap Event.owes? := by
  apply List.filterMap_congr
  intro e he
  rw [Event.owes?, (h e he).1, (h e he).2]
  rfl

theorem noArrays_of_dealings {es : List Event} (h : NoArrays (dealings es)) : NoArrays es :=
  forall_of_dealings (fun _ he => ⟨(Event.plain_of_not_deals he).decoded?,
    (Event.plain_of_not_deals he).frees?⟩) h

/-! ### What operations deal in -/

theorem Engine.Decoding.decodesOnce {h : Handle} {code : List UInt8} {address : UInt64}
    {count : Nat} {es before after : List Event}
    (hes : Engine.Decoding h code address count es) (hplain : ∀ e ∈ before ++ after, e.Plain)
    (hopen : ∀ e ∈ before, e.closes? = none) : DecodesOnce (before ++ (es ++ after)) := by
  cases hes with
  | @mk x es hrelease =>
    refine ⟨before, h, code, address, count, x, es, after, rfl, hplain, ?_, ?_, ?_, ?_⟩
    · cases hrelease <;> simp [Event.decoded?]
    · intro e he
      rcases List.mem_append.mp he with hmem | hmem
      · exact hopen e hmem
      · cases hrelease <;> simp_all [Event.closes?]
    · cases hrelease <;> simp_all [Event.asksStatus?]
    · cases hrelease <;> simp_all [Event.frees?, Decoded.owed?]

/-- Whether an operation on a desk, with these events, gets to decode: the engine of its slot, or
the one that it opens itself, is there and is not refused for being diet. -/
def Op.Decodes (d : Desk) (es : List Event) : Op → Prop
  | .act slot a => a.decode?.isSome ∧
    ∃ e, d.engine? slot = some e ∧ (a.needsText = true → e.diet = false)
  | .quick arch mode _ _ _ _ => ∃ h, .call (.openEngine arch mode) (0, h) ∈ es
  | .liteQuick arch mode _ _ _ => ∃ h, .call (.openEngine arch mode) (0, h) ∈ es
  | _ => False

theorem Engine.Opening.plain {arch : Arch} {mode : Mode} {r : Except Error Engine}
    {es : List Event} (hes : Engine.Opening arch mode r es) : ∀ e ∈ es, e.Plain := by
  cases hes with
  | refused err => exact fun e he => (nomatch he)
  | failed err status h hstatus => exact List.forall_mem_singleton.mpr ⟨rfl, rfl, rfl⟩
  | opened h diet => exact List.forall_mem_singleton.mpr ⟨rfl, rfl, rfl⟩

theorem Action.decode?_of_setting? {a : Action} {x : Setting} (ha : a.setting? = some x) :
    a.decode? = none := by
  cases a <;> first | rfl | cases ha

theorem Action.decode?_of_question? {a : Action} {h : Handle} {c : Call}
    (ha : a.question? h = some c) : a.decode? = none := by
  cases a <;> first | rfl | cases ha

namespace Desk

variable {d d' : Desk}

/-- An action that is not about decoding does not get to decode. -/
theorem not_decodes {slot : Nat} {a : Action} {es : List Event} (ha : a.decode? = none) :
    ¬ (Op.act slot a).Decodes d es := by
  rintro ⟨hdecode, -⟩
  simp [ha] at hdecode

theorem decodes_of_errand? {o : Op} {arch : Arch} {mode : Mode} {code : List UInt8}
    {address : UInt64} {count : Nat} (ho : o.errand? = some (arch, mode, code, address, count))
    {es : List Event} :
    o.Decodes d es ↔ ∃ h, .call (.openEngine arch mode) (0, h) ∈ es := by
  cases o <;> cases ho <;> rfl

/-- An operation that gets to decode does so once; any other deals in no array. -/
theorem Course.decodes {o : Op} {es : List Event} (hcourse : d.Course o es d') :
    (o.Decodes d es → DecodesOnce es) ∧ (¬ o.Decodes d es → NoArrays es) := by
  have hidle : ∀ {o : Op} {es : List Event}, ¬ o.Decodes d es → NoArrays es →
      (o.Decodes d es → DecodesOnce es) ∧ (¬ o.Decodes d es → NoArrays es) :=
    fun hnot hnone => ⟨fun h => absurd h hnot, fun _ => hnone⟩
  have hnil : NoArrays [] := fun e he => (nomatch he)
  cases hcourse with
  | unopened hopen => exact hidle id (noArrays_of_plain hopen.plain)
  | opened hopen hold => exact hidle id (noArrays_of_plain hopen.plain)
  | replaced hopen hold status =>
    refine hidle id (noArrays_of_plain (List.forall_mem_append.mpr ⟨hopen.plain, ?_⟩))
    exact List.forall_mem_singleton.mpr ⟨rfl, rfl, rfl⟩
  | noEngine he =>
    refine hidle ?_ hnil
    rintro ⟨-, e, he', -⟩
    rw [he] at he'
    cases he'
  | @closed slot a e he ha status =>
    refine hidle (not_decodes ?_) (List.forall_mem_singleton.mpr ⟨rfl, rfl⟩)
    rcases ha with rfl | rfl <;> rfl
  | accepted he ha hfits =>
    exact hidle (not_decodes (Action.decode?_of_setting? ha))
      (List.forall_mem_singleton.mpr ⟨rfl, rfl⟩)
  | rejected he ha hfits hstatus =>
    exact hidle (not_decodes (Action.decode?_of_setting? ha))
      (List.forall_mem_singleton.mpr ⟨rfl, rfl⟩)
  | unfit he ha hfits => exact hidle (not_decodes (Action.decode?_of_setting? ha)) hnil
  | @asked slot a e c he ha hdiet answer =>
    refine hidle (not_decodes (Action.decode?_of_question? ha))
      (List.forall_mem_singleton.mpr ?_)
    cases a <;> cases ha <;> exact ⟨rfl, rfl⟩
  | @decoded slot a e code address count es d' he ha hdiet hes hsame =>
    have hdecodes : (Op.act slot a).Decodes d es := ⟨by rw [ha]; rfl, e, he, hdiet⟩
    have honce : DecodesOnce ([] ++ (es ++ [])) :=
      hes.decodesOnce (fun e he => (nomatch he)) (fun e he => (nomatch he))
    rw [List.append_nil] at honce
    exact ⟨fun _ => honce, fun hnot => absurd hdecodes hnot⟩
  | diet he ha hdiet =>
    refine hidle ?_ hnil
    rintro ⟨-, e, he', hnot⟩
    rw [he] at he'
    cases he'
    exact absurd (hnot ha) (by simp [hdiet])
  | shown he => exact hidle (not_decodes rfl) hnil
  | @errand o arch mode code address count es d' ho hes hsame =>
    rw [decodes_of_errand? ho]
    cases hes with
    | unopened hopen =>
      refine ⟨fun ⟨h, hmem⟩ => ?_, fun _ => noArrays_of_plain hopen.plain⟩
      cases hopen with
      | refused err => cases hmem
      | failed err status k hstatus => simp [Ne.symm hstatus] at hmem
    | @served h es huse status =>
      refine ⟨fun _ => ?_, fun hnot => absurd ⟨h, List.mem_cons_self⟩ hnot⟩
      have hplain : ∀ e ∈ [.call (.openEngine arch mode) (0, h)] ++ [.call (.close h) status],
          Event.Plain e :=
        List.forall_mem_cons.mpr ⟨⟨rfl, rfl, rfl⟩, List.forall_mem_singleton.mpr ⟨rfl, rfl, rfl⟩⟩
      exact huse.decodesOnce hplain (List.forall_mem_singleton.mpr rfl)
  | idle ho hsame => exact hidle (by cases o <;> first | exact id | cases ho) hnil

variable {B : Backend}

theorem decodes_dealings {o : Op} {es : List Event} :
    o.Decodes d (dealings es) ↔ o.Decodes d es := by
  have hopen : ∀ {arch mode h}, .call (.openEngine arch mode) (0, h) ∈ dealings es ↔
      .call (.openEngine arch mode) (0, h) ∈ es := by
    intro arch mode h
    simp [dealings]
  cases o with
  | quick arch mode code address count name => exact exists_congr fun h => hopen
  | liteQuick arch mode code address count => exact exists_congr fun h => hopen
  | _ => exact Iff.rfl

/-- **An operation decodes once if it gets to decode**, and deals in no array otherwise. -/
theorem step_decodes (hB : B.FixedDiet) (d : Desk) (o : Op) (s : B.State) :
    let es := (d.step o s : Outcome B.State (Reply × Desk)).events
    (o.Decodes d es → DecodesOnce es) ∧ (¬ o.Decodes d es → NoArrays es) := by
  obtain ⟨honce, hnone⟩ := (d.step_course hB o s).decodes
  rw [decodes_dealings] at honce hnone
  exact ⟨fun h => decodesOnce_of_dealings (honce h), fun h => noArrays_of_dealings (hnone h)⟩

/-! ### Whole runs -/

theorem noArrays_dropAll (l : List (Nat × Engine)) (s : B.State) :
    NoArrays (dropAll l s : Outcome B.State Unit).events := by
  induction l generalizing s with
  | nil => exact fun e he => (nomatch he)
  | cons p l ih =>
    have hdrop : NoArrays (p.2.drop s : Outcome B.State Unit).events := by
      apply noArrays_of_dealings
      rw [p.2.dealings_drop s]
      exact List.forall_mem_singleton.mpr ⟨rfl, rfl⟩
    exact List.forall_mem_append.mpr ⟨hdrop, ih _⟩

/-- Over a run the arrays freed are the ones owed, in that order. -/
theorem transcript_balanced (hB : B.FixedDiet) (d : Desk) (s : B.State) (ms : List (Move B)) :
    (d.transcript s ms).filterMap Event.frees? = (d.transcript s ms).filterMap Event.owes? := by
  induction ms generalizing d s with
  | nil => exact (noArrays_dropAll d.engines s).balanced
  | cons m ms ih =>
    have hmove : (d.move s m).events.filterMap Event.frees? =
        (d.move s m).events.filterMap Event.owes? := by
      cases m with
      | change l => rfl
      | op o =>
        obtain ⟨honce, hnone⟩ := d.step_decodes hB o s
        by_cases hdecodes : o.Decodes d (d.step o s : Outcome B.State (Reply × Desk)).events
        · exact (honce hdecodes).balanced
        · exact (hnone hdecodes).balanced
    rw [transcript, List.filterMap_append, List.filterMap_append, hmove, ih]

end Desk

/-- What is owed is the number of an array that was handed out, with a count that is not zero. -/
theorem Event.hands?_of_owes? {e : Event} {p : Nat × Nat} (h : e.owes? = some p) :
    e.hands?.map NativeArray.number = some p.1 ∧ p.2 ≠ 0 := by
  cases e with
  | call c a =>
    cases c with
    | disasm k code address count =>
      have howed : Decoded.owed? a = some p := h
      rw [Decoded.owed?] at howed
      split at howed
      · cases howed
      · next hcount =>
        obtain ⟨array, harray, rfl⟩ := Option.map_eq_some_iff.mp howed
        exact ⟨by rw [hands?, harray]; rfl, hcount⟩
    | _ => cases h
  | _ => cases h

theorem filterMap_sublist {α β : Type} {f g : α → Option β} (h : ∀ a b, f a = some b → g a = some b)
    (l : List α) : (l.filterMap f).Sublist (l.filterMap g) := by
  induction l with
  | nil => exact List.Sublist.slnil
  | cons a l ih =>
    cases hf : f a with
    | some b => simpa [List.filterMap_cons, hf, h a b hf] using ih
    | none =>
      cases hg : g a with
      | none => simpa [List.filterMap_cons, hf, hg] using ih
      | some b => simpa [List.filterMap_cons, hf, hg] using ih.cons b

/-- What is owed over events whose arrays are numbered. -/
theorem owes_of_numbers {s s' : Script} {es : List Event}
    (h : Script.Numbers (fun e => e.hands?.map NativeArray.number) Script.arrays s es s') :
    ((es.filterMap Event.owes?).map Prod.fst).Nodup ∧
      ∀ p ∈ es.filterMap Event.owes?, p.1 ≠ 0 ∧ p.2 ≠ 0 := by
  have hsublist : ((es.filterMap Event.owes?).map Prod.fst).Sublist
      (es.filterMap fun e => e.hands?.map NativeArray.number) := by
    rw [List.map_filterMap]
    refine filterMap_sublist (fun e n hn => ?_) es
    obtain ⟨p, hp, rfl⟩ := Option.map_eq_some_iff.mp hn
    exact (Event.hands?_of_owes? hp).1
  refine ⟨h.nodup.sublist hsublist, ?_⟩
  intro p hp
  have hmem := hsublist.subset (List.mem_map_of_mem hp)
  rw [h.eq_range, List.mem_range'_1] at hmem
  obtain ⟨e, -, he⟩ := List.mem_filterMap.mp hp
  exact ⟨by omega, (Event.hands?_of_owes? he).2⟩

/-- **Every array is released once.**  Whatever the desk holds, an operation that gets to decode
does so once, asks for the status right after it if nothing was counted, and frees what is owed,
before it closes its engine if that is its own; any other operation neither decodes nor frees.  And
over a session the arrays freed are the ones owed, each once, none of them null or empty. -/
theorem Session.array_lifecycle (s : Script) (ms : List (Move Script.backend)) :
    (∀ (d : Desk) (o : Op) (s₁ : Script),
      let es := ((d.step o : Dialogue Script.backend (Reply × Desk)) s₁).events
      (o.Decodes d es → DecodesOnce es) ∧ (¬ o.Decodes d es → NoArrays es)) ∧
    NoArrays (play s ms).cleared.events ∧
    (play s ms).events.filterMap Event.frees? = (play s ms).events.filterMap Event.owes? ∧
    (((play s ms).events.filterMap Event.frees?).map Prod.fst).Nodup ∧
    ∀ p ∈ (play s ms).events.filterMap Event.frees?, p.1 ≠ 0 ∧ p.2 ≠ 0 := by
  have hevents : (play s ms).events = Desk.transcript {} s ms := events_play s ms
  have hbalanced : (play s ms).events.filterMap Event.frees? =
      (play s ms).events.filterMap Event.owes? := by
    rw [hevents]
    exact Desk.transcript_balanced Script.fixedDiet_backend {} s ms
  obtain ⟨s', hnumbers⟩ := Desk.numbers_transcript Script.handed_of_replays
    (fun s l => (Script.counts_changes s l).2) {} s ms
  obtain ⟨d, s₁, hcleared⟩ := cleared_play s ms
  obtain ⟨hnodup, hproper⟩ := owes_of_numbers hnumbers
  rw [← hevents] at hnodup hproper
  refine ⟨?_, ?_, hbalanced, ?_, ?_⟩
  · intro d o s₁
    exact d.step_decodes Script.fixedDiet_backend o s₁
  · rw [hcleared]
    exact Desk.noArrays_dropAll d.engines s₁
  · rw [hbalanced]
    exact hnodup
  · rw [hbalanced]
    exact hproper

end Disassembly

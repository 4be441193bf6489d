import Disassembly.Proofs.Session.Dealings
import Disassembly.Proofs.Session.Replay
import Mathlib.Data.List.Nodup

/-!
# The course of an operation

* `Desk.mem_put`, `Desk.mem_remove` — which engines a desk holds, while its slots are in order
  (`Desk.Tidy`);
* `Desk.Course` — all that an operation on a desk can come to: its dealings, and the engines the
  desk holds afterwards;
* `Desk.step_course` — there is nothing else;
* `Desk.transcript` — the events of a whole run, in order, with those of clearing the desk.
-/

namespace Disassembly

variable {B : Backend} {α β : Type}

/-! ### The engines of a desk -/

namespace Desk

/-- The slots are in increasing order, so that each is there once. -/
def Tidy (d : Desk) : Prop :=
  (d.engines.map Prod.fst).Pairwise (· < ·)

theorem tidy_empty : Tidy {} :=
  List.Pairwise.nil

theorem mem_insert {slot : Nat} {e : Engine} {l : List (Nat × Engine)}
    (hl : (l.map Prod.fst).Pairwise (· < ·)) {p : Nat × Engine} :
    p ∈ insert slot e l ↔ p = (slot, e) ∨ p ∈ l ∧ p.1 ≠ slot := by
  induction l with
  | nil => simp [insert]
  | cons q l ih =>
    obtain ⟨hfirst, hrest⟩ := List.pairwise_cons.mp hl
    have hlater : ∀ p ∈ l, q.1 < p.1 := fun p hp => hfirst p.1 (List.mem_map_of_mem hp)
    rw [insert]
    split
    · next hlt =>
      have hne : ∀ p ∈ q :: l, p.1 ≠ slot := by
        intro p hp
        rcases List.mem_cons.mp hp with rfl | hmem
        · omega
        · have := hlater p hmem
          omega
      rw [List.mem_cons]
      exact or_congr_right ⟨fun hp => ⟨hp, hne p hp⟩, And.left⟩
    · split
      · next heq =>
        rw [List.mem_cons, List.mem_cons]
        refine or_congr_right ⟨fun hp => ⟨Or.inr hp, ?_⟩, ?_⟩
        · have := hlater p hp
          omega
        · rintro ⟨rfl | hp, hne⟩
          · exact absurd heq.symm hne
          · exact hp
      · next hgt hne =>
        rw [List.mem_cons, List.mem_cons, ih hrest]
        constructor
        · rintro (rfl | rfl | ⟨hp, hslot⟩)
          · exact Or.inr ⟨Or.inl rfl, fun h => hne h.symm⟩
          · exact Or.inl rfl
          · exact Or.inr ⟨Or.inr hp, hslot⟩
        · rintro (rfl | ⟨rfl | hp, hslot⟩)
          · exact Or.inr (Or.inl rfl)
          · exact Or.inl rfl
          · exact Or.inr (Or.inr ⟨hp, hslot⟩)

theorem pairwise_insert {slot : Nat} {e : Engine} {l : List (Nat × Engine)}
    (hl : (l.map Prod.fst).Pairwise (· < ·)) :
    ((insert slot e l).map Prod.fst).Pairwise (· < ·) := by
  induction l with
  | nil => simp [insert]
  | cons q l ih =>
    obtain ⟨hfirst, hrest⟩ := List.pairwise_cons.mp hl
    rw [insert]
    split
    · next hlt =>
      refine List.pairwise_cons.mpr ⟨fun n hn => ?_, hl⟩
      rcases List.mem_cons.mp hn with rfl | hmem
      · exact hlt
      · exact Nat.lt_trans hlt (hfirst n hmem)
    · split
      · next heq => exact List.pairwise_cons.mpr ⟨heq ▸ hfirst, hrest⟩
      · next hgt hne =>
        refine List.pairwise_cons.mpr ⟨fun n hn => ?_, ih hrest⟩
        obtain ⟨p, hp, rfl⟩ := List.mem_map.mp hn
        rcases (mem_insert hrest).mp hp with rfl | ⟨hmem, -⟩
        · dsimp only
          omega
        · exact hfirst p.1 (List.mem_map_of_mem hmem)

variable {d : Desk} {slot : Nat} {e : Engine}

theorem Tidy.put (h : d.Tidy) : (d.put slot e).Tidy :=
  pairwise_insert h

theorem Tidy.remove (h : d.Tidy) : (d.remove slot).Tidy :=
  h.sublist (List.filter_sublist.map Prod.fst)

theorem mem_put (h : d.Tidy) {p : Nat × Engine} :
    p ∈ (d.put slot e).engines ↔ p = (slot, e) ∨ p ∈ d.engines ∧ p.1 ≠ slot :=
  mem_insert h

theorem mem_remove {p : Nat × Engine} :
    p ∈ (d.remove slot).engines ↔ p ∈ d.engines ∧ p.1 ≠ slot := by
  simp [remove]

theorem mem_of_engine? (h : d.engine? slot = some e) : (slot, e) ∈ d.engines := by
  obtain ⟨l₁, l₂, heq, -⟩ := List.lookup_eq_some_iff.mp h
  rw [heq]
  simp

theorem slot_ne_of_engine? (h : d.engine? slot = none) {p : Nat × Engine} (hp : p ∈ d.engines) :
    p.1 ≠ slot := by
  have hne := List.lookup_eq_none_iff.mp h p hp
  intro heq
  simp [heq] at hne

/-- A slot holds one engine. -/
theorem Tidy.eq_of_slot_eq (h : d.Tidy) {p q : Nat × Engine} (hp : p ∈ d.engines)
    (hq : q ∈ d.engines) (heq : p.1 = q.1) : p = q := by
  have hnodup : (d.engines.map Prod.fst).Nodup := h.imp Nat.ne_of_lt
  exact List.inj_on_of_nodup_map hnodup hp hq heq

end Desk

/-! ### Operations that deal in nothing -/

/-- A dialogue that is about no handle and no array. -/
def Dialogue.Idle (x : Dialogue B α) : Prop :=
  ∀ s, dealings (x s).events = []

namespace Dialogue

theorem idle_pure (a : α) : Idle (Pure.pure a : Dialogue B α) :=
  fun _ => rfl

theorem Idle.bind {x : Dialogue B α} {f : α → Dialogue B β} (hx : Idle x) (hf : ∀ a, Idle (f a)) :
    Idle (x >>= f) := by
  intro s
  rw [run_bind, dealings_append, hx s, hf]
  rfl

theorem idle_unrecorded (x : Dialogue B α) : Idle x.unrecorded :=
  fun _ => rfl

theorem idle_mapM {f : α → Dialogue B β} (hf : ∀ a, Idle (f a)) (l : List α) : Idle (l.mapM f) := by
  induction l with
  | nil => exact idle_pure _
  | cons a l ih =>
    rw [List.mapM_cons]
    exact (hf a).bind fun _ => ih.bind fun _ => idle_pure _

theorem idle_supports (query : Int32) : Idle (ask (.support query) : Dialogue B Bool) :=
  fun _ => rfl

theorem idle_supportedOf (l : List Arch) : Idle (supportedOf l : Dialogue B (List Arch)) := by
  induction l with
  | nil => exact idle_pure _
  | cons a l ih => exact .bind (idle_supports _) fun _ => ih.bind fun _ => idle_pure _

theorem idle_describeBuild : Idle (describeBuild : Dialogue B String) :=
  .bind (idle_supports _) fun _ => .bind (idle_supportedOf _) fun _ =>
    .bind (fun _ => rfl) fun _ => idle_pure _

end Dialogue

namespace Record

open Dialogue

theorem idle_readText (r : Record) (part : Rendering → String) :
    Idle (r.readText part : Attempt B String).run := by
  unfold readText
  split
  · exact idle_pure _
  · exact Attempt.dealings_refuse _

theorem idle_readDetail (r : Record) : Idle (r.readDetail : Attempt B (Detail × Record)).run := by
  unfold readDetail
  split
  · exact Attempt.dealings_refuse _
  · split
    · exact Attempt.dealings_refuse _
    · exact idle_pure _
    · exact fun _ => rfl

theorem idle_summary (r : Record) : Idle (r.summary : Dialogue B Answer) :=
  .bind (r.idle_readText _) fun _ => .bind (r.idle_readText _) fun _ => idle_pure _

theorem idle_inquire (r : Record) (q : Query) :
    Idle (r.inquire q : Dialogue B (Except Error Answer × Record)) := by
  cases q with
  | mnemonic => exact .bind (r.idle_readText _) fun _ => idle_pure _
  | opStr => exact .bind (r.idle_readText _) fun _ => idle_pure _
  | hasDetail => exact idle_pure _
  | display => exact idle_pure _
  | fullLine => exact idle_pure _
  | shown => exact idle_pure _
  | summary => exact .bind r.idle_summary fun _ => idle_pure _
  | detail q =>
    refine .bind r.idle_readDetail fun result => ?_
    cases result with
    | ok p => exact idle_pure _
    | error e => exact idle_pure _

theorem idle_inquireAll (r : Record) (qs : List Query) :
    Idle (r.inquireAll qs : Dialogue B (List (Except Error Answer) × Record)) := by
  induction qs generalizing r with
  | nil => exact idle_pure _
  | cons q qs ih =>
    exact .bind (r.idle_inquire q) fun first => .bind (ih first.2) fun _ => idle_pure _

end Record

/-! ### What an operation can come to -/

namespace Action

/-- The setting that an action asks for. -/
def setting? : Action → Option Setting
  | .setDialect x => some (.dialect x)
  | .setDetail on => some (.detail on)
  | .setMode m => some (.mode m)
  | _ => none

/-- The question that an action puts about a handle. -/
def question? (h : Handle) : Action → Option Call
  | .regName id => some (.regName h id)
  | .insnName id => some (.insnName h id)
  | .errno => some (.errno h)
  | _ => none

/-- The code, address and count of an action that decodes. -/
def decode? : Action → Option (List UInt8 × UInt64 × Nat)
  | .disasm code address count _ => some (code, address, count)
  | .iterate code address count _ => some (code, address, count)
  | .lite code address count => some (code, address, count)
  | .examine code address count => some (code, address, count)
  | _ => none

/-- Whether an action is refused on a diet engine. -/
def needsText : Action → Bool
  | .regName _ => true
  | .insnName _ => true
  | .lite _ _ _ => true
  | _ => false

end Action

/-- The arguments of an operation that opens an engine for one decode. -/
def Op.errand? : Op → Option (Arch × Mode × List UInt8 × UInt64 × Nat)
  | .quick arch mode code address count _ => some (arch, mode, code, address, count)
  | .liteQuick arch mode code address count => some (arch, mode, code, address, count)
  | _ => none

/-- Whether an operation is about an engine, one of the desk or one of its own. -/
def Op.usesEngine : Op → Bool
  | .openEngine _ _ _ => true
  | .act _ _ => true
  | .quick _ _ _ _ _ _ => true
  | .liteQuick _ _ _ _ _ => true
  | _ => false

namespace Desk

/-- All that an operation can come to: its dealings, and the desk it leaves. -/
inductive Course (d : Desk) : Op → List Event → Desk → Prop where
  | unopened {slot : Nat} {arch : Arch} {mode : Mode} {err : Error} {es : List Event}
    (hopen : Engine.Opening arch mode (.error err) es) : Course d (.openEngine slot arch mode) es d
  | opened {slot : Nat} {arch : Arch} {mode : Mode} {e : Engine} {es : List Event}
    (hopen : Engine.Opening arch mode (.ok e) es) (hold : d.engine? slot = none) :
    Course d (.openEngine slot arch mode) es (d.put slot e)
  | replaced {slot : Nat} {arch : Arch} {mode : Mode} {e old : Engine} {es : List Event}
    (hopen : Engine.Opening arch mode (.ok e) es) (hold : d.engine? slot = some old)
    (status : Status) :
    Course d (.openEngine slot arch mode) (es ++ [.call (.close old.handle) status]) (d.put slot e)
  | noEngine {slot : Nat} {a : Action} (he : d.engine? slot = none) : Course d (.act slot a) [] d
  | closed {slot : Nat} {a : Action} {e : Engine} (he : d.engine? slot = some e)
    (ha : a = .close ∨ a = .drop) (status : Status) :
    Course d (.act slot a) [.call (.close e.handle) status] (d.remove slot)
  | accepted {slot : Nat} {a : Action} {e : Engine} {x : Setting} (he : d.engine? slot = some e)
    (ha : a.setting? = some x) (hfits : x.fits e.arch = true) :
    Course d (.act slot a) [.call (.option e.handle x) (0 : Status)] (d.put slot (e.accept x))
  | rejected {slot : Nat} {a : Action} {e : Engine} {x : Setting} (he : d.engine? slot = some e)
    (ha : a.setting? = some x) (hfits : x.fits e.arch = true) {status : Status}
    (hstatus : status ≠ 0) : Course d (.act slot a) [.call (.option e.handle x) status] d
  | unfit {slot : Nat} {a : Action} {e : Engine} {x : Setting} (he : d.engine? slot = some e)
    (ha : a.setting? = some x) (hfits : x.fits e.arch = false) : Course d (.act slot a) [] d
  | asked {slot : Nat} {a : Action} {e : Engine} {c : Call} (he : d.engine? slot = some e)
    (ha : a.question? e.handle = some c) (hdiet : a.needsText = true → e.diet = false)
    (answer : c.Answer) : Course d (.act slot a) [.call c answer] d
  | decoded {slot : Nat} {a : Action} {e : Engine} {code : List UInt8} {address : UInt64}
    {count : Nat} {es : List Event} {d' : Desk} (he : d.engine? slot = some e)
    (ha : a.decode? = some (code, address, count)) (hdiet : a.needsText = true → e.diet = false)
    (hes : Engine.Decoding e.handle code address count es) (hd : d'.engines = d.engines) :
    Course d (.act slot a) es d'
  | diet {slot : Nat} {a : Action} {e : Engine} (he : d.engine? slot = some e)
    (ha : a.needsText = true) (hdiet : e.diet = true) : Course d (.act slot a) [] d
  | shown {slot : Nat} {e : Engine} (he : d.engine? slot = some e) :
    Course d (.act slot .shown) [] d
  | errand {o : Op} {arch : Arch} {mode : Mode} {code : List UInt8} {address : UInt64}
    {count : Nat} {es : List Event} {d' : Desk}
    (ho : o.errand? = some (arch, mode, code, address, count))
    (hes : Errand arch mode (Engine.Decoding · code address count) es)
    (hd : d'.engines = d.engines) : Course d o es d'
  /-- Operations that are about no engine. -/
  | idle {o : Op} {d' : Desk} (ho : o.usesEngine = false) (hd : d'.engines = d.engines) :
    Course d o [] d'

/-- A setter takes one of three courses: accepted, rejected, or unfit for the architecture. -/
theorem commit_course {d : Desk} {slot : Nat} {e : Engine} {a : Action} {x : Setting}
    (he : d.engine? slot = some e) (ha : a.setting? = some x) (s : B.State) :
    let out := (e.configure x : Attempt B Engine).run s
    Course d (.act slot a) (dealings out.events) (d.commit slot out.value).2 := by
  have hspec := e.configure_spec x s
  cases hfits : x.fits e.arch with
  | false =>
    simp only [hfits, Bool.false_eq_true, if_false] at hspec
    obtain ⟨hnone, err, herr⟩ := hspec
    simp only [hnone, herr]
    exact .unfit he ha hfits
  | true =>
    simp only [hfits, if_true] at hspec
    obtain ⟨hdealings, hvalue⟩ := hspec
    simp only [hdealings]
    by_cases hstatus : (B.answer s (.option e.handle x)).1 = 0
    · rw [if_pos hstatus] at hvalue
      rw [hvalue, hstatus]
      exact .accepted he ha hfits
    · rw [if_neg hstatus] at hvalue
      obtain ⟨err, herr⟩ := hvalue
      rw [herr]
      exact .rejected he ha hfits hstatus

theorem present_spec (d : Desk) (result : Except Error (List Insn)) (name : Option String)
    (s : B.State) :
    dealings ((d.present result name : Dialogue B (Reply × Desk)) s).events = [] ∧
      ((d.present result name : Dialogue B (Reply × Desk)) s).value.2.engines = d.engines := by
  cases result with
  | error e => exact ⟨rfl, rfl⟩
  | ok insns =>
    refine ⟨Dialogue.Idle.bind (Dialogue.idle_unrecorded _) (fun _ => Dialogue.idle_pure _) s, ?_⟩
    cases name with
    | none => rfl
    | some n => rfl

theorem idle_examine (i : Insn) :
    Dialogue.Idle (examine i : Dialogue B (Answer × Except Error Detail)) :=
  .bind (Dialogue.idle_unrecorded _) fun _ => .bind (Record.idle_readDetail _) fun _ =>
    Dialogue.idle_pure _

theorem act_course {d : Desk} {slot : Nat} {e : Engine} (he : d.engine? slot = some e) (a : Action)
    (s : B.State) :
    let out := (d.act slot e a : Dialogue B (Reply × Desk)) s
    Course d (.act slot a) (dealings out.events) out.value.2 := by
  have htextless : false = true → e.diet = false := fun h => absurd h Bool.false_ne_true
  cases a with
  | close =>
    have hclose := e.dealings_close s
    simpa [act, hclose] using Course.closed he (Or.inl rfl) _
  | drop =>
    have hdrop := e.dealings_drop s
    simpa [act, hdrop] using Course.closed he (Or.inr rfl) _
  | setDialect x =>
    have hcommit := commit_course (a := .setDialect x) he rfl s
    simpa [act, Engine.configure] using hcommit
  | setDetail on =>
    have hcommit := commit_course (a := .setDetail on) he rfl s
    simpa [act, Engine.configure] using hcommit
  | setMode m =>
    have hcommit := commit_course (a := .setMode m) he rfl s
    simpa [act, Engine.configure] using hcommit
  | regName id =>
    have hname := e.dealings_regName id s
    cases hdiet : e.diet with
    | true => simpa [act, hname, hdiet] using Course.diet (a := .regName id) he rfl hdiet
    | false =>
      simpa [act, hname, hdiet] using Course.asked (a := .regName id) he rfl (fun _ => hdiet) _
  | insnName id =>
    have hname := e.dealings_insnName id s
    cases hdiet : e.diet with
    | true => simpa [act, hname, hdiet] using Course.diet (a := .insnName id) he rfl hdiet
    | false =>
      simpa [act, hname, hdiet] using Course.asked (a := .insnName id) he rfl (fun _ => hdiet) _
  | errno =>
    have herrno := e.dealings_errno s
    simpa [act, herrno] using Course.asked (a := .errno) he rfl htextless _
  | shown => exact .shown he
  | disasm code address count name =>
    have hdisasm := e.disasm_spec code address count s
    obtain ⟨hnone, hengines⟩ := d.present_spec ((e.disasm code address count).run s).value name
      ((e.disasm code address count).run s).state
    simpa [act, hnone] using Course.decoded (a := .disasm code address count name) he rfl
      htextless hdisasm hengines
  | iterate code address count steps =>
    have hdisasm := e.disasm_spec code address count s
    simpa [act] using Course.decoded (a := .iterate code address count steps) he rfl
      htextless hdisasm rfl
  | lite code address count =>
    have hlite := e.disasmLite_spec code address count s
    cases hdiet : e.diet with
    | true =>
      rw [hdiet, if_pos rfl] at hlite
      simpa [act, hlite] using Course.diet (a := .lite code address count) he rfl hdiet
    | false =>
      rw [hdiet] at hlite
      simpa [act] using
        Course.decoded (a := .lite code address count) he rfl (fun _ => hdiet) hlite rfl
  | examine code address count =>
    have hdisasm := e.disasm_spec code address count s
    have hcourse : Course d (.act slot (.examine code address count))
        (dealings ((e.disasm code address count : Attempt B (List Insn)).run s).events) d :=
      .decoded he rfl htextless hdisasm rfl
    cases hresult : ((e.disasm code address count : Attempt B (List Insn)).run s).value with
    | error err => simpa [act, hresult] using hcourse
    | ok l =>
      have hidle := Dialogue.idle_mapM (B := B) idle_examine l
        ((e.disasm code address count).run s).state
      simpa [act, hresult, hidle] using hcourse

/-- **An operation takes one of the courses there are.** -/
theorem step_course (hB : B.FixedDiet) (d : Desk) (o : Op) (s : B.State) :
    let out := (d.step o : Dialogue B (Reply × Desk)) s
    Course d o (dealings out.events) out.value.2 := by
  cases o with
  | openEngine slot arch mode =>
    have hopen := Engine.openWith_spec (B := B) arch mode s
    cases hvalue : ((Engine.openWith arch mode : Attempt B Engine).run s).value with
    | error err =>
      rw [hvalue] at hopen
      simpa [step, hvalue] using Course.unopened (d := d) hopen
    | ok e =>
      rw [hvalue] at hopen
      cases hold : d.engine? slot with
      | none => simpa [step, hvalue, dropSlot, hold] using Course.opened hopen hold
      | some old =>
        simpa [step, hvalue, dropSlot, hold, Engine.dealings_drop] using
          Course.replaced hopen hold _
  | act slot a =>
    cases he : d.engine? slot with
    | none => simpa [step, he] using Course.noEngine (a := a) he
    | some e => simpa [step, he] using act_course he a s
  | quick arch mode code address count name =>
    have hquick := disasmQuick_spec (B := B) arch mode code address count s
    obtain ⟨hnone, hengines⟩ := d.present_spec
      ((disasmQuick arch mode code address count : Attempt B (List Insn)).run s).value name
      ((disasmQuick arch mode code address count : Attempt B (List Insn)).run s).state
    simpa [step, hnone] using
      Course.errand (o := .quick arch mode code address count name) rfl hquick hengines
  | liteQuick arch mode code address count =>
    have hquick := disasmLiteQuick_spec hB arch mode code address count s
    simpa [step] using Course.errand (o := .liteQuick arch mode code address count) rfl hquick rfl
  | inquire name index queries =>
    cases hrecord : d.record? name index with
    | none =>
      simpa [step, hrecord] using Course.idle (o := .inquire name index queries) (d := d) rfl rfl
    | some r =>
      have hidle := r.idle_inquireAll queries s
      have hcourse : Course d (.inquire name index queries) []
          (d.setRecord name index (r.inquireAll queries s).value.2) := .idle rfl rfl
      simpa [step, hrecord, hidle] using hcourse
  | version => exact .idle rfl rfl
  | supports query => exact .idle rfl rfl
  | message status => simpa [step] using Course.idle (o := .message status) (d := d) rfl rfl
  | describeBuild =>
    simpa [step, Dialogue.idle_describeBuild s] using
      Course.idle (o := .describeBuild) (d := d) rfl rfl
  | checkVersion => simpa [step] using Course.idle (o := .checkVersion) (d := d) rfl rfl
  | status status => simpa [step] using Course.idle (o := .status status) (d := d) rfl rfl

/-! ### Whole runs -/

/-- The events of a run and of clearing the desk after it. -/
def transcript (d : Desk) (s : B.State) : List (Move B) → List Event
  | [] => ((d.clear : Dialogue B Unit) s).events
  | m :: ms => (d.move s m).events ++ (d.move s m).desk.transcript (d.move s m).state ms

theorem transcript_eq (d : Desk) (s : B.State) (ms : List (Move B)) :
    d.transcript s ms = (d.run s ms).flatMap Report.events ++
      match (d.run s ms).getLast? with
      | some r => ((r.desk.clear : Dialogue B Unit) r.state).events
      | none => ((d.clear : Dialogue B Unit) s).events := by
  induction ms generalizing d s with
  | nil => rfl
  | cons m ms ih =>
    rw [transcript, ih, run, List.flatMap_cons, List.getLast?_cons, List.append_assoc]
    cases ((d.move s m).desk.run (d.move s m).state ms).getLast? with
    | none => rfl
    | some r => rfl

/-- A report of a run is that of a move made at some desk. -/
theorem exists_move_of_mem_run {d : Desk} {s : B.State} {ms : List (Move B)} {r : Report B}
    (hr : r ∈ d.run s ms) : ∃ (d' : Desk) (s' : B.State) (m : Move B), r = d'.move s' m := by
  induction ms generalizing d s with
  | nil => cases hr
  | cons m ms ih =>
    rcases List.mem_cons.mp hr with rfl | hmem
    · exact ⟨d, s, m, rfl⟩
    · exact ih hmem

/-- What a scripted engine numbers stays in order over a run, as long as changing its answers
leaves the count alone. -/
theorem numbers_transcript {number? : Event → Option Nat} {given : Script → Nat}
    (hreplay : ∀ {s s' : Script} {es : List Event}, Script.backend.Replays s es s' →
      Script.Numbers number? given s es s')
    (hchange : ∀ (s : Script) (l : List Script.Change), given (l.foldl Script.change s) = given s)
    (d : Desk) (s : Script) (ms : List (Move Script.backend)) :
    ∃ s' : Script, Script.Numbers number? given s (d.transcript s ms) s' := by
  induction ms generalizing d s with
  | nil =>
    have hfaithful : Dialogue.Faithful (d.clear : Dialogue Script.backend Unit) :=
      faithful_dropAll d.engines
    exact ⟨_, hreplay (hfaithful s)⟩
  | cons m ms ih =>
    obtain ⟨s', hrest⟩ := ih (d.move s m).desk (d.move s m).state
    refine ⟨s', Script.Numbers.append ?_ hrest⟩
    cases m with
    | op o => exact hreplay (d.faithful_step Script.mute_backend o s)
    | change l =>
      have hsame : given (d.move s (.change l)).state = given s := hchange s l
      exact ⟨Nat.le_of_eq hsame.symm, by rw [hsame, Nat.sub_self]; rfl⟩

end Desk

/-- The events of a session, in order. -/
def Session.events (x : Session B) : List Event :=
  x.reports.flatMap Report.events ++ x.cleared.events

theorem Session.reports_play (s : B.State) (ms : List (Move B)) :
    (Session.play s ms).reports = Desk.run {} s ms := by
  rw [Session.play]
  cases hlast : (Desk.run {} s ms).getLast? with
  | some r => rfl
  | none => exact (List.getLast?_eq_none_iff.mp hlast).symm

theorem Session.events_play (s : B.State) (ms : List (Move B)) :
    (Session.play s ms).events = Desk.transcript {} s ms := by
  rw [Desk.transcript_eq, Session.play, Session.events]
  cases hlast : (Desk.run {} s ms).getLast? with
  | some r => rfl
  | none => rw [List.getLast?_eq_none_iff.mp hlast]

theorem Session.cleared_play (s : B.State) (ms : List (Move B)) :
    ∃ (d : Desk) (s₁ : B.State), (Session.play s ms).cleared = (d.clear : Dialogue B Unit) s₁ := by
  rw [Session.play]
  cases hlast : (Desk.run {} s ms).getLast? with
  | some r => exact ⟨r.desk, r.state, rfl⟩
  | none => exact ⟨{}, s, rfl⟩

end Disassembly

import Disassembly.Proofs.Session.Configuration
import Disassembly.Proofs.Session.Emissions

/-!
# Records as snapshots

A record that is kept is what it was when it was decoded, whatever is done afterwards.

* `Desk.record?_step` — an operation that neither asks a record nor replaces it leaves it alone;
* `Desk.inquire_step` — asking it changes only what it remembers;
* `Desk.life_of_record` — over any moves it gives the answers of its instruction, and logs once;
* `Desk.records_of_keeping` — the records that an operation keeps are the entries of its decode,
  with the architecture and the flags that held at the time.
-/

namespace Disassembly

variable {B : Backend}

/-- The name under which an operation keeps the records that it decodes. -/
def Op.keeps? : Op → Option String
  | .act _ (.disasm _ _ _ name) => name
  | .quick _ _ _ _ _ name => name
  | _ => none

namespace Desk

/-! ### Kept records -/

theorem record?_congr {d d' : Desk} (h : d'.kept = d.kept) (name : String) (i : Nat) :
    d'.record? name i = d.record? name i := by
  rw [record?, h, record?]

theorem record?_keep (d : Desk) (n : String) (records : List Record) (name : String) (i : Nat) :
    (d.keep (some n) records).record? name i =
      if name = n then records[i]? else d.record? name i := by
  show (((n, records) :: d.kept.filter fun p => p.1 ≠ n).lookup name).bind (·[i]?) = _
  rw [lookup_cons_eq, lookup_filter_ne]
  by_cases h : name = n
  · rw [if_pos h, if_pos h]
    rfl
  · rw [if_neg h, if_neg h, if_neg h]
    rfl

theorem lookup_setRecord (d : Desk) (n : String) (j : Nat) (r : Record) (name : String) :
    (d.setRecord n j r).kept.lookup name =
      (d.kept.lookup name).map fun l => if name = n then l.set j r else l := by
  show (d.kept.map fun p => if p.1 = n then (p.1, p.2.set j r) else p).lookup name = _
  induction d.kept with
  | nil => rfl
  | cons p l ih =>
    rw [List.map_cons, lookup_cons_eq, lookup_cons_eq, ih]
    by_cases hp : p.1 = n
    · rw [if_pos hp]
      by_cases h : name = p.1
      · rw [if_pos h, if_pos h, Option.map_some, if_pos (h.trans hp)]
      · rw [if_neg h, if_neg h]
    · rw [if_neg hp]
      by_cases h : name = p.1
      · have hne : name ≠ n := fun hn => hp (h.symm.trans hn)
        rw [if_pos h, if_pos h, Option.map_some, if_neg hne]
      · rw [if_neg h, if_neg h]

/-- Replacing a record leaves the others alone. -/
theorem record?_setRecord_of_ne (d : Desk) {n name : String} {i j : Nat} (r : Record)
    (h : ¬ (n = name ∧ j = i)) : (d.setRecord n j r).record? name i = d.record? name i := by
  rw [record?, lookup_setRecord, record?]
  cases d.kept.lookup name with
  | none => rfl
  | some l =>
    show (if name = n then l.set j r else l)[i]? = l[i]?
    by_cases hname : name = n
    · have hindex : j ≠ i := fun hj => h ⟨hname.symm, hj⟩
      rw [if_pos hname, List.getElem?_set_ne hindex]
    · rw [if_neg hname]

theorem record?_setRecord_self {d : Desk} {name : String} {i : Nat} {r₀ : Record}
    (h : d.record? name i = some r₀) (r : Record) :
    (d.setRecord name i r).record? name i = some r := by
  rw [record?] at h
  rw [record?, lookup_setRecord]
  cases hl : d.kept.lookup name with
  | none =>
    rw [hl] at h
    cases h
  | some l =>
    rw [hl] at h
    have hlt : i < l.length := (List.getElem?_eq_some_iff.mp h).1
    show (if name = name then l.set i r else l)[i]? = some r
    rw [if_pos rfl, List.getElem?_set_self hlt]

/-! ### What an operation does to a record -/

theorem kept_commit (d : Desk) (slot : Nat) (result : Except Error Engine) :
    (d.commit slot result).2.kept = d.kept := by
  cases result <;> rfl

theorem record?_present (d : Desk) (result : Except Error (List Insn)) {keep : Option String}
    {s : B.State} {name : String} (i : Nat) :
    let out := (d.present result keep : Dialogue B (Reply × Desk)) s
    (keep = some name → ∀ l, out.value.1 ≠ .records l) →
      out.value.2.record? name i = d.record? name i := by
  intro out hkeep
  cases result with
  | error e => rfl
  | ok insns =>
    cases keep with
    | none => rfl
    | some n =>
      have hne : name ≠ n := fun h => hkeep (congrArg some h.symm) _ rfl
      exact (d.record?_keep n _ name i).trans (if_neg hne)

/-- An operation that neither asks a record nor replaces it leaves it alone. -/
theorem record?_step {d : Desk} {o : Op} {s : B.State} {name : String} {i : Nat}
    (hkeep : o.keeps? = some name →
      ∀ l, ((d.step o : Dialogue B (Reply × Desk)) s).value.1 ≠ .records l)
    (hask : ∀ qs, o ≠ .inquire name i qs) :
    ((d.step o : Dialogue B (Reply × Desk)) s).value.2.record? name i = d.record? name i := by
  cases o with
  | openEngine slot arch mode =>
    refine record?_congr ?_ name i
    rw [step, Dialogue.run_bind]
    cases ((Engine.openWith arch mode : Attempt B Engine).run s).value <;> rfl
  | act slot a =>
    cases he : d.engine? slot with
    | none =>
      rw [step, he]
      rfl
    | some e =>
      have hstep : (d.step (.act slot a) : Dialogue B (Reply × Desk)) = d.act slot e a := by
        rw [step, he]
      rw [hstep] at hkeep ⊢
      cases a with
      | setDialect x => exact record?_congr (d.kept_commit slot _) name i
      | setDetail on => exact record?_congr (d.kept_commit slot _) name i
      | setMode m => exact record?_congr (d.kept_commit slot _) name i
      | disasm code address count keep => exact d.record?_present _ i hkeep
      | examine code address count =>
        refine record?_congr ?_ name i
        cases hresult : ((e.disasm code address count : Attempt B (List Insn)).run s).value with
        | error err => simp [act, hresult]
        | ok l => simp [act, hresult]
      | _ => rfl
  | quick arch mode code address count keep => exact d.record?_present _ i hkeep
  | inquire n j qs =>
    cases hrecord : d.record? n j with
    | none =>
      simp only [step, hrecord]
      rfl
    | some r =>
      simp only [step, hrecord]
      refine d.record?_setRecord_of_ne _ ?_
      rintro ⟨rfl, rfl⟩
      exact hask qs rfl
  | _ => rfl

/-- A record that is looked at right after its decode. -/
theorem examine_spec (hB : B.Mute) (i : Insn) (s : B.State) :
    let out := (examine i : Dialogue B (Answer × Except Error Detail)) s
    out.value.2 = (match i.detail with
      | .ok x => .ok x
      | .error c => Insn.refused (B.phrase s) c) ∧
    logsOf out.events =
      if i.diet = false ∧ i.hasDetail = true then [i.decodingLine] else [] := by
  intro out
  obtain ⟨es, hrun, -, hlogs⟩ := Record.readDetail_spec hB (Record.sound_fresh i) s
  have hstate : ((Record.mk i none).summary s : Outcome B.State Answer).state = s :=
    Record.steady_summary hB _ s
  have hvalue : out.value.2 = ((((Record.mk i none).readDetail : Attempt B _).run
      ((Record.mk i none).summary s : Outcome B.State Answer).state).value.map Prod.fst) := rfl
  have hevents : out.events = (((Record.mk i none).readDetail : Attempt B _).run
      ((Record.mk i none).summary s : Outcome B.State Answer).state).events ++ [] := rfl
  rw [hvalue, hevents, List.append_nil, hstate, hrun]
  refine ⟨?_, ?_⟩
  · cases i.detail with
    | ok x => rfl
    | error c => rfl
  · have hline := hlogs.trans (Record.trace_fresh i true)
    simpa using hline

/-- Asking a record gives the answers of its instruction and changes what it remembers. -/
theorem inquire_step (hB : B.Mute) {d : Desk} {name : String} {i : Nat} {r : Record}
    (hr : d.record? name i = some r) (hsound : r.Sound) (qs : List Query) (s : B.State) :
    let out := (d.step (.inquire name i qs) : Dialogue B (Reply × Desk)) s
    out.value.1 = .answers (qs.map (r.insn.answer (B.phrase out.state))) ∧
      out.value.2.record? name i = some (r.remember (qs.any Query.readsDetail)) ∧
      callsOf out.events = (qs.flatMap r.insn.refusals).map (fun c => .strerror c.raw) ∧
      logsOf out.events = r.trace (qs.any Query.readsDetail) := by
  obtain ⟨hanswers, hrecord, hstate, hcalls, hlogs⟩ := Record.inquireAll_spec hB hsound qs s
  simp only [step, hr, Dialogue.run_bind, Dialogue.run_pure, List.append_nil, hanswers, hrecord,
    hstate]
  exact ⟨trivial, record?_setRecord_self hr _, hcalls, hlogs⟩

end Desk

/-! ### The life of a record -/

/-- An entry of a journal that puts new records in the place of those kept under a name. -/
def Replaces (name : String) : Move B × Report B → Prop
  | (.op o, r) => o.keeps? = some name ∧ ∃ l, r.reply = .records l
  | (.change _, _) => False

/-- The entries of a journal in which one record is asked, by their queries and reports. -/
def inquiriesOf (name : String) (i : Nat) (j : List (Move B × Report B)) :
    List (List Query × Report B) :=
  j.filterMap fun
    | (.op (.inquire n k qs), r) => if n = name ∧ k = i then some (qs, r) else none
    | _ => none

theorem inquiriesOf_cons_of_ne {name : String} {i : Nat} {m : Move B}
    (hm : ∀ qs, m ≠ .op (.inquire name i qs)) (r : Report B) (j : List (Move B × Report B)) :
    inquiriesOf name i ((m, r) :: j) = inquiriesOf name i j := by
  apply List.filterMap_cons_none
  cases m with
  | change l => rfl
  | op o =>
    cases o with
    | inquire n k qs =>
      refine if_neg ?_
      rintro ⟨rfl, rfl⟩
      exact hm qs rfl
    | _ => rfl

theorem inquiriesOf_cons_self (name : String) (i : Nat) (qs : List Query) (r : Report B)
    (j : List (Move B × Report B)) :
    inquiriesOf name i ((.op (.inquire name i qs), r) :: j) = (qs, r) :: inquiriesOf name i j :=
  List.filterMap_cons_some (if_pos ⟨rfl, rfl⟩)

namespace Desk

/-- Moves that keep nothing under a name replace nothing there. -/
theorem not_replaces_journal {name : String} {ms : List (Move B)}
    (hms : ∀ o, .op o ∈ ms → o.keeps? ≠ some name) (d : Desk) (s : B.State) :
    ∀ x ∈ d.journal s ms, ¬ Replaces name x := by
  induction ms generalizing d s with
  | nil => exact fun x hx => (nomatch hx)
  | cons m ms ih =>
    rw [journal_cons]
    refine List.forall_mem_cons.mpr ⟨?_, ih (fun o ho => hms o (List.mem_cons_of_mem _ ho)) _ _⟩
    cases m with
    | change l => exact id
    | op o => exact fun h => hms o List.mem_cons_self h.1

/-- **Over any moves a record gives the answers of its instruction**, and its detail is decoded once
if it is asked for. -/
theorem life_of_record (hB : B.Mute) {name : String} {i : Nat} (ms : List (Move B)) {d : Desk}
    {s : B.State} {r : Record} (hr : d.record? name i = some r) (hsound : r.Sound)
    (hkept : ∀ x ∈ d.journal s ms, ¬ Replaces name x) :
    let inquiries := inquiriesOf name i (d.journal s ms)
    (∀ p ∈ inquiries, p.2.reply = .answers (p.1.map (r.insn.answer (B.phrase p.2.state))) ∧
      callsOf p.2.events = (p.1.flatMap r.insn.refusals).map fun c => .strerror c.raw) ∧
    inquiries.flatMap (fun p => logsOf p.2.events) =
      r.trace (inquiries.any fun p => p.1.any Query.readsDetail) := by
  induction ms generalizing d s r with
  | nil => exact ⟨fun p hp => (nomatch hp), rfl⟩
  | cons m ms ih =>
    rw [journal_cons] at hkept ⊢
    obtain ⟨hfirst, hrest⟩ := List.forall_mem_cons.mp hkept
    by_cases hm : ∃ qs, m = .op (.inquire name i qs)
    · obtain ⟨qs, rfl⟩ := hm
      obtain ⟨hanswers, hrecord, hcalls, hlogs⟩ := inquire_step hB hr hsound qs s
      obtain ⟨hlater, hlogs'⟩ := ih hrecord (hsound.remember _) hrest
      rw [Record.insn_remember] at hlater
      rw [inquiriesOf_cons_self]
      refine ⟨List.forall_mem_cons.mpr ⟨⟨hanswers, hcalls⟩, hlater⟩, ?_⟩
      rw [List.flatMap_cons, List.any_cons, ← Record.trace_append]
      exact congrArg₂ (· ++ ·) hlogs hlogs'
    · have hask : ∀ qs, m ≠ .op (.inquire name i qs) := fun qs h => hm ⟨qs, h⟩
      rw [inquiriesOf_cons_of_ne hask]
      refine ih ?_ hsound hrest
      cases m with
      | change l => exact hr
      | op o =>
        refine (record?_step (fun ho l hl => hfirst ⟨ho, l, hl⟩) ?_).trans hr
        intro qs heq
        exact hask qs (congrArg Move.op heq)

/-! ### The records of a decode -/

/-- The architecture and the flags for diet and detail under which an operation decodes: those of
the engine of its slot, or those of a fresh engine, which is asked whether it is diet. -/
inductive Captures (d : Desk) : Op → List Event → Arch → Bool → Bool → Prop where
  | act {slot : Nat} {code : List UInt8} {address : UInt64} {count : Nat} {keep : Option String}
    {e : Engine} {es : List Event} (he : d.engine? slot = some e) :
    Captures d (.act slot (.disasm code address count keep)) es e.arch e.diet e.detail
  | quick {arch : Arch} {mode : Mode} {code : List UInt8} {address : UInt64} {count : Nat}
    {keep : Option String} {v : Version} {h : Handle} {diet : Bool} {es : List Event} :
    Captures d (.quick arch mode code address count keep)
      (.call .version v :: .call (.openEngine arch mode) (0, h) :: .call (.support 0x10000) diet ::
        es) arch diet false

/-- What is kept of a decode: its entries, each read on its own. -/
theorem records_of_yields {d : Desk} {name : String} {s : B.State} {read : NativeInsn → Insn}
    {x : Attempt B (List Insn)} (hx : Yields read (x.run s)) {l : List Answer}
    {out : Outcome B.State (Reply × Desk)}
    (hout : out = (x.run >>= fun result => d.present result (some name) : Dialogue B _) s)
    (hreply : out.value.1 = .records l) :
    ∃ dec, out.events.filterMap Event.decoded? = [dec] ∧
      ∀ i, out.value.2.record? name i = dec.entries[i]?.map fun n => ⟨read n, none⟩ := by
  obtain ⟨dec, hone, hentries⟩ := hx
  rw [Dialogue.run_bind] at hout
  cases hvalue : (x.run s).value with
  | error err =>
    rw [hvalue] at hout
    rw [hout] at hreply
    cases hreply
  | ok insns =>
    rw [hvalue] at hout
    have hevents : out.events = (x.run s).events ++ [] := congrArg Outcome.events hout
    have hdesk : out.value.2 = d.keep (some name) (insns.map fun i => ⟨i, none⟩) :=
      congrArg (fun out => out.value.2) hout
    refine ⟨dec, ?_, ?_⟩
    · rw [hevents, List.append_nil, hone]
    · intro i
      rw [hdesk, record?_keep, if_pos rfl, hentries insns hvalue, List.map_map, List.getElem?_map]
      rfl

/-- **The records that an operation keeps** are the entries of the one decode that it makes, read
under what held at the time. -/
theorem records_of_keeping {d : Desk} {s : B.State} {o : Op} {name : String} {l : List Answer}
    (ho : o.keeps? = some name)
    (hreply : ((d.step o : Dialogue B (Reply × Desk)) s).value.1 = .records l) :
    let out := (d.step o : Dialogue B (Reply × Desk)) s
    ∃ dec arch diet detail, d.Captures o out.events arch diet detail ∧
      out.events.filterMap Event.decoded? = [dec] ∧
      ∀ i, out.value.2.record? name i =
        dec.entries[i]?.map fun n => ⟨Insn.ofNative arch diet detail n, none⟩ := by
  cases o with
  | act slot a =>
    cases a with
    | disasm code address count keep =>
      have hkeep : keep = some name := ho
      subst hkeep
      cases he : d.engine? slot with
      | none =>
        simp only [step, he] at hreply
        cases hreply
      | some e =>
        have hout : (d.step (.act slot (.disasm code address count (some name))) :
            Dialogue B (Reply × Desk)) s = ((e.disasm code address count : Attempt B _).run >>=
              fun result => d.present result (some name) : Dialogue B _) s := by
          rw [step, he]
          rfl
        obtain ⟨dec, hone, hrecords⟩ :=
          records_of_yields (e.yields_disasm code address count s) hout hreply
        exact ⟨dec, e.arch, e.diet, e.detail, .act he, hone, hrecords⟩
    | _ => cases ho
  | quick arch mode code address count keep =>
    have hkeep : keep = some name := ho
    subst hkeep
    have hadmission := Engine.openWith_admission (B := B) arch mode s
    rcases hopen : (Engine.openWith arch mode : Attempt B Engine).run s with ⟨value, s₁, es⟩
    rw [hopen] at hadmission
    cases value with
    | error err =>
      have hfailed : ((d.step (.quick arch mode code address count (some name)) :
          Dialogue B (Reply × Desk)) s).value.1 = .failed err := by
        rw [step, Dialogue.run_bind, disasmQuick, withEngine, Attempt.run_bind, hopen]
        rfl
      cases hfailed.symm.trans hreply
    | ok e =>
      have hyields : Yields (Insn.ofNative e.arch e.diet e.detail)
          ((disasmQuick arch mode code address count : Attempt B (List Insn)).run s) :=
        yields_withEngine hopen (e.yields_disasm code address count s₁)
      obtain ⟨dec, hone, hrecords⟩ := records_of_yields hyields rfl hreply
      cases hadmission with
      | @opened h diet es hv hmode hes =>
        refine ⟨dec, arch, diet, false, ?_, hone, hrecords⟩
        rw [step, Dialogue.run_bind, disasmQuick, run_withEngine hopen]
        exact .quick
  | _ => cases ho

end Desk

/-- **Records are snapshots, and when they are decoded does not show.**  The records that an
operation keeps are the entries of its decode under the architecture and the flags of that time.
Whatever is done later, as long as they are not replaced: queries get the answers of the instruction,
in the words that the engine has by then, and ask the engine for nothing but these words; and
all queries on one record together log its decoding once, if one of them reads the detail of a record
that has text and a block, and not at all otherwise.  A record that is examined on the spot gives the
same detail, and nothing else that is done decodes any. -/
theorem Session.records_are_snapshots :
    (∀ (d : Desk) (s : Script) (o : Op) (name : String) (l : List Answer)
      (ms : List (Move Script.backend)),
      let made := d.move s (.op o)
      let later := made.desk.journal made.state ms
      o.keeps? = some name → made.reply = .records l → (∀ x ∈ later, ¬ Replaces name x) →
      ∃ dec arch diet detail, d.Captures o made.events arch diet detail ∧
        made.events.filterMap Event.decoded? = [dec] ∧
        ∀ i entry, dec.entries[i]? = some entry →
          let insn := Insn.ofNative arch diet detail entry
          let inquiries := inquiriesOf name i later
          (∀ p ∈ inquiries,
            p.2.reply = .answers (p.1.map (insn.answer (Script.backend.phrase p.2.state))) ∧
            callsOf p.2.events = (p.1.flatMap insn.refusals).map fun c => .strerror c.raw) ∧
          inquiries.flatMap (fun p => logsOf p.2.events) =
            if (inquiries.any fun p => p.1.any Query.readsDetail) = true ∧ insn.diet = false ∧
              insn.hasDetail = true then [insn.decodingLine] else []) ∧
    (∀ (i : Insn) (s : Script),
      let out := (Desk.examine i : Dialogue Script.backend (Answer × Except Error Detail)) s
      out.value.2 = (match i.detail with
        | .ok x => .ok x
        | .error c => Insn.refused (Script.backend.phrase s) c) ∧
      logsOf out.events =
        if i.diet = false ∧ i.hasDetail = true then [i.decodingLine] else []) ∧
    (∀ (d : Desk) (s : Script) (o : Op), o.examines = false →
      Undecoded ((d.step o : Dialogue Script.backend (Reply × Desk)) s).events) := by
  refine ⟨?_, ?_, ?_⟩
  · intro d s o name l ms made later ho hreply hkept
    obtain ⟨dec, arch, diet, detail, hcaptures, hone, hrecords⟩ :=
      Desk.records_of_keeping (B := Script.backend) ho hreply
    refine ⟨dec, arch, diet, detail, hcaptures, hone, ?_⟩
    intro i entry hentry insn inquiries
    have hrecord : made.desk.record? name i = some ⟨insn, none⟩ := by
      refine (hrecords i).trans ?_
      rw [hentry]
      rfl
    obtain ⟨hanswers, hlogs⟩ := Desk.life_of_record Script.mute_backend ms hrecord
      (Record.sound_fresh insn) hkept
    exact ⟨hanswers, hlogs.trans (Record.trace_fresh insn _)⟩
  · intro i s
    exact Desk.examine_spec Script.mute_backend i s
  · intro d s o ho
    exact d.silent_step (B := Script.backend) ho s

/-- A session that is closed before its two records are asked: the one with a block twice, in other
words the second time, and the one without. -/
theorem Session.records_are_snapshots_closed :
    let nop : NativeInsn :=
      ⟨1, 16, 1, .replicate 16 0x90, [110, 111, 112], [], some (.ofBytes [])⟩
    let bare : NativeInsn := { nop with detail := none }
    let d : Desk := { engines := [(0, ⟨⟨1⟩, .x86, false, .width32, some .intel, true⟩)] }
    let s : Script := { decodes := [.insns [nop, bare] false] }
    let decode : Op := .act 0 (.disasm [0x90, 0x90] 16 2 (some "nops"))
    let queries : List Query := [.mnemonic, .detail .whole]
    let made := d.move (B := Script.backend) s (.op decode)
    let moves : List (Move Script.backend) := [.op (.act 0 .close),
      .op (.inquire "nops" 0 queries), .change [.messages [(7, some [110, 111])]],
      .op (.inquire "nops" 0 queries), .op (.inquire "nops" 1 queries)]
    let later := made.desk.journal made.state moves
    let insn := Insn.ofNative .x86 false true nop
    let poor := Insn.ofNative .x86 false true bare
    decode.keeps? = some "nops" ∧ (∃ l, made.reply = .records l) ∧
      (∀ x ∈ later, ¬ Replaces "nops" x) ∧
      (∃ first second, inquiriesOf "nops" 0 later = [(queries, first), (queries, second)] ∧
        first.reply = .answers (queries.map (insn.answer (Script.backend.phrase first.state))) ∧
        second.reply = .answers (queries.map (insn.answer (Script.backend.phrase second.state))) ∧
        callsOf first.events = [] ∧ callsOf second.events = [] ∧
        logsOf first.events ++ logsOf second.events = [insn.decodingLine]) ∧
      ∃ asked, inquiriesOf "nops" 1 later = [(queries, asked)] ∧
        asked.reply = .answers (queries.map (poor.answer (Script.backend.phrase asked.state))) ∧
        callsOf asked.events = [.strerror 7] ∧ logsOf asked.events = [] := by
  intro nop bare d s decode queries made moves later insn poor
  have hkeeps : decode.keeps? = some "nops" := rfl
  obtain ⟨l, hl⟩ : ∃ l, made.reply = .records l := ⟨_, rfl⟩
  have hkept : ∀ x ∈ later, ¬ Replaces "nops" x := by
    refine Desk.not_replaces_journal ?_ made.desk made.state
    intro o ho
    simp only [moves, List.mem_cons, Move.op.injEq, reduceCtorEq, List.not_mem_nil, or_false,
      false_or] at ho
    rcases ho with rfl | rfl | rfl | rfl <;> exact nofun
  obtain ⟨dec, arch, diet, detail, hcaptures, hone, hanswers⟩ :=
    Session.records_are_snapshots.1 d s decode "nops" l _ hkeeps hl hkept
  have hentries : dec.entries = [nop, bare] := by
    have hdecodes : made.events.filterMap Event.decoded? = [⟨2, some ⟨1, [nop, bare]⟩⟩] := rfl
    rw [← (List.cons.inj (hdecodes.symm.trans hone)).1]
    rfl
  have hengine : arch = .x86 ∧ diet = false ∧ detail = true := by
    have hact : d.Captures (.act 0 (.disasm [0x90, 0x90] 16 2 (some "nops"))) made.events arch diet
        detail := hcaptures
    cases hact with
    | act he =>
      obtain rfl := Option.some.inj he
      exact ⟨rfl, rfl, rfl⟩
  obtain ⟨rfl, rfl, rfl⟩ := hengine
  obtain ⟨first, second, hasked⟩ : ∃ first second,
      inquiriesOf "nops" 0 later = [(queries, first), (queries, second)] := ⟨_, _, rfl⟩
  obtain ⟨asked, hasked'⟩ : ∃ asked, inquiriesOf "nops" 1 later = [(queries, asked)] := ⟨_, rfl⟩
  have hdetailed : insn.diet = false ∧ insn.hasDetail = true := ⟨rfl, rfl⟩
  have hpoor : poor.hasDetail ≠ true := nofun
  refine ⟨hkeeps, ⟨l, hl⟩, hkept, ⟨first, second, hasked, ?_⟩, asked, hasked', ?_⟩
  · obtain ⟨hanswers, hlogs⟩ := hanswers 0 nop (by rw [hentries]; rfl)
    rw [hasked] at hanswers hlogs
    obtain ⟨⟨hfirst, hcalls⟩, hrest⟩ := List.forall_mem_cons.mp hanswers
    obtain ⟨hsecond, hcalls'⟩ := hrest _ (List.mem_singleton_self _)
    refine ⟨hfirst, hsecond, hcalls, hcalls', ?_⟩
    have hline := hlogs.trans (if_pos ⟨rfl, hdetailed⟩)
    simpa using hline
  · obtain ⟨hanswers, hlogs⟩ := hanswers 1 bare (by rw [hentries]; rfl)
    rw [hasked'] at hanswers hlogs
    obtain ⟨hreply, hcalls⟩ := hanswers _ (List.mem_singleton_self _)
    refine ⟨hreply, hcalls, ?_⟩
    have hline := hlogs.trans (if_neg fun h => hpoor h.2.2)
    simpa using hline

end Disassembly

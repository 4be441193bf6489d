import Disassembly.Proofs.CommandLine.Stages

/-!
# What the program prints

* `detailLines` — the lines of a detail: the implicit registers by their names or numbers, the
  groups, each operand under its index, the fields of the architecture;
* `printout` — the lines of instructions with their detail, up to the first that has none;
* `sheet` — the lines for decoded instructions, with detail or without;
* `Printed` — what printing with the help of register names comes to, closed under `Printed.bind`;
* `presenting_spec` — what is printed is the sheet, and what the instructions leave of the code is
  logged if the sheet is complete.
-/

namespace Disassembly

variable {B : Backend} {α β : Type}

namespace CommandLine

/-! ### Printing -/

/-- What printing comes to: the lines, with nothing logged for information and nothing done to an
engine but asking for names of registers, if there is a handle to ask. -/
structure Printed (h : Option Handle) (s : B.State) (out : Outcome B.State (Except Failure α))
    (lines : List String) (value : Except Failure α) : Prop where
  value : out.value = value
  state : out.state = s
  lines : linesOf out.events = lines
  infos : infosOf out.events = []
  asked : ∀ e ∈ dealings out.events, ∃ k id name, h = some k ∧ e = .call (.regName k id) name

namespace Printed

variable {h : Option Handle} {s : B.State} {x : Stage B α} {f : α → Stage B β} {lines lines' : List String}

/-- The outcome as a whole. -/
theorem eq_mk {out : Outcome B.State (Except Failure α)} {r : Except Failure α}
    (hout : Printed h s out lines r) : ∃ es, out = ⟨r, s, es⟩ ∧ linesOf es = lines ∧
      infosOf es = [] ∧
      ∀ e ∈ dealings es, ∃ k id name, h = some k ∧ e = .call (.regName k id) name := by
  obtain ⟨rfl, rfl, hlines, hinfos, hasked⟩ := hout
  exact ⟨_, rfl, hlines, hinfos, hasked⟩

theorem bind {a : α} {r : Except Failure β} (hx : Printed h s (x.run s) lines (.ok a))
    (hf : Printed h s ((f a).run s) lines' r) : Printed h s ((x >>= f).run s) (lines ++ lines') r := by
  obtain ⟨es, hrun, rfl, hinfos, hasked⟩ := hx.eq_mk
  rw [Stage.run_after hrun]
  obtain ⟨hvalue, hstate, rfl, hinfos', hasked'⟩ := hf
  refine ⟨hvalue, hstate, linesOf_behind _ _, ?_, ?_⟩
  · rw [infosOf_behind, hinfos, hinfos']
    rfl
  · rw [dealings_behind]
    exact List.forall_mem_append.mpr ⟨hasked, hasked'⟩

theorem stop {failure : Failure} (hx : Printed h s (x.run s) lines (.error failure)) :
    Printed h s ((x >>= f).run s) lines (.error failure) := by
  obtain ⟨es, hrun, hlines, hinfos, hasked⟩ := hx.eq_mk
  rw [Stage.run_failed hrun]
  exact ⟨rfl, rfl, hlines, hinfos, hasked⟩

theorem congr {out : Outcome B.State (Except Failure α)} {r : Except Failure α}
    (hout : Printed h s out lines r) (heq : lines = lines') : Printed h s out lines' r :=
  heq ▸ hout

theorem pure (a : α) : Printed h s ((Pure.pure a : Stage B α).run s) [] (.ok a) :=
  ⟨rfl, rfl, rfl, rfl, fun _ he => nomatch he⟩

theorem print (text : String) :
    Printed h s ((Stage.print text : Stage B Unit).run s) [text] (.ok ()) :=
  ⟨rfl, rfl, rfl, rfl, fun _ he => nomatch he⟩

end Printed

section

variable (style : Style) (name : UInt32 → Option String)

/-- Registers by their names, or by their numbers, below a heading, unless there are none. -/
def registerLines (heading : String) (ids : List UInt32) : List String :=
  if ids.isEmpty then []
  else [margin ++ heading ++ " " ++
    String.intercalate ", " (ids.map fun id => (name id).getD ("r" ++ toString id.toNat))]

/-- The value of an operand. -/
def operandText : OperandValue → String
  | .reg r => (name r).getD ("reg " ++ toString r.toNat)
  | .imm n => Numeral.signed64 n
  | .cimm n => Numeral.signed64 n
  | .pimm n => Numeral.signed64 n
  | .fp bits => (Decimal.Double.ofBits bits).text
  | .mem m => memoryText m
  | .invalid => "invalid"

/-- The line of an operand at an index. -/
def operandLine (o : Operand) (i : Nat) : String :=
  margin ++ style.green ("op[" ++ toString i ++ "]") ++ " " ++ o.kind.label ++ " " ++
    operandText name o.value

/-- The lines of a detail: registers read, registers written, groups, each operand under its index,
and the fields of the architecture. -/
def detailLines (d : Detail) : List String :=
  registerLines name (style.yellow "read:") d.regsRead ++
    registerLines name (style.yellow "write:") d.regsWrite ++
    (if d.groups.isEmpty then []
      else [margin ++ style.yellow "groups:" ++ " " ++
        Quoted.listed (d.groups.map fun g => toString g.toNat)]) ++
    (d.operands.zipIdx.map fun p => operandLine style name p.1 p.2) ++
    (archLine style d.arch).toList.map (margin ++ ·)

/-- The lines below an instruction whose detail is asked for, or why there are none. -/
def blockLines (diet : Bool) (i : Insn) : Except ErrorCode (List String) :=
  if diet then .ok [margin ++ style.dimmed "(diet engine: no detail)"]
  else i.detail.map (detailLines style name)

/-- The lines of instructions with their detail, each with its own below it, up to the first whose
detail is missing, and why it is. -/
def printout (diet : Bool) : List Insn → List String × Except ErrorCode Unit
  | [] => ([], .ok ())
  | i :: is =>
    match blockLines style name diet i with
    | .ok block => (i.fullLine :: block ++ (printout diet is).1, (printout diet is).2)
    | .error c => ([i.fullLine], .error c)

end

section

variable {e : Engine} {style : Style} {s : B.State}

theorem printed_registerNames (hB : B.Discreet) (he : e.diet = false) (ids : List UInt32) :
    Printed (some e.handle) s ((registerNames e ids : Stage B (List String)).run s) []
      (.ok (ids.map fun id => (B.nameOf s e.handle id).getD ("r" ++ toString id.toNat))) := by
  induction ids with
  | nil => exact .pure _
  | cons id ids ih =>
    have hname : Printed (some e.handle) s ((Stage.attempt (e.regName id) :
        Stage B (Option String)).run s) [] (.ok (B.nameOf s e.handle id)) := by
      rw [Stage.run_attempt, e.run_regName hB he]
      exact ⟨rfl, rfl, rfl, rfl, List.forall_mem_singleton.mpr ⟨_, id, _, rfl, rfl⟩⟩
    exact hname.bind (ih.bind (.pure _))

theorem printed_valueText (hB : B.Discreet) (he : e.diet = false) (v : OperandValue) :
    Printed (some e.handle) s ((valueText e v : Stage B String).run s) []
      (.ok (operandText (B.nameOf s e.handle) v)) := by
  cases v with
  | reg r =>
    have hname : Printed (some e.handle) s ((Stage.of (e.regName r).run :
        Stage B (Except Error (Option String))).run s) [] (.ok (.ok (B.nameOf s e.handle r))) := by
      rw [Stage.run_of, e.run_regName hB he]
      exact ⟨rfl, rfl, rfl, rfl, List.forall_mem_singleton.mpr ⟨_, r, _, rfl, rfl⟩⟩
    refine hname.bind ?_
    rw [operandText]
    cases B.nameOf s e.handle r with
    | some name => exact .pure _
    | none => exact .pure _
  | _ => exact .pure _

theorem printed_printList (h : Option Handle) (heading text : String) (isEmpty : Bool) :
    Printed h s ((printList heading text isEmpty : Stage B Unit).run s)
      (if isEmpty then [] else [margin ++ heading ++ " " ++ text]) (.ok ()) := by
  cases isEmpty with
  | true => exact .pure _
  | false => exact .print _

theorem printed_printOperands (hB : B.Discreet) (he : e.diet = false) (os : List Operand) (i : Nat) :
    Printed (some e.handle) s ((printOperands style e i os : Stage B Unit).run s)
      ((os.zipIdx i).map fun p => operandLine style (B.nameOf s e.handle) p.1 p.2) (.ok ()) := by
  induction os generalizing i with
  | nil => exact .pure _
  | cons o os ih =>
    exact (printed_valueText hB he o.value).bind ((Printed.print _).bind (ih (i + 1)))

/-- The fields of a detail. -/
theorem printed_fields (hB : B.Discreet) (he : e.diet = false) (d : Detail) :
    Printed (some e.handle) s ((do
      let read ← registerNames e d.regsRead
      let written ← registerNames e d.regsWrite
      printList (style.yellow "read:") (String.intercalate ", " read) read.isEmpty
      printList (style.yellow "write:") (String.intercalate ", " written) written.isEmpty
      printList (style.yellow "groups:") (Quoted.listed (d.groups.map fun g => toString g.toNat))
        d.groups.isEmpty
      printOperands style e 0 d.operands
      match archLine style d.arch with
      | some line => Stage.print (margin ++ line)
      | none => return () : Stage B Unit).run s)
      (detailLines style (B.nameOf s e.handle) d) (.ok ()) := by
  have harch : Printed (some e.handle) s ((match archLine style d.arch with
      | some line => Stage.print (margin ++ line)
      | none => Pure.pure () : Stage B Unit).run s)
        ((archLine style d.arch).toList.map (margin ++ ·)) (.ok ()) := by
    cases archLine style d.arch with
    | some line => exact .print _
    | none => exact .pure _
  refine Printed.congr (.bind (printed_registerNames hB he _) <|
    .bind (printed_registerNames hB he _) <| .bind (printed_printList _ _ _ _) <|
    .bind (printed_printList _ _ _ _) <| .bind (printed_printList _ _ _ _) <|
    .bind (printed_printOperands hB he _ _) harch) ?_
  simp [detailLines, registerLines]

/-- **The detail of one instruction**: its lines, or the refusal in the engine's words. -/
theorem printed_printDetail (hB : B.Constant) (i : Insn) :
    let block := blockLines style (B.nameOf s e.handle) e.diet i
    Printed e.namer s ((printDetail style e i : Stage B Unit).run s) (block.toOption.getD [])
      ((block.map fun _ => ()).mapError fun c => ⟨(Error.engine c (B.phrase s c)).message, none⟩) := by
  intro block
  unfold printDetail Engine.namer
  cases he : e.diet with
  | true =>
    have hblock : block = .ok [margin ++ style.dimmed "(diet engine: no detail)"] := if_pos he
    rw [hblock]
    exact .print _
  | false =>
    have hblock : block = i.detail.map (detailLines style (B.nameOf s e.handle)) := by
      show blockLines _ _ _ _ = _
      rw [blockLines, he]
      rfl
    rw [hblock]
    obtain ⟨es, hrun, -⟩ := Record.readDetail_spec hB.mute (Record.sound_fresh i) s
    obtain ⟨hlines, hinfos⟩ := silent_nil ((Record.mk i none).quiet_readDetail (B := B) s)
    have hidle := (Record.mk i none).idle_readDetail (B := B) s
    rw [hrun] at hlines hinfos hidle
    have hread : Printed (some e.handle) s ((Stage.attempt (Record.mk i none).readDetail :
        Stage B (Detail × Record)).run s) [] ((i.detail.map fun d =>
          (d, (Record.mk i none).remember true)).mapError fun c =>
            ⟨(Error.engine c (B.phrase s c)).message, none⟩) := by
      rw [Stage.run_attempt, hrun]
      refine ⟨?_, rfl, hlines, hinfos, fun x hx => ?_⟩
      · cases i.detail <;> rfl
      · rw [show dealings es = [] from hidle] at hx
        cases hx
    cases hdetail : i.detail with
    | error c =>
      rw [hdetail] at hread
      exact hread.stop
    | ok d =>
      rw [hdetail] at hread
      exact hread.bind (printed_fields hB.discreet he d)

/-- **Instructions without their detail**: one line each. -/
theorem printed_plain (is : List Insn) :
    Printed none s ((printInsns style e false is : Stage B Unit).run s) (is.map Insn.fullLine)
      (.ok ()) := by
  induction is with
  | nil => exact .pure _
  | cons i is ih => exact (Printed.print _).bind ih

/-- **Instructions with their detail**: the lines of the printout, and its refusal in the engine's
words. -/
theorem printed_detailed (hB : B.Constant) (is : List Insn) :
    let out := printout style (B.nameOf s e.handle) e.diet is
    Printed e.namer s ((printInsns style e true is : Stage B Unit).run s) out.1
      (out.2.mapError fun c => ⟨(Error.engine c (B.phrase s c)).message, none⟩) := by
  induction is with
  | nil => exact .pure _
  | cons i is ih =>
    intro out
    have hdetail : Printed e.namer s ((printDetail style e i : Stage B Unit).run s) _ _ :=
      printed_printDetail hB i
    have hout : out = match blockLines style (B.nameOf s e.handle) e.diet i with
        | .ok block => (i.fullLine :: block ++ (printout style (B.nameOf s e.handle) e.diet is).1,
            (printout style (B.nameOf s e.handle) e.diet is).2)
        | .error c => ([i.fullLine], .error c) := rfl
    rw [hout]
    cases hblock : blockLines style (B.nameOf s e.handle) e.diet i with
    | ok block =>
      rw [hblock] at hdetail
      exact (Printed.print _).bind (hdetail.bind ih)
    | error c =>
      rw [hblock] at hdetail
      exact (Printed.print _).bind hdetail.stop

/-- A printout is complete if every instruction has a block of its own. -/
theorem printout_complete {name : UInt32 → Option String} {diet : Bool} {is : List Insn}
    {block : Insn → List String}
    (h : ∀ i ∈ is, blockLines style name diet i = .ok (block i)) :
    printout style name diet is = (is.flatMap fun i => i.fullLine :: block i, .ok ()) := by
  induction is with
  | nil => rfl
  | cons i is ih =>
    obtain ⟨hi, his⟩ := List.forall_mem_cons.mp h
    rw [printout, hi, ih his]
    rfl

/-- A printout ends with the first instruction that has no block. -/
theorem printout_stops {name : UInt32 → Option String} {diet : Bool} {before after : List Insn}
    {i : Insn} {block : Insn → List String} {c : ErrorCode}
    (h : ∀ j ∈ before, blockLines style name diet j = .ok (block j))
    (hi : blockLines style name diet i = .error c) :
    printout style name diet (before ++ i :: after) =
      (before.flatMap (fun j => j.fullLine :: block j) ++ [i.fullLine], .error c) := by
  induction before with
  | nil =>
    rw [List.nil_append, printout, hi]
    rfl
  | cons j before ih =>
    obtain ⟨hj, hbefore⟩ := List.forall_mem_cons.mp h
    rw [List.cons_append, printout, hj, ih hbefore]
    simp

end

/-! ### Presenting decoded instructions -/

/-- The line that stands where no instruction was decoded. -/
def placeholder (style : Style) : String :=
  style.dimmed "(no valid instruction at start of buffer)"

/-- Print decoded instructions, or that there are none. -/
def printing (style : Style) (e : Engine) (detail : Bool) (insns : List Insn) : Stage B Unit := do
  if insns.isEmpty then
    Stage.print (placeholder style)
  printInsns style e detail insns

/-- Print decoded instructions, and log how much of the code they leave. -/
def presenting (style : Style) (a : Arguments) (code : List UInt8) (e : Engine)
    (insns : List Insn) : Stage B Unit := do
  printing style e a.detail insns
  let decoded := insns.foldl (fun n i => n + i.size) 0
  if decoded < code.length then
    Stage.of (Dialogue.log .info (toString (code.length - decoded) ++
      " trailing bytes not decoded"))

/-- What is logged of code that decoded instructions leave. -/
def trailing (code : List UInt8) (insns : List Insn) : List String :=
  let decoded := (insns.map Insn.size).sum
  if decoded < code.length then [toString (code.length - decoded) ++ " trailing bytes not decoded"]
  else []

/-- The lines that are printed for decoded instructions, with detail or without, and why they end
early. -/
def sheet (style : Style) (name : UInt32 → Option String) (detail diet : Bool)
    (insns : List Insn) : List String × Except ErrorCode Unit :=
  let out := if detail then printout style name diet insns
    else (insns.map Insn.fullLine, .ok ())
  ((if insns.isEmpty then [placeholder style] else []) ++ out.1, out.2)

/-- **Printing decoded instructions** prints the lines of their sheet. -/
theorem printed_printing (hB : B.Constant) (style : Style) (e : Engine) (detail : Bool)
    (insns : List Insn) (s : B.State) :
    let out := sheet style (B.nameOf s e.handle) detail e.diet insns
    Printed (if detail then e.namer else none) s ((printing style e detail insns : Stage B Unit).run s)
      out.1 (out.2.mapError fun c => ⟨(Error.engine c (B.phrase s c)).message, none⟩) := by
  intro out
  have hinsns : Printed (if detail then e.namer else none) s
      ((printInsns style e detail insns : Stage B Unit).run s)
      (if detail then printout style (B.nameOf s e.handle) e.diet insns
        else (insns.map Insn.fullLine, .ok ())).1
      (out.2.mapError fun c => ⟨(Error.engine c (B.phrase s c)).message, none⟩) := by
    cases detail with
    | true => exact printed_detailed hB insns
    | false => exact printed_plain insns
  have hlines : out.1 = (if insns.isEmpty then [placeholder style] else []) ++
      (if detail then printout style (B.nameOf s e.handle) e.diet insns
        else (insns.map Insn.fullLine, .ok ())).1 := rfl
  rw [hlines, printing]
  cases insns.isEmpty with
  | true => exact (Printed.print _).bind hinsns
  | false => exact hinsns

/-- **Presenting decoded instructions** logs what they leave of the code, if all went well. -/
theorem presenting_spec (hB : B.Constant) (style : Style) (a : Arguments) (code : List UInt8)
    (e : Engine) (insns : List Insn) (s : B.State) :
    let out := (presenting style a code e insns : Stage B Unit).run s
    let lines := sheet style (B.nameOf s e.handle) a.detail e.diet insns
    out.value = lines.2.mapError (fun c => ⟨(Error.engine c (B.phrase s c)).message, none⟩) ∧
      out.state = s ∧ linesOf out.events = lines.1 ∧
      infosOf out.events = (if lines.2.isOk then trailing code insns else []) ∧
      ∀ x ∈ dealings out.events, a.detail = true ∧ e.diet = false ∧
        ∃ id name, x = .call (.regName e.handle id) name := by
  intro out lines
  obtain ⟨es, hrun, hlines, hinfos, hasked⟩ := (printed_printing hB style e a.detail insns s).eq_mk
  have hnamer : ∀ x ∈ dealings es, a.detail = true ∧ e.diet = false ∧
      ∃ id name, x = .call (.regName e.handle id) name := by
    intro x hx
    obtain ⟨k, id, name, hk, rfl⟩ := hasked x hx
    unfold Engine.namer at hk
    cases hdetail : a.detail <;> cases hdiet : e.diet <;> simp [hdetail, hdiet] at hk
    exact ⟨rfl, rfl, id, name, by rw [hk]⟩
  have hsum : insns.foldl (fun n i => n + i.size) 0 = (insns.map Insn.size).sum := by
    rw [List.sum_eq_foldl_nat, List.foldl_map]
  have hrest : (if (insns.map Insn.size).sum < code.length then
        Stage.of (Dialogue.log .info (toString (code.length - (insns.map Insn.size).sum) ++
          " trailing bytes not decoded"))
      else Pure.pure () : Stage B Unit).run s =
        ⟨.ok (), s, (trailing code insns).map (Event.log .info)⟩ := by
    unfold trailing
    by_cases hleft : (insns.map Insn.size).sum < code.length
    · simp only [if_pos hleft]
      rfl
    · simp only [if_neg hleft]
      rfl
  have hlogged := events_of_infos (trailing code insns)
  have hout : out = (presenting style a code e insns : Stage B Unit).run s := rfl
  change (printing style e a.detail insns : Stage B Unit).run s = ⟨lines.2.mapError _, s, es⟩ at hrun
  cases hvalue : lines.2 with
  | error c =>
    rw [hvalue] at hrun
    rw [hout, presenting, Stage.run_failed hrun]
    exact ⟨rfl, rfl, hlines, hinfos, hnamer⟩
  | ok u =>
    rw [hvalue] at hrun
    rw [hout, presenting, Stage.run_after hrun, hsum, hrest]
    refine ⟨rfl, rfl, ?_, ?_, ?_⟩
    · rw [linesOf_behind, hlines, hlogged.1, List.append_nil]
    · rw [infosOf_behind, hinfos, hlogged.2.1]
      rfl
    · rw [dealings_behind, hlogged.2.2, List.append_nil]
      exact hnamer

/-- An instruction made with detail on has a block if it is diet or its entry has detail. -/
theorem blockLines_isOk {style : Style} {name : UInt32 → Option String} (arch : Arch) (diet : Bool)
    (n : NativeInsn) : (blockLines style name diet (Insn.ofNative arch diet true n)).isOk =
      (diet || n.detail.isSome) := by
  unfold blockLines Insn.detail Insn.ofNative
  cases diet <;> cases n.detail <;> rfl

/-- A printout ends well if every instruction has a block. -/
theorem printout_ok_iff {style : Style} {name : UInt32 → Option String} {diet : Bool}
    {insns : List Insn} : (printout style name diet insns).2 = .ok () ↔
      ∀ i ∈ insns, (blockLines style name diet i).isOk = true := by
  induction insns with
  | nil => exact ⟨fun _ _ h => (nomatch h), fun _ => rfl⟩
  | cons i insns ih =>
    rw [List.forall_mem_cons, printout]
    cases hblock : blockLines style name diet i with
    | ok block => simpa [Except.isOk, Except.toBool] using ih
    | error c => simp [Except.isOk, Except.toBool]

/-- The sheet of what a decode handed out ends well unless detail that was asked for is missing. -/
theorem sheet_ok_iff (style : Style) (name : UInt32 → Option String) (arch : Arch)
    (detail diet : Bool) (entries : List NativeInsn) :
    (sheet style name detail diet (entries.map (Insn.ofNative arch diet detail))).2 = .ok () ↔
      (detail = true → diet = false → ∀ n ∈ entries, n.detail.isSome) := by
  cases detail with
  | false => simp [sheet]
  | true =>
    have hsheet : (sheet style name true diet (entries.map (Insn.ofNative arch diet true))).2 =
        (printout style name diet (entries.map (Insn.ofNative arch diet true))).2 := rfl
    rw [hsheet, printout_ok_iff, List.forall_mem_map]
    simp only [blockLines_isOk]
    cases diet <;> simp

end CommandLine

end Disassembly

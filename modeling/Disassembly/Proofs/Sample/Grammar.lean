import Disassembly.Proofs.Detail.RoundTrip
import Disassembly.Proofs.Mode.Flags
import Disassembly.Proofs.Sample.Resumption

/-!
# The grammar of the sample engine

The entries of the table are the words of a small language, in which no word begins another.  What
the sample engine decodes are the words that code begins with, as many as there are.

* `Encoding.Admissible` — a word of an architecture in a mode, by the flags of the mode;
* `Encoding.eq_of_begins` — at most one word begins some code;
* `Encoding.find?_eq_some_iff`, `Encoding.find?_eq_none_iff` — the table is searched for it;
* `Encoding.Parses` — code as words and a rest that none begins; there is one way to read it so
  (`Encoding.Parses.unique`), which is the way it is cut (`Encoding.parses_cut`);
* `Engine.Recorded` — records of words, each at the address where the one before it ends, with the
  text of the engine's dialect and the detail of the word (`Engine.recorded_entries`).
-/

namespace Disassembly

namespace Encoding

variable {a : Arch} {m : Mode} {code : List UInt8} {x y : Encoding} {es es' : List Encoding}

/-! ### Words -/

/-- A word of an architecture in a mode: an entry of the table for the architecture, with the flags
that it needs set in the mode and the flags that it forbids clear. -/
structure Admissible (a : Arch) (m : Mode) (x : Encoding) : Prop where
  listed : x ∈ table
  arch : x.arch = a
  needs : ∀ i, x.needs.has i = true → m.has i = true
  forbids : ∀ i, x.forbids.has i = true → m.has i = false

theorem and_eq_zero_iff (m n : Mode) :
    (m.bits &&& n.bits == 0) = true ↔ ∀ i, n.has i = true → m.has i = false := by
  have hbit : ∀ i, (m.bits &&& n.bits).toNat.testBit i = (m.has i && n.has i) := by
    intro i
    rw [UInt32.toNat_and, Nat.testBit_and]
    rfl
  rw [beq_iff_eq]
  constructor
  · intro hzero i hi
    have hclear := hbit i
    rw [hzero, hi, Bool.and_true] at hclear
    exact hclear.symm.trans (Nat.zero_testBit i)
  · intro hclear
    apply UInt32.toNat_inj.mp
    apply Nat.eq_of_testBit_eq
    intro i
    rw [hbit]
    cases hn : n.has i with
    | true => rw [hclear i hn]; exact (Nat.zero_testBit i).symm
    | false => rw [Bool.and_false]; exact (Nat.zero_testBit i).symm

theorem admissible_iff : Admissible a m x ↔ x ∈ table ∧ x.admitted a m = true := by
  have hadmitted : x.admitted a m = true ↔ x.arch = a ∧
      (∀ i, x.needs.has i = true → m.has i = true) ∧
      ∀ i, x.forbids.has i = true → m.has i = false := by
    rw [admitted, Bool.and_eq_true, Bool.and_eq_true, beq_iff_eq, Mode.contains_iff,
      and_eq_zero_iff, and_assoc]
  rw [hadmitted]
  exact ⟨fun ⟨hlisted, harch, hneeds, hforbids⟩ => ⟨hlisted, harch, hneeds, hforbids⟩,
    fun ⟨hlisted, harch, hneeds, hforbids⟩ => ⟨hlisted, harch, hneeds, hforbids⟩⟩

/-- The words of the table, of whatever architecture, do not begin one another. -/
theorem table_prefixFree :
    table.Pairwise fun x y => ¬ x.bytes <+: y.bytes ∧ ¬ y.bytes <+: x.bytes := by
  decide

/-- **At most one word begins some code.** -/
theorem eq_of_begins (hx : x ∈ table) (hy : y ∈ table) (hxcode : x.bytes <+: code)
    (hycode : y.bytes <+: code) : x = y := by
  by_contra hne
  have : Std.Symm fun x y : Encoding => ¬ x.bytes <+: y.bytes ∧ ¬ y.bytes <+: x.bytes :=
    ⟨fun _ _ h => ⟨h.2, h.1⟩⟩
  have hfree := table_prefixFree.forall hx hy hne
  rcases List.prefix_or_prefix_of_prefix hxcode hycode with hxy | hyx
  · exact hfree.1 hxy
  · exact hfree.2 hyx

theorem find?_eq_none_iff : find? a m code = none ↔ ∀ x, Admissible a m x → ¬ x.bytes <+: code := by
  rw [find?, List.find?_eq_none]
  simp only [Bool.and_eq_true, List.isPrefixOf_iff_prefix, admissible_iff, not_and, and_imp]

/-- The word that is found is the one that begins the code. -/
theorem find?_eq_some_iff : find? a m code = some x ↔ Admissible a m x ∧ x.bytes <+: code := by
  constructor
  · intro h
    obtain ⟨hlisted, hadmitted, hprefix⟩ := find?_eq_some h
    exact ⟨admissible_iff.mpr ⟨hlisted, hadmitted⟩, hprefix⟩
  · rintro ⟨hx, hprefix⟩
    cases hfind : find? a m code with
    | none => exact absurd hprefix (find?_eq_none_iff.mp hfind x hx)
    | some y =>
      obtain ⟨hlisted, -, hprefix'⟩ := find?_eq_some hfind
      rw [eq_of_begins hlisted hx.listed hprefix' hprefix]

/-! ### Sentences -/

/-- Code is read as some words and a rest that no word begins. -/
def Parses (a : Arch) (m : Mode) (code : List UInt8) (es : List Encoding) : Prop :=
  (∀ x ∈ es, Admissible a m x) ∧
    ∃ rest, code = es.flatMap bytes ++ rest ∧ ∀ x, Admissible a m x → ¬ x.bytes <+: rest

theorem parses_nil_iff : Parses a m code [] ↔ ∀ x, Admissible a m x → ¬ x.bytes <+: code := by
  constructor
  · rintro ⟨-, rest, rfl, hstuck⟩
    exact hstuck
  · intro hstuck
    exact ⟨fun x hx => (nomatch hx), code, rfl, hstuck⟩

theorem parses_cons_iff : Parses a m code (x :: es) ↔
    Admissible a m x ∧ ∃ code', code = x.bytes ++ code' ∧ Parses a m code' es := by
  constructor
  · rintro ⟨hes, rest, rfl, hstuck⟩
    obtain ⟨hx, hes⟩ := List.forall_mem_cons.mp hes
    refine ⟨hx, es.flatMap bytes ++ rest, ?_, hes, rest, rfl, hstuck⟩
    rw [List.flatMap_cons, List.append_assoc]
  · rintro ⟨hx, code', rfl, hes, rest, rfl, hstuck⟩
    refine ⟨List.forall_mem_cons.mpr ⟨hx, hes⟩, rest, ?_, hstuck⟩
    rw [List.flatMap_cons, List.append_assoc]

/-- **There is one way to read code.** -/
theorem Parses.unique (h : Parses a m code es) (h' : Parses a m code es') : es = es' := by
  induction es generalizing code es' with
  | nil =>
    cases es' with
    | nil => rfl
    | cons y es' =>
      obtain ⟨hy, code', rfl, -⟩ := parses_cons_iff.mp h'
      exact absurd (List.prefix_append _ _) (parses_nil_iff.mp h y hy)
  | cons x es ih =>
    obtain ⟨hx, code', rfl, hes⟩ := parses_cons_iff.mp h
    cases es' with
    | nil => exact absurd (List.prefix_append _ _) (parses_nil_iff.mp h' x hx)
    | cons y es' =>
      obtain ⟨hy, code'', heq, hes'⟩ := parses_cons_iff.mp h'
      have hprefix : y.bytes <+: x.bytes ++ code' := heq.symm ▸ List.prefix_append _ _
      obtain rfl := eq_of_begins hx.listed hy.listed (List.prefix_append _ _) hprefix
      rw [List.append_cancel_left heq] at hes
      rw [ih hes hes']

/-- **Code is read as it is cut**, if the limit is out of its reach. -/
theorem parses_cut (a : Arch) (m : Mode) {limit : Nat} {code : List UInt8}
    (h : code.length ≤ limit) (address : UInt64) :
    Parses a m code ((cut a m limit code address).map Prod.snd) := by
  induction limit generalizing code address with
  | zero =>
    obtain rfl := List.length_eq_zero_iff.mp (Nat.le_zero.mp h)
    exact parses_nil_iff.mpr fun x _ hprefix => x.bytes_ne_nil (List.prefix_nil.mp hprefix)
  | succ limit ih =>
    rw [cut]
    cases hfind : find? a m code with
    | none => exact parses_nil_iff.mpr (find?_eq_none_iff.mp hfind)
    | some x =>
      obtain ⟨hx, hprefix⟩ := find?_eq_some_iff.mp hfind
      have hlt := length_drop_lt hfind
      refine parses_cons_iff.mpr ⟨hx, code.drop x.bytes.length, ?_, ih (by omega) _⟩
      exact (List.prefix_iff_eq_append.mp hprefix).symm

/-- The entries that code is cut into lie one behind the other. -/
theorem address_of_getElem?_cut {a : Arch} {m : Mode} {limit : Nat} {code : List UInt8}
    {address : UInt64} {k : Nat} {p : UInt64 × Encoding} (h : (cut a m limit code address)[k]? = some p) :
    p.1 = address + UInt64.ofNat (span ((cut a m limit code address).take k)) := by
  induction limit generalizing code address k with
  | zero => rw [cut] at h; cases h
  | succ limit ih =>
    rw [cut] at h ⊢
    cases hfind : find? a m code with
    | none => rw [hfind] at h; cases h
    | some x =>
      rw [hfind] at h
      cases k with
      | zero =>
        obtain rfl := Option.some.inj h
        exact (UInt64.add_zero address).symm
      | succ k =>
        rw [List.getElem?_cons_succ] at h
        rw [List.take_succ_cons, span_cons, ih h, UInt64.ofNat_add, UInt64.add_assoc]

/-- Where addresses do not wrap around, each entry stands at the address behind those before it. -/
theorem toNat_address_of_getElem?_cut {a : Arch} {m : Mode} {limit : Nat} {code : List UInt8}
    {address : UInt64} (hfits : address.toNat + code.length < 2 ^ 64) {k : Nat}
    {p : UInt64 × Encoding} (h : (cut a m limit code address)[k]? = some p) :
    p.1.toNat = address.toNat + span ((cut a m limit code address).take k) := by
  have hbefore : span ((cut a m limit code address).take k) ≤ code.length := by
    rw [take_cut]
    exact span_cut_le _ _ _ _ _
  rw [address_of_getElem?_cut h, toNat_add_ofNat hbefore hfits]

/-! ### The detail of a word -/

/-- The details of the table can be expressed, each by the structure of its architecture. -/
theorem table_wellFormed : ∀ x ∈ table, x.detail.WellFormed ∧ x.fields.arch = x.arch := by
  decide +kernel

/-- The detail of a word comes back from its block. -/
theorem decode_block (hx : x ∈ table) : Detail.decode x.arch x.detail.block = x.detail := by
  obtain ⟨hw, harch⟩ := table_wellFormed x hx
  rw [← harch]
  exact Detail.decode_of_holds hw (Detail.holds_ofMemory hw (Detail.holds_write hw fun _ => 0))

/-- Words are told apart by their bytes. -/
theorem eq_of_map_bytes (hes : ∀ x ∈ es, x ∈ table) (hes' : ∀ x ∈ es', x ∈ table)
    (h : es.map bytes = es'.map bytes) : es = es' := by
  induction es generalizing es' with
  | nil => exact (List.map_eq_nil_iff.mp h.symm).symm
  | cons x es ih =>
    cases es' with
    | nil => cases h
    | cons y es' =>
      obtain ⟨hx, hes⟩ := List.forall_mem_cons.mp hes
      obtain ⟨hy, hes'⟩ := List.forall_mem_cons.mp hes'
      obtain ⟨hbytes, hrest⟩ := List.cons.inj h
      rw [eq_of_begins hx hy (List.prefix_refl _) (hbytes ▸ List.prefix_refl _), ih hes hes' hrest]

end Encoding

/-! ### Records of words -/

/-- A record that an engine has made of a word at an address. -/
structure Insn.Tells (e : Engine) (address : Nat) (x : Encoding) (i : Insn) : Prop where
  address : i.address.toNat = address
  bytes : i.bytes = x.bytes
  id : i.id = x.id
  text : i.text = some (x.rendering (e.dialect.getD .default))
  hasDetail : i.hasDetail = e.detail
  detail : e.detail = true → i.detail = .ok ⟨x.regsRead, x.regsWrite, x.groups, x.fields⟩

namespace Engine

/-- Records of words, in the same order, from an address on: each one stands at the address behind
all the words before it. -/
def Recorded (e : Engine) (address : UInt64) (es : List Encoding) (l : List Insn) : Prop :=
  l.length = es.length ∧ ∀ (k : Nat) (x : Encoding) (i : Insn), es[k]? = some x → l[k]? = some i →
    i.Tells e (address.toNat + ((es.take k).map fun y => y.bytes.length).sum) x

theorem Recorded.map_bytes {e : Engine} {address : UInt64} {es : List Encoding} {l : List Insn}
    (h : e.Recorded address es l) : l.map Insn.bytes = es.map Encoding.bytes := by
  apply List.ext_getElem
  · rw [List.length_map, List.length_map, h.1]
  · intro k hl hes
    rw [List.length_map] at hl hes
    rw [List.getElem_map, List.getElem_map]
    exact (h.2 k _ _ (List.getElem?_eq_getElem hes) (List.getElem?_eq_getElem hl)).bytes

/-- **What an engine makes of the entries that it finds are records of words.** -/
theorem recorded_entries {e : Engine} (hdiet : e.diet = false) {code : List UInt8}
    {address : UInt64} (hfits : address.toNat + code.length < 2 ^ 64) :
    let found := e.entries code address 0
    e.Recorded address (found.map Prod.snd) (found.map (e.record false)) := by
  intro found
  refine ⟨by rw [List.length_map, List.length_map], ?_⟩
  intro k x i hx hi
  obtain ⟨p, hp, rfl⟩ : ∃ p, found[k]? = some p ∧ p.2 = x := by
    simpa only [List.getElem?_map, Option.map_eq_some_iff] using hx
  obtain rfl : e.record false p = i := by
    rw [List.getElem?_map, hp] at hi
    exact Option.some.inj hi
  have hlisted := (Encoding.mem_cut (List.mem_of_getElem? hp)).1
  have harch : p.2.arch = e.arch :=
    (Encoding.admissible_iff.mpr (Encoding.mem_cut (List.mem_of_getElem? hp))).arch
  have hspan : (((found.map Prod.snd).take k).map fun y => y.bytes.length).sum =
      Encoding.span (found.take k) := by
    rw [← List.map_take, List.map_map]
    rfl
  refine ⟨?_, rfl, rfl, e.text_record p hdiet rfl, e.hasDetail_record false p, ?_⟩
  · rw [hspan]
    exact Encoding.toNat_address_of_getElem?_cut hfits hp
  · intro hdetail
    have hblock : (e.record false p).block = some p.2.detail.block := by
      rw [record, hdetail]
      rfl
    have htext : (e.record false p).text = some (p.2.rendering (e.dialect.getD .default)) :=
      e.text_record p hdiet rfl
    rw [Insn.detail, htext, hblock]
    show Except.ok (Detail.decode e.arch p.2.detail.block) = _
    rw [← harch, Encoding.decode_block hlisted]
    rfl

end Engine

namespace Sample

/-- **The sample engine decodes exactly its grammar.**  Let an engine be open on it, with text on
both sides, and let empty decodes leave no status behind.  There is one way to read code as words
that the engine's architecture has in its mode, and a rest that none of them begins.  A decode never
fails and needs no limit; it gives the records of some words exactly if these are the way to read the
code.  So it gives none if no word begins the code, as none does if there is no code. -/
theorem words_decoded (ms : List (Move backend)) (slot : Nat) (e : Engine)
    (he : (Desk.reach {} ({} : Sample) ms).1.engine? slot = some e) (hdiet : e.diet = false)
    (htext : Sample.diet (Desk.reach {} ({} : Sample) ms).2 = false)
    (hempty : Sample.emptyErrno (Desk.reach {} ({} : Sample) ms).2 = 0)
    (code : List UInt8) (address : UInt64) (hfits : address.toNat + code.length < 2 ^ 64) :
    let s : Sample := (Desk.reach {} ({} : Sample) ms).2
    let result := ((e.disasm code address 0 : Attempt backend (List Insn)).run s).value
    (∃! es, Encoding.Parses e.arch e.mode code es) ∧
      (∀ es, (∀ x ∈ es, x ∈ Encoding.table) →
        ((∃ l, result = .ok l ∧ e.Recorded address es l) ↔
          Encoding.Parses e.arch e.mode code es)) ∧
      ((∀ es, Encoding.Parses e.arch e.mode code es → es = []) → result = .ok []) ∧
      ((∀ x, Encoding.Admissible e.arch e.mode x → ¬ x.bytes <+: code) → result = .ok []) ∧
      (code = [] → result = .ok []) ∧
      ∀ kept limit, s.handle? e.handle = some kept → code.length ≤ limit →
        kept.decode s.diet limit code address = s.found kept code address 0 := by
  intro s result
  let found := e.entries code address 0
  have hresult : result = .ok (found.map (e.record false)) := by
    have hvalue := ((serves_reach ms he hempty).decode code address 0).1
    rw [htext] at hvalue
    exact hvalue
  have hparses : Encoding.Parses e.arch e.mode code (found.map Prod.snd) :=
    Encoding.parses_cut e.arch e.mode (Nat.le_refl _) address
  have hrecorded : e.Recorded address (found.map Prod.snd) (found.map (e.record false)) :=
    Engine.recorded_entries hdiet hfits
  have hnone : Encoding.Parses e.arch e.mode code [] → result = .ok [] := by
    intro hnil
    rw [hresult, List.map_eq_nil_iff.mp (hparses.unique hnil)]
    rfl
  refine ⟨⟨_, hparses, fun es h => h.unique hparses⟩, ?_, ?_, ?_, ?_, ?_⟩
  · intro es hlisted
    constructor
    · rintro ⟨l, hl, hrec⟩
      obtain rfl : found.map (e.record false) = l := Except.ok.inj (hresult.symm.trans hl)
      have hsame : es = found.map Prod.snd :=
        Encoding.eq_of_map_bytes hlisted (fun x hx => (hparses.1 x hx).listed)
          (hrec.map_bytes.symm.trans hrecorded.map_bytes)
      exact hsame ▸ hparses
    · intro h
      exact ⟨_, hresult, h.unique hparses ▸ hrecorded⟩
  · intro hempty
    exact hnone (hempty _ hparses ▸ hparses)
  · exact fun hstuck => hnone (Encoding.parses_nil_iff.mpr hstuck)
  · rintro rfl
    exact hnone (Encoding.parses_nil_iff.mpr fun x _ hprefix =>
      x.bytes_ne_nil (List.prefix_nil.mp hprefix))
  · intro kept limit _ hlimit
    rw [Sample.found, SampleHandle.decode_eq, SampleHandle.decode_eq, if_pos rfl,
      Encoding.cut_congr hlimit (Nat.le_refl _)]

/-- Two words and a rest that no word begins, decoded with detail. -/
theorem words_decoded_push :
    let ms : List (Move backend) :=
      [.op (.openEngine 0 .x86 .width32), .op (.act 0 (.setDetail true))]
    let d := (Desk.reach {} ({} : Sample) ms).1
    let s : Sample := (Desk.reach {} ({} : Sample) ms).2
    let e : Engine := ⟨⟨0x101⟩, .x86, false, .width32, some .intel, true⟩
    let code : List UInt8 := [0x55, 0x01, 0xd8, 0xff]
    d.engine? 0 = some e ∧ e.diet = false ∧ s.diet = false ∧ s.emptyErrno = 0 ∧
      (0x1000 : UInt64).toNat + code.length < 2 ^ 64 ∧
      ∃ l, ((e.disasm code 0x1000 0 : Attempt backend (List Insn)).run s).value = .ok l ∧
        e.Recorded 0x1000 [Encoding.push, Encoding.addReg] l := by
  intro ms d s e code
  have hpush : Encoding.Admissible .x86 .width32 Encoding.push :=
    Encoding.admissible_iff.mpr ⟨by simp [Encoding.table], by decide⟩
  have haddReg : Encoding.Admissible .x86 .width32 Encoding.addReg :=
    Encoding.admissible_iff.mpr ⟨by simp [Encoding.table], by decide⟩
  have hstuck : ∀ x ∈ Encoding.table, ¬ x.bytes <+: [0xff] := by decide
  have hparses : Encoding.Parses .x86 .width32 code [Encoding.push, Encoding.addReg] :=
    Encoding.parses_cons_iff.mpr ⟨hpush, _, rfl, Encoding.parses_cons_iff.mpr ⟨haddReg, _, rfl,
      Encoding.parses_nil_iff.mpr fun x hx => hstuck x hx.listed⟩⟩
  obtain ⟨-, hwords, -⟩ := words_decoded ms 0 e rfl rfl rfl rfl code 0x1000 (by decide)
  exact ⟨rfl, rfl, rfl, rfl, by decide,
    (hwords _ fun x hx => (hparses.1 x hx).listed).mpr hparses⟩

end Sample

end Disassembly

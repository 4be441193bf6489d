import Disassembly.Proofs.Sample.Mirror

/-!
# Decoding in pieces

Code can be decoded a few instructions at a time.  Wherever a counted decode of the sample engine
stops, another one goes on, and in the end the records are those of a decode without a count.

* `Encoding.take_cut`, `Encoding.cut_congr`, `Encoding.cut_add` — a limit only shortens what code is
  cut into, one that the code cannot reach changes nothing, and after the entries of one limit come
  those of the rest of the code;
* `Engine.entries_eq_take`, `Engine.entries_resume` — the same of the entries that a decode finds;
* `Sample.Serves` — an engine that decodes without failing; a decode gives its records, and the
  engine is served on (`Sample.Serves.decode`);
* `Engine.disasmInPieces` — decodes one after another, and what they come to
  (`Sample.Serves.pieces`).
-/

namespace Disassembly

/-- An address moved on within bounds does not wrap around. -/
theorem toNat_add_ofNat {address : UInt64} {k n : Nat} (hk : k ≤ n)
    (hfits : address.toNat + n < 2 ^ 64) :
    (address + UInt64.ofNat k).toNat = address.toNat + k := by
  rw [UInt64.toNat_add, UInt64.toNat_ofNat', Nat.mod_eq_of_lt (a := k) (by omega),
    Nat.mod_eq_of_lt (by omega)]

/-! ### What code is cut into -/

namespace Encoding

variable {a : Arch} {m : Mode} {code : List UInt8} {address : UInt64}

/-- How many bytes entries take together. -/
def span (l : List (UInt64 × Encoding)) : Nat :=
  (l.map fun p => p.2.bytes.length).sum

@[simp]
theorem span_nil : span [] = 0 := rfl

@[simp]
theorem span_cons (p : UInt64 × Encoding) (l : List (UInt64 × Encoding)) :
    span (p :: l) = p.2.bytes.length + span l :=
  List.sum_cons

/-- What is cut off takes no more bytes than there are. -/
theorem span_cut_le (a : Arch) (m : Mode) (limit : Nat) (code : List UInt8) (address : UInt64) :
    span (cut a m limit code address) ≤ code.length := by
  have hlength := List.IsPrefix.length_le <| cut_prefix a m limit code address
  rwa [List.length_flatMap] at hlength

theorem cut_of_none (h : find? a m code = none) (limit : Nat) : cut a m limit code address = [] := by
  cases limit with
  | zero => rfl
  | succ limit => rw [cut, h]

/-- An entry that is found takes some of the code. -/
theorem length_drop_lt {e : Encoding} (h : find? a m code = some e) :
    (code.drop e.bytes.length).length < code.length := by
  have hfits := (find?_eq_some h).2.2.length_le
  have hsome := List.length_pos_iff.mpr e.bytes_ne_nil
  rw [List.length_drop]
  omega

/-- A smaller limit gives the first of the entries that a larger one gives. -/
theorem take_cut (n limit : Nat) (code : List UInt8) (address : UInt64) :
    (cut a m limit code address).take n = cut a m (min n limit) code address := by
  induction limit generalizing n code address with
  | zero => rw [Nat.min_zero, cut, List.take_nil]
  | succ limit ih =>
    cases n with
    | zero => rw [Nat.zero_min, cut, List.take_zero]
    | succ n =>
      rw [Nat.succ_min_succ, cut, cut]
      cases find? a m code with
      | none => rfl
      | some e => exact congrArg ((address, e) :: ·) (ih n _ _)

/-- Limits that the code cannot reach give the same entries. -/
theorem cut_congr {limit limit' : Nat} (h : code.length ≤ limit) (h' : code.length ≤ limit') :
    cut a m limit code address = cut a m limit' code address := by
  induction limit generalizing limit' code address with
  | zero =>
    obtain rfl := List.length_eq_zero_iff.mp (Nat.le_zero.mp h)
    have hnone : find? a m [] = none := by
      cases hfind : find? a m [] with
      | none => rfl
      | some e => exact absurd (length_drop_lt hfind) (by simp)
    rw [cut_of_none hnone, cut_of_none hnone]
  | succ limit ih =>
    cases hfind : find? a m code with
    | none => rw [cut_of_none hfind, cut_of_none hfind]
    | some e =>
      have hlt := length_drop_lt hfind
      obtain ⟨limit', rfl⟩ : ∃ k, limit' = k + 1 := Nat.exists_eq_succ_of_ne_zero (by omega)
      rw [cut, cut, hfind]
      exact congrArg ((address, e) :: ·) (ih (by omega) (by omega))

/-- **After the entries of one limit come those of the rest of the code.** -/
theorem cut_add (n limit : Nat) (code : List UInt8) (address : UInt64) :
    let first := cut a m n code address
    cut a m (n + limit) code address = first ++
      cut a m limit (code.drop (span first)) (address + UInt64.ofNat (span first)) := by
  induction n generalizing code address with
  | zero =>
    have hstart : address + UInt64.ofNat 0 = address := UInt64.add_zero address
    simp only [cut, span_nil, List.nil_append, List.drop_zero, Nat.zero_add, hstart]
  | succ n ih =>
    cases hfind : find? a m code with
    | none => simp only [cut_of_none hfind, span_nil, List.drop_zero, List.append_nil]
    | some e =>
      have hlater := ih (code.drop e.bytes.length) (address + UInt64.ofNat e.bytes.length)
      dsimp only at hlater ⊢
      rw [Nat.add_right_comm, cut, cut, hfind]
      simp only [span_cons, List.cons_append]
      rw [hlater, List.drop_drop, UInt64.ofNat_add, UInt64.add_assoc]

end Encoding

/-! ### What a decode finds -/

namespace Engine

variable {B : Backend}

/-- **A count limits what is found** to the first entries. -/
theorem entries_eq_take (e : Engine) (code : List UInt8) (address : UInt64) {n : Nat} (hn : 1 ≤ n) :
    e.entries code address n = (e.entries code address 0).take n := by
  have hne : n ≠ 0 := by omega
  rw [entries, entries, if_neg hne, if_pos rfl, Encoding.take_cut]
  rcases Nat.le_total n code.length with hle | hge
  · rw [Nat.min_eq_left hle]
  · rw [Nat.min_eq_right hge]
    exact Encoding.cut_congr hge (Nat.le_refl _)

/-- **What is found behind the entries of a counted decode** are the others. -/
theorem entries_resume (e : Engine) (code : List UInt8) (address : UInt64) (n : Nat) :
    let first := e.entries code address n
    let k := Encoding.span first
    e.entries code address 0 =
      first ++ e.entries (code.drop k) (address + UInt64.ofNat k) 0 := by
  intro first k
  let limit := if n = 0 then code.length else n
  calc e.entries code address 0
      = Encoding.cut e.arch e.mode (limit + code.length) code address :=
        Encoding.cut_congr (Nat.le_refl _) (Nat.le_add_left _ _)
    _ = first ++ Encoding.cut e.arch e.mode code.length (code.drop k)
          (address + UInt64.ofNat k) := Encoding.cut_add limit _ code address
    _ = first ++ e.entries (code.drop k) (address + UInt64.ofNat k) 0 :=
        congrArg (first ++ ·) (Encoding.cut_congr (List.length_drop ▸ Nat.sub_le _ _) (Nat.le_refl _))

theorem map_entries_resume {α : Type} (e : Engine) (f : UInt64 × Encoding → α) (code : List UInt8)
    (address : UInt64) (n : Nat) :
    let first := e.entries code address n
    let k := Encoding.span first
    (e.entries code address 0).map f =
      first.map f ++ (e.entries (code.drop k) (address + UInt64.ofNat k) 0).map f := by
  intro first k
  rw [e.entries_resume code address n, List.map_append]

/-- The records of entries are as long as these. -/
theorem sum_size_record (e : Engine) (diet : Bool) (l : List (UInt64 × Encoding)) :
    ((l.map (e.record diet)).map Insn.size).sum = Encoding.span l := by
  rw [List.map_map]
  rfl

/-- Decode a number of instructions, go on behind them with the next number, and decode what is left
at last. -/
def disasmInPieces (e : Engine) : List Nat → List UInt8 → UInt64 → Attempt B (List Insn)
  | [], code, address => e.disasm code address 0
  | n :: ns, code, address => do
    let first ← e.disasm code address n
    let size := (first.map Insn.size).sum
    let later ← e.disasmInPieces ns (code.drop size) (address + UInt64.ofNat size)
    return first ++ later

/-- After a first piece that succeeds, the other pieces are joined to it. -/
theorem value_pieces {e : Engine} {n : Nat} {code : List UInt8} {address : UInt64} {s : B.State}
    {first : List Insn}
    (h : ((e.disasm code address n : Attempt B (List Insn)).run s).value = .ok first)
    (ns : List Nat) :
    let size := (first.map Insn.size).sum
    let s' := ((e.disasm code address n : Attempt B (List Insn)).run s).state
    ((e.disasmInPieces (n :: ns) code address : Attempt B (List Insn)).run s).value =
      ((e.disasmInPieces ns (code.drop size) (address + UInt64.ofNat size) :
        Attempt B (List Insn)).run s').value.map (first ++ ·) := by
  intro size s'
  rw [disasmInPieces, Attempt.run_bind, h]
  dsimp only
  rw [Attempt.run_bind]
  cases ((e.disasmInPieces ns (code.drop size) (address + UInt64.ofNat size) :
    Attempt B (List Insn)).run s').value <;> rfl

end Engine

/-! ### Engines that decode without failing -/

namespace Sample

/-- The sample engine knows an engine as it is configured, and leaves no status behind an empty
decode. -/
structure Serves (s : Sample) (e : Engine) : Prop where
  proper : s.Proper
  mirror : ∃ errno, s.handle? e.handle = some (e.mirror errno)
  emptyErrno : s.emptyErrno = 0

/-- Wherever moves lead, an engine of the desk is served, unless empty decodes are to leave a status
behind. -/
theorem serves_reach (ms : List (Move backend)) {slot : Nat} {e : Engine} :
    let d := (Desk.reach {} ({} : Sample) ms).1
    let s : Sample := (Desk.reach {} ({} : Sample) ms).2
    d.engine? slot = some e → s.emptyErrno = 0 → s.Serves e := by
  intro d s he hempty
  obtain ⟨hproper, -, hmirror⟩ := mirrored_reach ms
  obtain ⟨errno, hentry, -⟩ := hmirror slot e (Desk.mem_of_engine? he)
  exact ⟨hproper, ⟨errno, hentry⟩, hempty⟩

variable {s : Sample} {e : Engine}

/-- **A decode gives the records of what it finds**, and the engine is served on. -/
theorem Serves.decode (h : s.Serves e) (code : List UInt8) (address : UInt64) (count : Nat) :
    let out := (e.disasm code address count : Attempt backend (List Insn)).run s
    let s' : Sample := out.state
    out.value = .ok ((e.entries code address count).map (e.record s.diet)) ∧
      s'.Serves e ∧ s'.diet = s.diet := by
  intro out s'
  obtain ⟨hproper, ⟨errno, hmirror⟩, hempty⟩ := h
  have hvalue := Engine.disasm_sample hmirror code address count
  unfold Engine.Decodes at hvalue
  rw [if_neg fun hnone => hnone.2 hempty] at hvalue
  have hreplays : backend.Replays s (dealings out.events) s' :=
    (e.faithful_disasm (B := backend) code address count s).dealings still_backend
  have hspares := (e.disasm_spec (B := backend) code address count s).spares e.handle
  obtain ⟨hdiet, -, -, hstatus, -⟩ := manner_eq_iff.mp (manner_of_replays hreplays)
  exact ⟨hvalue, ⟨hproper.replays hreplays,
    ⟨_, mirror_of_replays hproper hreplays hmirror hspares⟩, hstatus.trans hempty⟩, hdiet⟩

/-- **Decodes one after another find what one decode finds.** -/
theorem Serves.pieces (h : s.Serves e) (ns : List Nat) (code : List UInt8) (address : UInt64) :
    ((e.disasmInPieces ns code address : Attempt backend (List Insn)).run s).value =
      .ok ((e.entries code address 0).map (e.record s.diet)) := by
  induction ns generalizing s code address with
  | nil => exact (h.decode code address 0).1
  | cons n ns ih =>
    obtain ⟨hfirst, hserves, hdiet⟩ := h.decode code address n
    refine (Engine.value_pieces (B := backend) hfirst ns).trans ?_
    rw [e.sum_size_record, ih hserves, hdiet]
    exact congrArg Except.ok (e.map_entries_resume (e.record s.diet) code address n).symm

/-- **Decoding can be limited and resumed.**  Wherever moves lead, an engine that is open on the
sample engine, if empty decodes leave no status behind, decodes without failing.  A count gives the
first records of all that there are, and a larger count more of them.  With the bytes of the records
of a counted decode taken off the code, and the address moved on by as many, a decode gives the
others.  So it does not matter how the work is cut into counted decodes. -/
theorem decoding_resumed (ms : List (Move backend)) (slot : Nat) (e : Engine)
    (he : (Desk.reach {} ({} : Sample) ms).1.engine? slot = some e)
    (hempty : Sample.emptyErrno (Desk.reach {} ({} : Sample) ms).2 = 0)
    (code : List UInt8) (address : UInt64) (hfits : address.toNat + code.length < 2 ^ 64) :
    let s : Sample := (Desk.reach {} ({} : Sample) ms).2
    let decode : List UInt8 → UInt64 → Nat → Sample → Outcome Sample (Except Error (List Insn)) :=
      fun code address count => (e.disasm code address count : Attempt backend (List Insn)).run
    ∃ all, (decode code address 0 s).value = .ok all ∧
      (∀ n, 1 ≤ n →
        (decode code address n s).value = .ok (all.take n) ∧
        let k := ((all.take n).map Insn.size).sum
        k ≤ code.length ∧ (address + UInt64.ofNat k).toNat = address.toNat + k ∧
        ∀ s', s' = s ∨ s' = (decode code address n s).state →
          ∃ later, (decode (code.drop k) (address + UInt64.ofNat k) 0 s').value = .ok later ∧
            all = all.take n ++ later) ∧
      (∀ m n, 1 ≤ m → m ≤ n → ∃ fewer more, (decode code address m s).value = .ok fewer ∧
        (decode code address n s).value = .ok more ∧ fewer <+: more) ∧
      ∀ ns, ((e.disasmInPieces ns code address : Attempt backend (List Insn)).run s).value =
        .ok all := by
  intro s decode
  have hserves : s.Serves e := serves_reach ms he hempty
  let records := List.map (e.record s.diet)
  have htake : ∀ n, 1 ≤ n → records (e.entries code address n) =
      (records (e.entries code address 0)).take n := by
    intro n hn
    rw [e.entries_eq_take code address hn]
    exact List.map_take
  have hcounted : ∀ n, 1 ≤ n → (decode code address n s).value =
      .ok ((records (e.entries code address 0)).take n) := fun n hn =>
    (hserves.decode code address n).1.trans (congrArg Except.ok (htake n hn))
  refine ⟨records (e.entries code address 0), (hserves.decode code address 0).1, ?_, ?_,
    fun ns => hserves.pieces ns code address⟩
  · intro n hn
    have hk : (((records (e.entries code address 0)).take n).map Insn.size).sum =
        Encoding.span (e.entries code address n) := by
      rw [← htake n hn]
      exact e.sum_size_record s.diet _
    have hle : Encoding.span (e.entries code address n) ≤ code.length :=
      Encoding.span_cut_le _ _ _ _ _
    have hafter := hserves.decode code address n
    refine ⟨hcounted n hn, ?_⟩
    rw [hk]
    refine ⟨hle, toNat_add_ofNat hle hfits, ?_⟩
    intro s' hs'
    have hserves' : s'.Serves e ∧ s'.diet = s.diet := by
      rcases hs' with rfl | rfl
      · exact ⟨hserves, rfl⟩
      · exact hafter.2
    have hlater := (hserves'.1.decode (code.drop (Encoding.span (e.entries code address n)))
      (address + UInt64.ofNat (Encoding.span (e.entries code address n))) 0).1
    rw [hserves'.2] at hlater
    refine ⟨_, hlater, ?_⟩
    rw [← htake n hn]
    exact e.map_entries_resume (e.record s.diet) code address n
  · intro m n hm hmn
    refine ⟨_, _, hcounted m hm, hcounted n (by omega), ?_⟩
    exact List.take_prefix_take_left hmn

/-- Two instructions and a rest that is none, decoded with detail one at a time. -/
theorem decoding_resumed_push :
    let ms : List (Move backend) :=
      [.op (.openEngine 0 .x86 .width32), .op (.act 0 (.setDetail true))]
    let d := (Desk.reach {} ({} : Sample) ms).1
    let s : Sample := (Desk.reach {} ({} : Sample) ms).2
    let e : Engine := ⟨⟨0x101⟩, .x86, false, .width32, some .intel, true⟩
    let code : List UInt8 := [0x55, 0x01, 0xd8, 0xff]
    d.engine? 0 = some e ∧ s.emptyErrno = 0 ∧
      (0x1000 : UInt64).toNat + code.length < 2 ^ 64 ∧
      ∃ all, ((e.disasm code 0x1000 0 : Attempt backend (List Insn)).run s).value = .ok all ∧
        ((e.disasm code 0x1000 1 : Attempt backend (List Insn)).run s).value = .ok (all.take 1) ∧
        ((e.disasmInPieces [1, 1] code 0x1000 : Attempt backend (List Insn)).run s).value =
          .ok all := by
  intro ms d s e code
  obtain ⟨all, hall, hcounted, -, hpieces⟩ :=
    decoding_resumed ms 0 e rfl rfl code 0x1000 (by decide)
  exact ⟨rfl, rfl, by decide, all, hall, (hcounted 1 (Nat.le_refl 1)).1, hpieces [1, 1]⟩

end Sample

end Disassembly

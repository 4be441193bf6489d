import Disassembly.Proofs.Session.Shortcuts

/-!
# Conversion of what an engine hands out

A decode call hands out a count and a pointer.  Whatever these are, and whatever stands in the
entries behind the pointer, the records made of them are copies, one for each entry, in the same
order; a cursor then hands the records on one at a time and always knows how many are left.

* `Insn.Copies`, `Insn.copies_ofNative` — what a record has of the entry it was made from;
* `Engine.disasm_ok_iff`, `Engine.disasm_value` — when a decode succeeds, and what it gives then;
* `Cursor.getElem?_walk` — every step of a walk, and the cursor behind it;
* `Cursor.HandsOut`, `Cursor.handsOut_start` — what that comes to after any number of steps.
-/

namespace Disassembly

variable {B : Backend} {α : Type}

/-! ### One entry -/

/-- A record that an engine has made of a native entry.  The size is cut to what an entry can hold,
and the bytes are the first ones of the entry, as many as that. -/
structure Insn.Copies (e : Engine) (n : NativeInsn) (i : Insn) : Prop where
  id : i.id = n.id
  address : i.address = n.address
  size : i.size = min n.size.toNat maxInsnBytes
  length : i.bytes.length = i.size
  bytes : i.bytes = n.bytes.toList.take i.size
  text : i.text = if e.diet then none else some ⟨fieldText n.mnemonic, fieldText n.opStr⟩
  arch : i.arch = e.arch
  hasDetail : i.hasDetail = true ↔ e.detail = true ∧ n.detail.isSome = true
  block : ∀ b, i.block = some b → n.detail = some b

/-- The entry has room for as many bytes as its size is cut to. -/
theorem Insn.size_ofNative (arch : Arch) (diet detail : Bool) (n : NativeInsn) :
    (Insn.ofNative arch diet detail n).size = min n.size.toNat maxInsnBytes := by
  have hbytes : n.bytes.toList.length = maxInsnBytes := n.bytes.length_toList
  show (n.bytes.toList.take (min n.size.toNat maxInsnBytes)).length = _
  rw [List.length_take, hbytes]
  omega

theorem Insn.copies_ofNative (e : Engine) (n : NativeInsn) :
    (Insn.ofNative e.arch e.diet e.detail n).Copies e n := by
  have hsize := Insn.size_ofNative e.arch e.diet e.detail n
  refine ⟨rfl, rfl, hsize, rfl, ?_, rfl, rfl, ?_, ?_⟩
  · rw [hsize]
    rfl
  · show (if e.detail then n.detail else none).isSome = true ↔ _
    cases e.detail <;> simp
  · intro b hb
    have hcaptured : (if e.detail then n.detail else none) = some b := hb
    cases hdetail : e.detail with
    | false => simp [hdetail] at hcaptured
    | true => simpa [hdetail] using hcaptured

/-- A size of 40 is cut to the sixteen bytes of the entry. -/
example : (Insn.ofNative .x86 false true
    ⟨1, 16, 40, .replicate 16 0x90, [110, 111, 112], [], none⟩).bytes = List.replicate 16 0x90 := by
  decide

/-- The records made of several entries are copies of them, one by one. -/
theorem Insn.forall₂_copies (e : Engine) (l : List NativeInsn) :
    List.Forall₂ (Insn.Copies e) l (l.map (Insn.ofNative e.arch e.diet e.detail)) := by
  rw [List.forall₂_map_right_iff, List.forall₂_same]
  exact fun n _ => Insn.copies_ofNative e n

/-! ### One answer -/

/-- Nothing is read where nothing was counted or the pointer is null. -/
theorem Decoded.entries_of_nothing {d : Decoded} (h : d.array = none ∨ d.count = 0) : d.entries = [] := by
  unfold entries
  rcases h with harray | hcount
  · rw [harray]
  · rw [hcount]
    cases d.array <;> simp

namespace Engine

/-- **When a decode succeeds**: unless nothing was counted and the engine's status says why. -/
theorem disasm_ok_iff (e : Engine) (code : List UInt8) (address : UInt64) (count : Nat)
    (s : B.State) :
    let d := B.answer s (.disasm e.handle code address count)
    (∃ l, ((e.disasm code address count : Attempt B (List Insn)).run s).value = .ok l) ↔
      (d.1.count = 0 → (B.answer d.2 (.errno e.handle)).1 = (0 : Status)) := by
  rcases hd : B.answer s (.disasm e.handle code address count) with ⟨d, s₁⟩
  rw [run_disasm]
  by_cases hclear : d.count = 0 → (B.answer s₁ (.errno e.handle)).1 = (0 : Status)
  · obtain ⟨s₂, es, hrun, -⟩ := run_decodeNative_of_clear hd hclear
    rw [hrun]
    exact ⟨fun _ => hclear, fun _ => ⟨_, rfl⟩⟩
  · have hfails := hclear
    rw [Classical.not_imp] at hfails
    obtain ⟨hcount, hstatus⟩ := hfails
    obtain ⟨err, herr⟩ := decodeNative_fails hd hcount hstatus
    rw [herr]
    refine ⟨?_, fun h => absurd h hclear⟩
    rintro ⟨l, hl⟩
    exact nomatch hl

/-- **What a decode gives** if it succeeds: a record for each entry of the answer. -/
theorem disasm_value {e : Engine} {code : List UInt8} {address : UInt64} {count : Nat}
    {s : B.State} {l : List Insn}
    (h : ((e.disasm code address count : Attempt B (List Insn)).run s).value = .ok l) :
    l = (B.answer s (.disasm e.handle code address count)).1.entries.map
      (Insn.ofNative e.arch e.diet e.detail) := by
  have hclear := (disasm_ok_iff e code address count s).mp ⟨l, h⟩
  obtain ⟨s₂, es, hrun, -⟩ := run_decodeNative_of_clear rfl hclear
  rw [run_disasm, hrun] at h
  exact (Except.ok.inj h).symm

end Engine

/-! ### Cursors -/

namespace Cursor

/-- The cursor behind some steps from the start of a list. -/
def behind (l : List α) (steps : Nat) : Cursor α :=
  (((start l).walk steps).getLast?.map Prod.snd).getD (start l)

/-- Each step of a walk hands out the item at its place, if there is one, and leaves the items after
it. -/
theorem getElem?_walk (l : List α) (steps k : Nat) :
    ((start l).walk steps)[k]? = if k < steps then some (l[k]?, start (l.drop (k + 1))) else none := by
  induction steps generalizing l k with
  | zero => simp [walk]
  | succ steps ih =>
    have hnext : (start l).next = (l.head?, start (l.drop 1)) := by
      cases l <;> rfl
    rw [walk, hnext]
    cases k with
    | zero => simp [List.head?_eq_getElem?]
    | succ k =>
      rw [List.getElem?_cons_succ, ih]
      simp only [Nat.add_lt_add_iff_right, List.getElem?_drop, List.drop_drop]
      rw [Nat.add_comm 1 k, Nat.add_comm 1 (k + 1)]

/-- The cursor behind some steps holds the items that are left. -/
theorem behind_eq (l : List α) (steps : Nat) : behind l steps = start (l.drop steps) := by
  unfold behind
  cases steps with
  | zero => rfl
  | succ k => rw [List.getLast?_eq_getElem?, length_walk, Nat.add_sub_cancel, getElem?_walk,
      if_pos (Nat.lt_succ_self k), Option.map_some, Option.getD_some]

/-- What a walk has handed out is a beginning of the list. -/
theorem filterMap_walk (l : List α) (steps : Nat) :
    ((start l).walk steps).filterMap Prod.fst = l.take steps := by
  induction steps generalizing l with
  | zero => rfl
  | succ k ih =>
    cases l with
    | nil =>
      have hrest : ((start ([] : List α)).walk k).filterMap Prod.fst = [] := by simpa using ih []
      exact hrest
    | cons a as =>
      show a :: ((start as).walk k).filterMap Prod.fst = a :: as.take k
      rw [ih]

/-- What `steps` steps from the start of a list come to. -/
structure HandsOut (l : List α) (steps : Nat) : Prop where
  /-- As many items as there were steps, or all there are. -/
  yielded : ((start l).walk steps).filterMap Prod.fst = l.take (min steps l.length)
  exhausted : ∀ k < steps, ((start l).walk steps)[k]?.map Prod.fst = some none ↔ l.length ≤ k
  length : (behind l steps).length = l.length - min steps l.length
  sizeHint : (behind l steps).sizeHint = ((behind l steps).length, some (behind l steps).length)

theorem handsOut_start (l : List α) (steps : Nat) : HandsOut l steps where
  yielded := by rw [filterMap_walk, List.take_eq_take_min]
  exhausted := by
    intro k hk
    rw [getElem?_walk, if_pos hk]
    simp
  length := by
    rw [behind_eq]
    show (l.drop steps).length = _
    rw [List.length_drop]
    omega
  sizeHint := rfl

end Cursor

/-! ### The whole way -/

namespace Engine

/-- **A native answer is converted without loss.**  Whatever an engine is asked to decode, in whatever
configuration, and whatever it answers: the decode succeeds unless nothing was counted and its status
says why; then there is no record where the pointer is null or nothing was counted, and otherwise one
for each entry counted, in the same order and a copy of it; and a cursor hands out the records in
order, one at each step, and knows after each how many are left. -/
theorem answer_converted (B : Backend) (e : Engine) (code : List UInt8) (address : UInt64)
    (count : Nat) (s : B.State) :
    let answer := B.answer s (.disasm e.handle code address count)
    let result := ((e.disasm code address count : Attempt B (List Insn)).run s).value
    ((∃ l, result = .ok l) ↔
      (answer.1.count = 0 → (B.answer answer.2 (.errno e.handle)).1 = (0 : Status))) ∧
    ∀ l, result = .ok l →
      (answer.1.array = none ∨ answer.1.count = 0 → l = []) ∧
      (∀ a, answer.1.array = some a →
        List.Forall₂ (Insn.Copies e) (a.insns.take answer.1.count) l ∧
          (answer.1.count ≤ a.insns.length → l.length = answer.1.count)) ∧
      ∀ steps, Cursor.HandsOut l steps := by
  refine ⟨disasm_ok_iff e code address count s, ?_⟩
  intro l hl
  have hvalue := disasm_value hl
  refine ⟨?_, ?_, Cursor.handsOut_start l⟩
  · intro hnothing
    rw [hvalue, Decoded.entries_of_nothing hnothing]
    rfl
  · intro a ha
    have hentries : (B.answer s (.disasm e.handle code address count)).1.entries =
        a.insns.take (B.answer s (.disasm e.handle code address count)).1.count := by
      rw [Decoded.entries, ha]
    rw [hvalue, hentries]
    refine ⟨Insn.forall₂_copies e _, ?_⟩
    intro hcount
    rw [List.length_map, List.length_take]
    omega

end Engine

end Disassembly

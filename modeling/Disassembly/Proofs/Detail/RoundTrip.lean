import Disassembly.Proofs.Detail.Reading
import Disassembly.Proofs.Detail.Writing

/-!
# Decoding undoes the headers' layout

Reading and writing meet at `Holds`, which speaks of the engine's headers only.

* `ArchDetail.write_spec` — writing the fields of an architecture leaves them in its structure;
* `Detail.holds_write` — writing a detail over any filler leaves a block that holds it;
* `Detail.decode_undoes_layout` — decoding such a block, or any other block that holds a well-formed
  detail, gives the detail.

The filler is arbitrary, so the bytes that no field takes are arbitrary: padding, slots past a
count, and the bytes of a value that its kind does not use.
-/

namespace Disassembly

open Memory

/-! ### The fields of an architecture -/

/-- Bytes laid side by side may be laid one by one. -/
theorem Memory.put_cons (start : Nat) (b : UInt8) (bytes : List UInt8) (m : Memory) :
    put start (b :: bytes) m = put (start + 1) bytes (putByte start b m) := by
  funext i
  rcases Nat.lt_trichotomy i start with hlt | rfl | hgt
  · rw [put_outside start _ m (Or.inl hlt), put_outside (start + 1) bytes _ (Or.inl (by omega)),
      putByte, put_outside start [b] m (Or.inl hlt)]
  · have hhead := put_inside i (b :: bytes) m (i := 0) (by simp)
    have hbyte := put_inside i [b] m (i := 0) (by simp)
    rw [Nat.add_zero] at hhead hbyte
    rw [hhead, put_outside (i + 1) bytes _ (Or.inl (by omega)), putByte, hbyte]
    rfl
  · have hsub : i - start = i - (start + 1) + 1 := by omega
    have hkeep := put_outside start [b] m (i := i) (Or.inr hgt)
    rw [put, put, putByte, hkeep, if_pos (by omega), if_pos (by omega), hsub,
      List.getElem?_cons_succ]

theorem ArmDetail.write_spec {l : OperandLayout} {h : Header} (hf : l.Follows h) (hc : h.Coherent)
    (hcc : memberOf h.fields .cc = some ⟨0, 4⟩)
    (hupdate : memberOf h.fields .updateFlags = some ⟨4, 1⟩)
    (hwriteback : memberOf h.fields .writeback = some ⟨5, 1⟩) (start : Nat) {d : ArmDetail}
    (hcap : h.capacity < 256) (hlen : d.operands.length ≤ h.capacity)
    (hw : ∀ o ∈ d.operands, o.WellFormed h) (m : Memory) :
    HoldsArm h (d.write l start m) start d ∧
      m.AltersOnly (d.write l start m) start h.fields
        [.cc, .updateFlags, .writeback, .operands, .opCount] := by
  let m₁ := putU32 start d.cc m
  let m₂ := putFlag (start + 4) d.updateFlags m₁
  let m₃ := putFlag (start + 5) d.writeback m₂
  let m₄ := l.write start d.operands m₃
  have hwrite : d.write l start m = m₄ := rfl
  have h₁ : m.AltersOnly m₁ start h.fields [.cc] := altersOnly_putU32 hcc start d.cc m
  have h₂ : m₁.AltersOnly m₂ start h.fields [.updateFlags] := altersOnly_putFlag hupdate start _ m₁
  have h₃ : m₂.AltersOnly m₃ start h.fields [.writeback] := altersOnly_putFlag hwriteback start _ m₂
  obtain ⟨hoperands, t₃⟩ := OperandLayout.write_spec hf hc start hcap hlen hw m₃
  have t₂ : m₂.AltersOnly m₄ start h.fields [.writeback, .operands, .opCount] := h₃.append t₃
  have t₁ : m₁.AltersOnly m₄ start h.fields [.updateFlags, .writeback, .operands, .opCount] :=
    h₂.append t₂
  have hccStored : m₁.Stores start (memberOf h.fields .cc) d.cc.toNat := by
    rw [hcc]
    exact stores_putU32 start 0 d.cc m
  have hupdateStored : m₂.StoresFlag start (memberOf h.fields .updateFlags) d.updateFlags := by
    rw [hupdate]
    exact storesFlag_putFlag start 4 d.updateFlags m₁
  have hwritebackStored : m₃.StoresFlag start (memberOf h.fields .writeback) d.writeback := by
    rw [hwriteback]
    exact storesFlag_putFlag start 5 d.writeback m₂
  rw [hwrite]
  exact ⟨⟨hccStored.agree (t₁.agreeAt (by decide)), hupdateStored.agree (t₂.agreeAt (by decide)),
    hwritebackStored.agree (t₃.agreeAt (by decide)), hoperands⟩, h₁.append t₁⟩

theorem PpcDetail.write_spec (start : Nat) {d : PpcDetail} (hlen : d.operands.length ≤ 8)
    (hw : ∀ o ∈ d.operands, o.WellFormed Header.ppc) (m : Memory) :
    HoldsPpc (d.write start m) start d ∧
      m.AltersOnly (d.write start m) start Header.ppc.fields
        [.bc, .bh, .updateCr0, .operands, .opCount] := by
  let m₁ := putU32 start d.bc m
  let m₂ := putU32 (start + 4) d.bh m₁
  let m₃ := putFlag (start + 8) d.updateCr0 m₂
  let m₄ := OperandLayout.ppc.write start d.operands m₃
  have hwrite : d.write start m = m₄ := rfl
  have h₁ : m.AltersOnly m₁ start Header.ppc.fields [.bc] :=
    altersOnly_putU32 (o := 0) rfl start d.bc m
  have h₂ : m₁.AltersOnly m₂ start Header.ppc.fields [.bh] := altersOnly_putU32 rfl start d.bh m₁
  have h₃ : m₂.AltersOnly m₃ start Header.ppc.fields [.updateCr0] :=
    altersOnly_putFlag rfl start d.updateCr0 m₂
  obtain ⟨hoperands, t₃⟩ := OperandLayout.write_spec (OperandLayout.follows .ppc)
    (coherent_headers .ppc) start (by decide) hlen hw m₃
  have t₂ : m₂.AltersOnly m₄ start Header.ppc.fields [.updateCr0, .operands, .opCount] :=
    h₃.append t₃
  have t₁ : m₁.AltersOnly m₄ start Header.ppc.fields [.bh, .updateCr0, .operands, .opCount] :=
    h₂.append t₂
  have hbc : m₁.Stores start (memberOf Header.ppc.fields .bc) d.bc.toNat :=
    stores_putU32 start 0 d.bc m
  have hbh : m₂.Stores start (memberOf Header.ppc.fields .bh) d.bh.toNat :=
    stores_putU32 start 4 d.bh m₁
  have hcr : m₃.StoresFlag start (memberOf Header.ppc.fields .updateCr0) d.updateCr0 :=
    storesFlag_putFlag start 8 d.updateCr0 m₂
  rw [hwrite]
  exact ⟨⟨hbc.agree (t₁.agreeAt (by decide)), hbh.agree (t₂.agreeAt (by decide)),
    hcr.agree (t₃.agreeAt (by decide)), hoperands⟩, h₁.append t₁⟩

theorem X86Detail.write_spec (start : Nat) {d : X86Detail} (hlen : d.operands.length ≤ 8)
    (hw : ∀ o ∈ d.operands, o.WellFormed Header.x86) (m : Memory) :
    HoldsX86 (d.write start m) start d ∧
      m.AltersOnly (d.write start m) start Header.x86.fields
        [.prefixes, .segment, .opcode, .opSize, .addrSize, .dispSize, .immSize, .modrm, .sib,
          .disp, .sibIndex, .sibScale, .sibBase, .operands, .opCount] := by
  let m₁ := put (start + 0) d.prefixes.toList m
  let m₂ := putU32 (start + 8) d.segment m₁
  let m₃ := put (start + 12) d.opcode.toList m₂
  let m₄ := putByte (start + 15) d.opSize m₃
  let m₅ := putByte (start + 16) d.addrSize m₄
  let m₆ := putByte (start + 17) d.dispSize m₅
  let m₇ := putByte (start + 18) d.immSize m₆
  let m₈ := putByte (start + 19) d.modrm m₇
  let m₉ := putByte (start + 20) d.sib m₈
  let m₁₀ := putU32 (start + 24) d.disp.toUInt32 m₉
  let m₁₁ := putU32 (start + 28) d.sibIndex m₁₀
  let m₁₂ := putByte (start + 32) d.sibScale.toUInt8 m₁₁
  let m₁₃ := putU32 (start + 36) d.sibBase m₁₂
  let m₁₄ := OperandLayout.x86.write start d.operands m₁₃
  have hsix : put (start + 15) [d.opSize, d.addrSize, d.dispSize, d.immSize, d.modrm, d.sib] m₃ =
      m₉ := by
    rw [put_cons, put_cons, put_cons, put_cons, put_cons]
    rfl
  have hwrite : d.write start m = m₁₄ := by
    simp only [m₁₄, m₁₃, m₁₂, m₁₁, m₁₀, ← hsix]
    rfl
  let ms := Header.x86.fields
  have h₁ : m.AltersOnly m₁ start ms [.prefixes] :=
    altersOnly_put (x := ⟨0, 5⟩) rfl start (Nat.le_refl 0) _ (by simp) m
  have h₂ : m₁.AltersOnly m₂ start ms [.segment] := altersOnly_putU32 rfl start _ m₁
  have h₃ : m₂.AltersOnly m₃ start ms [.opcode] :=
    altersOnly_put (x := ⟨12, 3⟩) rfl start (Nat.le_refl 12) _ (by simp) m₂
  have h₄ : m₃.AltersOnly m₄ start ms [.opSize] := altersOnly_putByte rfl start _ m₃
  have h₅ : m₄.AltersOnly m₅ start ms [.addrSize] := altersOnly_putByte rfl start _ m₄
  have h₆ : m₅.AltersOnly m₆ start ms [.dispSize] := altersOnly_putByte rfl start _ m₅
  have h₇ : m₆.AltersOnly m₇ start ms [.immSize] := altersOnly_putByte rfl start _ m₆
  have h₈ : m₇.AltersOnly m₈ start ms [.modrm] := altersOnly_putByte rfl start _ m₇
  have h₉ : m₈.AltersOnly m₉ start ms [.sib] := altersOnly_putByte rfl start _ m₈
  have h₁₀ : m₉.AltersOnly m₁₀ start ms [.disp] := altersOnly_putU32 rfl start _ m₉
  have h₁₁ : m₁₀.AltersOnly m₁₁ start ms [.sibIndex] := altersOnly_putU32 rfl start _ m₁₀
  have h₁₂ : m₁₁.AltersOnly m₁₂ start ms [.sibScale] := altersOnly_putByte rfl start _ m₁₁
  have h₁₃ : m₁₂.AltersOnly m₁₃ start ms [.sibBase] := altersOnly_putU32 rfl start _ m₁₂
  obtain ⟨hoperands, t₁₃⟩ := OperandLayout.write_spec (OperandLayout.follows .x86)
    (coherent_headers .x86) start (by decide) hlen hw m₁₃
  have t₁₂ := h₁₃.append t₁₃
  have t₁₁ := h₁₂.append t₁₂
  have t₁₀ := h₁₁.append t₁₁
  have t₉ := h₁₀.append t₁₀
  have t₈ := h₉.append t₉
  have t₇ := h₈.append t₈
  have t₆ := h₇.append t₇
  have t₅ := h₆.append t₆
  have t₄ := h₅.append t₅
  have t₃ := h₄.append t₄
  have t₂ := h₃.append t₃
  have t₁ := h₂.append t₂
  have hprefixes : StoresBytes m₁ start ms .prefixes
      (d.prefixes.toList.map fun b => (b.toNat : Int)) :=
    storesBytes_put (fun _ => rfl) start _ m
  have hopcode : StoresBytes m₃ start ms .opcode
      (d.opcode.toList.map fun b => (b.toNat : Int)) :=
    storesBytes_put (fun _ => rfl) start _ m₂
  have hdisp : m₁₀.Stores start (memberOf ms .disp) d.disp.toInt :=
    stores_int32.mpr (stores_putU32 start 24 _ m₉)
  have hscale : m₁₂.Stores start (memberOf ms .sibScale) d.sibScale.toInt :=
    stores_int8.mpr (stores_putByte start 32 _ m₁₁)
  rw [hwrite]
  refine ⟨?_, h₁.append t₁⟩
  exact
    { prefixes := hprefixes.agree (n := 5) rfl (by simp) (t₁.agreeAt (by decide))
      segment := Stores.agree (stores_putU32 start 8 _ m₁) (t₂.agreeAt (by decide))
      opcode := hopcode.agree (n := 3) rfl (by simp) (t₃.agreeAt (by decide))
      opSize := Stores.agree (stores_putByte start 15 _ m₃) (t₄.agreeAt (by decide))
      addrSize := Stores.agree (stores_putByte start 16 _ m₄) (t₅.agreeAt (by decide))
      dispSize := Stores.agree (stores_putByte start 17 _ m₅) (t₆.agreeAt (by decide))
      immSize := Stores.agree (stores_putByte start 18 _ m₆) (t₇.agreeAt (by decide))
      modrm := Stores.agree (stores_putByte start 19 _ m₇) (t₈.agreeAt (by decide))
      sib := Stores.agree (stores_putByte start 20 _ m₈) (t₉.agreeAt (by decide))
      disp := hdisp.agree (t₁₀.agreeAt (by decide))
      sibIndex := Stores.agree (stores_putU32 start 28 _ m₁₀) (t₁₁.agreeAt (by decide))
      sibScale := hscale.agree (t₁₂.agreeAt (by decide))
      sibBase := Stores.agree (stores_putU32 start 36 _ m₁₂) (t₁₃.agreeAt (by decide))
      operands := hoperands }

theorem ArchDetail.write_spec (start : Nat) {d : ArchDetail}
    (hlen : d.operands.length ≤ (headers d.arch).capacity)
    (hw : ∀ o ∈ d.operands, o.WellFormed (headers d.arch)) (m : Memory) :
    HoldsArch (d.write start m) start d ∧
      ∃ ys, m.AltersOnly (d.write start m) start (headers d.arch).fields ys := by
  cases d with
  | arm d =>
    have hspec := ArmDetail.write_spec (OperandLayout.follows .arm) (coherent_headers .arm)
      rfl rfl rfl start (by decide) hlen hw m
    exact ⟨hspec.1, _, hspec.2⟩
  | arm64 d =>
    have hspec := ArmDetail.write_spec (OperandLayout.follows .arm64) (coherent_headers .arm64)
      rfl rfl rfl start (by decide) hlen hw m
    exact ⟨hspec.1, _, hspec.2⟩
  | mips os =>
    have hspec := OperandLayout.write_spec (OperandLayout.follows .mips) (coherent_headers .mips)
      start (by decide) hlen hw m
    exact ⟨hspec.1, _, hspec.2⟩
  | x86 d =>
    have hspec := X86Detail.write_spec start hlen hw m
    exact ⟨hspec.1, _, hspec.2⟩
  | ppc d =>
    have hspec := PpcDetail.write_spec start hlen hw m
    exact ⟨hspec.1, _, hspec.2⟩

/-! ### The whole block -/

theorem Detail.holds_write {d : Detail} (hw : d.WellFormed) (filler : Memory) :
    Holds (d.write filler) d := by
  let m₁ := IdListLayout.regsRead.write d.regsRead filler
  let m₂ := IdListLayout.regsWrite.write d.regsWrite m₁
  let m₃ := IdListLayout.groups.write d.groups m₂
  let m₄ := d.arch.write archStart m₃
  have hwrite : d.write filler = m₄ := rfl
  obtain ⟨hread, -⟩ := IdListLayout.holdsIds_write IdListLayout.follows_regsRead (by decide)
    hw.regsRead filler
  obtain ⟨hwritten, h₂⟩ := IdListLayout.holdsIds_write IdListLayout.follows_regsWrite (by decide)
    hw.regsWrite m₁
  obtain ⟨hgroups, h₃⟩ := IdListLayout.holdsIds_write IdListLayout.follows_groups (by decide)
    hw.groups m₂
  obtain ⟨harch, ys, halters⟩ := ArchDetail.write_spec archStart hw.length_le hw.operands m₃
  -- The fields of the architecture take bytes of the union at the end of the block only.
  have h₄ : m₃.AltersOnly m₄ 0 blockHeader [.arch] := by
    intro i hi
    have hout := hi .arch List.mem_cons_self _ memberOf_arch
    have hfits := size_fields_le d.arch.arch
    have hoffset : archStart = archOffset := by decide +kernel
    exact halters.outside (by dsimp only at hout; omega)
  have t₂ : m₂.AltersOnly m₄ 0 blockHeader [.groups, .groupsCount, .arch] := h₃.append h₄
  have t₁ : m₁.AltersOnly m₄ 0 blockHeader
      [.regsWrite, .regsWriteCount, .groups, .groupsCount, .arch] := h₂.append t₂
  have hoffset : archStart = archOffset := by decide +kernel
  rw [hoffset] at harch
  rw [hwrite]
  exact
    { regsRead := hread.agree rfl hw.regsRead.length_le (t₁.agreeAt (by decide))
        (t₁.agreeAt (by decide))
      regsWrite := hwritten.agree rfl hw.regsWrite.length_le (t₂.agreeAt (by decide))
        (t₂.agreeAt (by decide))
      groups := hgroups.agree rfl hw.groups.length_le (h₄.agreeAt (by decide))
        (h₄.agreeAt (by decide))
      arch := harch }

/-- The bytes past the block do not matter, since the declared block takes 696. -/
theorem Detail.holds_ofMemory {d : Detail} (hw : d.WellFormed) {m : Memory} (hd : Holds m d) :
    Holds (Block.ofMemory m).memory d := by
  apply hd.agree hw
  intro x f hf i _ hhigh
  have hle := memberOf_le hf
  rw [size_blockHeader] at hle
  have hi : i < 696 := by omega
  rw [Block.memory_ofMemory]
  exact if_pos hi

/-- **Decoding undoes the headers' layout**: writing a well-formed detail over any filler gives a
block that holds it, and every block that holds it decodes to it. -/
theorem Detail.decode_undoes_layout (d : Detail) (hw : d.WellFormed) :
    (∀ filler, Holds (Block.ofMemory (d.write filler)).memory d) ∧
      (∀ filler, Detail.decode d.arch.arch (.ofMemory (d.write filler)) = d) ∧
      ∀ b : Block, Holds b.memory d → Detail.decode d.arch.arch b = d := by
  have hwritten : ∀ filler, Holds (Block.ofMemory (d.write filler)).memory d := fun filler =>
    Detail.holds_ofMemory hw (Detail.holds_write hw filler)
  exact ⟨hwritten, fun filler => Detail.decode_of_holds hw (hwritten filler),
    fun b hb => Detail.decode_of_holds hw hb⟩

/-- An ARM instruction with a shifted register, a scaled reference and a negative immediate. -/
def Detail.shiftedLoad : Detail where
  regsRead := [15]
  groups := [3, 200]
  arch := .arm
    { cc := 14
      writeback := true
      operands :=
        [{ value := .reg 66, shift := some ⟨2, 31⟩ }, { value := .mem ⟨67, 68, -1, -4096⟩ },
          { value := .cimm (-1) }, { value := .invalid }] }

/-- Such an instruction comes back whole from a block of which every other byte is set. -/
theorem Detail.decode_shiftedLoad : Detail.shiftedLoad.WellFormed ∧
    Detail.decode .arm (.ofMemory (Detail.shiftedLoad.write fun _ => 255)) =
      Detail.shiftedLoad := by
  have hw : Detail.shiftedLoad.WellFormed := by decide +kernel
  exact ⟨hw, (Detail.decode_undoes_layout Detail.shiftedLoad hw).2.1 fun _ => 255⟩

end Disassembly

import FlashImage.Algorithms.Standard
import FlashImage.Proofs.Image.Projections
import FlashImage.Proofs.Repack.Pieces

/-!
# The CRC dword of an edited section

A section with a CRC at its end is kept in files without the CRC dword, and putting it together makes the
dword again (`trailerOf`). Contents may have been edited in between, as long as their number is the same.
The section that stands in the image afterwards (`Section.withData`) has the edited contents and is valid
(`Section.sectionBytes_of_payload`). That takes three parts to agree on where the CRC is, what it covers
and how it is computed: the check of a section, the record in the index, and the writer of the dword.

There is one exception. The dword that was split off comes back if the CRC computed for the section has
not changed, and a CRC that was stored wrong comes back with it. So an image that was never edited is put
together as it was, wrong CRCs and reserved bits included.

## Parts

* a CRC put into a dword, and a dword put behind a byte string;
* the section that other contents make, and `Section.sectionBytes_of_payload`.
-/

namespace FlashImage

/-! ### Dwords -/

/-- The CRC that is put into a dword is the one that stands there. -/
theorem CrcSlot.get_set (slot : CrcSlot) (dword : UInt32) (crc : UInt16) :
    slot.get (slot.set dword crc) = crc := by
  apply UInt16.toNat_inj.1
  apply Nat.eq_of_testBit_eq
  intro i
  -- A CRC has sixteen bits, so behind them there is nothing on either side.
  have hbehind (hi : ¬ i < 16) : crc.toNat.testBit i = false :=
    Nat.testBit_lt_two_pow (Nat.lt_of_lt_of_le crc.toNat_lt
      (Nat.pow_le_pow_right (by decide) (Nat.le_of_not_lt hi)))
  cases slot with
  | high =>
    have hmask : (0x0000ffff : UInt32).toNat = 2 ^ 16 - 1 := by decide
    have hshift : (16 : UInt32).toNat % 32 = 16 := by decide
    simp only [get, set, UInt32.toNat_toUInt16, UInt32.toNat_shiftRight, UInt32.toNat_or,
      UInt32.toNat_and, UInt32.toNat_shiftLeft, UInt16.toNat_toUInt32, Nat.testBit_mod_two_pow,
      Nat.testBit_shiftRight, Nat.testBit_or, Nat.testBit_and, Nat.testBit_shiftLeft, hmask, hshift,
      Nat.testBit_two_pow_sub_one]
    by_cases hi : i < 16
    · simp [hi, show ¬ 16 + i < 16 by omega, show 16 + i < 32 by omega]
    · simp [hi, hbehind hi]
  | low =>
    have hmask : (0xffff0000 : UInt32).toNat = (2 ^ 16 - 1) <<< 16 := by decide
    simp only [get, set, UInt32.toNat_toUInt16, UInt32.toNat_or, UInt32.toNat_and,
      UInt16.toNat_toUInt32, Nat.testBit_mod_two_pow, Nat.testBit_or, Nat.testBit_and, hmask,
      Nat.testBit_shiftLeft]
    by_cases hi : i < 16
    · simp [hi, show ¬ 16 ≤ i by omega]
    · simp [hi, hbehind hi]

namespace Section

variable {s : Section}

/-! ### Other contents in the same place -/

/-- **The section that other bytes make** in the place of a section, in an image that is not encrypted. -/
def withData (s : Section) (data : Bytes) : Section :=
  { s with data := data, encryptedImage := false }

/-- As many bytes as before are split just where they were. -/
theorem stripped_withData (h : s.stripped = true) {data : Bytes}
    (hlen : data.length = s.data.length) : (s.withData data).stripped = true := by
  have hplace : (s.withData data).place = s.place := place_congr rfl hlen rfl rfl
  rw [stripped, hplace, (of_stripped h).1]
  rfl

/-- **Contents and a dword behind them are split into just these.** -/
theorem split_withData (h : s.stripped = true) {contents : Bytes}
    (hlen : contents.length = s.payload.length) (dword : UInt32) :
    (s.withData (contents ++ Bytes.u32 dword)).stripped = true ∧
      (s.withData (contents ++ Bytes.u32 dword)).payload = contents ∧
      (s.withData (contents ++ Bytes.u32 dword)).trailer = some dword := by
  have hroom := (of_stripped h).2.2
  have hsize : (contents ++ Bytes.u32 dword).length = s.data.length := by
    rw [payload, if_pos h, List.length_take] at hlen
    rw [List.length_append, Bytes.length_u32, hlen]
    unfold trailerSize at *
    omega
  have hfront : (contents ++ Bytes.u32 dword).length - trailerSize = contents.length := by
    rw [List.length_append, Bytes.length_u32, trailerSize, Nat.add_sub_cancel]
  have hsplit := stripped_withData h hsize
  have hdata : (s.withData (contents ++ Bytes.u32 dword)).data = contents ++ Bytes.u32 dword := rfl
  refine ⟨hsplit, ?_, ?_⟩
  · rw [payload, if_pos hsplit, hdata, hfront, List.take_left]
  · rw [trailer, if_pos hsplit, hdata, hfront, Bytes.u32At_append_u32]

/-- Behind contents with the same CRC, the old dword has the old outcome. -/
theorem status_withData_of_eq (h : s.stripped = true) {contents : Bytes}
    (hlen : contents.length = s.payload.length) {dword : UInt32} (hdword : s.trailer = some dword)
    (hcrc : Crc.software s.payload = Crc.software contents) :
    (s.withData (contents ++ Bytes.u32 dword)).status = s.status := by
  obtain ⟨hsplit, hpayload, htrailer⟩ := split_withData h hlen dword
  rw [status_of_stripped hsplit htrailer, hpayload, status_of_stripped h hdword, hcrc]
  rfl

/-- A new dword makes the section valid. -/
theorem status_withData_of_new (h : s.stripped = true) {contents : Bytes}
    (hlen : contents.length = s.payload.length) :
    (s.withData (contents ++ Bytes.u32 (s.type.slot.set 0 (Crc.software contents)))).status = .valid := by
  obtain ⟨hsplit, hpayload, htrailer⟩ :=
    split_withData h hlen (s.type.slot.set 0 (Crc.software contents))
  have hslot (dword : UInt32) : (s.withData (contents ++ Bytes.u32 dword)).type.slot = s.type.slot := rfl
  rw [status_of_stripped hsplit htrailer, hpayload, hslot, CrcSlot.get_set, CrcStatus.check_self]

/-! ### Putting it together -/

section

variable [Algorithms] {read : FileReader} {fileName jsonFile : Option String} {contents : Bytes}

/-- A section that was split is put together from its contents and one dword. -/
theorem sectionBytes_of_stripped (hs : s.stripped = true) (hlen : contents.length = s.payload.length)
    (hread : sectionPayload read (.ofSection s fileName jsonFile) = .ok contents) :
    sectionBytes read (.ofSection s fileName jsonFile)
      = .ok (contents ++ Bytes.u32 (trailerOf (.ofSection s fileName jsonFile) contents)) := by
  have hsize : contents.length = (SectionRecord.ofSection s fileName jsonFile).size := hlen
  have hcut : (SectionRecord.ofSection s fileName jsonFile).stripped = true := hs
  simp only [sectionBytes, hread, bind, Except.bind, if_pos hsize, if_pos hcut]
  rfl

/-- **A CRC dword that was split off is rebuilt.** Whatever contents the files of a section yield, as long
as they are as many bytes as before, the section is put together from them and one dword. Contents that
were not changed give the very bytes of the section. In the image, the section has the contents and is
valid, unless it was not and the contents have the CRC that was computed for it: then the dword is the one
that was there. So a section that was valid stays so. -/
theorem sectionBytes_of_payload (hs : s.stripped = true)
    (hlen : contents.length = s.payload.length)
    (hread : sectionPayload read (.ofSection s fileName jsonFile) = .ok contents) :
    ∃ dword, sectionBytes read (.ofSection s fileName jsonFile) = .ok (contents ++ Bytes.u32 dword) ∧
      (contents = s.payload → contents ++ Bytes.u32 dword = s.data) ∧
      (s.withData (contents ++ Bytes.u32 dword)).stripped = true ∧
      (s.withData (contents ++ Bytes.u32 dword)).payload = contents ∧
      ((s.withData (contents ++ Bytes.u32 dword)).status = .valid ↔
        ¬ (s.status.isInvalid = true ∧ s.computedCrc = some (Crc.software contents))) ∧
      (s.computedCrc = some (Crc.software contents) → s.trailer = some dword) ∧
      (s.status = .valid → (s.withData (contents ++ Bytes.u32 dword)).status = .valid) := by
  obtain ⟨old, hold, hdata⟩ := payload_append_trailer hs
  have hcomputed : s.computedCrc = some (Crc.software contents) ↔
      Crc.software s.payload = Crc.software contents := by
    rw [computedCrc_of_stripped hs, Option.some.injEq]
  have hbytes := sectionBytes_of_stripped hs hlen hread
  rw [Image.trailerOf_ofSection hs hold] at hbytes
  by_cases hcrc : Crc.software s.payload = Crc.software contents
  · -- The CRC is the one that was computed, so the old dword comes back, and with it the old outcome.
    rw [if_pos hcrc] at hbytes
    obtain ⟨hsplit, hpayload, -⟩ := split_withData hs hlen old
    have hsame := status_withData_of_eq hs hlen hold hcrc
    refine ⟨old, hbytes, ?_, hsplit, hpayload, ?_, fun _ => hold, fun hvalid => hsame.trans hvalid⟩
    · rintro rfl
      exact hdata
    · rw [hsame, status_of_stripped hs hold, CrcStatus.check_eq_valid_iff, hcomputed]
      simp [hcrc]
  · -- The dword is a new one, with the CRC of the contents in it.
    rw [if_neg hcrc] at hbytes
    obtain ⟨hsplit, hpayload, -⟩ :=
      split_withData hs hlen (s.type.slot.set 0 (Crc.software contents))
    have hvalid := status_withData_of_new hs hlen
    refine ⟨_, hbytes, ?_, hsplit, hpayload, ?_, ?_, fun _ => hvalid⟩
    · rintro rfl
      exact absurd rfl hcrc
    · simp [hvalid, hcomputed, hcrc]
    · intro hsame
      exact absurd (hcomputed.1 hsame) hcrc

end

/-- A section for product data of four bytes, with a wrong CRC and reserved bits in its dword, whose file
was edited: the dword is made anew, and the section is valid. -/
theorem sectionBytes_of_payload_vpd :
    ∃ (s : Section) (read : FileReader) (contents : Bytes), s.stripped = true ∧ s.status.isInvalid = true ∧
      contents.length = s.payload.length ∧ contents ≠ s.payload ∧
      @sectionPayload read (@SectionRecord.ofSection .standard s (some "VPD_R0_0x00000000.bin") none)
        = .ok contents ∧
      ∃ dword, (s.withData (contents ++ Bytes.u32 dword)).status = .valid := by
  let s : Section :=
    ⟨0xe3, 0, [0x41, 0x42, 0x43, 0x44, 0xff, 0xff, 0x5a, 0x5a], .toc .dtoc 0, none, false⟩
  let contents : Bytes := [0x41, 0x42, 0x63, 0x44]
  let read : FileReader := Files.reader [("VPD_R0_0x00000000.bin", contents)]
  have hs : s.stripped = true := by decide +kernel
  have hread : @sectionPayload read
      (@SectionRecord.ofSection .standard s (some "VPD_R0_0x00000000.bin") none) = .ok contents := by rfl
  obtain ⟨dword, -, -, -, -, hvalid, -⟩ :=
    @sectionBytes_of_payload s .standard read _ _ contents hs rfl hread
  refine ⟨s, read, contents, hs, by decide +kernel, rfl, by decide, hread, dword, hvalid.2 ?_⟩
  decide +kernel

end Section

end FlashImage

import FlashImage.Machine.Records
import FlashImage.Proofs.Machine.Access
import FlashImage.Proofs.Toc.RoundTrip

/-!
# Pointers and tables without fault

The records of an image are read in whole parts of a fixed size, so nothing that is read in them is out
of range. What is left are the parts of a record that its CRC covers, the sizes and addresses of
entries, which are counted in dwords, and the size of a table, which is bounded by the bytes it was read
from.
-/

namespace FlashImage.Machine

/-! ### CRCs -/

@[simp] theorem software_eq (data : Bytes) : software data = .ok (Crc.software data) := by
  have hpadding : (4 - data.length % 4) % 4 ≤ 3 := by omega
  have hzeros : sliceTo (List.replicate 3 0) ((4 - data.length % 4) % 4)
      = .ok (List.replicate (Crc.padding data) 0) := by
    rw [sliceTo_eq (by simpa using hpadding), List.take_replicate, Nat.min_eq_left hpadding, Crc.padding]
  rw [software, sub_eq (by omega), ok_bind, hzeros]
  rfl

/-! ### Pointers -/

@[simp] theorem pointerStatus_eq (p : Pointer) : pointerStatus p = .ok p.status := by
  have hcovered : sliceTo p.encode 6 = .ok p.covered := by
    rw [sliceTo_eq (by rw [Pointer.length_encode]; decide), Pointer.encode,
      List.take_left' (by simp [Pointer.covered])]
  rw [pointerStatus, pointerCrc, hcovered, Pointer.status]
  split <;> rfl

@[simp] theorem badRecords_eq (ps : Pointers) : badRecords ps = .ok ps.badRecords := by
  have hround (x : Pointer × Nat) :
      (do return (x.2, ← pointerStatus x.1) : Run (Nat × CrcStatus)) = .ok (x.2, x.1.status) := by
    rw [pointerStatus_eq]
    rfl
  rw [badRecords, mapM_eq fun x _ => hround x]
  rfl

@[simp] theorem pointersStatus_eq (ps : Pointers) : pointersStatus ps = .ok ps.status := by
  rw [pointersStatus, badRecords_eq, ok_bind, Pointers.status]
  cases ps.badRecords <;> rfl

/-! ### Headers and entries -/

@[simp] theorem headerStatus_eq (h : TocHeader) : headerStatus h = .ok h.status := by
  have hlast : TocHeader.headerCrcField.dword < h.record.dwords.length := by
    rw [h.record.length_dwords]
    decide
  have hcleared : h.record.dwords.set TocHeader.headerCrcField.dword
        (h.record.dwords[TocHeader.headerCrcField.dword] &&& ~~~TocHeader.headerCrcField.mask)
      = (h.record.replace TocHeader.headerCrcField 0).dwords := by
    simp only [TocRecord.replace, BitField.replace]
    rw [List.modify_eq_set, List.getElem?_eq_getElem hlast]
    simp [FlashImage.setBits, BitField.mask]
  rw [headerStatus, field_eq, ok_bind, headerCrc, element_eq hlast, ok_bind,
    mask_eq (BitField.lsb_le_msb _) (BitField.msb_lt _), ok_bind]
  show (do return CrcStatus.check _ (← software (Bytes.ofDwords (h.record.dwords.set _
    (_ &&& ~~~TocHeader.headerCrcField.mask))))) = _
  rw [hcleared, software_eq]
  rfl

@[simp] theorem entryStatus_eq (e : TocEntry) : entryStatus e = .ok e.status := by
  have hlength : TocEntry.coveredLength ≤ e.encode.length := by
    rw [TocEntry.encode, TocRecord.length_encode]
    decide
  rw [entryStatus, sliceTo_eq hlength, ok_bind, field_eq, ok_bind, software_eq]
  rfl

@[simp] theorem entryType_eq (e : TocEntry) : entryType e = .ok e.type := by
  rw [entryType, field_eq]
  rfl

@[simp] theorem entryHas_eq (f : BitField) (e : TocEntry) : entryHas f e = .ok (e.has f) := by
  rw [entryHas, field_eq]
  rfl

/-- A number of dwords is a number of bytes within range. -/
theorem mul_dwords (dwords : UInt32) : mul dwords.toNat 4 = .ok (dwords.toNat * 4) := by
  have hlt := dwords.toNat_lt
  exact mul_eq (by omega)

@[simp] theorem entrySize_eq (e : TocEntry) : entrySize e = .ok e.size := by
  rw [entrySize, field_eq, ok_bind, mul_dwords]
  rfl

@[simp] theorem entryAddress_eq (e : TocEntry) : entryAddress e = .ok e.address := by
  rw [entryAddress, field_eq, ok_bind, mul_dwords]
  rfl

/-! ### Records field by field -/

theorem coveredMask_eq (fields : List BitField) (i : Nat) :
    coveredMask fields i = .ok (FlashImage.coveredMask fields i) := by
  have hfold (fields : List BitField) (m : UInt32) :
      fields.foldlM (fun m f => do return m ||| (← mask f.msb f.lsb)) m
        = (.ok (fields.foldl (fun m f => m ||| f.mask) m) : Run UInt32) := by
    induction fields generalizing m with
    | nil => rfl
    | cons f fields ih =>
      rw [List.foldlM_cons, mask_eq f.lsb_le_msb f.msb_lt]
      exact ih _
  exact hfold _ 0

@[simp] theorem reserved_eq (fields : List BitField) (r : TocRecord) :
    reserved fields r = .ok (r.reserved fields).dwords := by
  have hround (x : UInt32 × Nat) : (do return x.1 &&& ~~~(← coveredMask fields x.2) : Run UInt32)
      = .ok (x.1 &&& ~~~(FlashImage.coveredMask fields x.2)) := by
    rw [coveredMask_eq]
    rfl
  rw [reserved, mapM_eq fun x _ => hround x]
  show _ = Except.ok (reservedBits fields r.dwords)
  rw [reservedBits, List.mapIdx_eq_zipIdx_map]

@[simp] theorem headerJson_eq (h : TocHeader) : headerJson h = .ok h.toJson := by
  simp only [headerJson, field_eq, reserved_eq, ok_bind]
  rfl

@[simp] theorem entryJson_eq (e : TocEntry) : entryJson e = .ok e.toJson := by
  simp only [entryJson, field_eq, entryType_eq, entryHas_eq, reserved_eq, ok_bind]
  rfl

/-! ### Tables -/

theorem entriesFrom_encode (done entries : List TocEntry) :
    entriesFrom done (entries.map TocEntry.encode)
      = .ok (done.reverse ++ entries.takeWhile (!·.isEnd), entries.find? (·.isEnd)) := by
  induction entries generalizing done with
  | nil => simp [entriesFrom]
  | cons e entries ih =>
    have hdecode : TocEntry.decode e.encode = .ok e := by
      have hback := e.record.decodeAt_encode_append []
      rw [List.append_nil] at hback
      have hlength : TocRecord.size ≤ e.encode.length := Nat.le_of_eq e.record.length_encode.symm
      rw [TocEntry.decode, TocRecord.decode, if_pos hlength, TocEntry.encode, hback]
      rfl
    rw [List.map_cons, entriesFrom, hdecode]
    show (do if (← entryType e) = TocEntry.endType then _ else _) = _
    rw [entryType_eq, ok_bind]
    -- Reading stops at the first end marker, which is kept apart.
    by_cases hend : e.isEnd = true
    · have htype : e.type = TocEntry.endType := of_decide_eq_true hend
      rw [if_pos htype]
      simp [hend]
      rfl
    · have htype : ¬ e.type = TocEntry.endType := of_decide_eq_false (Bool.not_eq_true _ ▸ hend)
      rw [if_neg htype, ih]
      simp [hend]

theorem decodeToc_eq (bs : Bytes) : decodeToc bs = settled (Toc.decode bs) := by
  by_cases hlength : TocRecord.size ≤ bs.length
  · have hsignature : TocHeader.signatureField.get (TocRecord.decodeAt bs 0).dwords = bs.u32At 0 :=
      TocHeader.signature_decodeAt bs 0
    have hcount : (bs.drop TocRecord.size).length / TocRecord.size = bs.length / TocRecord.size - 1 := by
      rw [List.length_drop]
      unfold TocRecord.size
      omega
    have hchunks : chunks TocRecord.size (bs.drop TocRecord.size)
        = ((List.range (bs.length / TocRecord.size - 1)).map
            (Toc.entryAt (bs.drop TocRecord.size))).map TocEntry.encode := by
      rw [← hcount, Toc.encode_entryAt]
      rfl
    rw [Toc.decode_of_le hlength, decodeToc, TocHeader.decode_of_le hlength]
    simp only [field_eq, lift_ok, settled_ok_bind, hsignature]
    cases TocKind.ofSignature? (bs.u32At 0) with
    | none => rfl
    | some kind =>
      simp only [sliceFrom_eq hlength, hchunks, entriesFrom_encode, Toc.entriesFrom_eq, lift_ok,
        settled_ok_bind]
      rfl
  · rw [Toc.decode_of_lt (Nat.not_le.1 hlength), decodeToc, TocHeader.decode, TocRecord.decode,
      if_neg hlength]
    rfl

/-- A table is no larger than the bytes it was read from. -/
theorem tocSize_eq {t : Toc} (h : t.size < 2 ^ 64) : tocSize t = .ok t.size := by
  have hsize : t.size = (1 + t.entries.length + t.endMarker.toList.length) * TocRecord.size := by
    rw [Toc.size, Toc.records, List.length_append, Nat.add_assoc]
  rw [hsize, TocRecord.size] at h
  rw [tocSize, add_eq (by omega), ok_bind, add_eq (by omega), ok_bind, TocRecord.size, mul_eq h, hsize]
  rfl

@[simp] theorem tocStatus_eq (t : Toc) : tocStatus t = .ok t.status := by
  rw [tocStatus, headerStatus_eq, ok_bind, mapM_eq fun e _ => entryStatus_eq e]
  rfl

/-! ### Findings -/

@[simp] theorem findings_eq (t : Toc) (address : Nat) :
    findings t address = .ok (t.findings address) := by
  have hkey (e : TocEntry) : (do return (← entryType e, ← entryAddress e) : Run (UInt8 × Nat))
      = .ok (e.type, e.address) := by
    rw [entryType_eq, entryAddress_eq]
    rfl
  have hentry (index : Nat) (earlier : List (UInt8 × Nat)) (e : TocEntry) :
      entryFindings t.kind index earlier e = .ok (Toc.entryFindings t.kind index earlier e) := by
    rw [entryFindings, entryStatus_eq, ok_bind, entryType_eq, ok_bind, entryAddress_eq, ok_bind,
      entryHas_eq]
    rfl
  rw [findings, headerStatus_eq, ok_bind, mapM_eq fun e _ => hkey e, ok_bind,
    mapM_eq fun x _ => hentry x.2 _ x.1, ok_bind, Toc.findings, List.flatMap_def]
  rfl

theorem readToc_eq {data : Bytes} (h : data.length < 2 ^ 63) (address : Nat) :
    readToc data address = settled (Toc.read data address) := by
  unfold readToc Toc.read
  split
  · rw [decodeToc_eq]
    cases hdecode : Toc.decode (data.drop address) with
    | error e => rfl
    | ok t =>
      have hsize := (Toc.decode_spec hdecode).1
      rw [List.length_drop] at hsize
      simp only [adapt_settled, mapError_ok, settled_ok_bind, findings_eq, lift_ok, Toc.endFindings]
      cases t.endMarker with
      | some e => rw [List.append_nil]; rfl
      | none =>
        -- A table that was decoded lies in the image, so its end is a word.
        have hroom : t.size + TocRecord.size < 2 ^ 64 := by
          unfold TocRecord.size
          omega
        simp only [tocSize_eq (show t.size < 2 ^ 64 by omega), add_eq hroom, lift_ok, settled_ok_bind]
        rfl
  · rfl

end FlashImage.Machine

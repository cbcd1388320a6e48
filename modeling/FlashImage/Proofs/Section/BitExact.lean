import FlashImage.Proofs.Outcome
import FlashImage.Proofs.Text.Field
import FlashImage.Proofs.Toc.Table
import FlashImage.Section.Projection

/-!
# Contents are written back as they were read

Reading the contents of a section and writing what was read gives the very same bytes, whatever they
are: reserved bits, padding, and bytes behind the last field included. The fields of a record lie one
behind the other, so its encoder joins neighbouring parts of the bytes that its decoder took apart.

Two forms stand for only the front of the bytes they are read from. The pointer array has sixteen records,
and a table of contents ends with its end marker.

## Parts

* the records that sections are made of;
* one lemma for each form, and `Projection.encode_of_decode` for all of them.
-/

namespace FlashImage

/-! ### Records inside of sections -/

theorem UidBlock.encode_decodeAt {bs : Bytes} {offset : Nat} (h : offset + size ≤ bs.length) :
    (decodeAt bs offset).encode = bs.slice offset size := by
  unfold size at h
  rw [encode, decodeAt, Bytes.u64_u64At (by omega), Bytes.u32_u32At (by omega),
    Bytes.u32_u32At (by omega), Bytes.slice_append_slice, Bytes.slice_append_slice]
  rfl

theorem Version.encode_decodeAt {bs : Bytes} {offset : Nat} (h : offset + size ≤ bs.length) :
    (decodeAt bs offset).encode = bs.slice offset size := by
  unfold size at h
  rw [encode, decodeAt, Bytes.u16_u16At (by omega), Bytes.u16_u16At (by omega),
    Bytes.u16_u16At (by omega), Bytes.u16_u16At (by omega), Bytes.slice_append_slice,
    Bytes.slice_append_slice, Bytes.slice_append_slice]
  rfl

theorem Pointer.encode_decodeAt {bs : Bytes} {offset : Nat} (h : offset + size ≤ bs.length) :
    (decodeAt bs offset).encode = bs.slice offset size := by
  unfold size at h
  rw [encode, covered, decodeAt, Bytes.u32_u32At (by omega), Bytes.u16_u16At (by omega),
    Bytes.u16_u16At (by omega), Bytes.slice_append_slice, Bytes.slice_append_slice]
  rfl

theorem HashEntry.encode_decodeAt {bs : Bytes} {offset : Nat} (h : offset + size ≤ bs.length) :
    (decodeAt bs offset).encode = bs.slice offset size := by
  unfold size at h
  rw [encode, decodeAt, Bytes.u32_u32At (by omega), Bytes.u32_u32At (by omega),
    Bytes.slice_append_slice]
  rfl

theorem PublicKey.encode_decodeAt {length : Nat} {bs : Bytes} {offset : Nat}
    (h : offset + size length ≤ bs.length) :
    (decodeAt length bs offset).encode = bs.slice offset (size length) := by
  unfold size uuidSize at *
  rw [encode, decodeAt, Bytes.u32_u32At (by omega), Bytes.slice_append_slice, Nat.add_assoc,
    Bytes.slice_append_slice]
  rfl

/-- Versions in a row are written back. -/
theorem Version.encodeAll_decodeAll {bs : Bytes} {offset count : Nat}
    (h : offset + count * size ≤ bs.length) :
    encodeAll (decodeAll bs offset count) = bs.slice offset (count * size) := by
  refine Bytes.flatMap_rows count fun i hi => encode_decodeAt ?_
  have hle : (i + 1) * size ≤ count * size := Nat.mul_le_mul_right _ hi
  rw [Nat.add_mul, Nat.one_mul] at hle
  omega

/-! ### Fields of a fixed width -/

theorem needBytes_of_le {d : Bytes} {n : Nat} (h : n ≤ d.length) : needBytes d n = .ok () := if_pos h

theorem needBytes_of_lt {d : Bytes} {n : Nat} (h : d.length < n) :
    needBytes d n = .error (.tooShort n d.length) :=
  if_neg (Nat.not_le_of_lt h)

/-- Contents that are read after a check of their length are long enough. -/
theorem of_needBytes {α : Type} {d : Bytes} {n : Nat} {x : Except DecodeError α} {a : α}
    (h : (do needBytes d n; x) = .ok a) : n ≤ d.length ∧ x = .ok a := by
  rw [needBytes] at h
  split at h
  · next hle => exact ⟨hle, h⟩
  · cases h

/-- A part is a character field of its own width. -/
theorem FieldText.toField_slice {d : Bytes} {name : String} {offset width : Nat}
    (h : offset + width ≤ d.length) :
    (ofField (d.slice offset width)).toField name width = .ok (d.slice offset width) :=
  toField_ofField _ name (Bytes.length_slice_of_le h)

theorem Bytes.exactWidth_of_length {src : Bytes} {width : Nat} (h : src.length = width) (name : String) :
    exactWidth name src width = .ok src :=
  if_pos h

/-- A part has its own width. -/
theorem Bytes.exactWidth_slice {d : Bytes} {name : String} {offset width : Nat}
    (h : offset + width ≤ d.length) :
    exactWidth name (d.slice offset width) width = .ok (d.slice offset width) :=
  exactWidth_of_length (length_slice_of_le h) name

/-! ### The forms -/

theorem ImageInfo.encode_of_decode {d : Bytes} {i : ImageInfo} (h : decode d = .ok i) :
    i.encode = .ok d := by
  obtain ⟨hlength, h⟩ := of_needBytes h
  cases h
  unfold size at hlength
  simp (disch := omega) only [encode, encodeHead, encodeHardwareIds, FieldText.toField_slice,
    Bytes.exactWidth_slice, Bytes.u32_u32At, Bytes.u16_u16At, Bytes.ofDwords, List.flatMap_cons,
    List.flatMap_nil, List.append_nil]
  simp only [bind, Except.bind, pure, Except.pure, ← List.append_assoc]
  simp only [Bytes.slice_zero_left, Bytes.take_append_slice, Nat.reduceAdd]
  exact congrArg Except.ok (List.take_append_drop size d)

theorem DeviceInfo.encode_of_decode {d : Bytes} {i : DeviceInfo} (h : decode d = .ok i) :
    i.encode = .ok d := by
  rw [decode] at h
  split at h
  · cases h
  next hlength =>
  split at h
  · cases h
  cases h
  replace hlength : d.length = 508 := Decidable.not_not.1 hlength
  have hblock {offset : Nat} (h : offset + 16 ≤ d.length) :
      (UidBlock.decodeAt d offset).encode = d.slice offset 16 := UidBlock.encode_decodeAt h
  -- The last field ends where the record does, so nothing is left over.
  simp only [encode, size, Nat.reduceSub]
  simp (disch := omega) only [FieldText.toField_slice, Bytes.exactWidth_slice, hblock,
    Bytes.u32_u32At, Bytes.ofDwords, List.flatMap_cons, List.flatMap_nil, List.append_nil]
  simp only [bind, Except.bind, pure, Except.pure, ← List.append_assoc]
  simp only [Bytes.slice_zero_left, Bytes.take_append_slice, Nat.reduceAdd]
  rw [List.take_of_length_le (Nat.le_of_eq hlength)]

theorem MfgInfo.encode_of_decode {d : Bytes} {m : MfgInfo} (h : decode d = .ok m) :
    m.encode = .ok d := by
  obtain ⟨hlength, h⟩ := of_needBytes h
  cases h
  unfold size at hlength
  have hblock {offset : Nat} (h : offset + 16 ≤ d.length) :
      (UidBlock.decodeAt d offset).encode = d.slice offset 16 := UidBlock.encode_decodeAt h
  simp (disch := omega) only [encode, FieldText.toField_slice, Bytes.exactWidth_slice, hblock,
    Bytes.u32_u32At]
  simp only [bind, Except.bind, pure, Except.pure]
  simp only [Bytes.slice_zero_left, Bytes.take_append_slice, Nat.reduceAdd]
  exact congrArg Except.ok (List.take_append_drop size d)

/-- A length that is read from a dword is computed from the dword that stands there. -/
theorem Bytes.map_readU32_eq_some_iff {bs : Bytes} {offset l : Nat} {f : UInt32 → Nat} :
    (bs.readU32 offset).toOption.map f = some l ↔
      offset + 4 ≤ bs.length ∧ l = f (bs.u32At offset) := by
  by_cases hin : offset + 4 ≤ bs.length
  · simp [readU32_of_le hin, Except.toOption, hin, eq_comm]
  · simp [readU32, slice?, hin, Except.toOption]

/-- A dword that was read inside of the contents. -/
theorem of_readU32 {d : Bytes} {offset : Nat} {x : UInt32}
    (h : (d.readU32 offset).mapError DecodeError.access = .ok x) :
    offset + 4 ≤ d.length ∧ x = d.u32At offset := by
  unfold Bytes.readU32 Bytes.slice? at h
  split at h
  · next hle =>
    cases h
    exact ⟨hle, rfl⟩
  · cases h

theorem Boot2.encode_of_decode {d : Bytes} {b : Boot2} (h : decode d = .ok b) : b.encode = d := by
  obtain ⟨header, hheader, h⟩ := exists_of_bind_eq_ok h
  obtain ⟨dwords, hdwords, h⟩ := exists_of_bind_eq_ok h
  obtain ⟨-, rfl⟩ := of_readU32 hheader
  obtain ⟨-, rfl⟩ := of_readU32 hdwords
  split at h
  · next hlength =>
    cases h
    rw [encode, Bytes.u32_u32At (by omega), Bytes.u32_u32At (by omega), Bytes.u32_u32At (by omega),
      Bytes.slice_zero_left, Bytes.take_append_slice, Bytes.take_append_slice,
      Bytes.take_append_slice, List.take_of_length_le (by omega)]
  · cases h

theorem HashesTable.encode_of_decode {d : Bytes} {t : HashesTable} (h : decode d = .ok t) :
    t.encode = d := by
  obtain ⟨hheader, h⟩ := of_needBytes h
  split at h
  · obtain ⟨hentries, h⟩ := of_needBytes h
    cases h
    generalize entryCount (d.u32At 4) = n at hentries
    unfold headerSize at hheader
    simp only [storageOffset, headerSize, HashEntry.size] at hentries ⊢
    -- The entries are a row of records between the header and the storage.
    have hrows : ((List.range n).map fun i => HashEntry.decodeAt d (16 + i * 8)).flatMap
        HashEntry.encode = d.slice 16 (n * 8) :=
      Bytes.flatMap_rows n fun i hi => HashEntry.encode_decodeAt (by unfold HashEntry.size; omega)
    simp (disch := omega) only [encode, hrows, Bytes.u32_u32At, Bytes.ofDwords,
      List.flatMap_cons, List.flatMap_nil, List.append_nil]
    simp only [← List.append_assoc, Bytes.slice_zero_left, Bytes.take_append_slice, Nat.reduceAdd]
    exact List.take_append_drop _ d
  · cases h

theorem ResetInfo.encode_of_decode {d : Bytes} {r : ResetInfo} (h : decode d = .ok r) :
    r.encode = d := by
  obtain ⟨hlength, h⟩ := of_needBytes h
  cases h
  unfold size versionCount Version.size at hlength
  rw [encode, Version.encodeAll_decodeAll (by unfold versionCount Version.size; omega),
    Bytes.u32_u32At (by omega), Bytes.slice_zero_left, Bytes.take_append_slice]
  exact List.take_append_drop size d

theorem ImageSignature.encode_of_decode {length : Nat} {d : Bytes} {s : ImageSignature}
    (h : decode length d = .ok s) : s.encode = d := by
  obtain ⟨hlength, h⟩ := of_needBytes h
  cases h
  rw [encode, Bytes.u32_u32At (by omega), Bytes.slice_zero_left, Bytes.take_append_slice,
    List.take_append_drop]

theorem PublicKeys.encode_of_decode {length : Nat} {d : Bytes} {ks : PublicKeys}
    (h : decode length d = .ok ks) : ks.encode = d := by
  obtain ⟨-, h⟩ := of_needBytes h
  cases h
  -- Whole keys are read, and what is left over is kept behind them.
  have hfit : d.length / PublicKey.size length * PublicKey.size length ≤ d.length :=
    Nat.div_mul_le_self _ _
  have hrows : ((List.range (d.length / PublicKey.size length)).map fun i =>
        PublicKey.decodeAt length d (i * PublicKey.size length)).flatMap PublicKey.encode
      = d.slice 0 (d.length / PublicKey.size length * PublicKey.size length) := by
    refine Bytes.flatMap_rows _ fun i hi => ?_
    have hle := Nat.mul_le_mul_right (PublicKey.size length) (Nat.succ_le_of_lt hi)
    rw [Nat.succ_mul] at hle
    rw [PublicKey.encode_decodeAt (by omega), Nat.zero_add]
  rw [encode, hrows, Bytes.slice_zero_left, List.take_append_drop]

theorem ForbiddenVersions.encode_of_decode {d : Bytes} {f : ForbiddenVersions}
    (h : decode d = .ok f) : f.encode = d := by
  obtain ⟨hcount, h⟩ := of_needBytes h
  obtain ⟨hlength, h⟩ := of_needBytes h
  cases h
  unfold size at hlength
  rw [encode, Version.encodeAll_decodeAll hlength, Bytes.u32_u32At (by omega),
    Bytes.slice_zero_left, Bytes.take_append_slice]
  exact List.take_append_drop _ d

theorem ToolsArea.encode_of_decode {d : Bytes} {t : ToolsArea} (h : decode d = .ok t) :
    t.encode = .ok d := by
  rw [decode] at h
  split at h
  · next hlength =>
    cases h
    unfold size at hlength
    simp only [encode, crcOffset, Nat.reduceSub, Nat.reduceAdd]
    simp (disch := omega) only [Bytes.exactWidth_slice, Bytes.u32_u32At, Bytes.u16_u16At,
      Bytes.ofDwords, List.flatMap_cons, List.flatMap_nil, List.append_nil]
    simp only [bind, Except.bind, pure, Except.pure, ← List.append_assoc]
    simp only [Bytes.slice_zero_left, Bytes.take_append_slice, Nat.reduceAdd]
    rw [List.take_of_length_le (Nat.le_of_eq hlength)]
  · cases h

theorem Pointers.encode_of_decode {d : Bytes} {ps : Pointers} (h : decode d = .ok ps) :
    ps.encode = d.take size := by
  rw [decode] at h
  split at h
  · next hlength =>
    cases h
    unfold size count Pointer.size at hlength
    show (List.map (fun i => Pointer.decodeAt d (i * Pointer.size)) (List.range count)).flatMap
      Pointer.encode = Bytes.slice d 0 (count * Pointer.size)
    refine Bytes.flatMap_rows count fun i hi => ?_
    have hi : i < 16 := hi
    have hfit : i * Pointer.size + Pointer.size ≤ d.length := by
      unfold Pointer.size
      omega
    rw [Pointer.encode_decodeAt hfit, Nat.zero_add]
  · cases h

/-! ### All forms together -/

namespace Projection

/-- **The front of the contents that a projection stands for.** The pointer array has a fixed length and
a table ends with its end marker; every other form stands for all of the contents. -/
def covered (d : Bytes) : Projection → Bytes
  | pointers _ => d.take Pointers.size
  | toc t => d.take t.size
  | _ => d

/-- **Contents are written back as they were read**, whatever their kind; only opaque contents have no
form to be written from. -/
theorem encode_of_decode [Algorithms] {family : Family} {d : Bytes} {p : Projection}
    (h : decode family d = .ok p) (hfamily : family ≠ .generic) : p.encode = .ok (p.covered d) := by
  cases family with
  | generic => exact absurd rfl hfamily
  | pointers =>
    obtain ⟨ps, hps, rfl⟩ := exists_of_map_eq_ok h
    exact congrArg Except.ok (Pointers.encode_of_decode (eq_ok_of_mapError_eq_ok hps))
  | toc =>
    obtain ⟨t, ht, rfl⟩ := exists_of_map_eq_ok h
    exact congrArg Except.ok (Toc.decode_spec (eq_ok_of_mapError_eq_ok ht)).2.1
  | imageInfo =>
    obtain ⟨i, hi, rfl⟩ := exists_of_map_eq_ok h
    exact ImageInfo.encode_of_decode hi
  | deviceInfo =>
    obtain ⟨i, hi, rfl⟩ := exists_of_map_eq_ok h
    exact DeviceInfo.encode_of_decode hi
  | mfgInfo =>
    obtain ⟨m, hm, rfl⟩ := exists_of_map_eq_ok h
    exact MfgInfo.encode_of_decode hm
  | boot2 =>
    obtain ⟨b, hb, rfl⟩ := exists_of_map_eq_ok h
    exact congrArg Except.ok (Boot2.encode_of_decode hb)
  | hashesTable =>
    obtain ⟨t, ht, rfl⟩ := exists_of_map_eq_ok h
    exact congrArg Except.ok (HashesTable.encode_of_decode ht)
  | resetInfo =>
    obtain ⟨r, hr, rfl⟩ := exists_of_map_eq_ok h
    exact congrArg Except.ok (ResetInfo.encode_of_decode hr)
  | imageSignature length =>
    obtain ⟨s, hs, rfl⟩ := exists_of_map_eq_ok h
    exact congrArg Except.ok (ImageSignature.encode_of_decode hs)
  | publicKeys length =>
    obtain ⟨ks, hks, rfl⟩ := exists_of_map_eq_ok h
    exact congrArg Except.ok (PublicKeys.encode_of_decode hks)
  | forbiddenVersions =>
    obtain ⟨f, hf, rfl⟩ := exists_of_map_eq_ok h
    exact congrArg Except.ok (ForbiddenVersions.encode_of_decode hf)
  | debugIni =>
    obtain ⟨i, hi, rfl⟩ := exists_of_map_eq_ok h
    rw [DebugIni.decode] at hi
    split at hi
    · cases hi
      rfl
    · cases hi
  | debugParams =>
    cases h
    rfl
  | blob =>
    cases h
    rfl
  | vpd =>
    cases h
    rfl
  | toolsArea =>
    obtain ⟨t, ht, rfl⟩ := exists_of_map_eq_ok h
    exact ToolsArea.encode_of_decode ht

end Projection

end FlashImage

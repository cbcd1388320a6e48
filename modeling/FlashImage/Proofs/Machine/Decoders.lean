import FlashImage.Machine.Decoders
import FlashImage.Proofs.Machine.Records

/-!
# Reading contents without fault

Each kind of contents has a decoder of its own. Some test the length of the contents first and then read
at fixed offsets; others read a number of records, or a length in dwords, and take the offsets of
everything behind it from there. In either case the test that comes first is what keeps the reading in
range: a decoder that got past it reads inside of the contents, and one that did not reads nothing.

So every proof here has the same two halves. Without the test the decoder refuses, as its definition
does; with it each read is the word or the part that the definition has (`readU32_ok` and its kin), and
each sum is below the length of the contents.
-/

namespace FlashImage.Machine

@[simp] theorem lift_settled {α : Type} (r : Except AccessError α) :
    (liftM (settled r) : Step DecodeError α) = settled (r.mapError .access) :=
  adapt_settled _ _

/-! ### Reading inside the contents -/

variable {d : Bytes} {offset len : Nat}

theorem slice_ok (hd : d.length < 2 ^ 63) (h : offset + len ≤ d.length) :
    slice d offset len = settled (.ok (d.slice offset len)) := by
  rw [slice_eq (by omega), Bytes.slice?_of_le h]

theorem readU16_ok (hd : d.length < 2 ^ 63) (h : offset + 2 ≤ d.length) :
    readU16 d offset = settled (.ok (d.u16At offset)) := by
  rw [readU16_eq (by omega), Bytes.readU16, Bytes.slice?_of_le h]
  rfl

theorem readU32_ok (hd : d.length < 2 ^ 63) (h : offset + 4 ≤ d.length) :
    readU32 d offset = settled (.ok (d.u32At offset)) := by
  rw [readU32_eq (by omega), Bytes.readU32_of_le h]

theorem readU64_ok (hd : d.length < 2 ^ 63) (h : offset + 8 ≤ d.length) :
    readU64 d offset = settled (.ok (d.u64At offset)) := by
  rw [readU64_eq (by omega), Bytes.readU64, Bytes.slice?_of_le h]
  rfl

theorem readUid_ok (hd : d.length < 2 ^ 63) (h : offset + 16 ≤ d.length) :
    readUid d offset = settled (.ok (.decodeAt d offset)) := by
  rw [readUid, readU64_ok hd (by omega), settled_ok_bind, add_eq (by omega), lift_ok, settled_ok_bind,
    readU32_ok hd (by omega), settled_ok_bind, add_eq (by omega), lift_ok, settled_ok_bind,
    readU32_ok hd (by omega)]
  rfl

theorem readVersion_ok (hd : d.length < 2 ^ 63) (h : offset + 8 ≤ d.length) :
    readVersion d offset = settled (.ok (.decodeAt d offset)) := by
  rw [readVersion, readU16_ok hd (by omega), settled_ok_bind, add_eq (by omega), lift_ok,
    settled_ok_bind, readU16_ok hd (by omega), settled_ok_bind, add_eq (by omega), lift_ok,
    settled_ok_bind, readU16_ok hd (by omega), settled_ok_bind, add_eq (by omega), lift_ok,
    settled_ok_bind, readU16_ok hd (by omega)]
  rfl

/-- **A test for length comes first.** What stands behind it has to be settled only on contents that are
long enough. -/
theorem settled_needBytes_bind {α : Type} {n : Nat} {f : Step DecodeError α} {r : Except DecodeError α}
    (h : n ≤ d.length → f = settled r) :
    (do settled (needBytes d n); f) = settled (do needBytes d n; r) := by
  unfold needBytes
  split
  · next hn => exact h hn
  · rfl

/-! ### Descriptions of images and devices -/

theorem decodeImageInfo_eq (hd : d.length < 2 ^ 63) :
    decodeImageInfo d = settled (ImageInfo.decode d) := by
  refine settled_needBytes_bind fun h => ?_
  have hrest : sliceFrom d ImageInfo.size = .ok (d.drop ImageInfo.size) := sliceFrom_eq h
  have h : 0x400 ≤ d.length := h
  simp (disch := omega) only [slice_ok hd, readU16_ok hd, readU32_ok hd, hrest, fieldText_eq,
    lift_settled, lift_ok, mapError_ok, settled_ok_bind]
  rfl

theorem decodeDeviceInfo_eq (hd : d.length < 2 ^ 63) :
    decodeDeviceInfo d = settled (DeviceInfo.decode d) := by
  unfold decodeDeviceInfo DeviceInfo.decode
  split
  · rfl
  · next hsize =>
    have hsize : d.length = 508 := Decidable.not_not.1 hsize
    simp (disch := omega) only [slice_ok hd, readU32_ok hd, readUid_ok hd, fieldText_eq, lift_settled,
      lift_ok, mapError_ok, settled_ok_bind]
    split <;> rfl

theorem decodeMfgInfo_eq (hd : d.length < 2 ^ 63) : decodeMfgInfo d = settled (MfgInfo.decode d) := by
  refine settled_needBytes_bind fun h => ?_
  have hrest : sliceFrom d MfgInfo.size = .ok (d.drop MfgInfo.size) := sliceFrom_eq h
  have h : 0x40 ≤ d.length := h
  simp (disch := omega) only [slice_ok hd, readU32_ok hd, readUid_ok hd, UidBlock.size, hrest,
    fieldText_eq, lift_settled, lift_ok, mapError_ok, settled_ok_bind]
  rfl

/-! ### The boot loader and the digests -/

theorem statedLength_eq {bs : Bytes} (hbs : bs.length < 2 ^ 63) {more : Nat} (hmore : more ≤ 4) :
    statedLength offset more bs
      = .ok ((bs.readU32 offset).toOption.map fun dwords => (dwords.toNat + more) * 4) := by
  have hread : (readU32 bs offset).run = .ok (bs.readU32 offset) := congrArg ExceptT.run (readU32_eq (by omega))
  rw [statedLength, hread, ok_bind]
  cases bs.readU32 offset with
  | error e => rfl
  | ok dwords =>
    have hlt := dwords.toNat_lt
    have hsum : checkedAdd dwords.toNat more = some (dwords.toNat + more) := checkedAdd_eq (by omega)
    have hproduct : checkedMul (dwords.toNat + more) 4 = some ((dwords.toNat + more) * 4) :=
      checkedMul_eq (by omega)
    simp only [hsum, Option.bind_some, hproduct]
    rfl

theorem decodeBoot2_eq (hd : d.length < 2 ^ 63) : decodeBoot2 d = settled (Boot2.decode d) := by
  rw [decodeBoot2, readU32_eq (by omega), lift_settled]
  refine settled_bind fun header _ => ?_
  rw [readU32_eq (by omega), lift_settled]
  refine settled_bind fun sizeDwords _ => ?_
  have hlt := sizeDwords.toNat_lt
  rw [add_eq (by omega), lift_ok, settled_ok_bind, mul_eq (by omega), lift_ok, settled_ok_bind]
  by_cases hlength : d.length = (sizeDwords.toNat + 3) * 4
  · rw [if_neg (not_not_intro hlength), if_pos hlength]
    simp (disch := omega) only [mul_eq, add_eq, slice_ok hd, readU32_ok hd, lift_settled, lift_ok,
      mapError_ok, settled_ok_bind]
    rfl
  · rw [if_pos hlength, if_neg hlength]
    rfl

theorem decodeHashesTable_eq (hd : d.length < 2 ^ 63) :
    decodeHashesTable d = settled (HashesTable.decode d) := by
  refine settled_needBytes_bind fun h => ?_
  have h : 16 ≤ d.length := h
  simp (disch := omega) only [readU32_ok hd, lift_settled, mapError_ok, settled_ok_bind, mul_dwords,
    lift_ok]
  by_cases hlength : d.length = (d.u32At 8).toNat * 4
  · have hn : HashesTable.entryCount (d.u32At 4) < 2 ^ 32 := UInt32.toNat_lt _
    have hstart (i : Nat) (hi : i < 2 ^ 32) : mul i HashEntry.size = .ok (i * HashEntry.size) ∧
        add HashesTable.headerSize (i * HashEntry.size) = .ok (HashesTable.storageOffset i) := by
      unfold HashEntry.size HashesTable.headerSize
      exact ⟨mul_eq (by omega), add_eq (by omega)⟩
    rw [if_neg (not_not_intro hlength), if_pos hlength, (hstart _ hn).1, lift_ok, settled_ok_bind,
      (hstart _ hn).2, lift_ok, settled_ok_bind]
    refine settled_needBytes_bind fun hroom => ?_
    have hentry : ∀ i ∈ List.range (HashesTable.entryCount (d.u32At 4)), (do
          readHashEntry d (← add HashesTable.headerSize (← mul i HashEntry.size)) :
            Step DecodeError HashEntry)
        = settled (.ok (.decodeAt d (HashesTable.storageOffset i))) := by
      intro i hi
      have hi := List.mem_range.1 hi
      have hin : HashesTable.storageOffset i + 8 ≤ d.length := by
        unfold HashesTable.storageOffset HashesTable.headerSize HashEntry.size at hroom ⊢
        omega
      rw [(hstart i (by omega)).1, lift_ok, settled_ok_bind, (hstart i (by omega)).2, lift_ok,
        settled_ok_bind, readHashEntry, readU32_ok hd (by omega), settled_ok_bind, add_eq (by omega),
        lift_ok, settled_ok_bind, readU32_ok hd (by omega)]
      rfl
    rw [mapM_settled hentry, settled_ok_bind, sliceFrom_eq hroom]
    rfl
  · rw [if_pos hlength, if_neg hlength]
    rfl

/-! ### Versions -/

theorem readVersions_ok (hd : d.length < 2 ^ 63) {count : Nat}
    (h : 4 + count * Version.size ≤ d.length) :
    readVersions d count = settled (.ok (Version.decodeAll d 4 count)) := by
  unfold Version.size at h
  refine mapM_settled fun i hi => ?_
  have hi := List.mem_range.1 hi
  unfold Version.size
  rw [mul_eq (by omega), lift_ok, settled_ok_bind, add_eq (by omega), lift_ok, settled_ok_bind,
    readVersion_ok hd (by omega)]

theorem decodeResetInfo_eq (hd : d.length < 2 ^ 63) :
    decodeResetInfo d = settled (ResetInfo.decode d) := by
  refine settled_needBytes_bind fun h => ?_
  have hrest : sliceFrom d ResetInfo.size = .ok (d.drop ResetInfo.size) := sliceFrom_eq h
  have hversions : readVersions d ResetInfo.versionCount
      = settled (.ok (Version.decodeAll d 4 ResetInfo.versionCount)) := readVersions_ok hd h
  have h : 52 ≤ d.length := h
  rw [hversions, lift_settled, readU32_ok hd (by omega), lift_settled, hrest]
  rfl

theorem decodeForbiddenVersions_eq (hd : d.length < 2 ^ 63) :
    decodeForbiddenVersions d = settled (ForbiddenVersions.decode d) := by
  refine settled_needBytes_bind fun h => ?_
  have hn : ForbiddenVersions.versionCount (d.u32At 0) < 2 ^ 32 := UInt32.toNat_lt _
  have hmul : mul (ForbiddenVersions.versionCount (d.u32At 0)) Version.size
      = .ok (ForbiddenVersions.versionCount (d.u32At 0) * Version.size) := mul_eq (by
    unfold Version.size
    omega)
  have hlast : add 4 (ForbiddenVersions.versionCount (d.u32At 0) * Version.size)
      = .ok (ForbiddenVersions.size (ForbiddenVersions.versionCount (d.u32At 0))) := add_eq (by
    unfold Version.size
    omega)
  simp only [readU32_ok hd h, lift_settled, mapError_ok, settled_ok_bind, hmul, hlast, lift_ok]
  refine settled_needBytes_bind fun hroom => ?_
  rw [readVersions_ok hd hroom, lift_settled, sliceFrom_eq hroom]
  rfl

/-! ### Signatures and keys -/

theorem decodeImageSignature_eq (hd : d.length < 2 ^ 63) {length : Nat}
    (hlength : 4 + length < 2 ^ 64) :
    decodeImageSignature length d = settled (ImageSignature.decode length d) := by
  rw [decodeImageSignature, add_eq (by omega), lift_ok, settled_ok_bind]
  refine settled_needBytes_bind fun h => ?_
  rw [readU32_ok hd (by omega), lift_settled, slice_ok hd h, lift_settled, sliceFrom_eq h]
  rfl

theorem readPublicKey_ok (hd : d.length < 2 ^ 63) {length : Nat}
    (h : offset + PublicKey.size length ≤ d.length) :
    readPublicKey length d offset = settled (.ok (.decodeAt length d offset)) := by
  unfold PublicKey.size PublicKey.uuidSize at h
  unfold readPublicKey PublicKey.uuidSize
  simp (disch := omega) only [readU32_ok hd, slice_ok hd, add_eq, lift_ok, settled_ok_bind]
  rfl

theorem decodePublicKeys_eq (hd : d.length < 2 ^ 63) {length : Nat}
    (hlength : PublicKey.size length < 2 ^ 64) :
    decodePublicKeys length d = settled (PublicKeys.decode length d) := by
  have hsize : add (4 + PublicKey.uuidSize) length = .ok (PublicKey.size length) := add_eq hlength
  rw [decodePublicKeys, hsize, lift_ok, settled_ok_bind]
  refine settled_needBytes_bind fun _ => ?_
  -- The keys are as many as there is room for, so the last of them ends inside of the contents.
  have hroom : d.length / PublicKey.size length * PublicKey.size length ≤ d.length :=
    Nat.div_mul_le_self _ _
  have hkey : ∀ i ∈ List.range (d.length / PublicKey.size length),
      (do readPublicKey length d (← mul i (PublicKey.size length)) : Step DecodeError PublicKey)
        = settled (.ok (.decodeAt length d (i * PublicKey.size length))) := by
    intro i hi
    have hi := List.mem_range.1 hi
    have hlast : (i + 1) * PublicKey.size length ≤ d.length :=
      Nat.le_trans (Nat.mul_le_mul_right _ hi) hroom
    rw [Nat.succ_mul] at hlast
    rw [mul_eq (by omega), lift_ok, settled_ok_bind, readPublicKey_ok hd hlast]
    rfl
  simp only [mapM_settled hkey, mul_eq (Nat.lt_of_le_of_lt hroom (by omega)), sliceFrom_eq hroom, lift_ok,
    settled_ok_bind]
  rfl

/-! ### Records and bytes -/

theorem decodeToolsArea_eq (hd : d.length < 2 ^ 63) :
    decodeToolsArea d = settled (ToolsArea.decode d) := by
  unfold decodeToolsArea ToolsArea.decode
  by_cases hsize : d.length = ToolsArea.size
  · rw [if_neg (not_not_intro hsize), if_pos hsize]
    unfold ToolsArea.size at hsize
    unfold ToolsArea.crcOffset
    simp (disch := omega) only [readU32_ok hd, readU16_ok hd, slice_ok hd, lift_settled, mapError_ok,
      settled_ok_bind]
    rfl
  · rw [if_pos hsize, if_neg hsize]
    rfl

theorem vpdId_eq (d : Bytes) : vpdId d = .ok (Blob.readVpdId? d) := by
  match d with
  | [] | [_] | [_, _] => rfl
  | tag :: low :: high :: rest =>
    unfold vpdId Blob.readVpdId?
    dsimp only
    have hlow := low.toNat_lt
    have hhigh := high.toNat_lt
    have hpart : part? (tag :: low :: high :: rest) 3 (3 + (high.toNat * 256 + low.toNat))
        = if high.toNat * 256 + low.toNat ≤ rest.length then
            some (rest.take (high.toNat * 256 + low.toNat)) else none := by
      unfold part?
      simp only [List.length_cons, Nat.add_sub_cancel_left]
      by_cases hin : high.toNat * 256 + low.toNat ≤ rest.length
      · rw [if_pos (by omega), if_pos hin]
        rfl
      · rw [if_neg (by omega), if_neg hin]
    by_cases htag : tag = Blob.idTag
    · rw [if_pos htag, add_eq (by omega), ok_bind, hpart]
      by_cases hin : high.toNat * 256 + low.toNat ≤ rest.length
      · simp [htag, hin]
        rfl
      · simp [htag, hin]
        rfl
    · rw [if_neg htag]
      simp [htag]
      rfl

/-- Left-over bytes behind the dwords at the front make no difference. -/
theorem toDwords_take_min (d : Bytes) (n : Nat) :
    Bytes.toDwords (d.take (min (d.length / 4) n * 4)) = Bytes.toDwords (d.take (n * 4)) := by
  have hleft : (d.take (min (d.length / 4) n * 4)).length / 4 = min (d.length / 4) n := by
    rw [List.length_take]
    omega
  have hright : (d.take (n * 4)).length / 4 = min (d.length / 4) n := by
    rw [List.length_take]
    omega
  rw [toDwords_eq, toDwords_eq, chunks, chunks, hleft, hright]
  congr 1
  refine List.map_congr_left fun i hi => ?_
  have hi := List.mem_range.1 hi
  rw [Bytes.slice_take (by omega), Bytes.slice_take (by omega)]

theorem decodeBlob_eq (hd : d.length < 2 ^ 63) (productData : Bool) :
    decodeBlob productData d = .ok (Blob.decode productData d) := by
  have hlength : min (d.length / 4) Blob.headerDwords * 4 ≤ d.length := by omega
  have hcount : min (d.length / 4) Blob.headerDwords * 4 < 2 ^ 64 := by omega
  have hread : (readDwords d 0 (min (d.length / 4) Blob.headerDwords)).run
      = .ok (.ok (Bytes.toDwords (d.take (Blob.headerDwords * 4)))) := by
    rw [readDwords_eq (by omega) hcount, Bytes.readDwords, Bytes.slice?,
      Nat.zero_add, if_pos hlength, Bytes.slice_zero_left, ← toDwords_take_min]
    rfl
  rw [decodeBlob, hread, ok_bind]
  cases productData with
  | false => rfl
  | true =>
    rw [if_pos rfl, vpdId_eq]
    rfl

/-! ### Contents of every kind -/

/-- The number of bytes that the kind of contents asks for: a signature, or one key, and what stands in
front of it. -/
def recordSize : Family → Nat
  | .imageSignature length => 4 + length.toNat
  | .publicKeys length => PublicKey.size length.toNat
  | _ => 0

theorem decode_eq [Algorithms] {family : Family} (hd : d.length < 2 ^ 63)
    (hfamily : recordSize family < 2 ^ 64) :
    decode family d = settled (Projection.decode family d) := by
  cases family with
  | generic | debugParams => rfl
  | pointers => exact map_settled _ _
  | debugIni => exact map_settled _ _
  | toc => rw [decode, decodeToc_eq, adapt_settled, map_settled]; rfl
  | imageInfo => rw [decode, decodeImageInfo_eq hd, map_settled]; rfl
  | deviceInfo => rw [decode, decodeDeviceInfo_eq hd, map_settled]; rfl
  | mfgInfo => rw [decode, decodeMfgInfo_eq hd, map_settled]; rfl
  | boot2 => rw [decode, decodeBoot2_eq hd, map_settled]; rfl
  | hashesTable => rw [decode, decodeHashesTable_eq hd, map_settled]; rfl
  | resetInfo => rw [decode, decodeResetInfo_eq hd, map_settled]; rfl
  | imageSignature length =>
    rw [decode, decodeImageSignature_eq hd hfamily, map_settled]
    rfl
  | publicKeys length =>
    rw [decode, decodePublicKeys_eq hd hfamily, map_settled]
    rfl
  | forbiddenVersions => rw [decode, decodeForbiddenVersions_eq hd, map_settled]; rfl
  | blob => rw [decode, decodeBlob_eq hd]; rfl
  | vpd => rw [decode, decodeBlob_eq hd]; rfl
  | toolsArea => rw [decode, decodeToolsArea_eq hd, map_settled]; rfl

/-- A size that is not a word is not compared with the contents. -/
theorem decode_fault [Algorithms] {family : Family} (h : 2 ^ 64 ≤ recordSize family) (d : Bytes) :
    (decode family d).run = .error .overflow := by
  cases family with
  | imageSignature length =>
    rw [decode, decodeImageSignature, add_fault h]
    rfl
  | publicKeys length =>
    rw [decode, decodePublicKeys, add_fault h]
    rfl
  | _ => exact absurd h (by decide)

end FlashImage.Machine

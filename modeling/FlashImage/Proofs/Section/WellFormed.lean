import FlashImage.Algorithms.Standard
import FlashImage.Proofs.Bytes.Rows
import FlashImage.Proofs.Machine.Encoders
import FlashImage.Proofs.Toc.RoundTrip

/-!
# Forms are read back from what they are written as

A form may have been edited before it is written. If it still has the shape of its kind (`WellFormed`),
it is written, and what is written is read as the same form again: each field stands where it is looked
for, and none is written over another one. The shape is what bytes cannot say otherwise: areas and texts
of a fixed width fill it, the numbers that count dwords or records agree with what they count, and
records that are counted by nothing else come in the number that the kind has.

The shape is also the least that can be asked for, since reading gives nothing else
(`Projection.decode_encode_of_wellFormed`).

## Parts

* texts of a field, and records inside of sections;
* for each form its shape, and that it is read back;
* `Projection.WellFormed` — all forms together.
-/

namespace FlashImage

/-! ### Texts of a field -/

namespace FieldText

/-- **A text that a field of a width can hold**: it was read from one. -/
def OfWidth (width : Nat) (t : FieldText) : Prop :=
  ∃ field : Bytes, field.length = width ∧ ofField field = t

/-- The bytes of a text with the padding that fills a field. -/
def padded (width : Nat) (t : FieldText) : Bytes := t.bytes ++ List.replicate (width - t.bytes.length) 0

variable {width : Nat} {t : FieldText}

theorem OfWidth.toField_eq (h : t.OfWidth width) (name : String) :
    t.toField name width = .ok (t.padded width) := by
  obtain ⟨field, hlength, rfl⟩ := h
  have hwritten := toField_ofField field name hlength
  rw [toField] at hwritten ⊢
  split
  · next hlong =>
    rw [if_pos hlong] at hwritten
    cases hwritten
  · rfl

/-- With its padding, it is the field that it was read from. -/
theorem OfWidth.padded_spec (h : t.OfWidth width) :
    (t.padded width).length = width ∧ ofField (t.padded width) = t := by
  have hpadded := h.toField_eq ""
  obtain ⟨field, hlength, rfl⟩ := h
  rw [toField_ofField field "" hlength, Except.ok.injEq] at hpadded
  rw [← hpadded]
  exact ⟨hlength, rfl⟩

/-- What stands in a part of a byte string is a text of its width. -/
theorem ofWidth_slice {d : Bytes} {offset : Nat} (h : offset + width ≤ d.length) :
    (ofField (d.slice offset width)).OfWidth width :=
  ⟨_, Bytes.length_slice_of_le h, rfl⟩

end FieldText

/-! ### Records inside of sections -/

section Records

variable {bs : Bytes} {offset : Nat}

theorem UidBlock.decodeAt_of_slice {b : UidBlock} (h : bs.slice offset b.encode.length = b.encode) :
    decodeAt bs offset = b := by
  have hrow : b.encode = [Bytes.u64 b.uid, Bytes.u32 b.allocation, Bytes.u32 b.reserved].flatten := by
    simp [encode]
  rw [hrow] at h
  have hparts := Bytes.hasParts_of_slice h
  simp only [Bytes.HasParts, Bytes.length_u64, Bytes.length_u32, Nat.add_assoc, Nat.reduceAdd] at hparts
  simp only [decodeAt, Bytes.u64At, Bytes.u32At, hparts, Bytes.ofNat_toNat_u64, Bytes.ofNat_toNat_u32]

theorem Version.decodeAt_of_slice {v : Version} (h : bs.slice offset v.encode.length = v.encode) :
    decodeAt bs offset = v := by
  have hrow : v.encode = [Bytes.u16 v.major, Bytes.u16 v.minor, Bytes.u16 v.subminor,
      Bytes.u16 v.reserved].flatten := by
    simp [encode]
  rw [hrow] at h
  have hparts := Bytes.hasParts_of_slice h
  simp only [Bytes.HasParts, Bytes.length_u16, Nat.add_assoc, Nat.reduceAdd] at hparts
  simp only [decodeAt, Bytes.u16At, hparts, Bytes.ofNat_toNat_u16]

theorem Pointer.decodeAt_of_slice {p : Pointer} (h : bs.slice offset p.encode.length = p.encode) :
    decodeAt bs offset = p := by
  have hrow : p.encode = [Bytes.u32 p.value, Bytes.u16 p.reserved, Bytes.u16 p.crc].flatten := by
    simp [encode, covered]
  rw [hrow] at h
  have hparts := Bytes.hasParts_of_slice h
  simp only [Bytes.HasParts, Bytes.length_u32, Bytes.length_u16, Nat.add_assoc, Nat.reduceAdd] at hparts
  simp only [decodeAt, Bytes.u32At, Bytes.u16At, hparts, Bytes.ofNat_toNat_u32, Bytes.ofNat_toNat_u16]

theorem HashEntry.decodeAt_of_slice {e : HashEntry} (h : bs.slice offset e.encode.length = e.encode) :
    decodeAt bs offset = e := by
  have hrow : e.encode = [Bytes.u32 e.location, Bytes.u32 e.extent].flatten := by simp [encode]
  rw [hrow] at h
  have hparts := Bytes.hasParts_of_slice h
  simp only [Bytes.HasParts, Bytes.length_u32] at hparts
  simp only [decodeAt, Bytes.u32At, hparts, Bytes.ofNat_toNat_u32]

/-- A key with an identifier and a modulus of the right lengths. -/
structure PublicKey.WellFormed (length : Nat) (k : PublicKey) : Prop where
  uuid : k.uuid.length = uuidSize
  key : k.key.length = length

theorem PublicKey.decodeAt_of_slice {length : Nat} {k : PublicKey} (hk : k.WellFormed length)
    (h : bs.slice offset k.encode.length = k.encode) : decodeAt length bs offset = k := by
  have hrow : k.encode = [Bytes.u32 k.exponent, k.uuid, k.key].flatten := by simp [encode]
  rw [hrow] at h
  have hparts := Bytes.hasParts_of_slice h
  simp only [Bytes.HasParts, Bytes.length_u32, hk.uuid, hk.key] at hparts
  simp only [decodeAt, Bytes.u32At, hparts, Bytes.ofNat_toNat_u32]

/-- Versions in a row are read back. -/
theorem Version.decodeAll_of_slice {vs : List Version}
    (h : bs.slice offset (encodeAll vs).length = encodeAll vs) : decodeAll bs offset vs.length = vs :=
  Bytes.map_decodeAt (fun v _ => v.length_encode) (fun _ _ _ => decodeAt_of_slice) h

end Records

/-! ### Descriptions of images and devices -/

/-- **The shape of a description**: texts of their fields, and reserved areas that fill theirs. -/
structure ImageInfo.WellFormed (i : ImageInfo) : Prop where
  psid : i.psid.OfWidth 0x10
  vsd : i.vsd.OfWidth 0xd0
  reserved4 : i.reserved4.length = 0x10
  reserved5 : i.reserved5.length = 0x0c
  prodVer : i.prodVer.OfWidth 0x10
  name : i.name.OfWidth 0x40
  description : i.description.OfWidth 0x100
  reserved6 : i.reserved6.length = 0x170

/-- The fields in the order in which they are stored. -/
def ImageInfo.parts (i : ImageInfo) : List Bytes :=
  let (h0, h1, h2, h3) := i.supportedHwId
  [Bytes.u32 i.flags, Bytes.u16 i.fwMajor, Bytes.u16 i.reserved0, Bytes.u16 i.fwMinor,
    Bytes.u16 i.fwSubminor, Bytes.u32 i.releaseDate, Bytes.u16 i.micMajor, Bytes.u16 i.reserved1,
    Bytes.u16 i.micMinor, Bytes.u16 i.micSubminor, Bytes.u16 i.pciDeviceId, Bytes.u16 i.pciVendorId,
    Bytes.u16 i.pciSubsystemId, Bytes.u16 i.pciSubsysVendorId, i.psid.padded 0x10,
    Bytes.u32 i.reserved2, Bytes.u16 i.reserved3, Bytes.u16 i.vsdVendorId, i.vsd.padded 0xd0,
    Bytes.u32 i.imageSize.1, Bytes.u32 i.imageSize.2, i.reserved4, Bytes.u32 h0, Bytes.u32 h1,
    Bytes.u32 h2, Bytes.u32 h3, Bytes.u32 i.iniFileNum, i.reserved5, i.prodVer.padded 0x10,
    i.name.padded 0x40, i.description.padded 0x100, i.reserved6]

theorem ImageInfo.decode_encode {i : ImageInfo} (h : i.WellFormed) :
    ∃ d, i.encode = .ok d ∧ decode d = .ok i := by
  have hsize : i.parts.flatten.length = size := by
    simp [parts, h.psid.padded_spec, h.vsd.padded_spec, h.prodVer.padded_spec, h.name.padded_spec,
      h.description.padded_spec, h.reserved4, h.reserved5, h.reserved6, size]
  refine ⟨i.parts.flatten ++ i.extra, ?_, ?_⟩
  · -- No field is refused, since texts and areas fill theirs.
    simp only [encode, h.psid.toField_eq, h.vsd.toField_eq, h.prodVer.toField_eq, h.name.toField_eq,
      h.description.toField_eq, Bytes.exactWidth_of_length h.reserved4,
      Bytes.exactWidth_of_length h.reserved5, Bytes.exactWidth_of_length h.reserved6, ok_bind]
    simp [parts, encodeHead, encodeHardwareIds, Bytes.ofDwords]
    rfl
  · obtain ⟨hroom, hextra, hparts⟩ := Bytes.fixed_part hsize i.extra
    -- From here on only the places of the parts count, not what the whole looks like.
    generalize i.parts.flatten ++ i.extra = d at hparts hroom hextra
    simp only [parts, Bytes.HasParts, Bytes.length_u32, Bytes.length_u16, h.psid.padded_spec,
      h.vsd.padded_spec, h.prodVer.padded_spec, h.name.padded_spec, h.description.padded_spec,
      h.reserved4, h.reserved5, h.reserved6, Nat.reduceAdd] at hparts
    simp only [decode, needBytes_of_le hroom, ok_bind, Bytes.u32At, Bytes.u16At, hparts, hextra,
      Bytes.ofNat_toNat_u32, Bytes.ofNat_toNat_u16, h.psid.padded_spec, h.vsd.padded_spec,
      h.prodVer.padded_spec, h.name.padded_spec, h.description.padded_spec]
    rfl

theorem ImageInfo.wellFormed_of_decode {d : Bytes} {i : ImageInfo} (h : decode d = .ok i) :
    i.WellFormed := by
  obtain ⟨hlength, h⟩ := of_needBytes h
  cases h
  unfold size at hlength
  -- All parts lie in the fixed part, for which there is room.
  have htext {offset width : Nat} (hin : offset + width ≤ 0x400) :
      (FieldText.ofField (d.slice offset width)).OfWidth width :=
    FieldText.ofWidth_slice (Nat.le_trans hin hlength)
  have harea {offset width : Nat} (hin : offset + width ≤ 0x400) :
      (d.slice offset width).length = width :=
    Bytes.length_slice_of_le (Nat.le_trans hin hlength)
  exact ⟨htext (by decide), htext (by decide), harea (by decide), harea (by decide), htext (by decide),
    htext (by decide), htext (by decide), harea (by decide)⟩

/-- **The shape of a record of a device**: it begins with its mark. -/
structure DeviceInfo.WellFormed (i : DeviceInfo) : Prop where
  signature : i.signature.1 = mark
  reserved0 : i.reserved0.length = 0x0c
  reserved1 : i.reserved1.length = 0x90
  vsd : i.vsd.OfWidth 0xd0
  reserved2 : i.reserved2.length = size - 0x1a0

def DeviceInfo.parts (i : DeviceInfo) : List Bytes :=
  let (s0, s1, s2, s3) := i.signature
  [Bytes.u32 s0, Bytes.u32 s1, Bytes.u32 s2, Bytes.u32 s3, Bytes.u32 i.version, i.reserved0,
    i.guids.encode, i.macs.encode, i.reserved1, i.vsd.padded 0xd0, i.reserved2]

theorem DeviceInfo.decode_encode {i : DeviceInfo} (h : i.WellFormed) :
    ∃ d, i.encode = .ok d ∧ decode d = .ok i := by
  have hreserved2 : i.reserved2.length = 0x5c := h.reserved2
  have hsize : i.parts.flatten.length = size := by
    simp [parts, h.vsd.padded_spec, h.reserved0, h.reserved1, hreserved2, size, UidBlock.size]
  refine ⟨i.parts.flatten, ?_, ?_⟩
  · simp only [encode, h.vsd.toField_eq, Bytes.exactWidth_of_length h.reserved0,
      Bytes.exactWidth_of_length h.reserved1, Bytes.exactWidth_of_length h.reserved2, ok_bind]
    simp [parts, Bytes.ofDwords]
    rfl
  · -- Each part stands where the decoder looks for it.
    have hparts := Bytes.hasParts_flatten_append i.parts []
    rw [List.append_nil] at hparts
    generalize i.parts.flatten = d at hparts hsize
    simp only [parts, Bytes.HasParts, Bytes.length_u32, UidBlock.length_encode, UidBlock.size,
      h.vsd.padded_spec, h.reserved0, h.reserved1, hreserved2, Nat.reduceAdd] at hparts
    have hguids : UidBlock.decodeAt d 0x20 = i.guids := UidBlock.decodeAt_of_slice (by
      simp only [UidBlock.length_encode, UidBlock.size, hparts])
    have hmacs : UidBlock.decodeAt d 0x30 = i.macs := UidBlock.decodeAt_of_slice (by
      simp only [UidBlock.length_encode, UidBlock.size, hparts])
    have hmark : Bytes.u32At d 0x00 = mark := by
      simp only [Bytes.u32At, hparts, Bytes.ofNat_toNat_u32, h.signature]
    rw [decode, if_neg (by simp [hsize]), if_neg (by simp [hmark])]
    simp only [size, Nat.reduceSub, Bytes.u32At, hparts, hguids, hmacs, Bytes.ofNat_toNat_u32,
      h.vsd.padded_spec]

theorem DeviceInfo.wellFormed_of_decode {d : Bytes} {i : DeviceInfo} (h : decode d = .ok i) :
    i.WellFormed := by
  rw [decode] at h
  split at h
  · cases h
  next hlength =>
  split at h
  · cases h
  next hmark =>
  cases h
  replace hlength : d.length = 508 := Decidable.not_not.1 hlength
  exact ⟨Decidable.not_not.1 hmark, Bytes.length_slice_of_le (by omega),
    Bytes.length_slice_of_le (by omega), FieldText.ofWidth_slice (by omega),
    Bytes.length_slice_of_le (by unfold size; omega)⟩

structure MfgInfo.WellFormed (m : MfgInfo) : Prop where
  psid : m.psid.OfWidth 0x10
  reserved0 : m.reserved0.length = 0x0c

/-- The fields in front of what is carried along. -/
def MfgInfo.parts (m : MfgInfo) : List Bytes :=
  [m.psid.padded 0x10, m.reserved0, Bytes.u32 m.version, m.guids.encode, m.macs.encode]

theorem MfgInfo.decode_encode {m : MfgInfo} (h : m.WellFormed) :
    ∃ d, m.encode = .ok d ∧ decode d = .ok m := by
  have hsize : m.parts.flatten.length = size := by
    simp [parts, h.psid.padded_spec, h.reserved0, size, UidBlock.size]
  refine ⟨m.parts.flatten ++ m.reserved1, ?_, ?_⟩
  · simp only [encode, h.psid.toField_eq, Bytes.exactWidth_of_length h.reserved0, ok_bind]
    simp [parts]
    rfl
  · obtain ⟨hroom, hrest, hparts⟩ := Bytes.fixed_part hsize m.reserved1
    generalize m.parts.flatten ++ m.reserved1 = d at hparts hroom hrest
    simp only [parts, Bytes.HasParts, Bytes.length_u32, UidBlock.length_encode, UidBlock.size,
      h.psid.padded_spec, h.reserved0, Nat.reduceAdd] at hparts
    have hguids : UidBlock.decodeAt d 0x20 = m.guids := UidBlock.decodeAt_of_slice (by
      simp only [UidBlock.length_encode, UidBlock.size, hparts])
    have hmacs : UidBlock.decodeAt d 0x30 = m.macs := UidBlock.decodeAt_of_slice (by
      simp only [UidBlock.length_encode, UidBlock.size, hparts])
    simp only [decode, needBytes_of_le hroom, ok_bind, Bytes.u32At, hparts, hguids, hmacs, hrest,
      Bytes.ofNat_toNat_u32, h.psid.padded_spec]
    rfl

theorem MfgInfo.wellFormed_of_decode {d : Bytes} {m : MfgInfo} (h : decode d = .ok m) :
    m.WellFormed := by
  obtain ⟨hlength, h⟩ := of_needBytes h
  cases h
  unfold size at hlength
  exact ⟨FieldText.ofWidth_slice (by omega), Bytes.length_slice_of_le (by omega)⟩

/-! ### Code and digests -/

/-- **The shape of a boot loader**: the code is as long as the header says. -/
structure Boot2.WellFormed (b : Boot2) : Prop where
  code : b.sizeDwords.toNat * 4 = b.code.length

theorem Boot2.decode_encode {b : Boot2} (h : b.WellFormed) : decode b.encode = .ok b := by
  -- The length of the code is known from the header only, so the parts behind it stand where it says.
  have hparts := Bytes.hasParts_flatten_append
    [Bytes.u32 b.header, Bytes.u32 b.sizeDwords, b.code, Bytes.u32 b.reserved] []
  have hrow : [Bytes.u32 b.header, Bytes.u32 b.sizeDwords, b.code, Bytes.u32 b.reserved].flatten ++ []
      = b.encode := by
    simp [encode]
  have hlength : b.encode.length = (b.sizeDwords.toNat + 3) * 4 := by
    simp only [encode, List.length_append, Bytes.length_u32, ← h.code]
    omega
  rw [hrow] at hparts
  generalize b.encode = d at hparts hlength
  simp only [Bytes.HasParts, Bytes.length_u32, ← h.code, Nat.reduceAdd] at hparts
  have hheader : Bytes.u32At d 0 = b.header := by
    simp only [Bytes.u32At, hparts, Bytes.ofNat_toNat_u32]
  have hdwords : Bytes.u32At d 4 = b.sizeDwords := by
    simp only [Bytes.u32At, hparts, Bytes.ofNat_toNat_u32]
  rw [decode, Bytes.readU32_of_le (by omega), Bytes.readU32_of_le (by omega), hheader, hdwords]
  simp only [mapError_ok, ok_bind, if_pos hlength, Bytes.u32At, hparts, Bytes.ofNat_toNat_u32]
  rfl

theorem Boot2.wellFormed_of_decode {d : Bytes} {b : Boot2} (h : decode d = .ok b) : b.WellFormed := by
  obtain ⟨header, -, h⟩ := exists_of_bind_eq_ok h
  obtain ⟨dwords, -, h⟩ := exists_of_bind_eq_ok h
  split at h
  · next hlength =>
    cases h
    refine ⟨?_⟩
    show dwords.toNat * 4 = (d.slice 8 (dwords.toNat * 4)).length
    rw [Bytes.length_slice_of_le (by omega)]
  · cases h

/-- **The shape of a table of digests**: the header counts its entries and its dwords. -/
structure HashesTable.WellFormed (t : HashesTable) : Prop where
  count : entryCount t.count = t.entries.length
  dwords : t.dwords.toNat * 4 = t.encode.length

/-- What stands in front of the digests. -/
def HashesTable.parts (t : HashesTable) : List Bytes :=
  [Bytes.u32 t.version, Bytes.u32 t.count, Bytes.u32 t.dwords, Bytes.u32 t.reserved,
    t.entries.flatMap HashEntry.encode]

theorem HashesTable.decode_encode {t : HashesTable} (h : t.WellFormed) : decode t.encode = .ok t := by
  have hrow : t.parts.flatten ++ t.storage = t.encode := by simp [parts, encode, Bytes.ofDwords]
  have hfront : t.parts.flatten.length = storageOffset t.entries.length := by
    simp [parts, List.length_flatMap, List.map_const', storageOffset, headerSize]
    omega
  obtain ⟨hroom, hstorage, hparts⟩ := Bytes.fixed_part hfront t.storage
  -- The length in the header is that of the whole table, so it has to be kept when the table is forgotten.
  have hlength := h.dwords
  rw [hrow] at hparts hstorage hroom
  generalize t.encode = d at hparts hstorage hroom hlength
  simp only [parts, Bytes.HasParts, Bytes.length_u32, Nat.reduceAdd] at hparts
  have hheader : headerSize ≤ d.length := Nat.le_trans (Nat.le_add_right _ _) hroom
  have hdwords : Bytes.u32At d 8 = t.dwords := by simp only [Bytes.u32At, hparts, Bytes.ofNat_toNat_u32]
  have hcount : Bytes.u32At d 4 = t.count := by simp only [Bytes.u32At, hparts, Bytes.ofNat_toNat_u32]
  have hentries : (List.range t.entries.length).map (fun i => HashEntry.decodeAt d (storageOffset i))
      = t.entries :=
    Bytes.map_decodeAt (fun e _ => e.length_encode) (fun _ _ _ => HashEntry.decodeAt_of_slice)
      hparts.2.2.2.2.1
  rw [decode, needBytes_of_le hheader, hdwords, hcount, h.count]
  simp only [ok_bind, if_pos hlength.symm, needBytes_of_le hroom, hentries, hstorage, Bytes.u32At, hparts,
    Bytes.ofNat_toNat_u32]
  rfl

theorem HashesTable.wellFormed_of_decode {d : Bytes} {t : HashesTable} (h : decode d = .ok t) :
    t.WellFormed := by
  have hencode := encode_of_decode h
  obtain ⟨-, h⟩ := of_needBytes h
  split at h
  · next hlength =>
    obtain ⟨-, h⟩ := of_needBytes h
    cases h
    refine ⟨?_, ?_⟩
    · simp
    · rw [hencode]
      exact hlength.symm
  · cases h

/-! ### Versions -/

/-- Versions behind a dword are read back, with the dword in front of them and what stands behind. -/
theorem Version.decode_row (dword : UInt32) (vs : List Version) (rest : Bytes) :
    4 + vs.length * size ≤ (Bytes.u32 dword ++ encodeAll vs ++ rest).length ∧
      Bytes.u32At (Bytes.u32 dword ++ encodeAll vs ++ rest) 0 = dword ∧
      decodeAll (Bytes.u32 dword ++ encodeAll vs ++ rest) 4 vs.length = vs ∧
      (Bytes.u32 dword ++ encodeAll vs ++ rest).drop (4 + vs.length * size) = rest := by
  have hfront : (Bytes.u32 dword ++ encodeAll vs).length = 4 + vs.length * size := by
    simp [encodeAll, List.length_flatMap, List.map_const']
  have hrow : [Bytes.u32 dword, encodeAll vs].flatten = Bytes.u32 dword ++ encodeAll vs := by simp
  rw [← hrow] at hfront ⊢
  obtain ⟨hroom, hrest, hparts⟩ := Bytes.fixed_part hfront rest
  simp only [Bytes.HasParts, Bytes.length_u32, Nat.reduceAdd] at hparts
  refine ⟨hroom, ?_, decodeAll_of_slice hparts.2.1, hrest⟩
  simp only [Bytes.u32At, hparts, Bytes.ofNat_toNat_u32]

/-- **The shape of reset capabilities**: there are six versions. -/
structure ResetInfo.WellFormed (r : ResetInfo) : Prop where
  versions : r.versions.length = versionCount

theorem ResetInfo.decode_encode {r : ResetInfo} (h : r.WellFormed) : decode r.encode = .ok r := by
  obtain ⟨hroom, hdword, hversions, hrest⟩ := Version.decode_row r.capabilities r.versions r.reserved
  rw [h.versions] at hroom hversions hrest
  have hsize : size = 4 + versionCount * Version.size := rfl
  rw [decode, encode, hsize, needBytes_of_le hroom, ok_bind, hdword, hversions, hrest]
  rfl

theorem ResetInfo.wellFormed_of_decode {d : Bytes} {r : ResetInfo} (h : decode d = .ok r) :
    r.WellFormed := by
  obtain ⟨-, h⟩ := of_needBytes h
  cases h
  exact ⟨by simp [Version.decodeAll]⟩

/-- **The shape of a list of forbidden versions**: its first dword counts them. -/
structure ForbiddenVersions.WellFormed (f : ForbiddenVersions) : Prop where
  count : versionCount f.count = f.versions.length

theorem ForbiddenVersions.decode_encode {f : ForbiddenVersions} (h : f.WellFormed) :
    decode f.encode = .ok f := by
  obtain ⟨hroom, hdword, hversions, hrest⟩ := Version.decode_row f.count f.versions f.padding
  have hfirst : 4 ≤ (Bytes.u32 f.count ++ Version.encodeAll f.versions ++ f.padding).length :=
    Nat.le_trans (Nat.le_add_right _ _) hroom
  rw [decode, encode, needBytes_of_le hfirst, ok_bind, hdword, h.count]
  simp only [size, needBytes_of_le hroom, ok_bind, hversions, hrest]
  rfl

theorem ForbiddenVersions.wellFormed_of_decode {d : Bytes} {f : ForbiddenVersions}
    (h : decode d = .ok f) : f.WellFormed := by
  obtain ⟨-, h⟩ := of_needBytes h
  obtain ⟨-, h⟩ := of_needBytes h
  cases h
  exact ⟨by simp [Version.decodeAll]⟩

/-! ### Signatures and keys -/

structure ImageSignature.WellFormed (length : Nat) (s : ImageSignature) : Prop where
  signature : s.signature.length = length

theorem ImageSignature.decode_encode {length : Nat} {s : ImageSignature} (h : s.WellFormed length) :
    decode length s.encode = .ok s := by
  have hrow : [Bytes.u32 s.type, s.signature].flatten = Bytes.u32 s.type ++ s.signature := by simp
  have hfront : [Bytes.u32 s.type, s.signature].flatten.length = 4 + length := by
    simp [h.signature]
  obtain ⟨hroom, hpadding, hparts⟩ := Bytes.fixed_part hfront s.padding
  rw [hrow] at hroom hpadding hparts
  simp only [Bytes.HasParts, Bytes.length_u32, h.signature, Nat.reduceAdd] at hparts
  rw [decode, encode, needBytes_of_le hroom, ok_bind, hpadding]
  simp only [Bytes.u32At, hparts, Bytes.ofNat_toNat_u32]
  rfl

theorem ImageSignature.wellFormed_of_decode {length : Nat} {d : Bytes} {s : ImageSignature}
    (h : decode length d = .ok s) : s.WellFormed length := by
  obtain ⟨hlength, h⟩ := of_needBytes h
  cases h
  exact ⟨Bytes.length_slice_of_le hlength⟩

/-- **The shape of the keys** with a modulus of a number of bytes: there is one at least, and what is
left behind the last of them is too short for another. -/
structure PublicKeys.WellFormed (length : Nat) (ks : PublicKeys) : Prop where
  keys : ∀ k ∈ ks.keys, k.WellFormed length
  ne_nil : ks.keys ≠ []
  tail : ks.tail.length < PublicKey.size length

theorem PublicKey.WellFormed.length_encode {length : Nat} {k : PublicKey} (h : k.WellFormed length) :
    k.encode.length = size length := by
  simp only [encode, List.length_append, Bytes.length_u32, h.uuid, h.key, size]

theorem PublicKeys.decode_encode {length : Nat} {ks : PublicKeys} (h : ks.WellFormed length) :
    decode length ks.encode = .ok ks := by
  have hrow : (ks.keys.flatMap PublicKey.encode).length = ks.keys.length * PublicKey.size length := by
    rw [List.length_flatMap, List.map_congr_left fun k hk => (h.keys k hk).length_encode]
    simp [List.map_const']
  have hlength : ks.encode.length = ks.keys.length * PublicKey.size length + ks.tail.length := by
    rw [encode, List.length_append, hrow]
  have hpos : 0 < PublicKey.size length := Nat.lt_of_le_of_lt (Nat.zero_le _) h.tail
  -- The tail is shorter than a key, so it does not count as one.
  have hcount : ks.encode.length / PublicKey.size length = ks.keys.length :=
    calc ks.encode.length / PublicKey.size length
        = (ks.tail.length + ks.keys.length * PublicKey.size length) / PublicKey.size length := by
          rw [hlength, Nat.add_comm]
      _ = ks.tail.length / PublicKey.size length + ks.keys.length := Nat.add_mul_div_right _ _ hpos
      _ = ks.keys.length := by rw [Nat.div_eq_of_lt h.tail, Nat.zero_add]
  have hone : 1 ≤ ks.keys.length := List.length_pos_iff.2 h.ne_nil
  have hroom : PublicKey.size length ≤ ks.encode.length := by
    have hfirst := Nat.mul_le_mul_right (PublicKey.size length) hone
    omega
  have hslice := Bytes.slice_middle [] (ks.keys.flatMap PublicKey.encode) ks.tail
  have hkeys : (List.range ks.keys.length).map (fun i =>
      PublicKey.decodeAt length ks.encode (i * PublicKey.size length)) = ks.keys := by
    have hread := Bytes.map_decodeAt (fun k hk => (h.keys k hk).length_encode)
      (fun k hk _ => PublicKey.decodeAt_of_slice (h.keys k hk)) hslice
    simpa [encode] using hread
  have htail : ks.encode.drop (ks.keys.length * PublicKey.size length) = ks.tail := List.drop_left' hrow
  rw [decode, needBytes_of_le hroom, ok_bind, hcount]
  dsimp only
  rw [hkeys, htail]
  rfl

theorem PublicKeys.wellFormed_of_decode {length : Nat} {d : Bytes} {ks : PublicKeys}
    (h : decode length d = .ok ks) : ks.WellFormed length := by
  obtain ⟨hlength, h⟩ := of_needBytes h
  cases h
  have hpos : 0 < PublicKey.size length := by
    unfold PublicKey.size
    omega
  refine ⟨?_, ?_, ?_⟩
  · intro k hk
    obtain ⟨i, hi, rfl⟩ := List.mem_map.1 hk
    -- The key with number `i` ends before the last one does.
    have hwhole := Nat.div_mul_le_self d.length (PublicKey.size length)
    have hnext := Nat.mul_le_mul_right (PublicKey.size length) (Nat.succ_le_of_lt (List.mem_range.1 hi))
    have hsize : PublicKey.size length = 4 + PublicKey.uuidSize + length := rfl
    rw [Nat.succ_mul] at hnext
    exact ⟨Bytes.length_slice_of_le (by omega), Bytes.length_slice_of_le (by omega)⟩
  · -- There is room for one key, or nothing would have been read.
    have hone : 0 < d.length / PublicKey.size length := Nat.div_pos hlength hpos
    simpa using Nat.pos_iff_ne_zero.1 hone
  · -- What is left is what a division leaves.
    have hrest := Nat.mod_lt d.length hpos
    have hsplit := Nat.div_add_mod d.length (PublicKey.size length)
    rw [Nat.mul_comm] at hsplit
    rw [List.length_drop]
    omega

/-! ### Records for the tools, and pointers -/

structure ToolsArea.WellFormed (t : ToolsArea) : Prop where
  reserved : t.reserved.length = crcOffset - 0x0c

def ToolsArea.parts (t : ToolsArea) : List Bytes :=
  [Bytes.u32 t.version, Bytes.u32 t.binVersion, Bytes.u32 t.slotSize, t.reserved,
    Bytes.u16 t.crcReserved, Bytes.u16 t.crc]

theorem ToolsArea.decode_encode {t : ToolsArea} (h : t.WellFormed) :
    ∃ d, t.encode = .ok d ∧ decode d = .ok t := by
  have hreserved : t.reserved.length = 0x30 := h.reserved
  have hsize : t.parts.flatten.length = size := by simp [parts, hreserved, size]
  refine ⟨t.parts.flatten, ?_, ?_⟩
  · rw [encode, Bytes.exactWidth_of_length h.reserved, ok_bind]
    simp [parts, Bytes.ofDwords]
    rfl
  · have hparts := Bytes.hasParts_flatten_append t.parts []
    rw [List.append_nil] at hparts
    generalize t.parts.flatten = d at hparts hsize
    simp only [parts, Bytes.HasParts, Bytes.length_u32, Bytes.length_u16, hreserved, Nat.reduceAdd]
      at hparts
    simp only [decode, if_pos hsize, crcOffset, Nat.reduceAdd, Nat.reduceSub, Bytes.u32At, Bytes.u16At,
      hparts, Bytes.ofNat_toNat_u32, Bytes.ofNat_toNat_u16]

theorem ToolsArea.wellFormed_of_decode {d : Bytes} {t : ToolsArea} (h : decode d = .ok t) :
    t.WellFormed := by
  rw [decode] at h
  split at h
  · next hlength =>
    cases h
    unfold size at hlength
    exact ⟨Bytes.length_slice_of_le (by unfold crcOffset; omega)⟩
  · cases h

structure Pointers.WellFormed (ps : Pointers) : Prop where
  records : ps.records.length = count

theorem Pointers.decode_encode {ps : Pointers} (h : ps.WellFormed) : decode ps.encode = .ok ps := by
  have hlength : ps.encode.length = size := by
    simp [encode, List.length_flatMap, List.map_const', h.records, size]
  have hslice := Bytes.slice_middle [] ps.encode []
  have hrecords := Bytes.map_decodeAt (fun p _ => p.length_encode)
    (fun _ _ _ => Pointer.decodeAt_of_slice) hslice
  simp only [h.records, List.nil_append, List.append_nil, List.length_nil, Nat.zero_add] at hrecords
  rw [decode, if_pos (Nat.le_of_eq hlength.symm), hrecords]

theorem Pointers.wellFormed_of_decode {bs : Bytes} {ps : Pointers} (h : decode bs = .ok ps) :
    ps.WellFormed := by
  rw [decode] at h
  split at h
  · cases h
    exact ⟨by simp⟩
  · cases h

/-! ### All forms together -/

namespace Projection

/-- **A form with the shape of its kind.** Opaque contents have no form, and of compressed configuration
and of contents without a structure only a view is kept beside the bytes that are written. -/
inductive WellFormed : Family → Projection → Prop
  | pointers {ps : Pointers} (h : ps.WellFormed) : WellFormed .pointers (pointers ps)
  | toc {t : Toc} (h : t.WellFormed) : WellFormed .toc (toc t)
  | imageInfo {i : ImageInfo} (h : i.WellFormed) : WellFormed .imageInfo (imageInfo i)
  | deviceInfo {i : DeviceInfo} (h : i.WellFormed) : WellFormed .deviceInfo (deviceInfo i)
  | mfgInfo {m : MfgInfo} (h : m.WellFormed) : WellFormed .mfgInfo (mfgInfo m)
  | boot2 {b : Boot2} (h : b.WellFormed) : WellFormed .boot2 (boot2 b)
  | hashesTable {t : HashesTable} (h : t.WellFormed) : WellFormed .hashesTable (hashesTable t)
  | resetInfo {r : ResetInfo} (h : r.WellFormed) : WellFormed .resetInfo (resetInfo r)
  | imageSignature {length : UInt64} {s : ImageSignature} (h : s.WellFormed length.toNat) :
    WellFormed (.imageSignature length) (imageSignature s)
  | publicKeys {length : UInt64} {ks : PublicKeys} (h : ks.WellFormed length.toNat) :
    WellFormed (.publicKeys length) (publicKeys ks)
  | forbiddenVersions {f : ForbiddenVersions} (h : f.WellFormed) :
    WellFormed .forbiddenVersions (forbiddenVersions f)
  | toolsArea {t : ToolsArea} (h : t.WellFormed) : WellFormed .toolsArea (toolsArea t)

section Forms

variable [Algorithms] {family : Family} {p : Projection}

/-- A form with the shape of its kind is written, and read back from that. -/
theorem exists_decode_encode (h : WellFormed family p) :
    ∃ d, p.encode = .ok d ∧ decode family d = .ok p := by
  cases h with
  | @pointers ps h =>
    refine ⟨ps.encode, rfl, ?_⟩
    rw [decode, Pointers.decode_encode h]
    rfl
  | @toc t h =>
    have hread : Toc.decode (t.encode ++ []) = .ok t := Toc.decode_encode_append h fun _ => by decide
    rw [List.append_nil] at hread
    refine ⟨t.encode, rfl, ?_⟩
    rw [decode, hread]
    rfl
  | imageInfo h =>
    obtain ⟨d, hencode, hdecode⟩ := ImageInfo.decode_encode h
    exact ⟨d, hencode, congrArg (Except.map _) hdecode⟩
  | deviceInfo h =>
    obtain ⟨d, hencode, hdecode⟩ := DeviceInfo.decode_encode h
    exact ⟨d, hencode, congrArg (Except.map _) hdecode⟩
  | mfgInfo h =>
    obtain ⟨d, hencode, hdecode⟩ := MfgInfo.decode_encode h
    exact ⟨d, hencode, congrArg (Except.map _) hdecode⟩
  | boot2 h => exact ⟨_, rfl, congrArg (Except.map _) (Boot2.decode_encode h)⟩
  | hashesTable h => exact ⟨_, rfl, congrArg (Except.map _) (HashesTable.decode_encode h)⟩
  | resetInfo h => exact ⟨_, rfl, congrArg (Except.map _) (ResetInfo.decode_encode h)⟩
  | imageSignature h => exact ⟨_, rfl, congrArg (Except.map _) (ImageSignature.decode_encode h)⟩
  | publicKeys h => exact ⟨_, rfl, congrArg (Except.map _) (PublicKeys.decode_encode h)⟩
  | forbiddenVersions h => exact ⟨_, rfl, congrArg (Except.map _) (ForbiddenVersions.decode_encode h)⟩
  | toolsArea h =>
    obtain ⟨d, hencode, hdecode⟩ := ToolsArea.decode_encode h
    exact ⟨d, hencode, congrArg (Except.map _) hdecode⟩

/-- What is read has the shape of its kind, unless it is only a view of bytes that are kept. -/
theorem wellFormed_of_decode {d : Bytes} (h : decode family d = .ok p)
    (hview : p.keepsBytes = false ∨ family = .boot2) : WellFormed family p := by
  cases family with
  | pointers =>
    obtain ⟨ps, hps, rfl⟩ := exists_of_map_eq_ok h
    exact .pointers (Pointers.wellFormed_of_decode (eq_ok_of_mapError_eq_ok hps))
  | toc =>
    obtain ⟨t, ht, rfl⟩ := exists_of_map_eq_ok h
    exact .toc (Toc.wellFormed_of_decode (eq_ok_of_mapError_eq_ok ht))
  | imageInfo =>
    obtain ⟨i, hi, rfl⟩ := exists_of_map_eq_ok h
    exact .imageInfo (ImageInfo.wellFormed_of_decode hi)
  | deviceInfo =>
    obtain ⟨i, hi, rfl⟩ := exists_of_map_eq_ok h
    exact .deviceInfo (DeviceInfo.wellFormed_of_decode hi)
  | mfgInfo =>
    obtain ⟨m, hm, rfl⟩ := exists_of_map_eq_ok h
    exact .mfgInfo (MfgInfo.wellFormed_of_decode hm)
  | boot2 =>
    obtain ⟨b, hb, rfl⟩ := exists_of_map_eq_ok h
    exact .boot2 (Boot2.wellFormed_of_decode hb)
  | hashesTable =>
    obtain ⟨t, ht, rfl⟩ := exists_of_map_eq_ok h
    exact .hashesTable (HashesTable.wellFormed_of_decode ht)
  | resetInfo =>
    obtain ⟨r, hr, rfl⟩ := exists_of_map_eq_ok h
    exact .resetInfo (ResetInfo.wellFormed_of_decode hr)
  | imageSignature length =>
    obtain ⟨s, hs, rfl⟩ := exists_of_map_eq_ok h
    exact .imageSignature (ImageSignature.wellFormed_of_decode hs)
  | publicKeys length =>
    obtain ⟨ks, hks, rfl⟩ := exists_of_map_eq_ok h
    exact .publicKeys (PublicKeys.wellFormed_of_decode hks)
  | forbiddenVersions =>
    obtain ⟨f, hf, rfl⟩ := exists_of_map_eq_ok h
    exact .forbiddenVersions (ForbiddenVersions.wellFormed_of_decode hf)
  | toolsArea =>
    obtain ⟨t, ht, rfl⟩ := exists_of_map_eq_ok h
    exact .toolsArea (ToolsArea.wellFormed_of_decode ht)
  | debugIni =>
    obtain ⟨i, -, rfl⟩ := exists_of_map_eq_ok h
    rcases hview with hkeeps | hfamily
    · cases hkeeps
    · cases hfamily
  | generic | debugParams | blob | vpd =>
    cases h
    rcases hview with hkeeps | hfamily
    · cases hkeeps
    · cases hfamily

/-- **Forms are read back from what they are written as.** A form with the shape of its kind is written,
by writing each field at its offset as well, and what is written is read as the same form. Nothing but
such forms is read, unless they are only a view of bytes that are kept. -/
theorem decode_encode_of_wellFormed :
    (∀ family p, WellFormed family p → ∃ d, p.encode = .ok d ∧ decode family d = .ok p ∧
      (d.length < 2 ^ 63 → Machine.encode p = Machine.settled (.ok d))) ∧
    ∀ family d p, decode family d = .ok p → p.keepsBytes = false ∨ family = .boot2 →
      WellFormed family p := by
  refine ⟨?_, fun family d p => wellFormed_of_decode⟩
  intro family p h
  obtain ⟨d, hencode, hdecode⟩ := exists_decode_encode h
  refine ⟨d, hencode, hdecode, ?_⟩
  intro hlength
  rw [Machine.encode_eq (Machine.bounded_of_decode hlength hdecode), hencode]

end Forms

/-- A record of manufacture with an identifier of thirteen letters, and the shortest of all boot loaders. -/
theorem decode_encode_mfgInfo :
    let m : MfgInfo :=
      ⟨.text "MT_0000000008", List.replicate 12 0, 1, ⟨0x0c42a103, 4, 0⟩, ⟨0x1070fd, 2, 0⟩, []⟩
    let b : Boot2 := ⟨7, 0, 9, []⟩
    m.WellFormed ∧ (∃ d, encode (mfgInfo m) = .ok d ∧ decode .mfgInfo d = .ok (mfgInfo m) ∧
        (d.length < 2 ^ 63 → Machine.encode (mfgInfo m) = Machine.settled (.ok d))) ∧
      decode .boot2 [0, 0, 0, 7, 0, 0, 0, 0, 0, 0, 0, 9] = .ok (boot2 b) ∧ WellFormed .boot2 (boot2 b) := by
  intro m b
  have hm : m.WellFormed :=
    ⟨⟨Bytes.ofString "MT_0000000008" ++ [0, 0, 0], by decide, by decide⟩, by decide⟩
  have hb : decode .boot2 [0, 0, 0, 7, 0, 0, 0, 0, 0, 0, 0, 9] = .ok (boot2 b) := by decide
  have hforms := @decode_encode_of_wellFormed Algorithms.standard
  exact ⟨hm, hforms.1 _ _ (.mfgInfo hm), hb, hforms.2 _ _ _ hb (.inr rfl)⟩

end Projection

end FlashImage

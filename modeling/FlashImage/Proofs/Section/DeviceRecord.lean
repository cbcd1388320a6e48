import FlashImage.Algorithms.Standard
import FlashImage.Proofs.Section.Dispatch

/-!
# The record of a device and its CRC rule

The decoder of the record of a device insists on contents without the CRC dword, and a section with one has
to have room for both. So the record is read only where the dword is split off, and there it is read
whenever it has its mark (`Section.project_of_record`). The entry decides about the dword: if it says that
there is no CRC, nothing is split off and the record is kept as bytes, whatever its length
(`Section.project_of_unsplit`).
-/

namespace FlashImage

/-- **A record with its mark is read** from what stands in front of its CRC dword. -/
theorem DeviceInfo.exists_decode_take {d : Bytes} (hlength : d.length = sectionSize)
    (hmark : d.u32At 0 = mark) : ∃ i, decode (d.take size) = .ok i := by
  have htake : (d.take size).length = size := by
    rw [List.length_take, hlength]
    rfl
  have hfront : Bytes.u32At (d.take size) 0 = mark := by rw [Bytes.u32At_take (by decide), hmark]
  rw [decode, if_neg (not_not_intro htake), if_neg (not_not_intro hfront)]
  exact ⟨_, rfl⟩

namespace Section

/-- **The codes of sections with the record of a device.** -/
def deviceInfoCodes : List SectionCode := [0xe1, 0xe7, 0xe8]

variable {s : Section}

/-- All of these sections have the same form, and a CRC at their end. -/
theorem type_of_deviceInfo (h : s.code ∈ deviceInfoCodes) :
    s.type.family = .deviceInfo ∧ s.type.place = .trailer := by
  simp only [deviceInfoCodes, List.mem_cons, List.not_mem_nil, or_false] at h
  rcases h with h | h | h
  all_goals
    rw [type, h]
    exact ⟨rfl, rfl⟩

/-- The dword is split off from a section that has the right length and an entry that does not deny it. -/
theorem stripped_of_record (hcode : s.code ∈ deviceInfoCodes) (hplain : s.encryptedImage = false)
    (hcrc : s.entry.any TocEntry.noCrc = false) (hlength : s.data.length = DeviceInfo.sectionSize) :
    s.stripped = true := by
  obtain ⟨hfamily, htype⟩ := type_of_deviceInfo hcode
  have hfits : s.misfits = false := by simp [misfits, hlength]
  have hplace : s.place = .trailer := by
    refine place_eq_trailer_iff.2 ⟨by rw [hcrc, hfits]; rfl, htype, ?_⟩
    rw [hlength]
    decide
  exact stripped_of_trailer hplace hplain

/-- **A record without its dword is read** if it has its mark. -/
theorem project_of_record [Algorithms] (hcode : s.code ∈ deviceInfoCodes) (hsplit : s.stripped = true)
    (hlength : s.data.length = DeviceInfo.sectionSize) (hmark : s.data.u32At 0 = DeviceInfo.mark) :
    ∃ i, DeviceInfo.decode (s.data.take DeviceInfo.size) = .ok i ∧ s.project = .ok (.deviceInfo i) := by
  have hfits : s.misfits = false := by simp [misfits, hlength]
  have hpayload : s.payload = s.data.take DeviceInfo.size := by
    rw [payload, if_pos hsplit, hlength]
    rfl
  obtain ⟨i, hi⟩ := DeviceInfo.exists_decode_take hlength hmark
  refine ⟨i, hi, ?_⟩
  have hdecode : Projection.decode s.type.family s.payload = .ok (.deviceInfo i) := by
    rw [(type_of_deviceInfo hcode).1, hpayload]
    exact congrArg (Except.map _) hi
  have hencode : (Projection.deviceInfo i).encode = .ok s.payload := by
    rw [hpayload]
    exact DeviceInfo.encode_of_decode hi
  exact project_of_decode hfits hdecode fun _ => hencode

/-- **A record with its dword is not read**: the contents are too long by that, or the section has another
length altogether. -/
theorem project_of_unsplit [Algorithms] (hcode : s.code ∈ deviceInfoCodes) (hwhole : s.stripped = false) :
    s.project = .error (.badLength s.data.length) := by
  have hfamily := (type_of_deviceInfo hcode).1
  rw [project]
  split
  · rfl
  next hfits =>
  have hlength : s.data.length ≠ DeviceInfo.size := by
    have hsize : s.data.length = DeviceInfo.sectionSize := by simpa [misfits, hfamily] using hfits
    rw [hsize]
    decide
  have hpayload : s.payload = s.data := by simp [payload, hwhole]
  rw [hfamily, hpayload, Projection.decode, DeviceInfo.decode, if_pos hlength]
  rfl

/-- **A section with the record of a device** in an image that is not encrypted is shown as such if it is
a full record with its mark, unless the entry says that there is no CRC. Then it is never shown. -/
theorem deviceInfo_unless_noCrc [Algorithms] (hcode : s.code ∈ deviceInfoCodes)
    (hplain : s.encryptedImage = false) :
    (s.entry.any TocEntry.noCrc = false → s.data.length = DeviceInfo.sectionSize →
      s.data.u32At 0 = DeviceInfo.mark →
      ∃ i, DeviceInfo.decode (s.data.take DeviceInfo.size) = .ok i ∧
        s.projection = .deviceInfo i ∧ s.findings = []) ∧
    (s.entry.any TocEntry.noCrc = true →
      s.projection = .raw (DecodeError.badLength s.data.length).message ∧
        s.findings = [.decodeFailure s.name s.offset (DecodeError.badLength s.data.length).message]) := by
  have hknown : s.type.family ≠ .generic := by
    rw [(type_of_deviceInfo hcode).1]
    decide
  have henc : s.encrypted = false := by simp [encrypted, hplain]
  constructor
  · intro hcrc hlength hmark
    have hsplit := stripped_of_record hcode hplain hcrc hlength
    obtain ⟨i, hi, hproject⟩ := project_of_record hcode hsplit hlength hmark
    exact ⟨i, hi, shown_of_ok hknown henc hproject⟩
  · intro hdenied
    have hwhole : s.stripped = false := by simp [stripped, place, hdenied]
    exact shown_of_error hknown henc (project_of_unsplit hcode hwhole)

/-- A section with a full record that has its mark and nothing else, found through an entry or without. -/
def markOnly (entry : Option TocEntry) : Section :=
  ⟨0xe1, 0x1000, Bytes.u32 DeviceInfo.mark ++ List.replicate 508 0, .toc .dtoc 0, entry, false⟩

/-- An entry for that section which says that there is no CRC. -/
def deniedEntry : TocEntry := ⟨⟨[0xe1000080, 0, 0, 0, 0, 0x800, 0x00038c3a, 0x0000d3e9], rfl⟩⟩

theorem length_markOnly (entry : Option TocEntry) :
    (markOnly entry).data.length = DeviceInfo.sectionSize := by
  rw [markOnly, List.length_append, Bytes.length_u32, List.length_replicate]
  rfl

/-- The record is read without an entry, and kept as bytes with the other one. -/
theorem deviceInfo_unless_noCrc_markOnly :
    (∃ i, DeviceInfo.decode ((markOnly none).data.take DeviceInfo.size) = .ok i ∧
        (markOnly none).projection = .deviceInfo i ∧ (markOnly none).findings = []) ∧
      (markOnly (some deniedEntry)).projection =
        .raw (DecodeError.badLength DeviceInfo.sectionSize).message := by
  have hread := @deviceInfo_unless_noCrc (markOnly none) Algorithms.standard (by decide) rfl
  have hkept := @deviceInfo_unless_noCrc (markOnly (some deniedEntry)) Algorithms.standard (by decide) rfl
  rw [length_markOnly] at hkept
  exact ⟨hread.1 rfl (length_markOnly none) (by decide), (hkept.2 (by decide)).1⟩

/-- A full record with its mark that could be read, but is kept as bytes with a failure reported. -/
theorem noCrc_not_shown :
    let s := markOnly (some deniedEntry)
    s.code ∈ deviceInfoCodes ∧ s.data.length = DeviceInfo.sectionSize ∧
      s.data.u32At 0 = DeviceInfo.mark ∧ s.encryptedImage = false ∧
      (∃ i, DeviceInfo.decode (s.data.take DeviceInfo.size) = .ok i) ∧
      (∀ i, s.projection ≠ .deviceInfo i) ∧
      s.findings = [.decodeFailure "DEV_INFO" 0x1000 "unexpected length 512"] := by
  intro s
  have hproject := project_of_unsplit (s := s) (by decide) (by decide)
  rw [length_markOnly] at hproject
  obtain ⟨hprojection, hfindings⟩ := shown_of_error (by decide) (by decide) hproject
  have hlength : s.data.length = DeviceInfo.sectionSize := length_markOnly _
  have hmark : s.data.u32At 0 = DeviceInfo.mark := by decide
  refine ⟨by decide, hlength, hmark, rfl, DeviceInfo.exists_decode_take hlength hmark, ?_, hfindings⟩
  intro i hi
  rw [hprojection] at hi
  cases hi

end Section

end FlashImage

import FlashImage.Proofs.Extraction.Contents
import FlashImage.Proofs.Repack.Assembly
import FlashImage.Proofs.Section.RoundTrip
import FlashImage.Proofs.Section.Status

/-!
# The pieces of an image come back from their files

The files of a gap give the bytes of the gap, and the files of a section the bytes of the section
(`Image.gapBytes_eq`, `Image.sectionBytes_eq`), whichever way they are kept:

* a uniform gap is a description, which is read back as it was written, and any other gap is its bytes;
* a section whose JSON form says everything was projected bit-exactly, or it would have been kept raw,
  so writing the projection that is read back gives its contents;
* a CRC dword that was split off is put back as it was, as the contents still have the CRC that was
  computed for them. That takes the algorithm of the record to be the one that was computed with, and
  so it is for every type that has its CRC there.

Of the files of a section only one counts (`SectionPiece.source`), and nothing is asked of the others. Where
files come from does not matter as long as those of the extraction are among them (`Extraction.Holds`), so
there may be any others beside them.
-/

namespace FlashImage

/-- **The files of an extraction are there to be read**, and possibly others. -/
def Extraction.Holds (x : Extraction) (read : FileReader) : Prop :=
  ∀ name contents, x.files.get? name = some contents → read name = .ok contents

/-- What is read from the files of an extraction alone. -/
theorem Extraction.holds_reader (x : Extraction) : x.Holds x.files.reader := by
  intro name contents h
  rw [Files.reader, h]

/-- Whatever an extraction wrote is read. -/
theorem Image.read_eq [Algorithms] {i : Image} {keepBinary : Bool} {read : FileReader}
    (h : (i.extract keepBinary).Holds read) {name : String} {contents : Bytes}
    (hmem : (name, contents) ∈ (i.extract keepBinary).written) : read name = .ok contents :=
  h name contents (Files.get?_writeAll (Extraction.nodup_written i keepBinary) hmem)

/-! ### Gaps -/

/-- **A range with a filler** is its filler, repeated. -/
theorem Gap.replicate_eq_slice {data : Bytes} {first last : Nat} {b : UInt8} (hlast : last ≤ data.length)
    (hfill : (Gap.between data first last).fill = some b) :
    first < last ∧ List.replicate (last - first) b = data.slice first (last - first) := by
  obtain ⟨hne, -, hall⟩ := Gap.fillOf_eq_some_iff.1 hfill
  -- There is a byte in the range, so it does not end where it starts.
  have horder : first < last := by
    have hpos := List.length_pos_iff.2 hne
    rw [Bytes.length_slice] at hpos
    omega
  refine ⟨horder, (List.eq_replicate_iff.2 ⟨Bytes.length_slice_of_le (by omega), hall⟩).symm⟩

/-- A uniform gap is its filler, repeated. -/
theorem Image.replicate_eq_slice {i : Image} {g : Gap} (hg : g ∈ i.gaps) {b : UInt8}
    (hfill : g.fill = some b) :
    List.replicate (g.last - g.first) b = i.data.slice g.first (g.last - g.first) := by
  have hin := fun s hs => (i.place_of_mem_sections (s := s) hs).2.1
  obtain ⟨-, -, hlast, heq⟩ := range_of_mem_gapsFrom hin hg
  rw [heq] at hfill
  exact (Gap.replicate_eq_slice hlast hfill).2

/-- **A description stands for its bytes**, whichever byte the layout says that they are. -/
theorem gapBytes_description {read : FileReader} {name : String} {size : Nat} {b : UInt8}
    (hsize : size < 2 ^ 64) (hread : read name = .ok (Bytes.ofString (GapFile.write size b)))
    (declared : UInt8) : gapBytes read name size (some declared) = .ok (List.replicate size b) := by
  refine gapBytes_eq_ok_iff.2 ⟨.uniform hread ?_, List.length_replicate⟩
  rw [GapFile.toStringLossy_write, GapFile.read_write hsize]

/-- **The file of a gap gives the bytes of the gap.** -/
theorem Image.gapBytes_eq {i : Image} {read : FileReader} (hlen : i.data.length < 2 ^ 63) {p : GapPiece}
    (hp : p ∈ Extraction.gapPieces i.data i.gaps) (hread : read p.fileName = .ok p.contents) :
    gapBytes read p.fileName p.subject.size p.subject.fill
      = .ok (i.data.slice p.subject.first (p.subject.last - p.subject.first)) := by
  obtain ⟨⟨g, n⟩, hgn, rfl⟩ := List.mem_map.1 hp
  have hg : g ∈ i.gaps := List.fst_mem_of_mem_zipIdx hgn
  obtain ⟨horder, hlast⟩ := i.tiling.gap_inside g hg
  have hsize : g.size = g.last - g.first := rfl
  have hsubject : (GapPiece.ofGap i.data n g).subject = g := rfl
  rw [hsubject, hsize]
  cases hfill : g.fill with
  | none =>
    have hcontents : (GapPiece.ofGap i.data n g).contents
        = i.data.slice g.first (g.last - g.first) := by
      rw [← hsize, GapPiece.ofGap, hfill]
    exact gapBytes_eq_ok_iff.2 ⟨.verbatim (hcontents ▸ hread), Bytes.length_slice_of_le (by omega)⟩
  | some b =>
    have hcontents : (GapPiece.ofGap i.data n g).contents
        = Bytes.ofString (GapFile.write (g.last - g.first) b) := by
      rw [← hsize, GapPiece.ofGap, hfill]
    -- The filler is the one the gap was found to have, and the size the one of its range.
    rw [← replicate_eq_slice hg hfill]
    exact gapBytes_description (by omega) (hcontents ▸ hread) b

/-! ### Sections -/

namespace SectionPiece

variable [Algorithms] {p : SectionPiece}

/-- **The file of a section that counts**: its JSON form, if that says everything, and else its bytes. -/
def source (p : SectionPiece) : Option (String × Bytes) :=
  if p.subject.projection.keepsBytes then p.binaryFile else p.jsonFile

theorem source_of_keepsBytes (h : p.subject.projection.keepsBytes = true) : p.source = p.binaryFile :=
  if_pos h

theorem source_of_not_keepsBytes (h : p.subject.projection.keepsBytes = false) : p.source = p.jsonFile := by
  rw [source, h, if_neg (by decide)]

theorem mem_files_of_source {file : String × Bytes} (h : p.source = some file) : file ∈ p.files := by
  rw [files, List.mem_append, List.mem_append, Option.mem_toList, Option.mem_toList]
  rw [source] at h
  split at h
  · exact Or.inl (Or.inr h)
  · exact Or.inl (Or.inl h)

end SectionPiece

/-- A projection that says everything is one of a known form. -/
theorem Projection.isDecoded_of_not_keepsBytes {p : Projection} (h : p.keepsBytes = false) :
    p.isDecoded = true := by
  cases p <;> first | rfl | cases h

namespace Section

/-- **A projection that says everything gives the contents of its section**, and can be read back. -/
theorem of_not_keepsBytes [Algorithms] {s : Section} (h : s.projection.keepsBytes = false) :
    s.projection.isDecoded = true ∧ s.projection.Fits ∧ s.projection.encode = .ok s.payload := by
  -- What is kept raw keeps its bytes, so the contents were projected.
  have hproject : s.project = .ok s.projection := by
    rw [projection] at h ⊢
    split
    · next hunknown =>
      rw [if_pos hunknown] at h
      cases h
    next hknown =>
    rw [if_neg hknown] at h
    split
    · next hencrypted =>
      rw [if_pos hencrypted] at h
      cases h
    next hplain =>
    rw [if_neg hplain] at h
    cases hp : s.project with
    | ok p => rfl
    | error e =>
      rw [hp] at h
      cases h
  obtain ⟨hdecode, hencode⟩ := of_project hproject
  exact ⟨Projection.isDecoded_of_not_keepsBytes h, Projection.fits_of_not_keepsBytes h hdecode,
    hencode h⟩

end Section

namespace Image

variable [Algorithms] {i : Image} {keepBinary : Bool} {read : FileReader}

/-- The file with a projection gives the contents of the section. -/
theorem projectedBytes_eq {s : Section} (h : s.projection.keepsBytes = false) {file : String}
    (hread : read file = .ok s.projection.toJson.pretty) :
    projectedBytes read file = .ok s.payload := by
  obtain ⟨-, hfits, hencode⟩ := Section.of_not_keepsBytes h
  have hback := Projection.ofJson?_parse?_pretty hfits
  rw [Projection.withoutContents_of_not_keepsBytes h] at hback
  simp only [projectedBytes, hread, bind, Except.bind, hback, hencode]
  rfl

/-- **The file of a section that counts gives its contents.** -/
theorem sectionPayload_eq {keep : Bool} {base : String} {s : Section}
    (h : ∀ file, (SectionPiece.ofSection keep base s).source = some file → read file.1 = .ok file.2) :
    sectionPayload read (SectionPiece.ofSection keep base s).toRecord = .ok s.payload := by
  cases hkeeps : s.projection.keepsBytes with
  | false =>
    obtain ⟨hdecoded, -, -⟩ := Section.of_not_keepsBytes hkeeps
    -- Everything is in the JSON form, so it is looked at before the bytes.
    have hjson : (SectionPiece.ofSection keep base s).jsonFile
        = some (base ++ ".json", s.projection.toJson.pretty) := by
      simp only [SectionPiece.jsonFile, SectionPiece.ofSection, if_pos hdecoded, Option.map_some]
    have hread := h (base ++ ".json", s.projection.toJson.pretty) (by
      rw [SectionPiece.source_of_not_keepsBytes hkeeps, hjson])
    have hrecord : (SectionPiece.ofSection keep base s).toRecord.jsonFile = some (base ++ ".json") := by
      rw [SectionPiece.toRecord, hjson]
      rfl
    have hnot : (SectionPiece.ofSection keep base s).toRecord.keepsBytes = false := hkeeps
    simp only [sectionPayload, hnot, hrecord]
    exact projectedBytes_eq hkeeps hread
  | true =>
    -- The JSON form leaves the contents out, so the bytes were kept whatever was asked for.
    have hbinary : (SectionPiece.ofSection keep base s).binaryFile = some (base ++ ".bin", s.payload) := by
      simp [SectionPiece.binaryFile, SectionPiece.ofSection, hkeeps]
    have hread := h (base ++ ".bin", s.payload) (by
      rw [SectionPiece.source_of_keepsBytes hkeeps, hbinary])
    have hrecord : (SectionPiece.ofSection keep base s).toRecord.fileName = some (base ++ ".bin") := by
      rw [SectionPiece.toRecord, hbinary]
      rfl
    have hkept : (SectionPiece.ofSection keep base s).toRecord.keepsBytes = true := hkeeps
    simp only [sectionPayload, hkept, hrecord, if_pos]
    exact hread

/-- **The CRC dword that is put back** is the one that was split off if the contents still have the CRC of
those it was split off from, and a new one otherwise. -/
theorem trailerOf_ofSection {s : Section} (h : s.stripped = true) {dword : UInt32}
    (hdword : s.trailer = some dword) (fileName jsonFile : Option String) (contents : Bytes) :
    trailerOf (.ofSection s fileName jsonFile) contents
      = if Crc.software s.payload = Crc.software contents then dword
        else s.type.slot.set 0 (Crc.software contents) := by
  have halgorithm : s.type.algorithm.compute contents = Crc.software contents := by
    rw [Section.algorithm_of_stripped h]
    rfl
  simp only [trailerOf, SectionRecord.ofSection, hdword, Section.computedCrc_of_stripped h, halgorithm]

/-- **The file of a section that counts gives the bytes of the section.** -/
theorem sectionBytes_eq {keep : Bool} {base : String} {s : Section}
    (h : ∀ file, (SectionPiece.ofSection keep base s).source = some file → read file.1 = .ok file.2) :
    sectionBytes read (SectionPiece.ofSection keep base s).toRecord = .ok s.data := by
  have hsize : s.payload.length = (SectionPiece.ofSection keep base s).toRecord.size := rfl
  have hstripped : (SectionPiece.ofSection keep base s).toRecord.stripped = s.stripped := rfl
  simp only [sectionBytes, sectionPayload_eq h, bind, Except.bind, if_pos hsize, hstripped]
  -- With the old contents the CRC dword is the old one as well.
  cases hcut : s.stripped with
  | true =>
    obtain ⟨dword, hdword, hdata⟩ := Section.payload_append_trailer hcut
    have htrailer : trailerOf (SectionPiece.ofSection keep base s).toRecord s.payload = dword := by
      rw [SectionPiece.toRecord]
      exact (trailerOf_ofSection hcut hdword _ _ _).trans (if_pos rfl)
    rw [if_pos rfl, htrailer, hdata]
    rfl
  | false =>
    have hwhole : s.payload = s.data := by
      rw [Section.payload, hcut, if_neg (by decide)]
    rw [if_neg (by decide), hwhole]
    rfl

end Image

end FlashImage

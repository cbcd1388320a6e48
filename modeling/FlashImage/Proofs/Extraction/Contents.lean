import FlashImage.Proofs.Extraction.Names
import FlashImage.Proofs.Files
import FlashImage.Proofs.Image.Tiling

/-!
# What the files of an extraction hold

An extraction writes its files one after the other, and since all of them have names of their own, none is
written over: what is there in the end is what was written (`Image.nothingOverwritten`). So there are as
many files as were counted, and the index leads to the right ones. The record of a section names files
with its contents and its JSON form, and the gap in the layout a file with its description or its bytes,
however many sections there are of one type and wherever they are.

## Parts

* what is written for sections, for gaps and for the index;
* pieces, records and the layout;
* how many files there are, and what they hold.
-/

namespace FlashImage

namespace Image

variable [Algorithms] {i : Image} {keepBinary : Bool}

/-! ### What is written -/

/-- The pieces of the sections of an image. -/
abbrev pieces (i : Image) (keepBinary : Bool) : List SectionPiece :=
  Extraction.sectionPieces (keepBinary || i.encrypted) i.sections

/-- The index of an extraction is written. -/
theorem metadata_mem_written : (Metadata.fileName, (i.extract keepBinary).metadata.toJson.pretty)
    ∈ (i.extract keepBinary).written :=
  List.mem_append_right _ (List.mem_singleton.2 rfl)

/-- The file of a gap is written. -/
theorem gapFile_mem_written {p : GapPiece} (hp : p ∈ Extraction.gapPieces i.data i.gaps) :
    (p.fileName, p.contents) ∈ (i.extract keepBinary).written :=
  List.mem_append_left _ (List.mem_append_right _ (List.mem_map.2 ⟨p, hp, rfl⟩))

/-- The files of a section are written. -/
theorem sectionFile_mem_written {p : SectionPiece} (hp : p ∈ i.pieces keepBinary)
    {file : String × Bytes} (hfile : file ∈ p.files) : file ∈ (i.extract keepBinary).written :=
  List.mem_append_left _ (List.mem_append_left _ (List.mem_flatMap.2 ⟨p, hp, hfile⟩))

/-! ### Pieces, records and the layout -/

/-- The pieces of a layout are those of sections, by number, and those of gaps. -/
theorem mem_layout {e : LayoutEntry} : e ∈ (i.extract keepBinary).metadata.layout ↔
    (∃ (p : SectionPiece) (n : Nat), (i.pieces keepBinary)[n]? = some p ∧ e = p.layoutEntry n) ∨
    (∃ p ∈ Extraction.gapPieces i.data i.gaps, e = p.layoutEntry) := by
  show e ∈ Extraction.layoutOf (i.pieces keepBinary) (Extraction.gapPieces i.data i.gaps) ↔ _
  rw [Extraction.layoutOf, List.mem_mergeSort, List.mem_append, List.mem_map, List.mem_map]
  constructor
  · rintro (⟨⟨p, n⟩, hp, rfl⟩ | ⟨p, hp, rfl⟩)
    · exact Or.inl ⟨p, n, List.mk_mem_zipIdx_iff_getElem?.1 hp, rfl⟩
    · exact Or.inr ⟨p, hp, rfl⟩
  · rintro (⟨p, n, hp, rfl⟩ | ⟨p, hp, rfl⟩)
    · exact Or.inl ⟨(p, n), List.mk_mem_zipIdx_iff_getElem?.2 hp, rfl⟩
    · exact Or.inr ⟨p, hp, rfl⟩

/-- A piece for a section is made of a section of the image. -/
theorem exists_of_getElem?_pieces {p : SectionPiece} {n : Nat} (hp : (i.pieces keepBinary)[n]? = some p) :
    ∃ s ∈ i.sections, ∃ base, p = .ofSection (keepBinary || i.encrypted) base s := by
  obtain ⟨⟨s, m⟩, hs, rfl⟩ := List.mem_map.1 (List.mem_of_getElem? hp)
  exact ⟨s, List.fst_mem_of_mem_zipIdx hs, _, rfl⟩

/-- A section of an image has its piece in the same place. -/
theorem getElem?_pieces (keepBinary : Bool) {s : Section} {n : Nat} (hs : i.sections[n]? = some s) :
    ∃ base, (i.pieces keepBinary)[n]? = some (.ofSection (keepBinary || i.encrypted) base s) := by
  refine ⟨SectionPiece.baseName s (SectionPiece.numberAmong i.sections (i.sections.take n) s), ?_⟩
  rw [pieces, Extraction.sectionPieces, List.getElem?_map, List.getElem?_zipIdx, hs]
  simp

/-- A section has its record in the same place. -/
theorem getElem?_records {p : SectionPiece} {n : Nat} (hp : (i.pieces keepBinary)[n]? = some p) :
    (i.extract keepBinary).metadata.sections[n]? = some p.toRecord := by
  show ((i.pieces keepBinary).map SectionPiece.toRecord)[n]? = some p.toRecord
  rw [List.getElem?_map, hp, Option.map_some]

end Image

/-! ### Contents -/

namespace SectionPiece

/-- The files of a section are as many as it has forms. -/
theorem length_files (p : SectionPiece) :
    p.files.length = p.json.isSome.toNat + p.binary.isSome.toNat + p.settings.isSome.toNat := by
  rw [files, jsonFile, binaryFile, settingsFile]
  cases p.json <;> cases p.binary <;> cases p.settings <;> rfl

/-- The files of sections are as many as are counted. -/
theorem length_flatMap_files (pieces : List SectionPiece) :
    (pieces.flatMap files).length = (pieces.countP fun p => p.binary.isSome)
      + (pieces.countP fun p => p.json.isSome) + (pieces.countP fun p => p.settings.isSome) := by
  induction pieces with
  | nil => rfl
  | cons p pieces ih =>
    have hone (b : Bool) : (if b = true then 1 else 0) = b.toNat := by cases b <;> rfl
    rw [List.flatMap_cons, List.length_append, length_files, ih, List.countP_cons, List.countP_cons,
      List.countP_cons, hone, hone, hone]
    omega

variable [Algorithms] {s : Section} {base name : String} {keepBinary : Bool}

/-- The file that the record of a section names for its bytes has its contents. -/
theorem mem_files_of_fileName (h : (ofSection keepBinary base s).toRecord.fileName = some name) :
    (name, s.payload) ∈ (ofSection keepBinary base s).files := by
  obtain ⟨⟨name', contents⟩, hfile, rfl⟩ := Option.map_eq_some_iff.1 h
  obtain ⟨contents', hbinary, heq⟩ := Option.map_eq_some_iff.1 hfile
  cases heq
  have hcontents : contents = s.payload := by
    simp only [ofSection] at hbinary
    split at hbinary
    · cases hbinary
    · exact (Option.some.inj hbinary).symm
  rw [files, hfile, ← hcontents]
  simp

/-- The file that the record of a section names for its JSON form has that form. -/
theorem mem_files_of_jsonFile (h : (ofSection keepBinary base s).toRecord.jsonFile = some name) :
    (name, s.projection.toJson.pretty) ∈ (ofSection keepBinary base s).files := by
  obtain ⟨⟨name', contents⟩, hfile, rfl⟩ := Option.map_eq_some_iff.1 h
  obtain ⟨contents', hjson, heq⟩ := Option.map_eq_some_iff.1 hfile
  cases heq
  have hcontents : contents = s.projection.toJson.pretty := by
    simp only [ofSection] at hjson
    split at hjson
    · exact (Option.some.inj hjson).symm
    · cases hjson
  rw [files, hfile, ← hcontents]
  simp

end SectionPiece

/-- **The contents of the file of a gap**: a description if the gap is uniform, and else its bytes. -/
def Gap.fileContents (g : Gap) (data : Bytes) : Bytes :=
  match g.fill with
  | some b => Bytes.ofString (GapFile.write g.size b)
  | none => data.slice g.first g.size

namespace Image

/-- **Every piece of an image has files of its own**, and they hold what was written for it. -/
structure NothingOverwritten [Algorithms] (i : Image) (keepBinary : Bool) : Prop where
  nodup_names : ((i.extract keepBinary).written.map Prod.fst).Nodup
  files_eq : (i.extract keepBinary).files = (i.extract keepBinary).written
  /-- There are as many files as were counted, and the index. -/
  length_files : (i.extract keepBinary).files.length
    = (i.extract keepBinary).summary.binaryFiles + (i.extract keepBinary).summary.jsonFiles
      + (i.extract keepBinary).summary.settingsFiles + (i.extract keepBinary).summary.gapFiles + 1
  no_failures : (i.extract keepBinary).summary.failures = 0
  index : (i.extract keepBinary).files.get? Metadata.fileName
    = some (i.extract keepBinary).metadata.toJson.pretty
  length_records : (i.extract keepBinary).metadata.sections.length = i.sections.length
  /-- The record of a section names files with its contents and its JSON form. -/
  ofSection : ∀ (n : Nat) (s : Section) (r : SectionRecord), i.sections[n]? = some s →
    (i.extract keepBinary).metadata.sections[n]? = some r →
    (∀ name, r.fileName = some name → (i.extract keepBinary).files.get? name = some s.payload) ∧
    (∀ name, r.jsonFile = some name →
      (i.extract keepBinary).files.get? name = some s.projection.toJson.pretty)
  /-- A gap in the layout is one of the image, and names the file with its contents. -/
  ofGap : ∀ first last size fill name,
    .gap first last size fill name ∈ (i.extract keepBinary).metadata.layout →
      ∃ g ∈ i.gaps, g.first = first ∧ g.last = last ∧ g.size = size ∧ g.fill = fill ∧
        (i.extract keepBinary).files.get? name = some (g.fileContents i.data)

/-- **No file of an extraction is written over by another.** -/
theorem nothingOverwritten [Algorithms] (i : Image) (keepBinary : Bool) :
    i.NothingOverwritten keepBinary := by
  have hnodup := Extraction.nodup_written i keepBinary
  have hfiles : (i.extract keepBinary).files = (i.extract keepBinary).written := Files.writeAll_eq hnodup
  -- Since no name comes twice, what was written under a name is there in the end.
  have hget {name : String} {contents : Bytes} (hmem : (name, contents) ∈ (i.extract keepBinary).written) :
      (i.extract keepBinary).files.get? name = some contents := Files.get?_writeAll hnodup hmem
  refine ⟨hnodup, hfiles, ?_, rfl, hget metadata_mem_written, ?_, ?_, ?_⟩
  · rw [hfiles, Extraction.written, List.length_append, List.length_append, SectionPiece.length_flatMap_files,
      List.length_map]
    rfl
  · show ((i.pieces keepBinary).map SectionPiece.toRecord).length = _
    simp [Extraction.sectionPieces]
  · intro n s r hs hr
    obtain ⟨base, hp⟩ := getElem?_pieces keepBinary hs
    obtain rfl := Option.some.inj ((getElem?_records hp).symm.trans hr)
    have hmem := List.mem_of_getElem? hp
    constructor
    · intro name hname
      exact hget (sectionFile_mem_written hmem (SectionPiece.mem_files_of_fileName hname))
    · intro name hname
      exact hget (sectionFile_mem_written hmem (SectionPiece.mem_files_of_jsonFile hname))
  · intro first last size fill name he
    rcases mem_layout.1 he with ⟨p, n, -, hentry⟩ | ⟨p, hp, hentry⟩
    · cases hentry
    · obtain ⟨⟨g, n⟩, hgn, rfl⟩ := List.mem_map.1 hp
      cases hentry
      exact ⟨g, List.fst_mem_of_mem_zipIdx hgn, rfl, rfl, rfl, rfl, hget (gapFile_mem_written hp)⟩

end Image

end FlashImage

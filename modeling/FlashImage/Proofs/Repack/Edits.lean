import FlashImage.Proofs.Image.Structure
import FlashImage.Proofs.Repack.Identity

/-!
# An edit stays where it is made

The files of an extraction are there to be edited. Whatever one of them is replaced by, an image that can
be put together still has its length, and it is the old one outside of the piece that the file belongs to
(`Image.repack_insert`). Files that are there for reading only make no difference at all, and the edit of a
piece that no other piece reaches into is all that changes (`Image.repack_of_edit`).

The argument is the one of an unedited image with one piece set apart. Any contents that are accepted fill
the range of their piece, no more and no less (`Fills`), because sizes are checked against the index; and
each other piece holds the bytes of the image, even where it overlaps the edited one, so that writing it
cannot bring anything else in. The invariant of the run is therefore the same as before, weakened on the
range of the edited piece (`foldlM_writePiece_outside`). It takes names to be unique: a file belongs to one
piece only, and no other piece reads it (`Extraction.Owns`).

## Parts

* what a file belongs to, and which files are not read;
* accepted contents fill their range;
* the run, with one piece set apart;
* the pieces of an extraction;
* edits that are made, and all edits.
-/

namespace FlashImage

/-- Writing in a row leaves nothing behind that was not written. -/
theorem Files.mem_map_fst_of_get?_writeAll {written : List (String × Bytes)} {name : String}
    (h : ((writeAll written).get? name).isSome = true) : name ∈ written.map Prod.fst := by
  by_contra hnot
  rw [writeAll, get?_foldl_of_notMem written [] hnot] at h
  cases h

/-! ### What a file belongs to -/

namespace SectionPiece

variable {p : SectionPiece} {name : String}

/-- The files of a section are its JSON form, its bytes and its settings. -/
theorem mem_map_fst_files_iff (p : SectionPiece) : name ∈ p.files.map Prod.fst ↔
    p.jsonFile.map Prod.fst = some name ∨ p.binaryFile.map Prod.fst = some name ∨
      p.settingsFile.map Prod.fst = some name := by
  rw [files, List.map_append, List.map_append, List.mem_append, List.mem_append, or_assoc,
    ← Option.toList_map, ← Option.toList_map, ← Option.toList_map]
  simp only [Option.mem_toList]

/-- The name of a file of a section ends with the extension of its form. -/
theorem fst_of_map {contents : Option Bytes} {ext : String}
    (h : (contents.map (p.base ++ ext, ·)).map Prod.fst = some name) : name = p.base ++ ext := by
  cases contents <;> cases h
  rfl

/-- A file of another form than the one that counts is not the one that counts. -/
theorem fst_ne_of_source [Algorithms] {ext : String} (hext : ext ∈ extensions)
    (hne : ext ≠ if p.subject.projection.keepsBytes then ".bin" else ".json") {file : String × Bytes}
    (h : p.source = some file) : file.1 ≠ p.base ++ ext := by
  intro hname
  rw [source] at h
  split at h
  · next hkeeps =>
    rw [if_pos hkeeps] at hne
    rw [fst_of_map (congrArg (Option.map Prod.fst) h)] at hname
    exact hne (extension_injective (by decide) hext hname).2.symm
  · next hkeeps =>
    rw [if_neg hkeeps] at hne
    rw [fst_of_map (congrArg (Option.map Prod.fst) h)] at hname
    exact hne (extension_injective (by decide) hext hname).2.symm

end SectionPiece

namespace Extraction

/-- **The piece of the image that a file belongs to.** -/
inductive Owns (x : Extraction) (name : String) : LayoutEntry → Prop where
  | ofSection {p : SectionPiece} {n : Nat} (hp : x.sections[n]? = some p)
      (hname : name ∈ p.files.map Prod.fst) : Owns x name (p.layoutEntry n)
  | ofGap {p : GapPiece} (hp : p ∈ x.gaps) (hname : p.fileName = name) : Owns x name p.layoutEntry

/-- **A file that is there for reading only**: the settings of a section, its JSON form if that leaves
the contents out, and its bytes if the JSON form says everything. -/
inductive Unread [Algorithms] (x : Extraction) (name : String) : Prop where
  | settings {p : SectionPiece} (hp : p ∈ x.sections) (hname : p.settingsFile.map Prod.fst = some name) :
    Unread x name
  | json {p : SectionPiece} (hp : p ∈ x.sections) (hname : p.jsonFile.map Prod.fst = some name)
      (hkeeps : p.subject.projection.keepsBytes = true) : Unread x name
  | binary {p : SectionPiece} (hp : p ∈ x.sections) (hname : p.binaryFile.map Prod.fst = some name)
      (hkeeps : p.subject.projection.keepsBytes = false) : Unread x name

/-- A file that is there for reading only is one of a section, and not the one that counts. -/
theorem Unread.exists_section [Algorithms] {x : Extraction} {name : String} (h : x.Unread name) :
    ∃ (p : SectionPiece) (n : Nat), x.sections[n]? = some p ∧ name ∈ p.files.map Prod.fst ∧
      ∀ file, p.source = some file → file.1 ≠ name := by
  cases h with
  | @settings p hp hname =>
    obtain ⟨n, hn⟩ := List.mem_iff_getElem?.1 hp
    refine ⟨p, n, hn, p.mem_map_fst_files_iff.2 (Or.inr (Or.inr hname)), fun file hfile => ?_⟩
    rw [SectionPiece.fst_of_map hname]
    refine SectionPiece.fst_ne_of_source (by decide) ?_ hfile
    split <;> decide
  | @json p hp hname hkeeps =>
    obtain ⟨n, hn⟩ := List.mem_iff_getElem?.1 hp
    refine ⟨p, n, hn, p.mem_map_fst_files_iff.2 (Or.inl hname), fun file hfile => ?_⟩
    rw [SectionPiece.fst_of_map hname]
    exact SectionPiece.fst_ne_of_source (by decide) (by rw [hkeeps]; decide) hfile
  | @binary p hp hname hkeeps =>
    obtain ⟨n, hn⟩ := List.mem_iff_getElem?.1 hp
    refine ⟨p, n, hn, p.mem_map_fst_files_iff.2 (Or.inr (Or.inl hname)), fun file hfile => ?_⟩
    rw [SectionPiece.fst_of_map hname]
    exact SectionPiece.fst_ne_of_source (by decide) (by rw [hkeeps]; decide) hfile

/-- **All files but one are as they were written**, and there may be others. -/
def HoldsBut (x : Extraction) (name : String) (read : FileReader) : Prop :=
  ∀ other contents, other ≠ name → x.files.get? other = some contents → read other = .ok contents

/-- A file that is replaced leaves the others as they were. -/
theorem holdsBut_insert (x : Extraction) (name : String) (contents : Bytes) :
    x.HoldsBut name (x.files.insert name contents).reader := by
  intro other old hne hold
  rw [Files.reader, Files.get?_insert_of_ne contents x.files hne, hold]

end Extraction

namespace Image

variable [Algorithms] {i : Image} {keepBinary : Bool} {name : String}

/-- **The files of an extraction other than the index** are those that belong to some piece. -/
theorem exists_owns_iff : (∃ e, (i.extract keepBinary).Owns name e) ↔
    ((i.extract keepBinary).files.get? name).isSome = true ∧ name ≠ Metadata.fileName := by
  have hfront : (∃ e, (i.extract keepBinary).Owns name e) ↔
      name ∈ ((i.extract keepBinary).sections.flatMap SectionPiece.files
        ++ (i.extract keepBinary).gaps.map fun p => (p.fileName, p.contents)).map Prod.fst := by
    rw [List.map_append, List.mem_append, List.map_flatMap, List.map_map]
    constructor
    · rintro ⟨e, ⟨hp, hfile⟩ | ⟨hp, rfl⟩⟩
      · exact Or.inl (List.mem_flatMap.2 ⟨_, List.mem_of_getElem? hp, hfile⟩)
      · exact Or.inr (List.mem_map_of_mem hp)
    · rintro (hsection | hgap)
      · obtain ⟨p, hp, hfile⟩ := List.mem_flatMap.1 hsection
        obtain ⟨n, hn⟩ := List.mem_iff_getElem?.1 hp
        exact ⟨_, .ofSection hn hfile⟩
      · obtain ⟨p, hp, hfile⟩ := List.mem_map.1 hgap
        exact ⟨_, .ofGap hp hfile⟩
  -- The index is written behind all other files, and no name is written twice.
  have hnodup := Extraction.nodup_written i keepBinary
  rw [hfront]
  constructor
  · intro hmem
    refine ⟨?_, ?_⟩
    · obtain ⟨file, hfile, rfl⟩ := List.mem_map.1 hmem
      exact Option.isSome_of_mem (Files.get?_writeAll hnodup (List.mem_append_left _ hfile))
    · rw [Extraction.written, List.map_append, List.nodup_append'] at hnodup
      exact fun hindex => hnodup.2.2 hmem (List.mem_singleton.2 hindex)
  · rintro ⟨hname, hindex⟩
    have hmem := Files.mem_map_fst_of_get?_writeAll hname
    rw [Extraction.written, List.map_append] at hmem
    exact (List.mem_append.1 hmem).resolve_right fun h => hindex (List.mem_singleton.1 h)

/-- Two sections that have a file in common are one. -/
theorem section_unique {p q : SectionPiece} {m n : Nat} (hp : (i.pieces keepBinary)[m]? = some p)
    (hq : (i.pieces keepBinary)[n]? = some q) (hpname : name ∈ p.files.map Prod.fst)
    (hqname : name ∈ q.files.map Prod.fst) : m = n := by
  have hpairwise := Extraction.pairwise_base (keepBinary || i.encrypted) i.sections
  rw [List.pairwise_iff_getElem] at hpairwise
  obtain ⟨hm, rfl⟩ := List.getElem?_eq_some_iff.1 hp
  obtain ⟨hn, rfl⟩ := List.getElem?_eq_some_iff.1 hq
  rcases Nat.lt_trichotomy m n with hlt | heq | hgt
  · exact absurd hqname (SectionPiece.disjoint_map_fst_files (hpairwise m n hm hn hlt) hpname)
  · exact heq
  · exact absurd hpname (SectionPiece.disjoint_map_fst_files (hpairwise n m hn hm hgt) hqname)

/-- **A file belongs to one piece only.** -/
theorem owns_unique {e e' : LayoutEntry} (h : (i.extract keepBinary).Owns name e)
    (h' : (i.extract keepBinary).Owns name e') : e = e' := by
  -- Names of sections start with a capital letter, and names of gaps do not.
  have hdisjoint {p : SectionPiece} {q : GapPiece} (hp : p ∈ i.pieces keepBinary)
      (hq : q ∈ Extraction.gapPieces i.data i.gaps) (hpname : name ∈ p.files.map Prod.fst)
      (hqname : q.fileName = name) : False := by
    obtain ⟨c, hc, hupper⟩ := Extraction.isUpper_head_sectionFile
      (List.map_flatMap ▸ List.mem_flatMap.2 ⟨p, hp, hpname⟩)
    rw [Extraction.head_gapFile (List.mem_map.2 ⟨q, hq, hqname⟩), Option.some.injEq] at hc
    rw [← hc] at hupper
    cases hupper
  cases h with
  | @ofSection p m hp hpname =>
    cases h' with
    | @ofSection q n hq hqname =>
      obtain rfl := section_unique hp hq hpname hqname
      obtain rfl := Option.some.inj (hp.symm.trans hq)
      rfl
    | ofGap hq hqname => exact (hdisjoint (List.mem_of_getElem? hp) hq hpname hqname).elim
  | @ofGap p hp hpname =>
    cases h' with
    | ofSection hq hqname => exact (hdisjoint (List.mem_of_getElem? hq) hp hqname hpname).elim
    | @ofGap q hq hqname =>
      have heq := List.inj_on_of_nodup_map (Extraction.nodup_gapFiles i.data i.gaps) hp hq
        (hpname.trans hqname.symm)
      rw [heq]

end Image

/-! ### Accepted contents fill their range -/

/-- The bytes that are accepted for a gap are as many as it has. -/
theorem length_of_gapBytes {read : FileReader} {fileName : String} {size : Nat} {fill : Option UInt8}
    {bytes : Bytes} (h : gapBytes read fileName size fill = .ok bytes) : bytes.length = size :=
  (gapBytes_eq_ok_iff.1 h).2

/-- The bytes that are accepted for a section are as many as its record says, and a dword if one is split
off. -/
theorem length_of_sectionBytes {read : FileReader} {r : SectionRecord} {bytes : Bytes}
    (h : sectionBytes read r = .ok bytes) :
    bytes.length = r.size + if r.stripped then Section.trailerSize else 0 := by
  obtain ⟨contents, -, hsize, rfl⟩ := sectionBytes_eq_ok_iff.1 h
  rw [List.length_append, hsize]
  split
  · rw [Bytes.length_u32]
    rfl
  · rfl

/-- The contents of a section and a dword that is split off are as long as the section. -/
theorem Section.length_payload (s : Section) :
    s.payload.length + (if s.stripped then Section.trailerSize else 0) = s.size := by
  rw [payload, size]
  split
  · next h =>
    have hroom := (of_stripped h).2.2
    rw [List.length_take]
    omega
  · rfl

/-- **A piece fills its range**, whatever it holds: if it can be read, it goes to its place and is as long
as the range. -/
def Fills (read : FileReader) (sections : List SectionRecord) (e : LayoutEntry) : Prop :=
  ∀ name offset bytes, pieceOf read sections e = .ok (name, offset, bytes) →
    offset = e.first ∧ offset + bytes.length = e.last

/-! ### The run -/

section

variable {read : FileReader} {sections : List SectionRecord} {data : Bytes}

/-- **One piece** that fills its range leaves everything outside of it as it was. -/
theorem Fills.writePiece {e : LayoutEntry} (he : Fills read sections e) {image image' : Bytes}
    (h : writePiece read sections image e = .ok image') :
    image'.length = image.length ∧ ∀ p, ¬ e.Holds p → image'[p]? = image[p]? := by
  obtain ⟨⟨name, offset, bytes⟩, hpiece, h⟩ := exists_of_bind_eq_ok h
  obtain ⟨hfirst, hlast⟩ := he name offset bytes hpiece
  simp only [Bytes.put?] at h
  split at h
  · next hfit =>
    cases h
    refine ⟨Bytes.length_overlay hfit, ?_⟩
    intro p hp
    rw [Bytes.getElem?_overlay hfit, if_neg]
    rintro ⟨hle, hlt⟩
    exact hp ⟨by omega, by omega⟩
  · cases h

/-- **All pieces in a row**, with one of them set apart: outside of its range, whatever was right or is in
the range of some piece is right at the end. -/
theorem foldlM_writePiece_outside {edited : LayoutEntry} (hedited : Fills read sections edited)
    {entries : List LayoutEntry} (h : ∀ e ∈ entries, e = edited ∨ Restores read sections data e)
    {image out : Bytes} (hlen : image.length = data.length)
    (hrun : entries.foldlM (writePiece read sections) image = .ok out) :
    out.length = data.length ∧ ∀ p, ¬ edited.Holds p →
      (image[p]? = data[p]? ∨ ∃ e ∈ entries, e.Holds p) → out[p]? = data[p]? := by
  induction entries generalizing image with
  | nil =>
    cases hrun
    refine ⟨hlen, ?_⟩
    rintro p - (hp | ⟨e, he, -⟩)
    · exact hp
    · cases he
  | cons e entries ih =>
    obtain ⟨he, hentries⟩ := List.forall_mem_cons.1 h
    rw [List.foldlM_cons] at hrun
    obtain ⟨middle, hwrite, hrun⟩ := exists_of_bind_eq_ok hrun
    -- Outside of the edited range, the first piece keeps what is right, and makes its own range right.
    have hstep : middle.length = data.length ∧ ∀ p, ¬ edited.Holds p →
        (image[p]? = data[p]? ∨ e.Holds p) → middle[p]? = data[p]? := by
      rcases he with rfl | he
      · obtain ⟨hlength, houtside⟩ := hedited.writePiece hwrite
        refine ⟨hlength.trans hlen, ?_⟩
        rintro p hp (hright | hholds)
        · rw [houtside p hp, hright]
        · exact absurd hholds hp
      · obtain ⟨image', hwrite', hlength, hright⟩ := he.writePiece hlen
        obtain rfl := Except.ok.inj (hwrite.symm.trans hwrite')
        exact ⟨hlength, fun p _ hp => hright p hp⟩
    obtain ⟨hmiddle, hright⟩ := hstep
    obtain ⟨hlength, houtside⟩ := ih hentries hmiddle hrun
    refine ⟨hlength, ?_⟩
    rintro p hp (hbefore | ⟨e', he', hholds⟩)
    · exact houtside p hp (Or.inl (hright p hp (Or.inl hbefore)))
    · rcases List.mem_cons.1 he' with rfl | he'
      · exact houtside p hp (Or.inl (hright p hp (Or.inr hholds)))
      · exact houtside p hp (Or.inr ⟨e', he', hholds⟩)

/-- **Pieces that leave no position out**, all but one of which restore their ranges, put together an image
that is right outside of the range of that one. -/
theorem assemble_outside {m : Metadata} (hsize : m.image.size = data.length) {edited : LayoutEntry}
    (hedited : Fills read m.sections edited)
    (hlayout : ∀ e ∈ m.layout, e = edited ∨ Restores read m.sections data e)
    (hall : ∀ p < data.length, ∃ e ∈ m.layout, e.Holds p) {out : Bytes}
    (hout : assemble read m = .ok out) :
    out.length = data.length ∧ ∀ p, ¬ edited.Holds p → out[p]? = data[p]? := by
  have hlen : (List.replicate m.image.size (0xff : UInt8)).length = data.length := by
    rw [List.length_replicate, hsize]
  obtain ⟨hlength, houtside⟩ := foldlM_writePiece_outside hedited hlayout hlen hout
  refine ⟨hlength, ?_⟩
  intro p hp
  by_cases hinside : p < data.length
  · exact houtside p hp (Or.inr (hall p hinside))
  · rw [List.getElem?_eq_none (by omega), List.getElem?_eq_none (by omega)]

/-- What is put together is what the index describes. -/
theorem assemble_of_repack [Algorithms] {m : Metadata} (hmetadata : readMetadata read = .ok m)
    {verify : Bool} {out : Bytes} (h : repack read verify = .ok out) : assemble read m = .ok out := by
  obtain ⟨m', hread, hassemble, -⟩ := repack_eq_ok_iff.1 h
  obtain rfl := Except.ok.inj (hmetadata.symm.trans hread)
  exact hassemble

end

/-! ### The pieces of an extraction -/

namespace Image

/-- A gap fills its range. -/
theorem fills_gap {i : Image} {read : FileReader} {sections : List SectionRecord} {p : GapPiece}
    (hp : p ∈ Extraction.gapPieces i.data i.gaps) :
    Fills read sections p.layoutEntry := by
  obtain ⟨⟨g, n⟩, hgn, hpiece⟩ := List.mem_map.1 hp
  have hsubject : p.subject = g := by rw [← hpiece]; rfl
  obtain ⟨horder, hlast⟩ := i.tiling.gap_inside g (List.fst_mem_of_mem_zipIdx hgn)
  intro name offset bytes h
  simp only [GapPiece.layoutEntry, pieceOf, hsubject] at h
  obtain ⟨bytes', hbytes, h⟩ := exists_of_bind_eq_ok h
  cases h
  refine ⟨by rw [GapPiece.layoutEntry, hsubject]; rfl, ?_⟩
  rw [length_of_gapBytes hbytes, Gap.size, GapPiece.layoutEntry, hsubject]
  exact Nat.add_sub_cancel' (by omega)

section

variable [Algorithms] {i : Image} {keepBinary : Bool} {read : FileReader} {name : String}

/-- A section fills its range. -/
theorem fills_section {p : SectionPiece} {n : Nat} (hp : (i.pieces keepBinary)[n]? = some p) :
    Fills read (i.extract keepBinary).metadata.sections (p.layoutEntry n) := by
  have hrecord := getElem?_records hp
  intro name offset bytes h
  have hplace : p.toRecord.offset = p.subject.offset := rfl
  simp only [SectionPiece.layoutEntry, pieceOf, hrecord, if_pos hplace] at h
  obtain ⟨bytes', hbytes, h⟩ := exists_of_bind_eq_ok h
  cases h
  refine ⟨rfl, ?_⟩
  rw [length_of_sectionBytes hbytes]
  show p.subject.offset + (p.subject.payload.length + if p.subject.stripped then _ else _) = _
  rw [p.subject.length_payload]
  rfl

/-- What an extraction wrote is read, but for one file. -/
theorem read_eq_of_ne (h : (i.extract keepBinary).HoldsBut name read) {other : String} {contents : Bytes}
    (hne : other ≠ name) (hmem : (other, contents) ∈ (i.extract keepBinary).written) :
    read other = .ok contents :=
  h other contents hne (Files.get?_writeAll (Extraction.nodup_written i keepBinary) hmem)

/-- **A piece that does not need a file** restores its range, whatever becomes of the file: the file
belongs to another piece, or is there for reading only. -/
theorem restores_of_holdsBut (hlen : i.data.length < 2 ^ 63)
    (h : (i.extract keepBinary).HoldsBut name read) {e : LayoutEntry}
    (he : e ∈ (i.extract keepBinary).metadata.layout)
    (hother : (i.extract keepBinary).Owns name e → (i.extract keepBinary).Unread name) :
    Restores read (i.extract keepBinary).metadata.sections i.data e := by
  rcases mem_layout.1 he with ⟨p, n, hp, rfl⟩ | ⟨p, hp, rfl⟩
  · refine restores_section_of_source hp fun file hfile => ?_
    have hmem := SectionPiece.mem_files_of_source hfile
    have hne : file.1 ≠ name := by
      rintro rfl
      have howns : (i.extract keepBinary).Owns file.1 (p.layoutEntry n) :=
        .ofSection hp (List.mem_map_of_mem hmem)
      -- The section that does not read the file is this one, which does.
      obtain ⟨q, m, hq, hqname, hqsource⟩ := (hother howns).exists_section
      obtain rfl := section_unique hp hq (List.mem_map_of_mem hmem) hqname
      obtain rfl := Option.some.inj (hp.symm.trans hq)
      exact hqsource file hfile rfl
    exact read_eq_of_ne h hne (sectionFile_mem_written (List.mem_of_getElem? hp) hmem)
  · refine restores_gap_of_read hlen hp ?_
    have hne : p.fileName ≠ name := by
      intro hname
      have howns : (i.extract keepBinary).Owns name p.layoutEntry := .ofGap hp hname
      -- Only a section has files that are not read, and it would share this one with the gap.
      obtain ⟨q, m, hq, hqname, -⟩ := (hother howns).exists_section
      cases owns_unique howns (.ofSection hq hqname)
    exact read_eq_of_ne h hne (gapFile_mem_written hp)

/-- The index is read, whatever becomes of another file. -/
theorem readMetadata_of_holdsBut (hi : i.Anchored) (hlen : i.data.length < 2 ^ 63)
    (h : (i.extract keepBinary).HoldsBut name read) (hindex : name ≠ Metadata.fileName) :
    readMetadata read = .ok (i.extract keepBinary).metadata :=
  readMetadata_of_read hi hlen (read_eq_of_ne h hindex.symm metadata_mem_written)

/-- The piece that a file belongs to fills its range. -/
theorem fills_of_owns {e : LayoutEntry} (he : (i.extract keepBinary).Owns name e) :
    Fills read (i.extract keepBinary).metadata.sections e := by
  cases he with
  | ofSection hp hname => exact fills_section hp
  | ofGap hp hname => exact fills_gap hp

/-- **Outside of the piece that a file belongs to** nothing changes, whatever becomes of the file. -/
theorem outside_of_holdsBut (hi : i.Anchored) (hlen : i.data.length < 2 ^ 63)
    (h : (i.extract keepBinary).HoldsBut name read) (hindex : name ≠ Metadata.fileName)
    {e : LayoutEntry} (he : (i.extract keepBinary).Owns name e) {verify : Bool} {out : Bytes}
    (hout : repack read verify = .ok out) :
    out.length = i.data.length ∧ ∀ p, ¬ e.Holds p → out[p]? = i.data[p]? := by
  have hassemble := assemble_of_repack (readMetadata_of_holdsBut hi hlen h hindex) hout
  refine assemble_outside rfl (fills_of_owns he) ?_ (fun p hp => exists_mem_layout_holds hp) hassemble
  intro e' he'
  by_cases howns : (i.extract keepBinary).Owns name e'
  · exact Or.inl (owns_unique howns he)
  · exact Or.inr (restores_of_holdsBut hlen h he' fun hown => absurd hown howns)

/-- **A file that is there for reading only** makes no difference, whatever becomes of it. -/
theorem repack_of_unread (hi : i.Anchored) (hlen : i.data.length < 2 ^ 63)
    (h : (i.extract keepBinary).HoldsBut name read) (hindex : name ≠ Metadata.fileName)
    (hunread : (i.extract keepBinary).Unread name) (verify : Bool) :
    repack read verify = .ok i.data := by
  have hassemble : assemble read (i.extract keepBinary).metadata = .ok i.data := by
    refine assemble_eq rfl ?_ fun p hp => exists_mem_layout_holds hp
    exact fun e he => restores_of_holdsBut hlen h he fun _ => hunread
  have hmetadata := readMetadata_of_holdsBut hi hlen h hindex
  exact repack_eq_ok_iff.2 ⟨_, hmetadata, hassemble, fun _ => rfl⟩

/-! ### Edits that are made -/

omit [Algorithms] in
/-- A piece that restores its range of one image restores that of another one that is the same there. -/
theorem restores_of_same {sections : List SectionRecord} {data other : Bytes} {e : LayoutEntry}
    (h : Restores read sections data e) (hlength : other.length = data.length)
    (hsame : ∀ p, e.Holds p → other[p]? = data[p]?) : Restores read sections other e := by
  obtain ⟨horder, hinside, label, hpiece⟩ := h
  have hwidth : (data.slice e.first (e.last - e.first)).length = e.last - e.first :=
    Bytes.length_slice_of_le (by omega)
  have hslice : other.slice e.first (data.slice e.first (e.last - e.first)).length
      = data.slice e.first (e.last - e.first) := by
    refine Bytes.slice_eq_of_getElem? (by omega) fun k hk => ?_
    have hk : k < e.last - e.first := hwidth ▸ hk
    have hholds : e.Holds (e.first + k) := ⟨Nat.le_add_right _ _, by omega⟩
    rw [hsame _ hholds, Bytes.getElem?_slice hk]
  rw [hwidth] at hslice
  exact ⟨horder, by omega, label, hslice ▸ hpiece⟩

/-- The piece that a file belongs to lies in the image. -/
theorem last_le_of_owns (hlen : i.data.length < 2 ^ 63) {e : LayoutEntry}
    (he : (i.extract keepBinary).Owns name e) : e.last ≤ i.data.length := by
  have hread := Extraction.holds_reader (i.extract keepBinary)
  cases he with
  | ofSection hp hname => exact (restores_section hread hp).inside
  | ofGap hp hname => exact (restores_gap hlen hread hp).inside

/-- **The edit of a piece that no other piece reaches into is made**, and is all that changes: the image that is
put together has the new bytes in the range of that piece. -/
theorem repack_of_edit (hi : i.Anchored) (hlen : i.data.length < 2 ^ 63)
    (h : (i.extract keepBinary).HoldsBut name read) (hindex : name ≠ Metadata.fileName) {e : LayoutEntry}
    (he : (i.extract keepBinary).Owns name e) {label : String} {bytes : Bytes}
    (hpiece : pieceOf read (i.extract keepBinary).metadata.sections e = .ok (label, e.first, bytes))
    (hapart : ∀ e' ∈ (i.extract keepBinary).metadata.layout, e' ≠ e → ∀ p, e'.Holds p → ¬ e.Holds p) :
    repack read false = .ok (i.data.overlay e.first bytes) := by
  have hinside : e.last ≤ i.data.length := last_le_of_owns hlen he
  have hlast : e.first + bytes.length = e.last := (fills_of_owns he _ _ _ hpiece).2
  have hfit : e.first + bytes.length ≤ i.data.length := by omega
  have hlength : (i.data.overlay e.first bytes).length = i.data.length := Bytes.length_overlay hfit
  -- The edited image is restored by all pieces: by this one because it is edited, and by the others because
  -- it is the old image where they are.
  have hedited : Restores read (i.extract keepBinary).metadata.sections (i.data.overlay e.first bytes) e := by
    have hslice : (i.data.overlay e.first bytes).slice e.first (e.last - e.first) = bytes := by
      rw [← hlast, Nat.add_sub_cancel_left, Bytes.slice_overlay hfit]
    exact ⟨by omega, by omega, label, by rw [hslice, hpiece]⟩
  have hother : ∀ e' ∈ (i.extract keepBinary).metadata.layout, e' ≠ e →
      Restores read (i.extract keepBinary).metadata.sections (i.data.overlay e.first bytes) e' := by
    intro e' he' hne
    have hrestores := restores_of_holdsBut hlen h he' fun howns => absurd (owns_unique howns he) hne
    refine restores_of_same hrestores hlength fun p hp => ?_
    rw [Bytes.getElem?_overlay hfit, hlast]
    exact if_neg (hapart e' he' hne p hp)
  have hassemble : assemble read (i.extract keepBinary).metadata = .ok (i.data.overlay e.first bytes) := by
    refine assemble_eq hlength.symm (fun e' he' => ?_) fun p hp => exists_mem_layout_holds (hlength ▸ hp)
    by_cases hsame : e' = e
    · exact hsame ▸ hedited
    · exact hother e' he' hsame
  exact repack_eq_ok_iff.2 ⟨_, readMetadata_of_holdsBut hi hlen h hindex, hassemble, nofun⟩

/-- **No piece reaches into a gap.** -/
theorem apart_of_gap {p : GapPiece} (hp : p ∈ Extraction.gapPieces i.data i.gaps) :
    ∀ e ∈ (i.extract keepBinary).metadata.layout, e ≠ p.layoutEntry →
      ∀ k, e.Holds k → ¬ p.layoutEntry.Holds k := by
  intro e he hne k hk hgap
  obtain ⟨⟨g, n⟩, hgn, rfl⟩ := List.mem_map.1 hp
  have hg : i.gaps[n]? = some g := List.mk_mem_zipIdx_iff_getElem?.1 hgn
  have hinside := (i.tiling.gap_inside g (List.mem_of_getElem? hg)).2
  have hholds : g.Holds k := hgap
  have hk' : k < i.data.length := Nat.lt_of_lt_of_le hholds.2 hinside
  have hexact := i.tiling.gaps_exact k hk'
  have hpos : 0 < i.gaps.countP (·.Holds k) :=
    List.countP_pos_iff.2 ⟨g, List.mem_of_getElem? hg, decide_eq_true hholds⟩
  rcases mem_layout.1 he with ⟨q, m, hq, rfl⟩ | ⟨q, hq, rfl⟩
  · -- A position that is in a section is in no gap.
    obtain ⟨s, hs, base, rfl⟩ := exists_of_getElem?_pieces hq
    rw [if_pos ⟨s, hs, hk⟩] at hexact
    omega
  · -- Two gaps do not meet.
    obtain ⟨⟨g', m⟩, hgm, rfl⟩ := List.mem_map.1 hq
    have hg' : i.gaps[m]? = some g' := List.mk_mem_zipIdx_iff_getElem?.1 hgm
    have hholds' : g'.Holds k := hk
    have hseparated := List.pairwise_iff_getElem.1 i.tiling.gaps_separated
    obtain ⟨hn, rfl⟩ := List.getElem?_eq_some_iff.1 hg
    obtain ⟨hm, rfl⟩ := List.getElem?_eq_some_iff.1 hg'
    rcases Nat.lt_trichotomy m n with hlt | rfl | hgt
    · have hbefore := (hseparated m n hm hn hlt).1
      exact Nat.lt_irrefl k ((hholds'.2.trans hbefore).trans_le hholds.1)
    · exact hne rfl
    · have hbefore := (hseparated n m hn hm hgt).1
      exact Nat.lt_irrefl k ((hholds.2.trans hbefore).trans_le hholds'.1)

/-- **The edit of a gap is made**, if its new file stands for as many bytes as it has. -/
theorem repack_insert_gap (hi : i.Anchored) (hlen : i.data.length < 2 ^ 63) {p : GapPiece}
    (hp : p ∈ Extraction.gapPieces i.data i.gaps) {contents bytes : Bytes}
    (hbytes : GapContents ((i.extract keepBinary).files.insert p.fileName contents).reader p.fileName
      p.subject.fill bytes) (hsize : bytes.length = p.subject.size) :
    repack ((i.extract keepBinary).files.insert p.fileName contents).reader false
      = .ok (i.data.overlay p.subject.first bytes) := by
  have howns : (i.extract keepBinary).Owns p.fileName p.layoutEntry := .ofGap hp rfl
  obtain ⟨-, hindex⟩ := exists_owns_iff.1 ⟨_, howns⟩
  have hpiece : pieceOf ((i.extract keepBinary).files.insert p.fileName contents).reader
      (i.extract keepBinary).metadata.sections p.layoutEntry = .ok (p.fileName, p.subject.first, bytes) := by
    rw [GapPiece.layoutEntry, pieceOf, gapBytes_eq_ok_iff.2 ⟨hbytes, hsize⟩]
    rfl
  exact repack_of_edit hi hlen (Extraction.holdsBut_insert _ _ _) hindex howns hpiece (apart_of_gap hp)

/-! ### All edits -/

/-- **Edits stay local.** Whatever the contents of one file of an extraction are replaced by, other than the
index: the file belongs to one piece of the image, a section or a gap. If the image can be put together
from the files, then it is as long as before, and the same outside of the range of that piece. If the file
is there for reading only, the image is put together, and is the same everywhere. -/
theorem repack_insert {data : Bytes} (hparse : Image.parse data = .ok i) (hlen : data.length < 2 ^ 63)
    (hname : ((i.extract keepBinary).files.get? name).isSome = true) (hindex : name ≠ Metadata.fileName)
    (contents : Bytes) :
    (∃! e, (i.extract keepBinary).Owns name e) ∧
    (∀ e, (i.extract keepBinary).Owns name e → ∀ verify out,
      repack ((i.extract keepBinary).files.insert name contents).reader verify = .ok out →
        out.length = data.length ∧ ∀ p, ¬ e.Holds p → out[p]? = data[p]?) ∧
    ((i.extract keepBinary).Unread name → ∀ verify,
      repack ((i.extract keepBinary).files.insert name contents).reader verify = .ok data) := by
  obtain ⟨rfl, hi⟩ := anchored_of_parse hparse
  have h := (i.extract keepBinary).holdsBut_insert name contents
  obtain ⟨e, he⟩ := exists_owns_iff.2 ⟨hname, hindex⟩
  refine ⟨⟨e, he, fun e' he' => owns_unique he' he⟩, ?_, ?_⟩
  · intro e he verify out hout
    exact outside_of_holdsBut hi hlen h hindex he hout
  · exact fun hunread verify => repack_of_unread hi hlen h hindex hunread verify

end

/-- No section of the small image has its first byte. -/
theorem not_covered_smallImage {i : Image} (hparse : Image.parse smallImage = .ok i) :
    ¬ Covered i.sections 0 := by
  have hplaces : (Image.parse smallImage).toOption.map (fun i => i.placements.all (24 ≤ ·.offset))
      = some true := by decide +kernel
  rw [hparse] at hplaces
  rintro ⟨s, hs, hcovers⟩
  obtain ⟨p, hp, hsection⟩ := exists_placement hs
  obtain ⟨length, -, -, -, rfl⟩ := Placement.exists_of_section? hsection
  have hplace : 24 ≤ p.offset := of_decide_eq_true (List.all_eq_true.1 (Option.some.inj hplaces) p hp)
  have hfirst : p.offset ≤ 0 := hcovers.1
  omega

/-- The first byte of the small image is in a gap that is kept as it is. -/
theorem exists_firstGap_smallImage {i : Image} (hparse : Image.parse smallImage = .ok i) :
    ∃ p ∈ Extraction.gapPieces i.data i.gaps, p.subject.Holds 0 ∧ p.subject.fill = none := by
  obtain ⟨hdata, -⟩ := anchored_of_parse hparse
  have hfirst : i.data[0]? = some 0x4d := hdata ▸ rfl
  have hlength : 0 < i.data.length := (List.getElem?_eq_some_iff.1 hfirst).1
  obtain ⟨p, hp, hholds⟩ := exists_gapPiece_holds hlength (not_covered_smallImage hparse)
  obtain ⟨⟨g, n⟩, hgn, rfl⟩ := List.mem_map.1 hp
  refine ⟨_, hp, hholds, Option.eq_none_iff_forall_ne_some.2 fun b hfill => ?_⟩
  -- A gap that is described is filled with zeros or with erased flash, and the first byte is neither.
  obtain ⟨hfiller, hbytes⟩ := (i.tiling.gap_fill g (List.fst_mem_of_mem_zipIdx hgn) b).1 hfill
  cases hfirst.symm.trans (hbytes 0 hholds.1 hholds.2)
  revert hfiller
  decide

/-- The bytes of the pointer array of the small image, kept beside its JSON form, are there for reading only. -/
theorem exists_unread_smallImage {i : Image} (hparse : Image.parse smallImage = .ok i) :
    ∃ (name : String) (e : LayoutEntry), (@extract .standard i true).Owns name e ∧
      @Extraction.Unread .standard (@extract .standard i true) name := by
  let := Algorithms.standard
  have hkeeps : (Image.parse smallImage).toOption.map (·.pointerArraySection.projection.keepsBytes)
      = some false := by decide +kernel
  rw [hparse] at hkeeps
  obtain ⟨n, hn⟩ := List.mem_iff_getElem?.1 (pointerArraySection_mem (anchored_of_parse hparse).2)
  obtain ⟨base, hp⟩ := getElem?_pieces true hn
  have hname : (SectionPiece.ofSection (true || i.encrypted) base i.pointerArraySection).binaryFile.map Prod.fst
      = some (base ++ ".bin") := by simp [SectionPiece.binaryFile, SectionPiece.ofSection]
  exact ⟨base ++ ".bin", _, .ofSection hp ((SectionPiece.mem_map_fst_files_iff _).2 (Or.inr (Or.inl hname))),
    .binary (List.mem_of_getElem? hp) hname (Option.some.inj hkeeps)⟩

/-- Two edits of the files of the small image. Clearing the file of its first gap clears the gap, and changes
nothing else. Emptying the file with the bytes of its pointer array, kept beside their JSON form, changes
nothing at all. -/
theorem repack_insert_smallImage :
    ∃ i, Image.parse smallImage = .ok i ∧ smallImage.length < 2 ^ 63 ∧
      (∃ (name : String) (e : LayoutEntry) (contents out : Bytes),
        ((@extract .standard i true).files.get? name).isSome = true ∧ name ≠ Metadata.fileName ∧
        (@extract .standard i true).Owns name e ∧
        @repack .standard ((@extract .standard i true).files.insert name contents).reader false = .ok out ∧
        (∃ p, e.Holds p ∧ out[p]? ≠ smallImage[p]?) ∧
        out.length = smallImage.length ∧ ∀ p, ¬ e.Holds p → out[p]? = smallImage[p]?) ∧
      ∃ name : String, ((@extract .standard i true).files.get? name).isSome = true ∧
        name ≠ Metadata.fileName ∧ @Extraction.Unread .standard (@extract .standard i true) name ∧
        @repack .standard ((@extract .standard i true).files.insert name []).reader true
          = .ok smallImage := by
  let := Algorithms.standard
  obtain ⟨i, hparse⟩ := exists_parse_smallImage
  have hlen : smallImage.length < 2 ^ 63 := by decide +kernel
  obtain ⟨hdata, hi⟩ := anchored_of_parse hparse
  refine ⟨i, hparse, hlen, ?_, ?_⟩
  · -- The first gap is filled, and gets a file of as many zeros.
    obtain ⟨p, hp, hholds, hfill⟩ := exists_firstGap_smallImage hparse
    have howns : (i.extract true).Owns p.fileName p.layoutEntry := .ofGap hp rfl
    obtain ⟨hfile, hindex⟩ := exists_owns_iff.1 ⟨_, howns⟩
    let cleared : Bytes := List.replicate p.subject.size 0
    have hread : ((i.extract true).files.insert p.fileName cleared).reader p.fileName = .ok cleared := by
      rw [Files.reader, Files.get?_insert_self]
    have hbytes : GapContents ((i.extract true).files.insert p.fileName cleared).reader p.fileName
        p.subject.fill cleared := hfill ▸ .verbatim hread
    have hout := repack_insert_gap hi (hdata ▸ hlen) hp hbytes List.length_replicate
    obtain ⟨-, houtside, -⟩ := repack_insert hparse hlen hfile hindex cleared
    obtain ⟨hlength, hsame⟩ := houtside _ howns false _ hout
    have hzero : (i.data.overlay p.subject.first cleared)[0]? = some 0 := by
      have hfirst : p.subject.first = 0 := Nat.le_zero.1 hholds.1
      have hsize : cleared.length = p.subject.last := by
        rw [List.length_replicate, Gap.size, hfirst, Nat.sub_zero]
      have hinside : p.subject.last ≤ i.data.length := last_le_of_owns (hdata ▸ hlen) howns
      rw [hfirst, Bytes.getElem?_overlay (by omega), hsize, Nat.zero_add, if_pos ⟨Nat.le_refl 0, hholds.2⟩,
        List.getElem?_eq_getElem (hsize ▸ hholds.2), List.getElem_replicate]
    refine ⟨_, _, cleared, _, hfile, hindex, howns, hout, ⟨0, hholds, ?_⟩, hlength, hsame⟩
    rw [hzero]
    decide
  · -- A file that is not read is emptied.
    obtain ⟨name, e, howns, hunread⟩ := exists_unread_smallImage hparse
    obtain ⟨hfile, hindex⟩ := exists_owns_iff.1 ⟨_, howns⟩
    exact ⟨_, hfile, hindex, hunread, (repack_insert hparse hlen hfile hindex []).2.2 hunread true⟩

end Image

end FlashImage

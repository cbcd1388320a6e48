import FlashImage.Algorithms.Standard
import FlashImage.Proofs.Metadata.OfImage
import FlashImage.Proofs.Repack.Assembly
import FlashImage.Proofs.Repack.Pieces

/-!
# Putting an extracted image together gives the image

An image that was split into files is put together from them to the very same bytes, whatever its
sections are and whichever of them are kept as bytes (`Image.repack_extract`).

The pieces of the layout are written one over the other, and sections may overlap. That does no harm,
because each piece holds the bytes that stand in its range of the image (`Restores`): writing it makes
its range right, and what was right before stays right, under the piece or beside it. So the invariant of
the run is that the image under construction has the right length and agrees with the image wherever
a piece was written (`foldlM_writePiece`). That no position is left out is the tiling of the image by
its sections and gaps.

## Parts

* pieces that restore their range, one at a time and in a run;
* the layout of an image, all of whose pieces do;
* the whole way round.
-/

namespace FlashImage

/-! ### Writing pieces -/

namespace LayoutEntry

/-- Where a piece ends. -/
def last : LayoutEntry → Nat
  | .section _ _ _ last _ => last
  | .gap _ last _ _ _ => last

/-- A piece holds a position of the image. -/
def Holds (e : LayoutEntry) (p : Nat) : Prop := e.first ≤ p ∧ p < e.last

end LayoutEntry

/-- **A piece restores its range** of an image: it can be read, and it holds the bytes there. -/
structure Restores (read : FileReader) (sections : List SectionRecord) (data : Bytes)
    (e : LayoutEntry) : Prop where
  in_order : e.first ≤ e.last
  inside : e.last ≤ data.length
  bytes : ∃ name, pieceOf read sections e = .ok (name, e.first, data.slice e.first (e.last - e.first))

section

variable {read : FileReader} {sections : List SectionRecord} {data : Bytes}

/-- **One piece**: its range is right afterwards, and so is whatever was right before. -/
theorem Restores.writePiece {e : LayoutEntry} (he : Restores read sections data e) {image : Bytes}
    (hlen : image.length = data.length) :
    ∃ image', writePiece read sections image e = .ok image' ∧ image'.length = data.length ∧
      ∀ p, image[p]? = data[p]? ∨ e.Holds p → image'[p]? = data[p]? := by
  obtain ⟨horder, hinside, name, hpiece⟩ := he
  have hsize : (data.slice e.first (e.last - e.first)).length = e.last - e.first :=
    Bytes.length_slice_of_le (by omega)
  have hfit : e.first + (data.slice e.first (e.last - e.first)).length ≤ image.length := by omega
  refine ⟨image.overlay e.first (data.slice e.first (e.last - e.first)), ?_, ?_, ?_⟩
  · simp only [FlashImage.writePiece, hpiece, bind, Except.bind, Bytes.put?, if_pos hfit]
    rfl
  · rw [Bytes.length_overlay hfit, hlen]
  · intro p hp
    rw [Bytes.getElem?_overlay hfit, hsize]
    split
    · next hin =>
      -- Under the piece, the byte is the one of the piece, whatever was there.
      rw [Bytes.getElem?_slice (by omega), Nat.add_sub_cancel' hin.1]
    · next hout =>
      rcases hp with hp | ⟨hfirst, hlast⟩
      · exact hp
      · exact absurd ⟨hfirst, by omega⟩ hout

/-- **All pieces in a row.** The ranges of all of them are right at the end, although any of them may
have been written over by later ones. -/
theorem foldlM_writePiece {entries : List LayoutEntry}
    (h : ∀ e ∈ entries, Restores read sections data e) {image : Bytes}
    (hlen : image.length = data.length) :
    ∃ image', entries.foldlM (writePiece read sections) image = .ok image' ∧
      image'.length = data.length ∧
      ∀ p, (image[p]? = data[p]? ∨ ∃ e ∈ entries, e.Holds p) → image'[p]? = data[p]? := by
  induction entries generalizing image with
  | nil =>
    refine ⟨image, rfl, hlen, ?_⟩
    rintro p (hp | ⟨e, he, -⟩)
    · exact hp
    · cases he
  | cons e entries ih =>
    obtain ⟨he, hentries⟩ := List.forall_mem_cons.1 h
    -- The first piece makes its range right, and the others keep it so.
    obtain ⟨middle, hwrite, hmiddle, hright⟩ := he.writePiece hlen
    obtain ⟨image', hrest, hlen', hright'⟩ := ih hentries hmiddle
    refine ⟨image', ?_, hlen', ?_⟩
    · rw [List.foldlM_cons, hwrite]
      exact hrest
    · rintro p (hp | ⟨e', he', hp⟩)
      · exact hright' p (Or.inl (hright p (Or.inl hp)))
      · rcases List.mem_cons.1 he' with rfl | he'
        · exact hright' p (Or.inl (hright p (Or.inr hp)))
        · exact hright' p (Or.inr ⟨e', he', hp⟩)

/-- **Pieces that restore their ranges and leave no position out** put the image together. -/
theorem assemble_eq {m : Metadata} (hsize : m.image.size = data.length)
    (hlayout : ∀ e ∈ m.layout, Restores read m.sections data e)
    (hall : ∀ p < data.length, ∃ e ∈ m.layout, e.Holds p) : assemble read m = .ok data := by
  have hlen : (List.replicate m.image.size (0xff : UInt8)).length = data.length := by
    rw [List.length_replicate, hsize]
  obtain ⟨image, hrun, hlength, hright⟩ := foldlM_writePiece hlayout hlen
  have heq : image = data := by
    -- Inside of the image some piece is there, and behind its end there is nothing in either.
    refine List.ext_getElem? fun p => ?_
    by_cases hp : p < data.length
    · exact hright p (Or.inr (hall p hp))
    · rw [List.getElem?_eq_none (by omega), List.getElem?_eq_none (by omega)]
  rw [assemble, hrun, heq]

/-- An index is read back from its file, if all of its numbers are words. -/
theorem readMetadata_of_fits {m : Metadata} (hfits : m.Fits)
    (h : read Metadata.fileName = .ok m.toJson.pretty) : readMetadata read = .ok m := by
  simp only [readMetadata, h, bind, Except.bind, Metadata.ofJson?_parse?_pretty hfits]

end

/-! ### The layout of an image -/

namespace Image

section

variable [Algorithms] {i : Image} {keepBinary : Bool} {read : FileReader}

/-- A section restores its range, if its file that counts is read. -/
theorem restores_section_of_source {p : SectionPiece} {n : Nat}
    (hp : (i.pieces keepBinary)[n]? = some p)
    (h : ∀ file, p.source = some file → read file.1 = .ok file.2) :
    Restores read (i.extract keepBinary).metadata.sections i.data (p.layoutEntry n) := by
  have hrecord := getElem?_records hp
  obtain ⟨s, hs, base, rfl⟩ := exists_of_getElem?_pieces hp
  obtain ⟨-, hlast, hdata⟩ := place_of_mem_sections hs
  have hbytes := sectionBytes_eq h
  have hplace : (SectionPiece.ofSection (keepBinary || i.encrypted) base s).toRecord.offset
      = s.offset := rfl
  refine ⟨Nat.le_add_right _ _, hlast, s.name, ?_⟩
  show pieceOf read _ (.section n s.name s.offset s.last s.size)
    = .ok (s.name, s.offset, i.data.slice s.offset (s.last - s.offset))
  have hsize : s.last - s.offset = s.size := Nat.add_sub_cancel_left _ _
  simp only [pieceOf, hrecord, if_pos hplace, hbytes, bind, Except.bind, hsize, ← hdata]
  rfl

/-- A section restores its range from the files of the extraction. -/
theorem restores_section (h : (i.extract keepBinary).Holds read) {p : SectionPiece} {n : Nat}
    (hp : (i.pieces keepBinary)[n]? = some p) :
    Restores read (i.extract keepBinary).metadata.sections i.data (p.layoutEntry n) := by
  refine restores_section_of_source hp fun file hfile => ?_
  have hmem := SectionPiece.mem_files_of_source hfile
  exact read_eq h (sectionFile_mem_written (List.mem_of_getElem? hp) hmem)

/-- A gap restores its range, if its file is read. -/
theorem restores_gap_of_read (hlen : i.data.length < 2 ^ 63) {p : GapPiece}
    (hp : p ∈ Extraction.gapPieces i.data i.gaps) (h : read p.fileName = .ok p.contents) :
    Restores read (i.extract keepBinary).metadata.sections i.data p.layoutEntry := by
  have hbytes := gapBytes_eq hlen hp h
  obtain ⟨⟨g, n⟩, hgn, hpiece⟩ := List.mem_map.1 hp
  have hsubject : p.subject = g := by rw [← hpiece]; rfl
  obtain ⟨horder, hlast⟩ := i.tiling.gap_inside g (List.fst_mem_of_mem_zipIdx hgn)
  refine ⟨?_, ?_, p.fileName, ?_⟩
  · show p.subject.first ≤ p.subject.last
    rw [hsubject]
    omega
  · show p.subject.last ≤ i.data.length
    rw [hsubject]
    exact hlast
  · simp only [GapPiece.layoutEntry, pieceOf, hbytes, bind, Except.bind]
    rfl

/-- A gap restores its range from the files of the extraction. -/
theorem restores_gap (hlen : i.data.length < 2 ^ 63) (h : (i.extract keepBinary).Holds read)
    {p : GapPiece} (hp : p ∈ Extraction.gapPieces i.data i.gaps) :
    Restores read (i.extract keepBinary).metadata.sections i.data p.layoutEntry :=
  restores_gap_of_read hlen hp (read_eq h (gapFile_mem_written hp))

omit [Algorithms] in
/-- A position that is in no section is in a gap. -/
theorem exists_gapPiece_holds {k : Nat} (hk : k < i.data.length) (hfree : ¬ Covered i.sections k) :
    ∃ p ∈ Extraction.gapPieces i.data i.gaps, p.subject.Holds k := by
  have hexact := i.tiling.gaps_exact k hk
  rw [if_neg hfree] at hexact
  obtain ⟨g, hg, hholds⟩ := List.countP_pos_iff.1 (Nat.lt_of_lt_of_eq Nat.zero_lt_one hexact.symm)
  obtain ⟨n, hn⟩ := List.mem_iff_getElem?.1 hg
  exact ⟨.ofGap i.data n g, List.mem_map.2 ⟨(g, n), List.mk_mem_zipIdx_iff_getElem?.2 hn, rfl⟩,
    of_decide_eq_true hholds⟩

/-- The layout leaves no position of the image out. -/
theorem exists_mem_layout_holds {p : Nat} (hp : p < i.data.length) :
    ∃ e ∈ (i.extract keepBinary).metadata.layout, e.Holds p := by
  -- A position is covered by a section or lies in a gap.
  by_cases hcovered : Covered i.sections p
  · obtain ⟨s, hs, hcovers⟩ := hcovered
    obtain ⟨n, hn⟩ := List.mem_iff_getElem?.1 hs
    obtain ⟨base, hpiece⟩ := getElem?_pieces keepBinary hn
    exact ⟨_, mem_layout.2 (Or.inl ⟨_, n, hpiece, rfl⟩), hcovers⟩
  · obtain ⟨q, hq, hholds⟩ := exists_gapPiece_holds hp hcovered
    exact ⟨_, mem_layout.2 (Or.inr ⟨q, hq, rfl⟩), hholds⟩

/-! ### The whole way round -/

/-- The index of an extraction is read back, if its file is read. -/
theorem readMetadata_of_read (hi : i.Anchored) (hlen : i.data.length < 2 ^ 63)
    (h : read Metadata.fileName = .ok (i.extract keepBinary).metadata.toJson.pretty) :
    readMetadata read = .ok (i.extract keepBinary).metadata :=
  readMetadata_of_fits (fits_metadata hi hlen keepBinary) h

/-- The index of an extraction is read back from its files. -/
theorem readMetadata_eq (hi : i.Anchored) (hlen : i.data.length < 2 ^ 63)
    (h : (i.extract keepBinary).Holds read) :
    readMetadata read = .ok (i.extract keepBinary).metadata :=
  readMetadata_of_read hi hlen (read_eq h metadata_mem_written)

/-- **An image that was split into files is put together again**, byte for byte: whatever byte string
in memory can be read as an image, whether or not the sections that have a JSON form are kept as bytes
as well, and whatever other files there are. The index has the digest of the result, whatever digest
it is, so that checking it makes no difference. The bound is the one of memory, in which no byte string
takes more than half of the addresses. -/
theorem repack_extract {data : Bytes} (hparse : Image.parse data = .ok i)
    (hlen : data.length < 2 ^ 63) (hread : (i.extract keepBinary).Holds read) (verify : Bool) :
    repack read verify = .ok data := by
  obtain ⟨rfl, hi⟩ := anchored_of_parse hparse
  have hassemble : assemble read (i.extract keepBinary).metadata = .ok i.data := by
    refine assemble_eq rfl ?_ fun p hp => exists_mem_layout_holds hp
    intro e he
    rcases mem_layout.1 he with ⟨p, n, hp, rfl⟩ | ⟨p, hp, rfl⟩
    · exact restores_section hread hp
    · exact restores_gap hlen hread hp
  have hdigest : Metadata.digestOf i.data = (i.extract keepBinary).metadata.image.sha256 := rfl
  exact repack_eq_ok_iff.2 ⟨_, readMetadata_eq hi hlen hread, hassemble, fun _ => hdigest⟩

end

/-- The small image, whose sections overlap, from its own files. -/
theorem repack_extract_smallImage :
    ∃ i, Image.parse smallImage = .ok i ∧ smallImage.length < 2 ^ 63 ∧
      (@extract .standard i false).Holds (@extract .standard i false).files.reader ∧
      @repack .standard (@extract .standard i false).files.reader true = .ok smallImage := by
  obtain ⟨i, hparse⟩ := exists_parse_smallImage
  have hlen : smallImage.length < 2 ^ 63 := by decide +kernel
  have hread := Extraction.holds_reader (@extract .standard i false)
  exact ⟨i, hparse, hlen, hread, @repack_extract .standard i false _ smallImage hparse hlen hread true⟩

end Image

end FlashImage

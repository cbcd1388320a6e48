import FlashImage.Proofs.Bytes.Parts
import FlashImage.Proofs.Outcome
import FlashImage.Repack
import Mathlib.Data.List.Forall2

/-!
# What is put together, whatever the files say

Nothing that an index says can be taken for granted: its layout may name one section twice or none at all,
pieces may overlap, stand in any order or reach out of the image, and a file may hold anything. What is put
together is known all the same. Each piece is made from its file, and has the size that the index gives it
(`Materialises`); each goes where the layout says, inside the image; and at the end a byte of the image is
the one of the last piece that holds it, or erased flash (`Assembled`).

Putting together has a result just if there is something to make of every piece that fits in its place
(`assemble_eq_ok_iff`). With that, whatever one wants to know about `repack` is asked of the pieces
(`FileSource.repack_eq_ok_iff`), and where the pieces come from does not matter: laying them over one another
(`paint`) is all there is to it.

## Parts

* pieces laid over one another;
* what a gap and a section are made from, and pieces of the layout;
* putting together, and `repack`.
-/

namespace FlashImage

/-! ### Pieces laid over one another -/

/-- **A piece** that goes into an image: its place and its bytes. -/
structure Piece where
  place : Nat
  bytes : Bytes

namespace Piece

/-- Where a piece ends. -/
def last (p : Piece) : Nat := p.place + p.bytes.length

/-- A piece holds a position of the image. -/
def Holds (p : Piece) (k : Nat) : Prop := p.place ≤ k ∧ k < p.last

instance (p : Piece) (k : Nat) : Decidable (p.Holds k) := inferInstanceAs (Decidable (_ ∧ _))

end Piece

/-- **The last piece in a row that holds a position**, if any of them does. -/
def topmost? (pieces : List Piece) (k : Nat) : Option Piece := pieces.reverse.find? fun p => p.Holds k

/-- A piece is topmost where it holds a position and none of the later ones does. -/
theorem topmost?_cons (p : Piece) (pieces : List Piece) (k : Nat) :
    topmost? (p :: pieces) k = (topmost? pieces k).or (if p.Holds k then some p else none) := by
  rw [topmost?, List.reverse_cons, List.find?_append, List.find?_singleton, topmost?]
  congr 1
  by_cases h : p.Holds k <;> simp [h]

/-- **Pieces laid over an image** one after the other. -/
def paint (image : Bytes) (pieces : List Piece) : Bytes :=
  pieces.foldl (fun image p => image.overlay p.place p.bytes) image

/-- **Laying pieces over an image**, position by position: the topmost piece is seen, or what was there
before. -/
theorem paint_spec {pieces : List Piece} {image : Bytes} (h : ∀ p ∈ pieces, p.last ≤ image.length) :
    (paint image pieces).length = image.length ∧
      ∀ k, (paint image pieces)[k]? = match topmost? pieces k with
        | some p => p.bytes[k - p.place]?
        | none => image[k]? := by
  induction pieces generalizing image with
  | nil => exact ⟨rfl, fun k => rfl⟩
  | cons p pieces ih =>
    obtain ⟨hfit, hrest⟩ := List.forall_mem_cons.1 h
    have hlength : (image.overlay p.place p.bytes).length = image.length := Bytes.length_overlay hfit
    have hinside : ∀ q ∈ pieces, q.last ≤ (image.overlay p.place p.bytes).length := hlength ▸ hrest
    obtain ⟨hpainted, hbytes⟩ := ih hinside
    refine ⟨hpainted.trans hlength, fun k => ?_⟩
    have hstep : paint image (p :: pieces) = paint (image.overlay p.place p.bytes) pieces := rfl
    rw [hstep, hbytes, topmost?_cons]
    cases topmost? pieces k with
    | some q => rfl
    | none =>
      -- No later piece is in the way, so it depends on this one.
      rw [Option.none_or]
      by_cases hholds : p.Holds k
      · rw [if_pos hholds]
        exact (Bytes.getElem?_overlay hfit k).trans (if_pos hholds)
      · rw [if_neg hholds]
        exact (Bytes.getElem?_overlay hfit k).trans (if_neg hholds)

/-! ### What pieces are made from -/

/-- **The bytes that the file of a gap stands for**: as many of one byte as a description says, if the
layout has a filler, and else the bytes of the file. -/
inductive GapContents (read : FileReader) (fileName : String) : Option UInt8 → Bytes → Prop
  | uniform {fill b : UInt8} {contents : Bytes} {size : Nat} (hread : read fileName = .ok contents)
      (hdescription : GapFile.read contents.toStringLossy = .ok (size, b)) :
    GapContents read fileName (some fill) (List.replicate size b)
  | verbatim {bytes : Bytes} (hread : read fileName = .ok bytes) : GapContents read fileName none bytes

/-- **The contents that the files of a section stand for**: those of its JSON form, if that says
everything, and else the bytes of its other file. -/
inductive SectionContents (read : FileReader) (r : SectionRecord) : Bytes → Prop
  | projected {file : String} {text contents : Bytes} {p : Projection} (hkeeps : r.keepsBytes = false)
      (hfile : r.jsonFile = some file) (hread : read file = .ok text)
      (hparse : (Json.parse? text).bind Projection.ofJson? = some p) (hencode : p.encode = .ok contents) :
    SectionContents read r contents
  | verbatim {file : String} {contents : Bytes} (hjson : r.keepsBytes = true ∨ r.jsonFile = none)
      (hfile : r.fileName = some file) (hread : read file = .ok contents) :
    SectionContents read r contents

/-- **What becomes of a piece of the layout**: a gap of just its size at the start of its range, or a
section where both the layout and its record say, with as many bytes of contents as the record says and,
if its CRC dword was split off, that dword behind them. -/
inductive Materialises (read : FileReader) (sections : List SectionRecord) : LayoutEntry → Piece → Prop
  | gap {first last size : Nat} {fill : Option UInt8} {fileName : String} {bytes : Bytes}
      (hcontents : GapContents read fileName fill bytes) (hsize : bytes.length = size) :
    Materialises read sections (.gap first last size fill fileName) ⟨first, bytes⟩
  | section {index first last size : Nat} {type : String} {r : SectionRecord} {contents : Bytes}
      (hrecord : sections[index]? = some r) (hplace : r.offset = first)
      (hcontents : SectionContents read r contents) (hsize : contents.length = r.size) :
    Materialises read sections (.section index type first last size)
      ⟨first, contents ++ if r.stripped then Bytes.u32 (trailerOf r contents) else []⟩

section

variable {read : FileReader}

theorem gapBytes_eq_ok_iff {fileName : String} {size : Nat} {fill : Option UInt8} {bytes : Bytes} :
    gapBytes read fileName size fill = .ok bytes ↔
      GapContents read fileName fill bytes ∧ bytes.length = size := by
  constructor
  · intro h
    obtain ⟨contents, hread, h⟩ := exists_of_bind_eq_ok h
    cases fill with
    | none =>
      simp only at h
      split at h
      · next hsize =>
        cases h
        exact ⟨.verbatim hread, hsize⟩
      · cases h
    | some fill =>
      obtain ⟨⟨found, b⟩, hdescription, h⟩ := exists_of_bind_eq_ok h
      simp only at h
      split at h
      · next hsize =>
        cases h
        subst hsize
        exact ⟨.uniform hread (eq_ok_of_mapError_eq_ok hdescription), List.length_replicate⟩
      · cases h
  · rintro ⟨hcontents, hsize⟩
    cases hcontents with
    | uniform hread hdescription =>
      rw [List.length_replicate] at hsize
      simp only [gapBytes, hread, ok_bind, hdescription, Except.mapError, hsize]
      rfl
    | verbatim hread =>
      simp only [gapBytes, hread, ok_bind, if_pos hsize]
      rfl

theorem sectionPayload_eq_ok_iff {r : SectionRecord} {contents : Bytes} :
    sectionPayload read r = .ok contents ↔ SectionContents read r contents := by
  constructor
  · intro h
    rw [sectionPayload] at h
    split at h
    · next file _ hfile =>
      -- Only a form that says everything is looked at.
      split at hfile
      · cases hfile
      next hkeeps =>
      obtain ⟨text, hread, h⟩ := exists_of_bind_eq_ok h
      split at h
      · next p hparse =>
        exact .projected (Bool.eq_false_iff.2 hkeeps) hfile hread hparse (eq_ok_of_mapError_eq_ok h)
      · cases h
    · next file hjson hfile =>
      refine .verbatim ?_ hfile h
      split at hjson
      · next hkeeps => exact Or.inl hkeeps
      · exact Or.inr hjson
    · cases h
  · intro h
    cases h with
    | projected hkeeps hfile hread hparse hencode =>
      simp only [sectionPayload, hkeeps, Bool.false_eq_true, if_false, hfile, projectedBytes, hread, ok_bind,
        hparse, hencode]
      rfl
    | verbatim hjson hfile hread =>
      have hnone : (if r.keepsBytes then none else r.jsonFile) = none := by
        rcases hjson with hkeeps | hjson
        · rw [if_pos hkeeps]
        · rw [hjson, ite_self]
      simp only [sectionPayload, hnone, hfile, hread]

theorem sectionBytes_eq_ok_iff {r : SectionRecord} {bytes : Bytes} :
    sectionBytes read r = .ok bytes ↔ ∃ contents, SectionContents read r contents ∧
      contents.length = r.size ∧
      bytes = contents ++ if r.stripped then Bytes.u32 (trailerOf r contents) else [] := by
  have hwhole (contents : Bytes) :
      (if r.stripped then contents ++ Bytes.u32 (trailerOf r contents) else contents)
        = contents ++ if r.stripped then Bytes.u32 (trailerOf r contents) else [] := by
    split
    · rfl
    · rw [List.append_nil]
  constructor
  · intro h
    obtain ⟨contents, hpayload, h⟩ := exists_of_bind_eq_ok h
    split at h
    · next hsize =>
      cases h
      exact ⟨contents, sectionPayload_eq_ok_iff.1 hpayload, hsize, hwhole contents⟩
    · cases h
  · rintro ⟨contents, hcontents, hsize, rfl⟩
    simp only [sectionBytes, sectionPayload_eq_ok_iff.2 hcontents, ok_bind, if_pos hsize, hwhole]
    rfl

/-- **A piece of the layout can be made** just if its files and its record allow it. -/
theorem exists_pieceOf_iff {sections : List SectionRecord} {e : LayoutEntry} {p : Piece} :
    (∃ name, pieceOf read sections e = .ok (name, p.place, p.bytes)) ↔ Materialises read sections e p := by
  constructor
  · rintro ⟨name, h⟩
    obtain ⟨place, bytes⟩ := p
    cases e with
    | gap first last size fill fileName =>
      obtain ⟨found, hbytes, h⟩ := exists_of_bind_eq_ok h
      cases h
      obtain ⟨hcontents, hsize⟩ := gapBytes_eq_ok_iff.1 hbytes
      exact .gap hcontents hsize
    | «section» index type first last size =>
      simp only [pieceOf] at h
      split at h
      · cases h
      next r hrecord =>
      split at h
      · next hplace =>
        obtain ⟨found, hbytes, h⟩ := exists_of_bind_eq_ok h
        cases h
        obtain ⟨contents, hcontents, hsize, rfl⟩ := sectionBytes_eq_ok_iff.1 hbytes
        exact .section hrecord hplace hcontents hsize
      · cases h
  · intro h
    cases h with
    | gap hcontents hsize =>
      simp only [pieceOf, gapBytes_eq_ok_iff.2 ⟨hcontents, hsize⟩]
      exact ⟨_, rfl⟩
    | «section» hrecord hplace hcontents hsize =>
      simp only [pieceOf, hrecord, if_pos hplace,
        sectionBytes_eq_ok_iff.2 ⟨_, hcontents, hsize, rfl⟩]
      exact ⟨_, rfl⟩

/-! ### Putting together -/

variable {sections : List SectionRecord}

/-- **One piece** is written just if it can be made and fits in its place. -/
theorem writePiece_eq_ok_iff {e : LayoutEntry} {image image' : Bytes} :
    writePiece read sections image e = .ok image' ↔
      ∃ p, Materialises read sections e p ∧ p.last ≤ image.length ∧
        image' = image.overlay p.place p.bytes := by
  constructor
  · intro h
    obtain ⟨⟨name, place, bytes⟩, hpiece, h⟩ := exists_of_bind_eq_ok h
    have hput := eq_ok_of_mapError_eq_ok h
    rw [Bytes.put?] at hput
    split at hput
    · next hfit =>
      cases hput
      exact ⟨⟨place, bytes⟩, exists_pieceOf_iff.1 ⟨name, hpiece⟩, hfit, rfl⟩
    · cases hput
  · rintro ⟨p, hp, hfit, rfl⟩
    obtain ⟨name, hpiece⟩ := exists_pieceOf_iff.2 hp
    have hput : image.put? p.place p.bytes = .ok (image.overlay p.place p.bytes) := if_pos hfit
    simp only [writePiece, hpiece, ok_bind, hput]
    rfl

/-- **All pieces in a row** are written just if each of them can be made and fits in its place, and then
they are laid over one another. -/
theorem foldlM_writePiece_eq_ok_iff {entries : List LayoutEntry} {image out : Bytes} :
    entries.foldlM (writePiece read sections) image = .ok out ↔
      ∃ pieces, List.Forall₂ (Materialises read sections) entries pieces ∧
        (∀ p ∈ pieces, p.last ≤ image.length) ∧ out = paint image pieces := by
  induction entries generalizing image with
  | nil =>
    constructor
    · intro h
      cases h
      exact ⟨[], .nil, by simp, rfl⟩
    · rintro ⟨pieces, hpieces, -, rfl⟩
      cases hpieces
      rfl
  | cons e entries ih =>
    rw [List.foldlM_cons]
    -- Writing keeps the length, so what fits in later is what fits in now.
    constructor
    · intro h
      obtain ⟨middle, hwrite, h⟩ := exists_of_bind_eq_ok h
      obtain ⟨p, hp, hfit, rfl⟩ := writePiece_eq_ok_iff.1 hwrite
      obtain ⟨pieces, hpieces, hinside, rfl⟩ := ih.1 h
      rw [Bytes.length_overlay hfit] at hinside
      exact ⟨p :: pieces, .cons hp hpieces, List.forall_mem_cons.2 ⟨hfit, hinside⟩, rfl⟩
    · rintro ⟨pieces, hpieces, hinside, rfl⟩
      cases hpieces with
      | cons hp hpieces =>
        obtain ⟨hfit, hinside⟩ := List.forall_mem_cons.1 hinside
        rw [writePiece_eq_ok_iff.2 ⟨_, hp, hfit, rfl⟩, ok_bind]
        exact ih.2 ⟨_, hpieces, by rwa [Bytes.length_overlay hfit], rfl⟩

/-- **An image put together from pieces**, whatever the index and the files say. -/
structure Assembled (read : FileReader) (m : Metadata) (pieces : List Piece) (out : Bytes) : Prop where
  length_eq : out.length = m.image.size
  /-- There is a piece for each part of the layout, in order. -/
  materialised : List.Forall₂ (Materialises read m.sections) m.layout pieces
  inside : ∀ p ∈ pieces, p.last ≤ out.length
  /-- A byte is the one of the last piece that holds it. -/
  held : ∀ k p, topmost? pieces k = some p → out[k]? = p.bytes[k - p.place]?
  /-- A byte that no piece holds is erased flash. -/
  erased : ∀ k < out.length, topmost? pieces k = none → out[k]? = some 0xff

/-- An image put together from pieces is erased flash with the pieces laid over it. -/
theorem assembled_iff {m : Metadata} {pieces : List Piece} {out : Bytes} :
    Assembled read m pieces out ↔ List.Forall₂ (Materialises read m.sections) m.layout pieces ∧
      (∀ p ∈ pieces, p.last ≤ m.image.size) ∧
      out = paint (List.replicate m.image.size 0xff) pieces := by
  have hlength : (List.replicate m.image.size (0xff : UInt8)).length = m.image.size :=
    List.length_replicate
  constructor
  · intro h
    have hinside := h.length_eq ▸ h.inside
    obtain ⟨hpainted, hbytes⟩ := paint_spec (hlength.symm ▸ hinside)
    -- Both have the byte of the topmost piece at each position, or an erased one.
    refine ⟨h.materialised, hinside, List.ext_getElem? fun k => ?_⟩
    rw [hbytes]
    cases htop : topmost? pieces k with
    | some p => exact h.held k p htop
    | none =>
      by_cases hk : k < out.length
      · rw [h.erased k hk htop, List.getElem?_replicate, if_pos (h.length_eq ▸ hk)]
      · rw [List.getElem?_eq_none (Nat.le_of_not_lt hk),
          List.getElem?_eq_none (by rw [hlength, ← h.length_eq]; exact Nat.le_of_not_lt hk)]
  · rintro ⟨hpieces, hinside, rfl⟩
    obtain ⟨hpainted, hbytes⟩ := paint_spec (hlength.symm ▸ hinside)
    have hsize := hpainted.trans hlength
    refine ⟨hsize, hpieces, fun p hp => ?_, fun k p htop => ?_, fun k hk htop => ?_⟩
    · rw [hsize]
      exact hinside p hp
    · rw [hbytes, htop]
    · rw [hbytes, htop]
      exact List.getElem?_replicate_of_lt (hsize ▸ hk)

/-- Each part of the layout has a piece inside the image. -/
theorem Assembled.exists_piece {m : Metadata} {pieces : List Piece} {out : Bytes}
    (h : Assembled read m pieces out) {e : LayoutEntry} (he : e ∈ m.layout) :
    ∃ p, Materialises read m.sections e p ∧ p.last ≤ m.image.size := by
  obtain ⟨n, hn, rfl⟩ := List.mem_iff_getElem.1 he
  have hn' : n < pieces.length := h.materialised.length_eq ▸ hn
  exact ⟨_, h.materialised.get hn hn', h.length_eq ▸ h.inside _ (List.getElem_mem hn')⟩

/-- **An image is put together** just if there are pieces to put it together from. -/
theorem assemble_eq_ok_iff {m : Metadata} {out : Bytes} :
    assemble read m = .ok out ↔ ∃ pieces, Assembled read m pieces out := by
  rw [assemble, foldlM_writePiece_eq_ok_iff]
  simp only [assembled_iff, List.length_replicate]

/-- Files whose index is one of them are a source like any other. -/
theorem FileSource.repack_ofReader [Algorithms] (read : FileReader) (verify : Bool) :
    (ofReader read).repack verify = FlashImage.repack read verify := rfl

/-- An image comes out just if there is an index, the image is put together and, with `verify`, it has the
digest that the index gives. -/
theorem FileSource.repack_eq_ok_iff [Algorithms] {src : FileSource} {verify : Bool} {out : Bytes} :
    src.repack verify = .ok out ↔
      ∃ m, src.metadata = .ok m ∧ assemble src.read m = .ok out ∧
        (verify = true → Metadata.digestOf out = m.image.sha256) := by
  constructor
  · intro h
    obtain ⟨m, hmetadata, h⟩ := exists_of_bind_eq_ok h
    obtain ⟨image, hassemble, h⟩ := exists_of_bind_eq_ok h
    simp only at h
    split at h
    · cases h
    · next hdigest =>
      cases h
      refine ⟨m, hmetadata, hassemble, fun hverify => ?_⟩
      simpa [hverify] using hdigest
  · rintro ⟨m, hmetadata, hassemble, hdigest⟩
    have hsame : ¬ (verify && decide (Metadata.digestOf out ≠ m.image.sha256)) = true := by
      cases verify with
      | false => simp
      | true => simp [hdigest rfl]
    simp only [repack, hmetadata, ok_bind, hassemble, if_neg hsame]
    rfl

/-- An image comes out just if the index can be read, the image is put together and, with `verify`, it has
the digest that the index gives. -/
theorem repack_eq_ok_iff [Algorithms] {verify : Bool} {out : Bytes} : repack read verify = .ok out ↔
    ∃ m, readMetadata read = .ok m ∧ assemble read m = .ok out ∧
      (verify = true → Metadata.digestOf out = m.image.sha256) := by
  rw [← FileSource.repack_ofReader]
  exact FileSource.repack_eq_ok_iff

end

end FlashImage

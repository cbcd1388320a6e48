import FlashImage.Proofs.Repack.Edits
import Mathlib.Data.List.Pairwise
import Mathlib.Data.List.Perm.Basic

/-!
# In which order pieces are written

The layout lists the pieces of an image in order, but what is put together hardly depends on it. Each piece
is made from its own files and record, so that a layout in another order has the same pieces, in another
order (`FileSource.Reorders.exists_pieces`); and whether all of them can be made and fit does not depend on
the order either. Where no two pieces hold one position, the one that does hold it is the topmost one in
any order (`topmost?_eq_some_iff`), and so the image is the same (`paint_perm`).

The pieces of an unedited extraction may overlap, but all of them hold the bytes of the image. So they put the
image together in any order.
-/

namespace FlashImage

/-! ### Pieces that do not overlap -/

/-- **Two pieces are disjoint**: no position is held by both. -/
def Piece.Disjoint (p q : Piece) : Prop := ∀ k, p.Holds k → ¬ q.Holds k

theorem Piece.Disjoint.symm {p q : Piece} (h : p.Disjoint q) : q.Disjoint p := fun k hq hp => h k hp hq

instance : Std.Symm Piece.Disjoint := ⟨fun _ _ h => h.symm⟩

/-- **Among disjoint pieces**, the topmost one that holds a position is the one that holds it. -/
theorem topmost?_eq_some_iff {pieces : List Piece} (h : pieces.Pairwise Piece.Disjoint) {k : Nat} {p : Piece} :
    topmost? pieces k = some p ↔ p ∈ pieces ∧ p.Holds k := by
  have hfound {q : Piece} (hq : topmost? pieces k = some q) : q ∈ pieces ∧ q.Holds k := by
    refine ⟨List.mem_reverse.1 (List.mem_of_find?_eq_some hq), ?_⟩
    simpa using List.find?_some hq
  constructor
  · exact hfound
  · rintro ⟨hp, hholds⟩
    have hsome : (topmost? pieces k).isSome = true :=
      List.find?_isSome.2 ⟨p, List.mem_reverse.2 hp, decide_eq_true hholds⟩
    obtain ⟨q, hq⟩ := Option.isSome_iff_exists.1 hsome
    -- Two pieces that hold the position are one.
    by_cases heq : q = p
    · rw [hq, heq]
    · exact absurd hholds (h.forall (hfound hq).1 hp heq k (hfound hq).2)

/-- **Disjoint pieces may be laid over an image in any order.** -/
theorem paint_perm {pieces pieces' : List Piece} (hperm : pieces'.Perm pieces)
    (h : pieces.Pairwise Piece.Disjoint) {image : Bytes} (hinside : ∀ p ∈ pieces, p.last ≤ image.length) :
    paint image pieces' = paint image pieces := by
  have h' : pieces'.Pairwise Piece.Disjoint := (hperm.pairwise_iff Piece.Disjoint.symm).2 h
  have hinside' : ∀ p ∈ pieces', p.last ≤ image.length := fun p hp => hinside p (hperm.mem_iff.1 hp)
  have htop (k : Nat) : topmost? pieces' k = topmost? pieces k := by
    ext p
    rw [topmost?_eq_some_iff h', topmost?_eq_some_iff h, hperm.mem_iff]
  ext1 k
  rw [(paint_spec hinside').2, (paint_spec hinside).2, htop]

/-! ### Layouts in another order -/

/-- **A name of a file** that a piece of the layout may be made from. -/
inductive Metadata.Names (m : Metadata) (name : String) : Prop where
  | gap {first last size : Nat} {fill : Option UInt8} (h : .gap first last size fill name ∈ m.layout) :
    Names m name
  | contents {r : SectionRecord} (hr : r ∈ m.sections) (h : r.fileName = some name) : Names m name
  | form {r : SectionRecord} (hr : r ∈ m.sections) (h : r.jsonFile = some name) : Names m name

/-- A piece of the layout can be made from any files that are the same under the names of the index. -/
theorem Materialises.of_agree {read read' : FileReader} {m : Metadata}
    (hread : ∀ name, m.Names name → read' name = read name) {e : LayoutEntry} (he : e ∈ m.layout) {p : Piece}
    (h : Materialises read m.sections e p) : Materialises read' m.sections e p := by
  cases h with
  | gap hcontents hsize =>
    have hsame := hread _ (.gap he)
    refine .gap ?_ hsize
    cases hcontents with
    | uniform hfile hdescription => exact .uniform (hsame.trans hfile) hdescription
    | verbatim hfile => exact .verbatim (hsame.trans hfile)
  | «section» hrecord hplace hcontents hsize =>
    have hmem := List.mem_of_getElem? hrecord
    refine .section hrecord hplace ?_ hsize
    cases hcontents with
    | projected hkeeps hname hfile hparse hencode =>
      exact .projected hkeeps hname ((hread _ (.form hmem hname)).trans hfile) hparse hencode
    | verbatim hjson hname hfile =>
      exact .verbatim hjson hname ((hread _ (.contents hmem hname)).trans hfile)

namespace FileSource

/-- **One source has the layout of another in a different order**, and the same files for its pieces. -/
structure Reorders (src src' : FileSource) (m : Metadata) (layout : List LayoutEntry) : Prop where
  metadata : src.metadata = .ok m
  metadata' : src'.metadata = .ok { m with layout := layout }
  perm : layout.Perm m.layout
  read : ∀ name, m.Names name → src'.read name = src.read name

/-- A source with a layout in the place of the one of its index. -/
def withLayout (src : FileSource) (layout : List LayoutEntry) : FileSource :=
  { src with metadata := src.metadata.map fun m => { m with layout := layout } }

/-- The layout may be given in another order by the index alone. -/
theorem reorders_withLayout {src : FileSource} {m : Metadata} (hm : src.metadata = .ok m)
    {layout : List LayoutEntry} (hperm : layout.Perm m.layout) :
    src.Reorders (src.withLayout layout) m layout where
  metadata := hm
  metadata' := by
    rw [withLayout, hm]
    rfl
  perm := hperm
  read _ _ := rfl

namespace Reorders

variable {src src' : FileSource} {m : Metadata} {layout : List LayoutEntry}

/-- The first order is another one for the second. -/
theorem symm (h : src.Reorders src' m layout) :
    src'.Reorders src { m with layout := layout } m.layout where
  metadata := h.metadata'
  metadata' := h.metadata
  perm := h.perm.symm
  read name hname := by
    refine (h.read name ?_).symm
    cases hname with
    | gap he => exact .gap (h.perm.mem_iff.1 he)
    | contents hr hfile => exact .contents hr hfile
    | form hr hfile => exact .form hr hfile

/-- **The pieces are the same**, in another order. -/
theorem exists_pieces (h : src.Reorders src' m layout) {out : Bytes} (hout : assemble src.read m = .ok out) :
    ∃ pieces pieces', List.Forall₂ (Materialises src.read m.sections) m.layout pieces ∧
      (∀ p ∈ pieces, p.last ≤ m.image.size) ∧ pieces'.Perm pieces ∧
      out = paint (List.replicate m.image.size 0xff) pieces ∧
      assemble src'.read { m with layout := layout }
        = .ok (paint (List.replicate m.image.size 0xff) pieces') := by
  obtain ⟨pieces, hpieces⟩ := assemble_eq_ok_iff.1 hout
  obtain ⟨hmade, hinside, hpainted⟩ := assembled_iff.1 hpieces
  obtain ⟨pieces', hmade', hperm⟩ := List.perm_comp_forall₂ h.perm hmade
  refine ⟨pieces, pieces', hmade, hinside, hperm, hpainted, ?_⟩
  refine assemble_eq_ok_iff.2 ⟨pieces', assembled_iff.2 ⟨?_, ?_, rfl⟩⟩
  · have hsame : List.Forall₂ (fun e p => e ∈ layout ∧ Materialises src.read m.sections e p) layout pieces' :=
      (List.forall₂_and_left _ _).2 ⟨fun _ he => he, hmade'⟩
    exact hsame.imp fun e p hp => hp.2.of_agree h.read (h.perm.mem_iff.1 hp.1)
  · exact fun p hp => hinside p (hperm.mem_iff.1 hp)

/-- **Whether all pieces can be made and fit** does not depend on the order. -/
theorem exists_assemble (h : src.Reorders src' m layout) {out : Bytes}
    (hout : assemble src.read m = .ok out) :
    ∃ out', assemble src'.read { m with layout := layout } = .ok out' := by
  obtain ⟨pieces, pieces', -, -, -, -, hout'⟩ := h.exists_pieces hout
  exact ⟨_, hout'⟩

/-- **Disjoint pieces put the same image together** in any order. -/
theorem assemble_eq (h : src.Reorders src' m layout)
    (hdisjoint : ∀ pieces, List.Forall₂ (Materialises src.read m.sections) m.layout pieces →
      pieces.Pairwise Piece.Disjoint) {out : Bytes} (hout : assemble src.read m = .ok out) :
    assemble src'.read { m with layout := layout } = .ok out := by
  obtain ⟨pieces, pieces', hmade, hinside, hperm, rfl, hout'⟩ := h.exists_pieces hout
  rw [hout', paint_perm hperm (hdisjoint pieces hmade)]
  rwa [List.length_replicate]

/-- **An image comes out in any order or in none.** -/
theorem exists_repack [Algorithms] (h : src.Reorders src' m layout) {out : Bytes}
    (hout : src.repack false = .ok out) : ∃ out', src'.repack false = .ok out' := by
  obtain ⟨m', hm', hassemble, -⟩ := repack_eq_ok_iff.1 hout
  obtain rfl := Except.ok.inj (hm'.symm.trans h.metadata)
  obtain ⟨out', hout'⟩ := h.exists_assemble hassemble
  exact ⟨out', repack_eq_ok_iff.2 ⟨_, h.metadata', hout', fun hverify => by cases hverify⟩⟩

/-- **Disjoint pieces give the same result** in any order, with and without a check of the digest. -/
theorem repack_iff [Algorithms] (h : src.Reorders src' m layout)
    (hdisjoint : ∀ pieces, List.Forall₂ (Materialises src.read m.sections) m.layout pieces →
      pieces.Pairwise Piece.Disjoint) (verify : Bool) (out : Bytes) :
    src'.repack verify = .ok out ↔ src.repack verify = .ok out := by
  rw [repack_eq_ok_iff, repack_eq_ok_iff]
  simp only [h.metadata, h.metadata', Except.ok.injEq, exists_eq_left']
  constructor
  · rintro ⟨hassemble, hdigest⟩
    -- The first order gives some image too, and then the second gives the same one.
    obtain ⟨out', hout'⟩ := h.symm.exists_assemble hassemble
    obtain rfl := Except.ok.inj (hassemble.symm.trans (h.assemble_eq hdisjoint hout'))
    exact ⟨hout', hdigest⟩
  · rintro ⟨hassemble, hdigest⟩
    exact ⟨h.assemble_eq hdisjoint hassemble, hdigest⟩

end Reorders

end FileSource

/-! ### Unedited extractions -/

/-- **The pieces of an unedited extraction give the image in any order**, although they may overlap: each of
them holds the bytes of the image. -/
theorem Image.repack_extract_perm [Algorithms] {i : Image} (hlen : i.data.length < 2 ^ 63) {keepBinary : Bool}
    {src : FileSource} (hread : (i.extract keepBinary).HoldsBut Metadata.fileName src.read)
    {layout : List LayoutEntry} (hperm : layout.Perm (i.extract keepBinary).metadata.layout)
    (hm : src.metadata = .ok { (i.extract keepBinary).metadata with layout := layout }) (verify : Bool) :
    src.repack verify = .ok i.data := by
  refine FileSource.repack_eq_ok_iff.2 ⟨_, hm, FlashImage.assemble_eq rfl ?_ ?_, fun _ => rfl⟩
  · intro e he
    refine restores_of_holdsBut hlen hread (hperm.mem_iff.1 he) fun howns => ?_
    -- No piece is made from the index.
    exact absurd rfl (exists_owns_iff.1 ⟨e, howns⟩).2
  · intro p hp
    obtain ⟨e, he, hholds⟩ : ∃ e ∈ (i.extract keepBinary).metadata.layout, e.Holds p :=
      exists_mem_layout_holds hp
    exact ⟨e, hperm.mem_iff.2 he, hholds⟩

/-- The index of an extraction is read back from its text with its layout in another order. -/
theorem Image.readMetadata_of_perm [Algorithms] {i : Image} (hi : i.Anchored) (hlen : i.data.length < 2 ^ 63)
    {keepBinary : Bool} {layout : List LayoutEntry}
    (hperm : layout.Perm (i.extract keepBinary).metadata.layout) :
    readMetadata ((i.extract keepBinary).files.insert Metadata.fileName
        { (i.extract keepBinary).metadata with layout := layout }.toJson.pretty).reader
      = .ok { (i.extract keepBinary).metadata with layout := layout } := by
  have hfits := fits_metadata hi hlen keepBinary
  refine readMetadata_of_fits { hfits with layout := fun e he => hfits.layout e (hperm.mem_iff.1 he) } ?_
  rw [Files.reader, Files.get?_insert_self]

/-- **The order of the layout does not matter.** Whatever source an image is put together from: with the layout
of its index in another order, an image comes out just if one came out before; it is the same one, with and
without a check of the digest, if no two pieces that the layout stands for hold one position. From an
unedited extraction the image comes out in any order, overlaps or not, be the order that of an index that
stands for itself or that of the index in its file. -/
theorem repack_reordered [Algorithms] :
    (∀ src src' m layout, FileSource.Reorders src src' m layout →
      ((∃ out, src'.repack false = .ok out) ↔ ∃ out, src.repack false = .ok out) ∧
      ((∀ pieces, List.Forall₂ (Materialises src.read m.sections) m.layout pieces →
          pieces.Pairwise Piece.Disjoint) →
        ∀ verify out, src'.repack verify = .ok out ↔ src.repack verify = .ok out)) ∧
    ∀ data i, Image.parse data = .ok i → data.length < 2 ^ 63 → ∀ keepBinary layout,
      layout.Perm (i.extract keepBinary).metadata.layout →
      (∀ src : FileSource, (i.extract keepBinary).HoldsBut Metadata.fileName src.read →
        src.metadata = .ok { (i.extract keepBinary).metadata with layout := layout } →
        ∀ verify, src.repack verify = .ok data) ∧
      ∀ verify, repack ((i.extract keepBinary).files.insert Metadata.fileName
        { (i.extract keepBinary).metadata with layout := layout }.toJson.pretty).reader verify = .ok data := by
  refine ⟨?_, ?_⟩
  · intro src src' m layout h
    refine ⟨⟨?_, ?_⟩, h.repack_iff⟩
    · rintro ⟨out, hout⟩
      exact h.symm.exists_repack hout
    · rintro ⟨out, hout⟩
      exact h.exists_repack hout
  · intro data i hparse hlen keepBinary layout hperm
    obtain ⟨rfl, hi⟩ := Image.anchored_of_parse hparse
    refine ⟨fun src hread hm verify => Image.repack_extract_perm hlen hread hperm hm verify, fun verify => ?_⟩
    rw [← FileSource.repack_ofReader]
    exact Image.repack_extract_perm hlen (Extraction.holdsBut_insert _ _ _) hperm
      (Image.readMetadata_of_perm hi hlen hperm) verify

/-- Two gaps of one byte each, with files of their own. -/
def twoGaps : FileSource where
  read name := .ok (if name = "front" then [0] else [1])
  metadata := .ok {
    format := .fs4
    image := ⟨2, ""⟩
    anchor := .found 0
    pointers := ⟨0, [], []⟩
    itoc := ⟨0, false, []⟩
    dtoc := none
    encrypted := false
    sections := []
    layout := [.gap 0 1 1 none "front", .gap 1 2 1 none "back"]
    crcInfo := .standard
    boundaries := ⟨0, 2, 0⟩
    diagnostics := [] }

/-- Two gaps the other way round, and the small image, whose sections overlap, from back to front. -/
theorem repack_reordered_smallImage :
    @FileSource.repack .standard (twoGaps.withLayout [.gap 1 2 1 none "back", .gap 0 1 1 none "front"]) false
      = .ok [0, 1] ∧
    ∃ i, Image.parse smallImage = .ok i ∧ smallImage.length < 2 ^ 63 ∧
      @repack .standard ((@Image.extract .standard i false).files.insert Metadata.fileName
        { (@Image.extract .standard i false).metadata with
          layout := (@Image.extract .standard i false).metadata.layout.reverse }.toJson.pretty).reader true
        = .ok smallImage := by
  let := Algorithms.standard
  obtain ⟨hsources, himages⟩ := repack_reordered
  refine ⟨?_, ?_⟩
  · have h : twoGaps.Reorders (twoGaps.withLayout [.gap 1 2 1 none "back", .gap 0 1 1 none "front"]) _
        [.gap 1 2 1 none "back", .gap 0 1 1 none "front"] :=
      FileSource.reorders_withLayout rfl (List.Perm.swap ..)
    refine ((hsources _ _ _ _ h).2 ?_ false [0, 1]).2 rfl
    intro pieces hpieces
    -- There is one way to make each of the two pieces.
    obtain _ | ⟨⟨_ | ⟨⟨⟩⟩, -⟩, _ | ⟨⟨_ | ⟨⟨⟩⟩, -⟩, ⟨⟩⟩⟩ := hpieces
    refine List.pairwise_pair.2 fun k hk hk' => ?_
    exact absurd hk'.1 (Nat.not_le.2 hk.2)
  · obtain ⟨i, hparse⟩ := exists_parse_smallImage
    have hlen : smallImage.length < 2 ^ 63 := by decide +kernel
    exact ⟨i, hparse, hlen, (himages smallImage i hparse hlen false _ (List.reverse_perm _)).2 true⟩

end FlashImage

import FlashImage.Machine.Repack
import FlashImage.Proofs.Repack.Order
import FlashImage.Proofs.Section.Layouts

/-!
# Putting an image together, if there is room

A source is not trusted. What its index and its files ask for can be too large to be made, and then there is
neither an image nor an error: the program ends. It does so for an image that is too large (`NoRoom`), and
otherwise at the first piece of the layout that is not written, if that piece is too large (`Oversized`). A
piece that is too large cannot be part of any image, so it should be refused like any other piece that does not
fit; but the room for it is asked for before its size is compared with the one that the index gives.

In all other cases each step does what its definition does (`repack_cases`). An image that comes out is then
the one put together from the pieces, and it comes out whenever there is one (`repacks_unless_overrun`).
-/

namespace FlashImage.Machine

variable {read : FileReader} {sections : List SectionRecord}

/-! ### Pieces that there is no room for -/

/-- **A piece that there is no room for**: a gap of the size that its description says, a projection that is
written to take the place of a section, or a CRC dword behind the contents of a section. The last two take files
that hardly any memory holds. -/
inductive Oversized (read : FileReader) (sections : List SectionRecord) : LayoutEntry → Prop
  | description {first last size found : Nat} {fill b : UInt8} {fileName : String} {contents : Bytes}
      (hread : read fileName = .ok contents)
      (hdescription : GapFile.read contents.toStringLossy = .ok (found, b)) (hlarge : 2 ^ 63 ≤ found) :
    Oversized read sections (.gap first last size (some fill) fileName)
  | projection {index first last size : Nat} {type file : String} {r : SectionRecord} {text : Bytes}
      {p : Projection} (hrecord : sections[index]? = some r) (hplace : r.offset = first)
      (hkeeps : r.keepsBytes = false) (hfile : r.jsonFile = some file) (hread : read file = .ok text)
      (hparse : (Json.parse? text).bind Projection.ofJson? = some p) (hlarge : ¬ Bounded p) :
    Oversized read sections (.section index type first last size)
  | dword {index first last size : Nat} {type : String} {r : SectionRecord} {contents : Bytes}
      (hrecord : sections[index]? = some r) (hplace : r.offset = first)
      (hcontents : SectionContents read r contents) (hsize : contents.length = r.size)
      (hstripped : r.stripped = true) (hlarge : 2 ^ 63 ≤ contents.length + Section.trailerSize) :
    Oversized read sections (.section index type first last size)

/-- A piece that lies in an image is not too large. -/
theorem not_oversized_of_materialises {e : LayoutEntry} {p : Piece} (h : Materialises read sections e p)
    (hlast : p.last < 2 ^ 63) : ¬ Oversized read sections e := by
  intro hover
  -- What is too large would be as large in the piece, as both come from the same file.
  cases hover with
  | description hread hdescription hlarge =>
    cases h with
    | gap hcontents hsize =>
      cases hcontents with
      | uniform hread' hdescription' =>
        cases hread.symm.trans hread'
        cases hdescription.symm.trans hdescription'
        rw [Piece.last, List.length_replicate] at hlast
        omega
  | projection hrecord hplace hkeeps hfile hread hparse hlarge =>
    cases h with
    | «section» hrecord' hplace' hcontents hsize =>
      cases hrecord.symm.trans hrecord'
      cases hcontents with
      | projected hkeeps' hfile' hread' hparse' hencode =>
        cases hfile.symm.trans hfile'
        cases hread.symm.trans hread'
        cases hparse.symm.trans hparse'
        have hlength := Projection.length_of_encode hencode
        have hstored := Projection.le_storedLength_of_not_bounded hlarge
        rw [Piece.last, List.length_append] at hlast
        omega
      | verbatim hjson hfile' hread' =>
        rcases hjson with hkeeps' | hjson
        · cases hkeeps.symm.trans hkeeps'
        · cases hfile.symm.trans hjson
  | dword hrecord hplace hcontents hsize hstripped hlarge =>
    cases h with
    | «section» hrecord' hplace' hcontents' hsize' =>
      cases hrecord.symm.trans hrecord'
      have hsame := (sectionPayload_eq_ok_iff.2 hcontents).symm.trans (sectionPayload_eq_ok_iff.2 hcontents')
      cases hsame
      rw [Piece.last, List.length_append, if_pos hstripped, Bytes.length_u32] at hlast
      unfold Section.trailerSize at hlarge
      omega

/-! ### Making a piece -/

theorem gapBytes_eq {fileName : String} {size : Nat} {fill : Option UInt8}
    (h : ∀ contents found b, fill.isSome = true → read fileName = .ok contents →
      GapFile.read contents.toStringLossy = .ok (found, b) → found < 2 ^ 63) :
    gapBytes read fileName size fill = settled (FlashImage.gapBytes read fileName size fill) := by
  refine settled_bind fun contents hread => ?_
  cases fill with
  | none =>
    simp only
    split <;> rfl
  | some declared =>
    refine settled_bind fun ⟨found, b⟩ hdescription => ?_
    have hroom := h contents found b rfl hread (eq_ok_of_mapError_eq_ok hdescription)
    simp only
    rw [allocate_eq hroom, lift_ok, settled_ok_bind]
    split <;> rfl

theorem projectedBytes_eq {file : String} (h : ∀ text p, read file = .ok text →
    (Json.parse? text).bind Projection.ofJson? = some p → Bounded p) :
    projectedBytes read file = settled (FlashImage.projectedBytes read file) := by
  refine settled_bind fun text hread => ?_
  cases hparse : (Json.parse? text).bind Projection.ofJson? with
  | none => rfl
  | some p =>
    dsimp only
    rw [encode_eq (h text p hread hparse), adapt_settled]

theorem sectionPayload_eq {r : SectionRecord} (h : ∀ file text p, r.keepsBytes = false →
    r.jsonFile = some file → read file = .ok text →
    (Json.parse? text).bind Projection.ofJson? = some p → Bounded p) :
    sectionPayload read r = settled (FlashImage.sectionPayload read r) := by
  rw [sectionPayload, FlashImage.sectionPayload]
  cases hkeeps : r.keepsBytes with
  | true => cases r.fileName <;> rfl
  | false =>
    cases hfile : r.jsonFile with
    | none => cases r.fileName <;> rfl
    | some file => exact projectedBytes_eq fun text p => h file text p hkeeps hfile

theorem sectionBytes_eq {r : SectionRecord} (hprojection : ∀ file text p, r.keepsBytes = false →
    r.jsonFile = some file → read file = .ok text →
    (Json.parse? text).bind Projection.ofJson? = some p → Bounded p)
    (hdword : ∀ contents, SectionContents read r contents → contents.length = r.size → r.stripped = true →
      contents.length + Section.trailerSize < 2 ^ 63) :
    sectionBytes read r = settled (FlashImage.sectionBytes read r) := by
  rw [sectionBytes, sectionPayload_eq hprojection]
  refine settled_bind fun contents hcontents => ?_
  split
  · next hsize =>
    cases hstripped : r.stripped with
    | false => rfl
    | true =>
      have hroom := hdword contents (sectionPayload_eq_ok_iff.1 hcontents) hsize hstripped
      rw [if_pos rfl, allocate_eq hroom]
      rfl
  · rfl

/-- **A piece that is not too large** is made, or refused, as its definition says. -/
theorem pieceOf_eq {e : LayoutEntry} (h : ¬ Oversized read sections e) :
    pieceOf read sections e = settled (FlashImage.pieceOf read sections e) := by
  cases e with
  | gap first last size fill fileName =>
    have hbytes : gapBytes read fileName size fill = settled (FlashImage.gapBytes read fileName size fill) := by
      refine gapBytes_eq fun contents found b hfill hread hdescription => ?_
      obtain ⟨declared, rfl⟩ := Option.isSome_iff_exists.1 hfill
      exact Nat.lt_of_not_le fun hlarge => h (.description hread hdescription hlarge)
    rw [pieceOf, hbytes]
    exact settled_bind fun bytes _ => rfl
  | «section» index type first last size =>
    rw [pieceOf, FlashImage.pieceOf]
    cases hrecord : sections[index]? with
    | none => rfl
    | some r =>
      simp only
      split
      · next hplace =>
        have hbytes : sectionBytes read r = settled (FlashImage.sectionBytes read r) := by
          refine sectionBytes_eq (fun file text p hkeeps hfile hread hparse => ?_)
            fun contents hcontents hsize hstripped => ?_
          · exact Classical.byContradiction fun hlarge =>
              h (.projection hrecord hplace hkeeps hfile hread hparse hlarge)
          · exact Nat.lt_of_not_le fun hlarge =>
              h (.dword hrecord hplace hcontents hsize hstripped hlarge)
        rw [hbytes]
        exact settled_bind fun bytes _ => rfl
      · rfl

/-- A projection that there is no room for is not written. -/
theorem faults_sectionPayload {r : SectionRecord} {file : String} {text : Bytes} {p : Projection}
    (hkeeps : r.keepsBytes = false) (hfile : r.jsonFile = some file) (hread : read file = .ok text)
    (hparse : (Json.parse? text).bind Projection.ofJson? = some p) (hlarge : ¬ Bounded p) :
    Faults (sectionPayload read r) := by
  have hpayload : sectionPayload read r = projectedBytes read file := by
    rw [sectionPayload, hkeeps, hfile]
    rfl
  rw [hpayload, projectedBytes, hread, settled_ok_bind, hparse]
  exact (faults_encode hlarge).adapt _

/-- The contents of a section are made, unless they are those of a projection that there is no room for. -/
theorem sectionPayload_cases {r : SectionRecord} {contents : Bytes} (h : SectionContents read r contents) :
    sectionPayload read r = settled (.ok contents) ∨ Faults (sectionPayload read r) := by
  by_cases hbounded : ∀ file text p, r.keepsBytes = false → r.jsonFile = some file → read file = .ok text →
      (Json.parse? text).bind Projection.ofJson? = some p → Bounded p
  · rw [sectionPayload_eq hbounded, sectionPayload_eq_ok_iff.2 h]
    exact .inl rfl
  · simp only [not_forall] at hbounded
    obtain ⟨file, text, p, hkeeps, hfile, hread, hparse, hlarge⟩ := hbounded
    exact .inr (faults_sectionPayload hkeeps hfile hread hparse hlarge)

/-- **A piece that is too large** is not made, and not refused. -/
theorem faults_pieceOf {e : LayoutEntry} (h : Oversized read sections e) :
    Faults (pieceOf read sections e) := by
  cases h with
  | description hread hdescription hlarge =>
    -- The room is asked for in front of the comparison that would refuse the description.
    refine Faults.bind ?_ _
    rw [gapBytes, hread, settled_ok_bind, hdescription]
    refine Faults.bind (x := liftM (allocate _)) ?_ _
    rw [allocate_fault hlarge]
    exact faults_lift _
  | projection hrecord hplace hkeeps hfile hread hparse hlarge =>
    simp only [pieceOf, hrecord, if_pos hplace]
    exact ((faults_sectionPayload hkeeps hfile hread hparse hlarge).bind _).bind _
  | dword hrecord hplace hcontents hsize hstripped hlarge =>
    simp only [pieceOf, hrecord, if_pos hplace]
    refine Faults.bind ?_ _
    rcases sectionPayload_cases hcontents with hpayload | hfault
    · rw [sectionBytes, hpayload, settled_ok_bind, if_pos hsize, if_pos hstripped, allocate_fault hlarge]
      exact (faults_lift _).bind _
    · exact hfault.bind _

/-! ### Writing the pieces -/

theorem writePiece_eq {image : Bytes} (himage : image.length < 2 ^ 64) {e : LayoutEntry}
    (h : ¬ Oversized read sections e) :
    writePiece read sections image e = settled (FlashImage.writePiece read sections image e) := by
  rw [writePiece, pieceOf_eq h]
  refine settled_bind fun ⟨name, offset, bytes⟩ _ => ?_
  simp only
  rw [put_eq himage, adapt_settled]

/-- **A layout that there is no room for**: one of its pieces is too large, and all pieces before it are
written. -/
inductive Overruns (read : FileReader) (sections : List SectionRecord) (size : Nat) : List LayoutEntry → Prop
  | here {e : LayoutEntry} {rest : List LayoutEntry} (h : Oversized read sections e) :
    Overruns read sections size (e :: rest)
  | later {e : LayoutEntry} {rest : List LayoutEntry} {p : Piece} (hpiece : Materialises read sections e p)
      (hfit : p.last ≤ size) (h : Overruns read sections size rest) : Overruns read sections size (e :: rest)

theorem Overruns.exists_oversized {size : Nat} {entries : List LayoutEntry}
    (h : Overruns read sections size entries) : ∃ e ∈ entries, Oversized read sections e := by
  induction h with
  | here h => exact ⟨_, List.mem_cons_self, h⟩
  | later _ _ _ ih =>
    obtain ⟨e, he, hover⟩ := ih
    exact ⟨e, List.mem_cons_of_mem _ he, hover⟩

/-- **The pieces in a row** are written as their definition says, up to one that is too large. -/
theorem foldlM_writePiece_cases (read : FileReader) (sections : List SectionRecord) (entries : List LayoutEntry)
    {image : Bytes} (himage : image.length < 2 ^ 63) :
    (Overruns read sections image.length entries ∧
      Faults (entries.foldlM (writePiece read sections) image)) ∨
    (¬ Overruns read sections image.length entries ∧ entries.foldlM (writePiece read sections) image
      = settled (entries.foldlM (FlashImage.writePiece read sections) image)) := by
  induction entries generalizing image with
  | nil => exact .inr ⟨nofun, rfl⟩
  | cons e entries ih =>
    rw [List.foldlM_cons, List.foldlM_cons]
    -- The first piece is too large, or refused, or written. Only what is written leaves the rest to be done.
    by_cases hover : Oversized read sections e
    · refine .inl ⟨.here hover, ?_⟩
      exact ((faults_pieceOf hover).bind _).bind _
    rw [writePiece_eq (by omega) hover]
    cases hwrite : FlashImage.writePiece read sections image e with
    | error err =>
      refine .inr ⟨fun h => ?_, rfl⟩
      cases h with
      | here h => exact hover h
      | later hpiece hfit _ => cases hwrite.symm.trans (writePiece_eq_ok_iff.2 ⟨_, hpiece, hfit, rfl⟩)
    | ok next =>
      obtain ⟨p, hpiece, hfit, rfl⟩ := writePiece_eq_ok_iff.1 hwrite
      have hlength : (image.overlay p.place p.bytes).length = image.length := Bytes.length_overlay hfit
      have hnext : (image.overlay p.place p.bytes).length < 2 ^ 63 := by rwa [hlength]
      rw [settled_ok_bind, ok_bind]
      rcases ih hnext with ⟨hrest, hfault⟩ | ⟨hrest, heq⟩
      · rw [hlength] at hrest
        exact .inl ⟨.later hpiece hfit hrest, hfault⟩
      · rw [hlength] at hrest
        refine .inr ⟨fun h => ?_, heq⟩
        cases h with
        | here h => exact hover h
        | later _ _ h => exact hrest h

/-! ### The image -/

/-- **An index that there is no room for**: its image is too large, or a piece of its layout is. -/
def NoRoom (read : FileReader) (m : Metadata) : Prop :=
  2 ^ 63 ≤ m.image.size ∨ Overruns read m.sections m.image.size m.layout

theorem assemble_cases (read : FileReader) (m : Metadata) :
    (NoRoom read m ∧ Faults (assemble read m)) ∨
    (¬ NoRoom read m ∧ assemble read m = settled (FlashImage.assemble read m)) := by
  rcases Nat.lt_or_ge m.image.size (2 ^ 63) with hsize | hsize
  · have hlength : (List.replicate m.image.size (0xff : UInt8)).length = m.image.size := List.length_replicate
    rw [assemble, filled_eq hsize, lift_ok, settled_ok_bind, FlashImage.assemble]
    have himage : (List.replicate m.image.size (0xff : UInt8)).length < 2 ^ 63 := by rwa [hlength]
    rcases foldlM_writePiece_cases read m.sections m.layout himage with ⟨hover, hfault⟩ | ⟨hover, heq⟩
    · rw [hlength] at hover
      exact .inl ⟨.inr hover, hfault⟩
    · rw [hlength] at hover
      exact .inr ⟨fun h => h.elim (Nat.not_le.2 hsize) hover, heq⟩
  · refine .inl ⟨.inl hsize, ?_⟩
    rw [assemble, filled, allocate_fault hsize]
    exact (faults_lift _).bind _

/-- There is room for an image that is put together from its pieces. -/
theorem not_noRoom_of_assembled {m : Metadata} (hsize : m.image.size < 2 ^ 63) {pieces : List Piece}
    {out : Bytes} (h : Assembled read m pieces out) : ¬ NoRoom read m := by
  rintro (hlarge | hover)
  · exact Nat.not_le.2 hsize hlarge
  obtain ⟨e, he, hover⟩ := hover.exists_oversized
  obtain ⟨p, hpiece, hinside⟩ := h.exists_piece he
  exact not_oversized_of_materialises hpiece (Nat.lt_of_le_of_lt hinside hsize) hover

section

variable [Algorithms]

/-- **Putting an image together** faults if there is no room, and does what its definition does if there is. -/
theorem repack_cases (src : FileSource) (verify : Bool) :
    ((∃ m, src.metadata = .ok m ∧ NoRoom src.read m) ∧ Faults (repack src verify)) ∨
    ((∀ m, src.metadata = .ok m → ¬ NoRoom src.read m) ∧
      repack src verify = settled (src.repack verify)) := by
  rw [repack, FileSource.repack]
  cases hmetadata : src.metadata with
  | error err => exact .inr ⟨fun m hm => (by cases hm), rfl⟩
  | ok m =>
    rw [settled_ok_bind, ok_bind]
    rcases assemble_cases src.read m with ⟨hroom, hfault⟩ | ⟨hroom, heq⟩
    · exact .inl ⟨⟨m, rfl, hroom⟩, hfault.bind _⟩
    · refine .inr ⟨fun m' hm' => by cases hm'; exact hroom, ?_⟩
      rw [heq]
      refine settled_bind fun image _ => ?_
      simp only
      split <;> rfl

theorem faults_repack_iff {src : FileSource} {verify : Bool} :
    Faults (repack src verify) ↔ ∃ m, src.metadata = .ok m ∧ NoRoom src.read m := by
  rcases repack_cases src verify with ⟨hroom, hfault⟩ | ⟨hroom, heq⟩
  · exact iff_of_true hfault hroom
  · rw [heq]
    exact iff_of_false (not_faults_settled _) fun ⟨m, hm, h⟩ => hroom m hm h

/-- **What putting an image together does**, whatever the source and its files say. -/
structure Repacks (src : FileSource) (verify : Bool) : Prop where
  /-- With room, the program does what its definition does. -/
  agrees : (∀ m, src.metadata = .ok m → ¬ NoRoom src.read m) →
    repack src verify = settled (src.repack verify)
  /-- An image comes out just if there is an index, the pieces of its layout can be made and fit in their places,
  and, with `verify`, the image has the digest that the index gives; and then it is the image put together from
  those pieces. -/
  result : ∀ out, repack src verify = settled (.ok out) ↔
    ∃ m, src.metadata = .ok m ∧ m.image.size < 2 ^ 63 ∧ (∃ pieces, Assembled src.read m pieces out) ∧
      (verify = true → Metadata.digestOf out = m.image.sha256)
  /-- If a piece of the layout cannot be made, or only so that it does not fit, there is an error, with `verify`
  and without, as long as there is room. -/
  refused : ∀ m, src.metadata = .ok m → ¬ NoRoom src.read m →
    (∃ e ∈ m.layout, ∀ p, Materialises src.read m.sections e p → m.image.size < p.last) →
    ∃ err, repack src verify = settled (.error err)
  /-- Without room the program ends, and only then. -/
  faults : Faults (repack src verify) ↔ ∃ m, src.metadata = .ok m ∧ NoRoom src.read m

/-- **An image is put together from the pieces that the source stands for**, or there is an error, unless the
source asks for something that there is no room for. -/
theorem repacks_unless_overrun (src : FileSource) (verify : Bool) : Repacks src verify where
  agrees hroom := by
    rcases repack_cases src verify with ⟨⟨m, hm, hover⟩, -⟩ | ⟨-, heq⟩
    · exact absurd hover (hroom m hm)
    · exact heq
  result out := by
    constructor
    · intro h
      rcases repack_cases src verify with ⟨-, fault, hfault⟩ | ⟨hroom, heq⟩
      · cases hfault.symm.trans (congrArg ExceptT.run h)
      · have hrepack : src.repack verify = .ok out := Except.ok.inj (congrArg ExceptT.run (heq.symm.trans h))
        obtain ⟨m, hm, hassemble, hdigest⟩ := FileSource.repack_eq_ok_iff.1 hrepack
        have hsize : m.image.size < 2 ^ 63 := Nat.lt_of_not_le fun hlarge => hroom m hm (.inl hlarge)
        exact ⟨m, hm, hsize, assemble_eq_ok_iff.1 hassemble, hdigest⟩
    · rintro ⟨m, hm, hsize, ⟨pieces, hpieces⟩, hdigest⟩
      rcases repack_cases src verify with ⟨⟨m', hm', hroom⟩, -⟩ | ⟨-, heq⟩
      · cases hm.symm.trans hm'
        exact absurd hroom (not_noRoom_of_assembled hsize hpieces)
      · rw [heq, FileSource.repack_eq_ok_iff.2 ⟨m, hm, assemble_eq_ok_iff.2 ⟨pieces, hpieces⟩, hdigest⟩]
  refused m hm hroom hfaulty := by
    rcases repack_cases src verify with ⟨⟨m', hm', hover⟩, -⟩ | ⟨-, heq⟩
    · cases hm.symm.trans hm'
      exact absurd hover hroom
    rw [heq]
    cases h : src.repack verify with
    | error err => exact ⟨err, rfl⟩
    | ok out =>
      obtain ⟨m', hm', hassemble, -⟩ := FileSource.repack_eq_ok_iff.1 h
      cases hm.symm.trans hm'
      obtain ⟨pieces, hpieces⟩ := assemble_eq_ok_iff.1 hassemble
      obtain ⟨e, he, houtside⟩ := hfaulty
      -- The faulty piece would have been made like all others, inside the image.
      obtain ⟨p, hpiece, hinside⟩ := hpieces.exists_piece he
      exact absurd hinside (Nat.not_le.2 (houtside p hpiece))
  faults := faults_repack_iff

end

/-- A gap of one byte whose file describes one of `2 ^ 63` bytes. No piece of one byte can be made from that, but
it is not refused: the program ends. -/
theorem oversized_description_not_refused :
    let src := FileSource.withLayout
      { twoGaps with read := fun _ => .ok (Bytes.ofString "size=9223372036854775808\nfill=0xFF") }
      [.gap 0 1 1 (some 0xff) "gap"]
    (∃ m, src.metadata = .ok m ∧ ∃ e ∈ m.layout, ∀ p, ¬ Materialises src.read m.sections e p) ∧
      ∀ verify, Faults (@repack .standard src verify) ∧
        ∀ err, @repack .standard src verify ≠ settled (.error err) := by
  intro src
  let := Algorithms.standard
  have hdescription : GapFile.read
      (Bytes.ofString "size=9223372036854775808\nfill=0xFF").toStringLossy = .ok (2 ^ 63, 0xff) := by
    decide +kernel
  refine ⟨⟨_, rfl, _, List.mem_singleton_self _, fun p h => ?_⟩, fun verify => ?_⟩
  · cases h with
    | gap hcontents hsize =>
      cases hcontents with
      | uniform hread hdescription' =>
        cases hread
        cases hdescription.symm.trans hdescription'
        rw [List.length_replicate] at hsize
        omega
  · have hfault : Faults (repack src verify) :=
      faults_repack_iff.2 ⟨_, rfl, .inr (.here (.description rfl hdescription (Nat.le_refl _)))⟩
    exact ⟨hfault, fun err h => not_faults_settled (.error err) (h ▸ hfault)⟩

end FlashImage.Machine

import FlashImage.Metadata
import FlashImage.Proofs.Json.Plain
import FlashImage.Proofs.Text.Hex
import FlashImage.Proofs.Toc.JsonForm

/-!
# The index is read back from JSON

The index of an extraction comes back from its JSON text whole (`Metadata.ofJson?_parse?_pretty`), the
parts that nothing is put together from included. All that it has to meet is that its offsets, sizes and
numbers are words of 64 bits, which each part says of its own (`Fits`).

A piece of the layout is set aside before its fields are told apart, so it is the one part whose JSON is
read twice: once as a value that is plain, and once as the record of its kind.

## Parts

* words, pointers and CRCs;
* findings;
* the records of sections, and the layout;
* the summaries, and the index.
-/

namespace FlashImage

/-! ### Words -/

@[simp] theorem Role.ofJson?_toJson (r : Role) : ofJson? r.toJson = some r := by
  apply Json.asWord?_text
  cases r <;> decide

@[simp] theorem Format.ofJson?_toJson (f : Format) : ofJson? f.toJson = some f := by
  apply Json.asWord?_text
  cases f <;> decide

@[simp] theorem CrcPlace.ofJson?_toJson (p : CrcPlace) : ofJson? p.toJson = some p := by
  apply Json.asWord?_text
  cases p <;> decide

@[simp] theorem CrcAlgorithm.ofJson?_toJson (a : CrcAlgorithm) : ofJson? a.toJson = some a := by
  apply Json.asWord?_text
  cases a <;> decide

@[simp] theorem CrcSlot.ofJson?_toJson (s : CrcSlot) : ofJson? s.toJson = some s := by
  apply Json.asWord?_text
  cases s <;> decide

@[simp] theorem Role.isDecimal_toJson (r : Role) : r.toJson.IsDecimal := Json.isDecimal_text _

@[simp] theorem Format.isDecimal_toJson (f : Format) : f.toJson.IsDecimal := Json.isDecimal_text _

@[simp] theorem CrcPlace.isDecimal_toJson (p : CrcPlace) : p.toJson.IsDecimal := Json.isDecimal_text _

@[simp] theorem CrcAlgorithm.isDecimal_toJson (a : CrcAlgorithm) : a.toJson.IsDecimal :=
  Json.isDecimal_text _

@[simp] theorem CrcSlot.isDecimal_toJson (s : CrcSlot) : s.toJson.IsDecimal := Json.isDecimal_text _

/-! ### Pointers and CRCs -/

namespace PointerRow

theorem ofJson?_toJson {r : PointerRow} (h : r.index < 2 ^ 64) : ofJson? r.toJson = some r := by
  have hrole := Json.optional?_option (a := r.role) (f := Role.toJson) (g := Role.ofJson?) rfl
    fun role _ => role.ofJson?_toJson
  rw [ofJson?, toJson, Json.fields?_record]
  · simp [Json.asSize?_nat h, hrole]
  · rfl
  · decide

@[simp] theorem isDecimal_toJson (r : PointerRow) : r.toJson.IsDecimal := by
  simp [toJson, Json.isDecimal_option]

end PointerRow

@[simp] theorem CrcDescriptor.ofJson?_toJson (d : CrcDescriptor) : ofJson? d.toJson = some d := by
  rw [ofJson?, toJson, Json.fields?_record]
  · simp
  · rfl
  · decide

@[simp] theorem CrcDescriptor.isDecimal_toJson (d : CrcDescriptor) : d.toJson.IsDecimal := by
  simp [toJson]

@[simp] theorem CrcInfo.ofJson?_toJson (i : CrcInfo) : ofJson? i.toJson = some i := by
  rw [ofJson?, toJson, Json.fields?_record]
  · simp
  · rfl
  · decide

@[simp] theorem CrcInfo.isDecimal_toJson (i : CrcInfo) : i.toJson.IsDecimal := by simp [toJson]

/-! ### Findings -/

namespace Diagnostic

/-- The places, lengths and numbers that a finding names. -/
def numbers : Diagnostic → List Nat
  | badPointerCrc index _ _ => [index]
  | badHeaderCrc _ address _ _ => [address]
  | badEntryCrc _ index _ _ => [index]
  | badSectionCrc _ offset _ _ => [offset]
  | badTocSignature _ address _ _ => [address]
  | sectionOverlap _ firstRange _ secondRange =>
    [firstRange.1, firstRange.2, secondRange.1, secondRange.2]
  | decodeFailure _ offset _ => [offset]
  | truncated _ offset length size => [offset, length, size]
  | outOfOrderEntry _ index address => [index, address]
  | duplicateEntry _ index _ => [index]
  | deviceDataInItoc index _ => [index]
  | unknownSectionType _ offset => [offset]

/-- All that a finding names is a word of 64 bits. -/
def Fits (d : Diagnostic) : Prop := ∀ n ∈ d.numbers, n < 2 ^ 64

theorem rangeOfJson?_rangeJson {range : Nat × Nat} (hfirst : range.1 < 2 ^ 64)
    (hlast : range.2 < 2 ^ 64) : rangeOfJson? (rangeJson range) = some range := by
  have hends : Json.asList? Json.asSize? (.list .nat [range.1, range.2]) = some [range.1, range.2] :=
    Json.asList?_list (List.forall_mem_cons.2
      ⟨Json.asSize?_nat hfirst, List.forall_mem_singleton.2 (Json.asSize?_nat hlast)⟩)
  rw [rangeOfJson?, show rangeJson range = .list .nat [range.1, range.2] from rfl, hends]
  rfl

/-- **A finding is read back.** -/
theorem ofJson?_toJson {d : Diagnostic} (h : d.Fits) : ofJson? d.toJson = some d := by
  have hsize : ∀ n ∈ d.numbers, (Json.nat n).asSize? = some n :=
    fun n hn => Json.asSize?_nat (h n hn)
  rw [ofJson?]
  cases d with
  | sectionOverlap first firstRange second secondRange =>
    -- An overlap is the one finding with ranges, which are arrays.
    simp only [Fits, numbers, List.forall_mem_cons] at h
    obtain ⟨hfirst, hlast, hfirst', hlast', -⟩ := h
    simp only [toJson, Json.asVariant?_variant, Option.bind_eq_bind, Option.bind_some]
    rw [Json.fields?_record]
    · simp [rangeOfJson?_rangeJson hfirst hlast, rangeOfJson?_rangeJson hfirst' hlast']
    · rfl
    · decide
  | _ =>
    simp only [numbers, List.forall_mem_cons] at hsize
    simp only [toJson, crcMembers, Json.asVariant?_variant, Option.bind_eq_bind, Option.bind_some]
    rw [Json.fields?_record]
    · simp [hsize]
    · rfl
    · decide

@[simp] theorem isDecimal_toJson (d : Diagnostic) : d.toJson.IsDecimal := by
  cases d <;> simp [toJson, crcMembers, rangeJson]

end Diagnostic

/-! ### Records of sections -/

namespace SectionRecord

/-- The place and the sizes of a section are words of 64 bits. -/
structure Fits (r : SectionRecord) : Prop where
  offset : r.offset < 2 ^ 64
  size : r.size < 2 ^ 64
  fullSize : r.fullSize < 2 ^ 64

theorem ofJson?_toJson {r : SectionRecord} (h : r.Fits) : ofJson? r.toJson = some r := by
  have h16 (x : Option UInt16) :
      Json.optional? Json.asU16? (some (.option (fun x : UInt16 => .nat x.toNat) x)) = some x :=
    Json.optional?_option rfl fun x _ => Json.asU16?_nat x
  have h32 (x : Option UInt32) :
      Json.optional? Json.asU32? (some (.option (fun x : UInt32 => .nat x.toNat) x)) = some x :=
    Json.optional?_option rfl fun x _ => Json.asU32?_nat x
  have htext (x : Option String) : Json.optional? Json.asText? (some (.option .text x)) = some x :=
    Json.optional?_option rfl fun x _ => Json.asText?_text x
  have hentry : Json.optional? TocEntry.ofJson? (some (.option TocEntry.toJson r.entry))
      = some r.entry :=
    Json.optional?_option TocEntry.ofJson?_null fun e _ => e.ofJson?_toJson
  -- The fields are many, so only what they need is rewritten.
  rw [ofJson?, toJson, Json.fields?_record, Option.bind_eq_bind, Option.bind_some]
  · simp only [List.map_cons, List.map_nil, Json.given?_some, Json.asU16?_nat, Json.asText?_text,
      Json.asBool?_bool, Json.asSize?_nat h.offset, Json.asSize?_nat h.size,
      Json.asSize?_nat h.fullSize, CrcPlace.ofJson?_toJson, CrcAlgorithm.ofJson?_toJson,
      CrcSlot.ofJson?_toJson, h16, h32, htext, hentry]
    rfl
  · rfl
  · decide

@[simp] theorem isDecimal_toJson (r : SectionRecord) : r.toJson.IsDecimal := by
  simp [toJson, Json.isDecimal_option]

end SectionRecord

/-! ### The layout -/

namespace LayoutEntry

/-- The place, the size and the number of a piece. -/
def numbers : LayoutEntry → List Nat
  | .section index _ first last size => [index, first, last, size]
  | .gap first last size _ _ => [first, last, size]

/-- All that a piece names is a word of 64 bits. -/
def Fits (e : LayoutEntry) : Prop := ∀ n ∈ e.numbers, n < 2 ^ 64

/-- The kind of a piece is taken out of its record, and its fields are left. -/
theorem split?_record (kind : String) {fields : List (String × Json)}
    (h : "type" ∉ fields.map Prod.fst) :
    split? (.record (("type", .text kind) :: fields)) = some (kind, .record fields) := by
  let stored := fields.map fun f => (Bytes.ofString f.1, f.2)
  have hother : ∀ f ∈ stored, f.1 ≠ kindKey := by
    intro f hf heq
    obtain ⟨g, hg, rfl⟩ := List.mem_map.1 hf
    refine h ?_
    rw [← Bytes.ofString_injective heq]
    exact List.mem_map_of_mem hg
  have hkind : ((kindKey, Json.text kind) :: stored).filter (·.1 = kindKey)
      = [(kindKey, .text kind)] := by
    rw [List.filter_cons_of_pos (by simp), List.filter_eq_nil_iff.2 (by simpa using hother)]
  have hfields : ((kindKey, Json.text kind) :: stored).filter (not ∘ fun f => decide (f.1 = kindKey))
      = stored := by
    rw [List.filter_cons_of_neg (by simp), List.filter_eq_self.2 (by simpa using hother)]
  show split? (.obj ((kindKey, .text kind) :: stored)) = some (kind, .obj stored)
  simp only [split?, List.partition_eq_filter_filter, hkind, hfields, Json.asText?_text,
    Option.map_some]

/-- A piece is a value that can be set aside. -/
theorem isPlain_toJson {e : LayoutEntry} (h : e.Fits) (depth : Nat) :
    e.toJson.isPlain (depth + 1) = true := by
  have hplain : ∀ n ∈ e.numbers, (Json.nat n).isPlain depth = true :=
    fun n hn => Json.isPlain_nat depth (h n hn)
  cases e with
  | «section» index type first last size =>
    simp only [numbers, List.forall_mem_cons] at hplain
    apply Json.isPlain_record
    simp [hplain]
  | gap first last size fill fileName =>
    simp only [numbers, List.forall_mem_cons] at hplain
    have hfill : (Json.option (fun b : UInt8 => .nat b.toNat) fill).isPlain depth = true := by
      cases fill with
      | none => rfl
      | some b => exact Json.isPlain_nat depth (Nat.lt_trans b.toNat_lt (by decide))
    apply Json.isPlain_record
    simp [hplain, hfill]

/-- **A piece of the layout is read back**, inside of the arrays and objects of the index. -/
theorem ofJson?_toJson {e : LayoutEntry} (h : e.Fits) : ofJson? 2 e.toJson = some e := by
  have hsize : ∀ n ∈ e.numbers, (Json.nat n).asSize? = some n :=
    fun n hn => Json.asSize?_nat (h n hn)
  -- The record of a piece is one deep, and there is room for 125.
  have hplain : e.toJson.isPlain (maxDepth - 2) = true := e.isPlain_toJson h 124
  rw [ofJson?, hplain]
  cases e with
  | «section» index type first last size =>
    simp only [numbers, List.forall_mem_cons] at hsize
    rw [toJson, split?_record _ (by simp)]
    simp [Json.fields?_record, hsize]
  | gap first last size fill fileName =>
    simp only [numbers, List.forall_mem_cons] at hsize
    have hfill := Json.optional?_option (a := fill) (f := fun b : UInt8 => .nat b.toNat)
      (g := Json.asU8?) rfl fun b _ => Json.asU8?_nat b
    rw [toJson, split?_record _ (by simp)]
    simp [Json.fields?_record, hsize, hfill]

@[simp] theorem isDecimal_toJson (e : LayoutEntry) : e.toJson.IsDecimal := by
  cases e <;> simp [toJson, Json.isDecimal_option]

end LayoutEntry

/-! ### Summaries -/

namespace Magic.Info

/-- The offsets of the start are words of 64 bits. -/
structure Fits (i : Info) : Prop where
  offset : i.offset < 2 ^ 64
  searchOffsets : ∀ n ∈ i.searchOffsets, n < 2 ^ 64

theorem ofJson?_toJson {i : Info} (h : i.Fits) : ofJson? i.toJson = some i := by
  have hoffsets : Json.asList? Json.asSize? (.list .nat i.searchOffsets) = some i.searchOffsets :=
    Json.asList?_list fun n hn => Json.asSize?_nat (h.searchOffsets n hn)
  rw [ofJson?, toJson, Json.fields?_record]
  · simp [Json.asSize?_nat h.offset, hoffsets]
  · rfl
  · decide

@[simp] theorem isDecimal_toJson (i : Info) : i.toJson.IsDecimal := by simp [toJson]

end Magic.Info

namespace ImageSummary

theorem ofJson?_toJson {s : ImageSummary} (h : s.size < 2 ^ 64) : ofJson? s.toJson = some s := by
  rw [ofJson?, toJson, Json.fields?_record]
  · simp [Json.asSize?_nat h]
  · rfl
  · decide

@[simp] theorem isDecimal_toJson (s : ImageSummary) : s.toJson.IsDecimal := by simp [toJson]

end ImageSummary

namespace PointersSummary

/-- The place of the array and the places in it are words of 64 bits. -/
structure Fits (s : PointersSummary) : Prop where
  offset : s.offset < 2 ^ 64
  rows : ∀ r ∈ s.rows, r.index < 2 ^ 64

theorem ofJson?_toJson {s : PointersSummary} (h : s.Fits) : ofJson? s.toJson = some s := by
  have hrows : Json.asList? PointerRow.ofJson? (.list PointerRow.toJson s.rows) = some s.rows :=
    Json.asList?_list fun r hr => r.ofJson?_toJson (h.rows r hr)
  rw [ofJson?, toJson, Json.fields?_record]
  · simp [Json.asSize?_nat h.offset, hrows]
  · rfl
  · decide

@[simp] theorem isDecimal_toJson (s : PointersSummary) : s.toJson.IsDecimal := by
  simp [toJson, Hex.toJson]

end PointersSummary

namespace TocSummary

theorem ofJson?_toJson {s : TocSummary} (h : s.address < 2 ^ 64) : ofJson? s.toJson = some s := by
  rw [ofJson?, toJson, Json.fields?_record]
  · simp [Json.asSize?_nat h]
  · rfl
  · decide

@[simp] theorem isDecimal_toJson (s : TocSummary) : s.toJson.IsDecimal := by simp [toJson, Hex.toJson]

/-- There is no table in nothing. -/
@[simp] theorem ofJson?_null : ofJson? .null = none := rfl

end TocSummary

namespace Boundaries

/-- The bounds are words of 64 bits. -/
structure Fits (b : Boundaries) : Prop where
  first : b.first < 2 ^ 64
  last : b.last < 2 ^ 64
  sectorSize : b.sectorSize < 2 ^ 64

theorem ofJson?_toJson {b : Boundaries} (h : b.Fits) : ofJson? b.toJson = some b := by
  rw [ofJson?, toJson, Json.fields?_record]
  · simp [Json.asSize?_nat h.first, Json.asSize?_nat h.last, Json.asSize?_nat h.sectorSize]
  · rfl
  · decide

@[simp] theorem isDecimal_toJson (b : Boundaries) : b.toJson.IsDecimal := by simp [toJson]

end Boundaries

/-! ### The index -/

namespace Metadata

/-- **What an index has to meet** to be read back from JSON: everything in it that counts or measures
is a word of 64 bits. -/
structure Fits (m : Metadata) : Prop where
  image : m.image.size < 2 ^ 64
  anchor : m.anchor.Fits
  pointers : m.pointers.Fits
  itoc : m.itoc.address < 2 ^ 64
  dtoc : ∀ t ∈ m.dtoc, t.address < 2 ^ 64
  sections : ∀ r ∈ m.sections, r.Fits
  layout : ∀ e ∈ m.layout, e.Fits
  boundaries : m.boundaries.Fits
  diagnostics : ∀ d ∈ m.diagnostics, d.Fits

/-- **The index is read back.** -/
theorem ofJson?_toJson {m : Metadata} (h : m.Fits) : ofJson? m.toJson = some m := by
  have hdtoc : Json.optional? TocSummary.ofJson? (some (.option TocSummary.toJson m.dtoc))
      = some m.dtoc :=
    Json.optional?_option TocSummary.ofJson?_null fun t ht => t.ofJson?_toJson (h.dtoc t ht)
  have hsections : Json.asList? SectionRecord.ofJson? (.list SectionRecord.toJson m.sections)
      = some m.sections :=
    Json.asList?_list fun r hr => SectionRecord.ofJson?_toJson (h.sections r hr)
  have hlayout : Json.asList? (LayoutEntry.ofJson? 2) (.list LayoutEntry.toJson m.layout)
      = some m.layout :=
    Json.asList?_list fun e he => LayoutEntry.ofJson?_toJson (h.layout e he)
  have hdiagnostics : Json.asList? Diagnostic.ofJson? (.list Diagnostic.toJson m.diagnostics)
      = some m.diagnostics :=
    Json.asList?_list fun d hd => Diagnostic.ofJson?_toJson (h.diagnostics d hd)
  -- The findings may be left out only in array form, so for an object all fields are asked for.
  have hfields : m.toJson.fieldsFrom? (jsonFields.length - 1) jsonFields = m.toJson.fields? jsonFields := by
    rw [Json.fields?, toJson, Json.fieldsFrom?_record, Json.fieldsFrom?_record]
  rw [ofJson?, hfields, toJson, Json.fields?_record, Option.bind_eq_bind, Option.bind_some]
  · simp only [List.map_cons, List.map_nil, Json.given?_some, Json.asBool?_bool,
      Format.ofJson?_toJson, CrcInfo.ofJson?_toJson, ImageSummary.ofJson?_toJson h.image,
      Magic.Info.ofJson?_toJson h.anchor, PointersSummary.ofJson?_toJson h.pointers,
      TocSummary.ofJson?_toJson h.itoc, Boundaries.ofJson?_toJson h.boundaries, hdtoc, hsections,
      hlayout, hdiagnostics]
    rfl
  · rfl
  · decide

/-- All numbers in the index are natural numbers. -/
theorem isDecimal_toJson (m : Metadata) : m.toJson.IsDecimal := by
  simp [toJson, Json.isDecimal_option]

/-- **The index is read back from its text.** -/
theorem ofJson?_parse?_pretty {m : Metadata} (h : m.Fits) :
    (Json.parse? m.toJson.pretty).bind ofJson? = some m := by
  rw [Json.parse?_pretty m.isDecimal_toJson, Option.bind_some, ofJson?_toJson h]

end Metadata

end FlashImage

import FlashImage.Proofs.Text.Field
import FlashImage.Proofs.Toc.JsonForm
import FlashImage.Section.Projection

/-!
# Projections are read back from JSON

For each form that the contents of a section can have, the JSON form is read back. What it has to meet
for that is little: texts must not look like bytes, which is so for every text that was read from a field
(`FieldText.Canonical`), and lengths must be words of 64 bits.

## Parts

* the records that sections are made of;
* the forms of sections, each with what it has to meet (`Fits`) where there is something;
* `Projection.Fits` and `Projection.withoutContents`, all forms together.
-/

namespace FlashImage

/-! ### Records inside of sections -/

@[simp] theorem UidBlock.ofJson?_toJson (b : UidBlock) : ofJson? b.toJson = some b := by
  rw [ofJson?, toJson, Json.fields?_record]
  · simp
  · rfl
  · decide

@[simp] theorem Version.ofJson?_toJson (v : Version) : ofJson? v.toJson = some v := by
  rw [ofJson?, toJson, Json.fields?_record]
  · simp
  · rfl
  · decide

@[simp] theorem Pointer.ofJson?_toJson (p : Pointer) : ofJson? p.toJson = some p := by
  rw [ofJson?, toJson, Json.fields?_record]
  · simp
  · rfl
  · decide

@[simp] theorem HashEntry.ofJson?_toJson (e : HashEntry) : ofJson? e.toJson = some e := by
  rw [ofJson?, toJson, Json.fields?_record]
  · simp
  · rfl
  · decide

@[simp] theorem PublicKey.ofJson?_toJson (k : PublicKey) : ofJson? k.toJson = some k := by
  rw [ofJson?, toJson, Json.fields?_record]
  · simp
  · rfl
  · decide

@[simp] theorem Hex.isDecimal_toJson (bs : Bytes) : (toJson bs).IsDecimal := Json.isDecimal_text _

@[simp] theorem FieldText.isDecimal_toJson (t : FieldText) : t.toJson.IsDecimal :=
  Json.isDecimal_text _

@[simp] theorem UidBlock.isDecimal_toJson (b : UidBlock) : b.toJson.IsDecimal := by simp [toJson]

@[simp] theorem Version.isDecimal_toJson (v : Version) : v.toJson.IsDecimal := by simp [toJson]

@[simp] theorem Pointer.isDecimal_toJson (p : Pointer) : p.toJson.IsDecimal := by simp [toJson]

@[simp] theorem HashEntry.isDecimal_toJson (e : HashEntry) : e.toJson.IsDecimal := by simp [toJson]

@[simp] theorem PublicKey.isDecimal_toJson (k : PublicKey) : k.toJson.IsDecimal := by simp [toJson]

/-! ### Forms that are read back whatever they hold -/

theorem Pointers.ofJson?_toJson (ps : Pointers) : ofJson? ps.toJson = some ps := by
  have hrecords := Json.asList?_list fun p (_ : p ∈ ps.records) => Pointer.ofJson?_toJson p
  rw [ofJson?, toJson, Json.fields?_record]
  · simp [hrecords]
  · rfl
  · decide

theorem HashesTable.ofJson?_toJson (t : HashesTable) : ofJson? t.toJson = some t := by
  have hentries := Json.asList?_list fun e (_ : e ∈ t.entries) => HashEntry.ofJson?_toJson e
  rw [ofJson?, toJson, Json.fields?_record]
  · simp [hentries]
  · rfl
  · decide

theorem ResetInfo.ofJson?_toJson (r : ResetInfo) : ofJson? r.toJson = some r := by
  have hversions := Json.asList?_list fun v (_ : v ∈ r.versions) => Version.ofJson?_toJson v
  rw [ofJson?, toJson, Json.fields?_record]
  · simp [hversions]
  · rfl
  · decide

theorem ImageSignature.ofJson?_toJson (s : ImageSignature) : ofJson? s.toJson = some s := by
  rw [ofJson?, toJson, Json.fields?_record]
  · simp
  · rfl
  · decide

theorem PublicKeys.ofJson?_toJson (ks : PublicKeys) : ofJson? ks.toJson = some ks := by
  have hkeys := Json.asList?_list fun k (_ : k ∈ ks.keys) => PublicKey.ofJson?_toJson k
  rw [ofJson?, toJson, Json.fields?_record]
  · simp [hkeys]
  · rfl
  · decide

theorem ForbiddenVersions.ofJson?_toJson (f : ForbiddenVersions) : ofJson? f.toJson = some f := by
  have hversions := Json.asList?_list fun v (_ : v ∈ f.versions) => Version.ofJson?_toJson v
  rw [ofJson?, toJson, Json.fields?_record]
  · simp [hversions]
  · rfl
  · decide

theorem ToolsArea.ofJson?_toJson (t : ToolsArea) : ofJson? t.toJson = some t := by
  rw [ofJson?, toJson, Json.fields?_record]
  · simp
  · rfl
  · decide

/-! ### Forms with character fields -/

/-- All texts of a description can be told from bytes. -/
structure ImageInfo.Fits (i : ImageInfo) : Prop where
  psid : i.psid.Canonical
  vsd : i.vsd.Canonical
  prodVer : i.prodVer.Canonical
  name : i.name.Canonical
  description : i.description.Canonical

theorem ImageInfo.ofJson?_toJson {i : ImageInfo} (h : i.Fits) : ofJson? i.toJson = some i := by
  have hpair (p : UInt32 × UInt32) :
      pairOfJson? (.list (fun x : UInt32 => .nat x.toNat) [p.1, p.2]) = some p := by
    rw [pairOfJson?, Json.asList?_list fun x _ => Json.asU32?_nat x]
    rfl
  have hquad (a b c d : UInt32) :
      quadOfJson? (.list (fun x : UInt32 => .nat x.toNat) [a, b, c, d]) = some (a, b, c, d) := by
    rw [quadOfJson?, Json.asList?_list fun x _ => Json.asU32?_nat x]
    rfl
  -- The fields are many, so only what they need is rewritten.
  rw [ofJson?, toJson, Json.fields?_record, Option.bind_eq_bind, Option.bind_some]
  · simp only [List.map_cons, List.map_nil, Json.given?_some, Json.asU16?_nat, Json.asU32?_nat,
      Hex.ofJson?_toJson, FieldText.ofJson?_toJson h.psid, FieldText.ofJson?_toJson h.vsd,
      FieldText.ofJson?_toJson h.prodVer, FieldText.ofJson?_toJson h.name,
      FieldText.ofJson?_toJson h.description, hpair, hquad]
    rfl
  · rfl
  · decide

theorem DeviceInfo.ofJson?_toJson {i : DeviceInfo} (h : i.vsd.Canonical) :
    ofJson? i.toJson = some i := by
  rw [ofJson?, toJson, Json.fields?_record]
  · simp [FieldText.ofJson?_toJson h, signatureOfJson?, Json.asList?_list]
  · rfl
  · decide

theorem MfgInfo.ofJson?_toJson {m : MfgInfo} (h : m.psid.Canonical) : ofJson? m.toJson = some m := by
  rw [ofJson?, toJson, Json.fields?_record]
  · simp [FieldText.ofJson?_toJson h]
  · rfl
  · decide

/-! ### Forms that leave the contents out -/

/-- What the JSON form of a boot loader holds. -/
def Boot2.withoutCode (b : Boot2) : Boot2 := { b with code := [] }

theorem Boot2.ofJson?_toJson (b : Boot2) : ofJson? b.toJson = some b.withoutCode := by
  rw [ofJson?, toJson, Json.fields?_record]
  · simp [withoutCode]
  · rfl
  · decide

/-- What the JSON form of settings holds. -/
def DebugIni.withoutContents (i : DebugIni) : DebugIni := { i with compressed := [], text := "" }

/-- The lengths of settings are words of 64 bits. -/
structure DebugIni.Fits (i : DebugIni) : Prop where
  compressed : i.compressedLength < 2 ^ 64
  inflated : i.inflatedLength < 2 ^ 64

theorem DebugIni.ofJson?_toJson {i : DebugIni} (h : i.Fits) :
    ofJson? i.toJson = some i.withoutContents := by
  rw [ofJson?, toJson, Json.fields?_record]
  · simp [Json.asSize?_nat h.compressed, Json.asSize?_nat h.inflated, withoutContents]
  · rfl
  · decide

/-- What the JSON form of parameters holds. -/
def DebugParams.withoutContents (p : DebugParams) : DebugParams :=
  { p with stored := [], inflated := [] }

/-- The lengths of parameters are words of 64 bits. -/
structure DebugParams.Fits (p : DebugParams) : Prop where
  stored : p.length < 2 ^ 64
  inflated : ∀ n ∈ p.inflatedLength, n < 2 ^ 64

theorem DebugParams.ofJson?_toJson {p : DebugParams} (h : p.Fits) :
    ofJson? p.toJson = some p.withoutContents := by
  have hinflated := Json.optional?_option (a := p.inflatedLength) (f := .nat) (g := Json.asSize?) rfl
    fun n hn => Json.asSize?_nat (h.inflated n hn)
  rw [ofJson?, toJson, Json.fields?_record]
  · simp [Json.asSize?_nat h.stored, hinflated, withoutContents]
  · rfl
  · decide

/-- What the JSON form of a blob holds. -/
def Blob.withoutData (b : Blob) : Blob := { b with data := [] }

/-- An identifier that is left out is read as none. -/
theorem Blob.ofJson?_toJson {b : Blob} (h : b.length < 2 ^ 64) :
    ofJson? b.toJson = some b.withoutData := by
  have hheader := Json.asList?_list fun d (_ : d ∈ b.header) => Json.asU32?_nat d
  -- An identifier is written only if there is one, so the two records have different fields.
  obtain ⟨header, length, vpdId, data⟩ := b
  have hlength : (Json.nat length).asSize? = some length := Json.asSize?_nat h
  cases vpdId with
  | none =>
    have hfields (a b : Json) : (Json.record [("header", a), ("len", b)]).fieldsFrom? 2
        ["header", "len", "vpd_id"] = some [some a, some b, none] := by
      rw [Json.fieldsFrom?_record]
      rfl
    rw [ofJson?, toJson, Option.map_none, Option.toList_none, List.append_nil, hfields]
    simp [hheader, hlength, Json.optional?, withoutData]
  | some id =>
    have hfields (a b c : Json) : (Json.record [("header", a), ("len", b), ("vpd_id", c)]).fieldsFrom? 2
        ["header", "len", "vpd_id"] = some [some a, some b, some c] := by
      rw [Json.fieldsFrom?_record]
      rfl
    rw [ofJson?, toJson, Option.map_some, Option.toList_some, List.cons_append, List.cons_append,
      List.nil_append, hfields]
    have hid : Json.optional? Json.asText? (some (.text id)) = some (some id) :=
      Json.optional?_option (a := some id) (f := .text) rfl fun id _ => Json.asText?_text id
    simp [hheader, hlength, hid, withoutData]

/-! ### All forms together -/

namespace Projection

/-- **What a projection has to meet** to be read back from JSON. -/
def Fits : Projection → Prop
  | imageInfo i => i.Fits
  | deviceInfo i => i.vsd.Canonical
  | mfgInfo m => m.psid.Canonical
  | debugIni i => i.Fits
  | debugParams p => p.Fits
  | blob b => b.length < 2 ^ 64
  | _ => True

/-- **A projection without the contents of its section**, as far as its JSON form leaves them out. -/
def withoutContents : Projection → Projection
  | boot2 b => boot2 b.withoutCode
  | debugIni i => debugIni i.withoutContents
  | debugParams p => debugParams p.withoutContents
  | blob b => blob b.withoutData
  | p => p

/-- A form that says everything has nothing to lose. -/
theorem withoutContents_of_not_keepsBytes {p : Projection} (h : p.keepsBytes = false) :
    p.withoutContents = p := by
  cases p <;> first | rfl | cases h

/-- **A projection is read back from JSON**, but for the contents that its form leaves out. -/
theorem ofJson?_toJson {p : Projection} (h : p.Fits) : ofJson? p.toJson = some p.withoutContents := by
  rw [ofJson?]
  cases p with
  | pointers p => simp [toJson, name, Pointers.ofJson?_toJson, withoutContents]
  | toc t => simp [toJson, name, withoutContents]
  | imageInfo i => simp [toJson, name, ImageInfo.ofJson?_toJson h, withoutContents]
  | deviceInfo i => simp [toJson, name, DeviceInfo.ofJson?_toJson h, withoutContents]
  | mfgInfo m => simp [toJson, name, MfgInfo.ofJson?_toJson h, withoutContents]
  | boot2 b => simp [toJson, name, Boot2.ofJson?_toJson, withoutContents]
  | hashesTable t => simp [toJson, name, HashesTable.ofJson?_toJson, withoutContents]
  | resetInfo r => simp [toJson, name, ResetInfo.ofJson?_toJson, withoutContents]
  | imageSignature s => simp [toJson, name, ImageSignature.ofJson?_toJson, withoutContents]
  | publicKeys ks => simp [toJson, name, PublicKeys.ofJson?_toJson, withoutContents]
  | forbiddenVersions f => simp [toJson, name, ForbiddenVersions.ofJson?_toJson, withoutContents]
  | debugIni i => simp [toJson, name, DebugIni.ofJson?_toJson h, withoutContents]
  | debugParams p => simp [toJson, name, DebugParams.ofJson?_toJson h, withoutContents]
  | blob b => simp [toJson, name, Blob.ofJson?_toJson h, withoutContents]
  | toolsArea t => simp [toJson, name, ToolsArea.ofJson?_toJson, withoutContents]
  | raw note =>
    have hfields (j : Json) : (Json.record [("note", j)]).fields? ["note"] = some [some j] :=
      Json.fields?_record rfl (by decide)
    simp [toJson, name, hfields, withoutContents]

/-- All numbers in the JSON form of a projection are natural numbers. -/
theorem isDecimal_toJson (p : Projection) : p.toJson.IsDecimal := by
  cases p with
  | pointers p => simp [toJson, Pointers.toJson]
  | toc t => simp [toJson]
  | imageInfo i => simp [toJson, ImageInfo.toJson]
  | deviceInfo i => simp [toJson, DeviceInfo.toJson]
  | mfgInfo m => simp [toJson, MfgInfo.toJson]
  | boot2 b => simp [toJson, Boot2.toJson]
  | hashesTable t => simp [toJson, HashesTable.toJson]
  | resetInfo r => simp [toJson, ResetInfo.toJson]
  | imageSignature s => simp [toJson, ImageSignature.toJson]
  | publicKeys ks => simp [toJson, PublicKeys.toJson]
  | forbiddenVersions f => simp [toJson, ForbiddenVersions.toJson]
  | debugIni i => simp [toJson, DebugIni.toJson]
  | debugParams p => simp [toJson, DebugParams.toJson, Json.isDecimal_option]
  | blob b =>
    obtain ⟨header, length, vpdId, data⟩ := b
    cases vpdId <;> simp [toJson, Blob.toJson]
  | toolsArea t => simp [toJson, ToolsArea.toJson]
  | raw note => simp [toJson]

/-- **A projection is read back from its text**, but for the contents that its form leaves out. -/
theorem ofJson?_parse?_pretty {p : Projection} (h : p.Fits) :
    (Json.parse? p.toJson.pretty).bind ofJson? = some p.withoutContents := by
  rw [Json.parse?_pretty p.isDecimal_toJson, Option.bind_some, ofJson?_toJson h]

end Projection

end FlashImage

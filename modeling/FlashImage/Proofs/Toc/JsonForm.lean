import FlashImage.Proofs.BitField
import FlashImage.Proofs.Json.RoundTrip
import FlashImage.Proofs.Json.Values
import FlashImage.Toc.Table

/-!
# Tables are read back from JSON

The JSON form of a record spells it out field by field, with the reserved bits beside the fields. Hence
all 32 bytes of a record come back, and with them a whole table.
-/

namespace FlashImage

/-! ### Words of a fixed list -/

/-- **A word is read back**, if its name is the first of the list to be found under that name. -/
theorem Json.asWord?_text {α : Type} {all : List α} {name : α → String} {a : α}
    (h : all.find? (name · = name a) = some a) : (Json.text (name a)).asWord? all name = some a := by
  rw [asWord?, asVariant?_text]
  exact h

@[simp] theorem TocKind.ofJson?_toJson (k : TocKind) : ofJson? k.toJson = some k := by
  apply Json.asWord?_text
  cases k <;> decide

@[simp] theorem TocKind.isDecimal_toJson (k : TocKind) : k.toJson.IsDecimal := Json.isDecimal_text _

/-! ### Records -/

namespace TocRecord

@[simp] theorem ofJson?_toJson (r : TocRecord) : ofJson? r.toJson = some r := by
  rw [ofJson?, toJson, Json.asList?_list fun d _ => Json.asU32?_nat d]
  exact dif_pos r.length_dwords

@[simp] theorem isDecimal_toJson (r : TocRecord) : r.toJson.IsDecimal := by
  rw [toJson, Json.isDecimal_list]
  exact fun d _ => Json.isDecimal_nat _

end TocRecord

/-- A value below 256 is its own lowest byte. -/
theorem toUInt32_toUInt8 {x : UInt32} (h : x ≤ 0xff) : x.toUInt8.toUInt32 = x := by
  apply UInt32.toNat_inj.1
  rw [UInt8.toNat_toUInt32, UInt32.toNat_toUInt8]
  exact Nat.mod_eq_of_lt (Nat.lt_succ_of_le (UInt32.le_iff_toNat_le.1 h))

/-- A value below 65536 is its own lower half. -/
theorem toUInt32_toUInt16 {x : UInt32} (h : x ≤ 0xffff) : x.toUInt16.toUInt32 = x := by
  apply UInt32.toNat_inj.1
  rw [UInt16.toNat_toUInt32, UInt32.toNat_toUInt16]
  exact Nat.mod_eq_of_lt (Nat.lt_succ_of_le (UInt32.le_iff_toNat_le.1 h))

/-- A single bit is a truth value. -/
theorem toUInt32_toBool {x : UInt32} (h : x ≤ 1) : (decide (x ≠ 0)).toUInt32 = x := by
  have hnat : x.toNat ≤ 1 := UInt32.le_iff_toNat_le.1 h
  by_cases hx : x = 0
  · subst hx
    rfl
  · have hne : x.toNat ≠ 0 := fun hzero => hx (UInt32.toNat_inj.1 hzero)
    rw [decide_eq_true hx]
    apply UInt32.toNat_inj.1
    show 1 = x.toNat
    omega

/-! ### Headers -/

namespace TocHeader

/-- **A header is what its view spells out.** -/
theorem ofView_view (h : TocHeader) : ofView h.view = .ok h := by
  have hbyte {f : BitField} (hf : f.limit = 0xff) : (h.get f).toUInt8.toUInt32 = h.get f :=
    toUInt32_toUInt8 (hf ▸ f.get_le_limit _)
  have hword {f : BitField} (hf : f.limit = 0xffff) : (h.get f).toUInt16.toUInt32 = h.get f :=
    toUInt32_toUInt16 (hf ▸ f.get_le_limit _)
  -- The reserved bits with all fields set are the header again.
  have hset := h.record.setAll_get fields (by decide)
  rw [ofView, view]
  simp only [TocRecord.reserved_reserved, version, entriesCrc, headerCrc,
    hbyte (f := versionField) (by decide), hword (f := entriesCrcField) (by decide),
    hword (f := headerCrcField) (by decide)]
  exact congrArg (Except.bind · fun record => .ok (TocHeader.mk record)) hset

@[simp] theorem ofJson?_toJson (h : TocHeader) : ofJson? h.toJson = some h := by
  rw [ofJson?, toJson, Json.fields?_record]
  · simp [show ofView ⟨h.view.signature, h.view.version, h.view.entriesCrc, h.view.headerCrc,
      h.view.reserved⟩ = .ok h from h.ofView_view, Except.toOption]
  · rfl
  · decide

@[simp] theorem isDecimal_toJson (h : TocHeader) : h.toJson.IsDecimal := by simp [toJson]

end TocHeader

/-! ### Entries -/

namespace TocEntry

/-- **An entry is what its view spells out.** -/
theorem ofView_view (e : TocEntry) : ofView e.view = .ok e := by
  have hbyte {f : BitField} (hf : f.limit = 0xff) : (e.get f).toUInt8.toUInt32 = e.get f :=
    toUInt32_toUInt8 (hf ▸ f.get_le_limit _)
  have hword {f : BitField} (hf : f.limit = 0xffff) : (e.get f).toUInt16.toUInt32 = e.get f :=
    toUInt32_toUInt16 (hf ▸ f.get_le_limit _)
  have hbit {f : BitField} (hf : f.limit = 1) : (e.has f).toUInt32 = e.get f :=
    toUInt32_toBool (hf ▸ f.get_le_limit _)
  -- The reserved bits with all fields set are the entry again.
  have hset := e.record.setAll_get fields (by decide)
  rw [ofView, view]
  simp only [TocRecord.reserved_reserved, type, zipped, lineCrc, version, relative, sectionCrc, noCrc,
    deviceData, encrypted, entryCrc, hbyte (f := typeField) (by decide),
    hword (f := versionField) (by decide), hword (f := sectionCrcField) (by decide),
    hword (f := entryCrcField) (by decide), hbit (f := zippedField) (by decide),
    hbit (f := lineCrcField) (by decide), hbit (f := relativeField) (by decide),
    hbit (f := noCrcField) (by decide), hbit (f := deviceDataField) (by decide),
    hbit (f := encryptedField) (by decide)]
  exact congrArg (Except.bind · fun record => .ok (TocEntry.mk record)) hset

@[simp] theorem ofJson?_toJson (e : TocEntry) : ofJson? e.toJson = some e := by
  have hview : ofView ⟨e.view.type, e.view.sizeDwords, e.view.zipped, e.view.lineCrc, e.view.param0,
      e.view.param1, e.view.version, e.view.addressDwords, e.view.relative, e.view.sectionCrc,
      e.view.noCrc, e.view.deviceData, e.view.encrypted, e.view.entryCrc, e.view.reserved⟩ = .ok e :=
    e.ofView_view
  rw [ofJson?, toJson, Json.fields?_eraseIdx 1, Option.bind_eq_bind, Option.bind_some]
  · simp only [List.eraseIdx_cons_succ, List.eraseIdx_cons_zero, List.map_cons, List.map_nil,
      Json.given?_some, Json.asU8?_nat, Json.asU16?_nat, Json.asU32?_nat, Json.asBool?_bool,
      TocRecord.ofJson?_toJson, Option.bind_eq_bind, Option.bind_some, hview]
    rfl
  · rfl
  · simp only [List.map_cons, List.map_nil]
    decide

@[simp] theorem isDecimal_toJson (e : TocEntry) : e.toJson.IsDecimal := by simp [toJson]

/-- There is no entry in nothing. -/
@[simp] theorem ofJson?_null : ofJson? .null = none := rfl

end TocEntry

/-! ### Whole tables -/

namespace Toc

@[simp] theorem ofJson?_toJson (t : Toc) : ofJson? t.toJson = some t := by
  have hentries := Json.asList?_list fun e (_ : e ∈ t.entries) => TocEntry.ofJson?_toJson e
  have hend := Json.optional?_option (a := t.endMarker) TocEntry.ofJson?_null
    fun e _ => TocEntry.ofJson?_toJson e
  rw [ofJson?, toJson, Json.fields?_record]
  · simp [hentries, hend]
  · rfl
  · decide

@[simp] theorem isDecimal_toJson (t : Toc) : t.toJson.IsDecimal := by
  simp [toJson, Json.isDecimal_option]

end Toc

end FlashImage

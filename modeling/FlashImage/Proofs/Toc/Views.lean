import FlashImage.Proofs.BitField.Positions
import FlashImage.Proofs.Outcome
import FlashImage.Proofs.Toc.JsonForm
import FlashImage.Proofs.Toc.Table

/-!
# Records and their views

A view spells a record out field by field, with reserved bits beside the fields. A record is what its
view says. The other way round, a view says what a record is exactly if each of its values fits its field;
of a view's values only three can be too large, all others have a type that is no wider than the field.

The record of a view starts out as the view's reserved bits and has its fields set one after the other.
Hence what was shown for such records in general (`TocRecord.spelledOut_of_setAll`) decides everything here,
once it is checked that no two fields of a record have a position in common
(`TocEntry.pairwise_disjoint_fields`): the values are found in the fields, and the reserved bits outside of
them. What the reserved bits say about a position inside of a field is forgotten before the first field is
set.
-/

namespace FlashImage

/-! ### Values of a narrower type -/

theorem toNat_toUInt32_lt (b : Bool) : b.toUInt32.toNat < 2 := by cases b <;> decide

/-- A truth value is whether its bit is set. -/
theorem decide_toUInt32_ne_zero (b : Bool) : decide (b.toUInt32 ≠ 0) = b := by cases b <;> rfl

/-! ### Headers -/

namespace TocHeader

/-- All fields lie in the dwords of a record. -/
theorem dword_lt : ∀ f ∈ fields, f.dword < 8 := by decide

/-- **No two fields of a header overlap.** -/
theorem pairwise_disjoint_fields : fields.Pairwise BitField.Disjoint := by decide

namespace View

/-- The values of a view, each with its field. -/
def values (v : View) : List (BitField × UInt32) :=
  [(signatureField, v.signature), (versionField, v.version.toUInt32),
    (entriesCrcField, v.entriesCrc.toUInt32), (headerCrcField, v.headerCrc.toUInt32)]

/-- All values of a header fit their fields. -/
theorem fits (v : View) : ∀ p ∈ v.values, p.2 ≤ p.1.limit := by
  simp only [values, List.forall_mem_cons, BitField.le_limit_iff, UInt8.toNat_toUInt32,
    UInt16.toNat_toUInt32]
  exact ⟨v.signature.toNat_lt, v.version.toNat_lt, v.entriesCrc.toNat_lt, v.headerCrc.toNat_lt,
    fun _ h => absurd h List.not_mem_nil⟩

theorem map_fst_values (v : View) : v.values.map Prod.fst = fields := rfl

end View

/-- The header of a view is its reserved bits with all fields set. -/
theorem ofView_eq (v : View) :
    ofView v = ((v.reserved.reserved fields).setAll v.values).map TocHeader.mk := by
  rw [ofView, View.values]
  cases (v.reserved.reserved fields).setAll _ <;> rfl

/-- **A view spells out a header** exactly if its values fit their fields. -/
theorem exists_ofView_iff (v : View) : (∃ h, ofView v = .ok h) ↔ ∀ p ∈ v.values, p.2 ≤ p.1.limit := by
  rw [ofView_eq, exists_map_eq_ok_iff, TocRecord.exists_setAll_iff v.map_fst_values dword_lt]

theorem spelledOut_of_ofView {v : View} {h : TocHeader} (hv : ofView v = .ok h) :
    TocRecord.SpelledOut fields v.values v.reserved h.record := by
  rw [ofView_eq] at hv
  obtain ⟨r, hr, rfl⟩ := exists_of_map_eq_ok hv
  exact TocRecord.spelledOut_of_setAll v.map_fst_values dword_lt pairwise_disjoint_fields hr

/-- **What a view says is what the fields of its header read as.** -/
theorem view_of_ofView {v : View} {h : TocHeader} (hv : ofView v = .ok h) :
    h.view = { v with reserved := h.view.reserved } := by
  obtain ⟨hget, -⟩ := spelledOut_of_ofView hv
  simp only [View.values, List.forall_mem_cons] at hget
  obtain ⟨hsignature, hversion, hentries, hheader, -⟩ := hget
  simp only [view, signature, version, entriesCrc, headerCrc, get, hsignature, hversion, hentries,
    hheader, UInt8.toUInt8_toUInt32, UInt16.toUInt16_toUInt32]

namespace View

/-- **A view and the header it spells out.** -/
structure Faithful (v : View) : Prop where
  /-- Every view spells out a header. -/
  converts : ∃ h, ofView v = .ok h
  /-- Each field reads as the view says. -/
  getters : ∀ h, ofView v = .ok h → h.view = { v with reserved := h.view.reserved }
  /-- Outside of the fields stand the reserved bits. -/
  outside : ∀ h, ofView v = .ok h → ∀ i k, i < 8 → k < 32 → Outside fields i k →
    h.record.bit i k = v.reserved.bit i k
  /-- Reserved bits inside of the fields make no difference. -/
  ignored : ∀ r : TocRecord,
    (∀ i k, i < 8 → k < 32 → Outside fields i k → r.bit i k = v.reserved.bit i k) →
      ofView { v with reserved := r } = ofView v

theorem faithful (v : View) : v.Faithful where
  converts := (exists_ofView_iff v).2 v.fits
  getters h hv := view_of_ofView hv
  outside h hv := (spelledOut_of_ofView hv).bit
  ignored r hr := by
    rw [ofView_eq, ofView_eq, TocRecord.reserved_congr hr]
    rfl

end View

end TocHeader

/-! ### Entries -/

namespace TocEntry

/-- All fields lie in the dwords of a record. -/
theorem dword_lt : ∀ f ∈ fields, f.dword < 8 := by decide

/-- **No two fields of an entry overlap.** -/
theorem pairwise_disjoint_fields : fields.Pairwise BitField.Disjoint := by decide

namespace View

/-- The values of a view, each with its field. -/
def values (v : View) : List (BitField × UInt32) :=
  [(typeField, v.type.toUInt32), (sizeField, v.sizeDwords), (zippedField, v.zipped.toUInt32),
    (lineCrcField, v.lineCrc.toUInt32), (param0Field, v.param0), (param1Field, v.param1),
    (versionField, v.version.toUInt32), (addressField, v.addressDwords),
    (relativeField, v.relative.toUInt32), (sectionCrcField, v.sectionCrc.toUInt32),
    (noCrcField, v.noCrc.toUInt32), (deviceDataField, v.deviceData.toUInt32),
    (encryptedField, v.encrypted.toUInt32), (entryCrcField, v.entryCrc.toUInt32)]

/-- **Only three values can be too large** for their fields. -/
theorem fits_iff (v : View) : (∀ p ∈ v.values, p.2 ≤ p.1.limit) ↔
    v.sizeDwords.toNat < 2 ^ 22 ∧ v.param0.toNat < 2 ^ 30 ∧ v.addressDwords.toNat < 2 ^ 29 := by
  -- A value whose type has as many bits as its field always fits. Three fields are narrower.
  have hbyte (x : UInt8) (f : BitField) (hf : f.width = 8) : x.toUInt32 ≤ f.limit := by
    rw [f.le_limit_iff, hf, UInt8.toNat_toUInt32]
    exact x.toNat_lt
  have hword (x : UInt16) (f : BitField) (hf : f.width = 16) : x.toUInt32 ≤ f.limit := by
    rw [f.le_limit_iff, hf, UInt16.toNat_toUInt32]
    exact x.toNat_lt
  have hbit (b : Bool) (f : BitField) (hf : f.width = 1) : b.toUInt32 ≤ f.limit := by
    rw [f.le_limit_iff, hf]
    exact toNat_toUInt32_lt b
  have hdword : v.param1 ≤ param1Field.limit := by
    rw [BitField.le_limit_iff]
    exact v.param1.toNat_lt
  simp only [values, List.forall_mem_cons, hbyte _ typeField rfl, hword _ versionField rfl,
    hword _ sectionCrcField rfl, hword _ entryCrcField rfl, hbit _ zippedField rfl,
    hbit _ lineCrcField rfl, hbit _ relativeField rfl, hbit _ noCrcField rfl, hbit _ deviceDataField rfl,
    hbit _ encryptedField rfl, hdword, true_and]
  rw [BitField.le_limit_iff, BitField.le_limit_iff, BitField.le_limit_iff]
  refine and_congr Iff.rfl (and_congr Iff.rfl (and_iff_left ?_))
  exact fun _ h => absurd h List.not_mem_nil

theorem map_fst_values (v : View) : v.values.map Prod.fst = fields := rfl

end View

/-- The entry of a view is its reserved bits with all fields set. -/
theorem ofView_eq (v : View) :
    ofView v = ((v.reserved.reserved fields).setAll v.values).map TocEntry.mk := by
  rw [ofView, View.values]
  cases (v.reserved.reserved fields).setAll _ <;> rfl

/-- **A view spells out an entry** exactly if its values fit their fields. -/
theorem exists_ofView_iff (v : View) : (∃ e, ofView v = .ok e) ↔ ∀ p ∈ v.values, p.2 ≤ p.1.limit := by
  rw [ofView_eq, exists_map_eq_ok_iff, TocRecord.exists_setAll_iff v.map_fst_values dword_lt]

theorem spelledOut_of_ofView {v : View} {e : TocEntry} (hv : ofView v = .ok e) :
    TocRecord.SpelledOut fields v.values v.reserved e.record := by
  rw [ofView_eq] at hv
  obtain ⟨r, hr, rfl⟩ := exists_of_map_eq_ok hv
  exact TocRecord.spelledOut_of_setAll v.map_fst_values dword_lt pairwise_disjoint_fields hr

/-- **What a view says is what the fields of its entry read as.** -/
theorem view_of_ofView {v : View} {e : TocEntry} (hv : ofView v = .ok e) :
    e.view = { v with reserved := e.view.reserved } := by
  obtain ⟨hget, -⟩ := spelledOut_of_ofView hv
  simp only [View.values, List.forall_mem_cons] at hget
  obtain ⟨htype, hsize, hzipped, hlineCrc, hparam0, hparam1, hversion, haddress, hrelative, hsectionCrc,
    hnoCrc, hdeviceData, hencrypted, hentryCrc, -⟩ := hget
  simp only [view, type, sizeDwords, zipped, lineCrc, param0, param1, version, addressDwords, relative,
    sectionCrc, noCrc, deviceData, encrypted, entryCrc, get, has, BitField.isSet, htype, hsize, hzipped,
    hlineCrc, hparam0, hparam1, hversion, haddress, hrelative, hsectionCrc, hnoCrc, hdeviceData,
    hencrypted, hentryCrc, UInt8.toUInt8_toUInt32, UInt16.toUInt16_toUInt32, decide_toUInt32_ne_zero]

namespace View

/-- **A view and the entry it spells out.** -/
structure Faithful (v : View) : Prop where
  /-- A view spells out an entry exactly if its values fit their fields. -/
  converts : (∃ e, ofView v = .ok e) ↔
    v.sizeDwords.toNat < 2 ^ 22 ∧ v.param0.toNat < 2 ^ 30 ∧ v.addressDwords.toNat < 2 ^ 29
  /-- Each field reads as the view says. -/
  getters : ∀ e, ofView v = .ok e → e.view = { v with reserved := e.view.reserved }
  /-- Outside of the fields stand the reserved bits. -/
  outside : ∀ e, ofView v = .ok e → ∀ i k, i < 8 → k < 32 → Outside fields i k →
    e.record.bit i k = v.reserved.bit i k
  /-- Reserved bits inside of the fields make no difference. -/
  ignored : ∀ r : TocRecord,
    (∀ i k, i < 8 → k < 32 → Outside fields i k → r.bit i k = v.reserved.bit i k) →
      ofView { v with reserved := r } = ofView v

theorem faithful (v : View) : v.Faithful where
  converts := (exists_ofView_iff v).trans v.fits_iff
  getters e hv := view_of_ofView hv
  outside e hv := (spelledOut_of_ofView hv).bit
  ignored r hr := by
    rw [ofView_eq, ofView_eq, TocRecord.reserved_congr hr]
    rfl

end View

end TocEntry

/-! ### Both kinds of record -/

/-- **Records and views say the same.** Whatever its 256 bits are, a record is what its view says it is.
And whatever a view says is what the record it spells out reads as, if there is one. -/
theorem TocRecord.views_faithful :
    (∀ e : TocEntry, TocEntry.ofView e.view = .ok e) ∧
    (∀ h : TocHeader, TocHeader.ofView h.view = .ok h) ∧
    (∀ v : TocEntry.View, v.Faithful) ∧ (∀ v : TocHeader.View, v.Faithful) :=
  ⟨TocEntry.ofView_view, TocHeader.ofView_view, TocEntry.View.faithful, TocHeader.View.faithful⟩

end FlashImage

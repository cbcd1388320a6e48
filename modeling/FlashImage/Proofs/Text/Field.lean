import FlashImage.Proofs.Text.Ascii
import FlashImage.Proofs.Text.Hex
import FlashImage.Text.Field
import Mathlib.Data.List.Infix

/-!
# Character fields are written back as they were read

Whatever stands in a field, `FieldText.ofField` keeps enough of it to write the very same bytes again
(`toField_ofField`). What it keeps as text is never mistaken for bytes in JSON either, since text that
begins with the marker is not kept as text (`canonical_ofField`).
-/

namespace FlashImage.FieldText

/-! ### Printable text -/

/-- Every byte is the number of a character. -/
theorem toNat_char (b : UInt8) : (Char.ofNat b.toNat).toNat = b.toNat := by
  have hall : ∀ n < 256, (Char.ofNat n).toNat = n := by decide +kernel
  exact hall b.toNat b.toNat_lt

/-- Printable bytes are the bytes of their text. -/
theorem ofString_asciiText {contents : Bytes} (h : contents.all isPrintable = true) :
    Bytes.ofString (asciiText contents) = contents := by
  have hascii : IsAscii (contents.map fun b => Char.ofNat b.toNat) := by
    rintro c hc
    obtain ⟨b, hb, rfl⟩ := List.mem_map.1 hc
    have hprint := List.all_eq_true.1 h b hb
    simp only [isPrintable, Bool.and_eq_true, decide_eq_true_eq] at hprint
    rw [toNat_char]
    exact Nat.lt_trans (UInt8.lt_iff_toNat_lt.1 hprint.2) (by decide)
  rw [asciiText, Bytes.ofString_of_ascii hascii, List.map_map]
  refine (List.map_congr_left fun b _ => ?_).trans (List.map_id contents)
  rw [Function.comp_apply, toNat_char, UInt8.ofNat_toNat]
  rfl

/-! ### The stored form -/

/-- **A field is written as it was read**, padding included. -/
theorem toField_ofField (field : Bytes) (name : String) {width : Nat} (h : field.length = width) :
    (ofField field).toField name width = .ok field := by
  rw [ofField]
  split
  · next hplain =>
    simp only [Bool.and_eq_true, List.all_eq_true, decide_eq_true_eq] at hplain
    obtain ⟨⟨hprint, hpad⟩, -⟩ := hplain
    -- The contents are followed by nothing but zeros, which is what padding writes.
    have hsplit : field.takeWhile (· ≠ 0) ++ field.dropWhile (· ≠ 0) = field :=
      List.takeWhile_append_dropWhile
    have hzeros := List.eq_replicate_of_mem hpad
    have hlength := congrArg List.length hsplit
    rw [List.length_append] at hlength
    rw [toField, bytes, ofString_asciiText (List.all_eq_true.2 hprint), if_neg (by omega), ← h,
      ← hlength, Nat.add_sub_cancel_left, ← hzeros, hsplit]
  · rw [toField, bytes, if_neg (by omega), h, Nat.sub_self, List.replicate_zero, List.append_nil]

/-! ### The written form -/

/-- **A field whose written form stands for it**: text that does not begin with the marker, or any
bytes. -/
def Canonical : FieldText → Prop
  | text s => ¬ marker.toList <+: s.toList
  | raw _ => True

/-- What is read from a field is canonical. -/
theorem canonical_ofField (field : Bytes) : (ofField field).Canonical := by
  rw [ofField]
  split
  · next hplain =>
    simp only [Bool.and_eq_true, Bool.not_eq_true', Bool.eq_false_iff] at hplain
    obtain ⟨-, hmarker⟩ := hplain
    intro hprefix
    apply hmarker
    rw [asciiText, String.toList_ofList, List.prefix_map_iff] at hprefix
    obtain ⟨front, hfront, hchars⟩ := hprefix
    -- Characters of single bytes tell their bytes, so the front is the marker itself.
    have hbytes : front = Bytes.ofString marker := by
      have hback : (front.map fun b => Char.ofNat b.toNat).map (fun c => UInt8.ofNat c.toNat)
          = front := by
        rw [List.map_map]
        refine (List.map_congr_left fun b _ => ?_).trans (List.map_id front)
        rw [Function.comp_apply, toNat_char, UInt8.ofNat_toNat]
        rfl
      rw [← hback, ← hchars]
      rfl
    rw [List.isPrefixOf_iff_prefix, ← hbytes]
    exact hfront
  · trivial

/-- A canonical field is read back from its written form. -/
theorem ofDisplay?_display {t : FieldText} (h : t.Canonical) : ofDisplay? t.display = some t := by
  cases t with
  | text s =>
    have hmarker : marker.toList.isPrefixOf s.toList = false := by
      rw [Bool.eq_false_iff, ne_eq, List.isPrefixOf_iff_prefix]
      exact h
    rw [display, ofDisplay?, hmarker]
    rfl
  | raw bs =>
    have hlist : (marker ++ Hex.encode bs).toList = marker.toList ++ Hex.digits bs := by
      rw [String.toList_append, Hex.encode, String.toList_ofList]
    have hmarker : marker.toList.isPrefixOf (marker.toList ++ Hex.digits bs) = true :=
      List.isPrefixOf_iff_prefix.2 (List.prefix_append _ _)
    have hdrop : (marker.toList ++ Hex.digits bs).drop marker.length = Hex.digits bs :=
      List.drop_left
    rw [display, ofDisplay?, hlist, if_pos hmarker, hdrop, Hex.readDigits_digits]
    rfl

/-- A canonical field is read back from JSON. -/
theorem ofJson?_toJson {t : FieldText} (h : t.Canonical) : ofJson? t.toJson = some t := by
  rw [ofJson?, toJson, Json.asText?_text, Option.bind_some, ofDisplay?_display h]

end FlashImage.FieldText

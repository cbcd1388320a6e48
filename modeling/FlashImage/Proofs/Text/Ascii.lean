import FlashImage.Text.Utf8

/-!
# ASCII text as bytes

A character below 128 is one byte, its own number. Text made of nothing else goes to bytes character
by character (`Bytes.ofString_ofList`), and comes back from them unchanged even where reading is lossy
(`Bytes.toStringLossy_ofString`).
-/

namespace FlashImage

/-- Characters of a single byte each. -/
def IsAscii (cs : List Char) : Prop := ∀ c ∈ cs, c.toNat < 0x80

namespace IsAscii

theorem nil : IsAscii [] := by
  intro c hc
  cases hc

theorem cons {c : Char} {cs : List Char} (h : c.toNat < 0x80) (hcs : IsAscii cs) :
    IsAscii (c :: cs) :=
  List.forall_mem_cons.2 ⟨h, hcs⟩

theorem append {cs ds : List Char} (hcs : IsAscii cs) (hds : IsAscii ds) : IsAscii (cs ++ ds) :=
  List.forall_mem_append.2 ⟨hcs, hds⟩

theorem of_cons {c : Char} {cs : List Char} (h : IsAscii (c :: cs)) :
    c.toNat < 0x80 ∧ IsAscii cs :=
  List.forall_mem_cons.1 h

end IsAscii

namespace Bytes

/-- Text goes to bytes character by character. -/
theorem ofString_ofList (cs : List Char) :
    ofString (String.ofList cs) = cs.flatMap String.utf8EncodeChar := by
  rw [ofString, String.toUTF8_eq_toByteArray, String.toByteArray_ofList, List.utf8Encode,
    List.data_toByteArray]

/-- A character of a single byte. -/
theorem utf8EncodeChar_of_lt {c : Char} (h : c.toNat < 0x80) :
    String.utf8EncodeChar c = [UInt8.ofNat c.toNat] := by
  have hsize : c.utf8Size = 1 := by
    rw [Char.utf8Size_eq_one_iff, UInt32.le_iff_toNat_le]
    exact Nat.le_of_lt_succ h
  rw [String.utf8EncodeChar_eq_singleton hsize]
  rfl

/-- The bytes of ASCII text are the numbers of its characters. -/
theorem ofString_of_ascii {cs : List Char} (h : IsAscii cs) :
    ofString (String.ofList cs) = cs.map fun c => UInt8.ofNat c.toNat := by
  rw [ofString_ofList]
  induction cs with
  | nil => rfl
  | cons c cs ih =>
    obtain ⟨hc, hcs⟩ := h.of_cons
    rw [List.flatMap_cons, utf8EncodeChar_of_lt hc, ih hcs]
    rfl

/-! ### Lossy reading -/

/-- A byte below 128 is a character of its own. -/
theorem lossyChars_cons {done : List Char} {b : UInt8} {bs : Bytes} (h : b < 0x80) :
    lossyChars done (b :: bs) = lossyChars (Char.ofNat b.toNat :: done) bs := by
  rw [lossyChars]
  simp [sequenceFrom, h, assemble, leadingBits]

/-- ASCII text comes back from its bytes, behind whatever was read before. -/
theorem lossyChars_of_ascii {cs : List Char} (h : IsAscii cs) (done : List Char) :
    lossyChars done (cs.map fun c => UInt8.ofNat c.toNat) = done.reverse ++ cs := by
  induction cs generalizing done with
  | nil => rw [List.map_nil, lossyChars, List.append_nil]
  | cons c cs ih =>
    obtain ⟨hc, hcs⟩ := h.of_cons
    have hbyte : (UInt8.ofNat c.toNat).toNat = c.toNat := by
      rw [UInt8.toNat_ofNat', Nat.mod_eq_of_lt (by omega)]
    have hlt : UInt8.ofNat c.toNat < 0x80 := by
      rw [UInt8.lt_iff_toNat_lt, hbyte]
      exact hc
    rw [List.map_cons, lossyChars_cons hlt, ih hcs, hbyte, Char.ofNat_toNat, List.reverse_cons,
      List.append_assoc, List.singleton_append]

/-- ASCII text comes back from its bytes. -/
theorem toStringLossy_ofString {cs : List Char} (h : IsAscii cs) :
    toStringLossy (ofString (String.ofList cs)) = String.ofList cs := by
  rw [toStringLossy, ofString_of_ascii h, lossyChars_of_ascii h, List.reverse_nil, List.nil_append]

end Bytes

end FlashImage

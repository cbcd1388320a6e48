import FlashImage.Image
import FlashImage.Proofs.Outcome
import FlashImage.Proofs.Toc.Table

/-!
# Reading an image

An image that was read is what its steps found (`Image.ReadFrom`, `Image.parse_eq_ok_iff`).

It can be read if its anchors are there: the pattern it starts with, the pointer array behind it, a
pointer to its table of contents, and the signature of such a table where the pointer leads
(`Image.AnchoredAt`). Each of them is a condition on a few bytes, and of all other bytes none matters.
The anchors are looked for in order. The first one that is missing is the reason why an image is not read
(`Image.missingAnchor?`, `Image.parse_outcome`). This is about the anchors alone; that all the rest that is
found out about an image cannot keep it from being read is said where it is found out step by step
(`Machine.parse_missingAnchor?`).

## Parts

* what was found in an image that was read;
* when a table is read;
* when each of the anchors is found;
* the first missing anchor, and the result.
-/

namespace FlashImage

/-! ### What was found -/

/-- The pattern stands where an image starts. -/
theorem Magic.slice_of_find? {data : Bytes} {base : Nat} (h : find? data = some base) :
    data.slice base pattern.length = pattern := by
  unfold find? at h
  simpa using List.find?_some h

namespace Image

variable {data : Bytes} {base : Nat}

theorem readPointers_eq_ok_iff {ps : Pointers} : readPointers data base = .ok ps ↔
    Pointers.decode (data.drop (base + Pointers.offset)) = .ok ps := by
  rw [readPointers]
  cases Pointers.decode (data.drop (base + Pointers.offset)) with
  | ok ps' => simp
  | error e => simp

theorem readItoc_eq_ok_iff {address : Nat} {itoc : PlacedToc} : readItoc data address = .ok itoc ↔
    itoc.address = address ∧ itoc.toc.kind = .itoc ∧
      ∃ findings, Toc.read data address = .ok (itoc.toc, findings) := by
  constructor
  · intro h
    obtain ⟨⟨toc, findings⟩, hread, h⟩ := exists_of_bind_eq_ok h
    simp only at h
    split at h
    · next hkind =>
      cases h
      exact ⟨rfl, hkind, findings, eq_ok_of_mapError_eq_ok hread⟩
    · cases h
  · obtain ⟨place, toc⟩ := itoc
    rintro ⟨rfl, hkind, findings, hread⟩
    rw [readItoc, hread]
    exact if_pos hkind

/-- **What was found in the bytes of an image**, step by step. -/
structure ReadFrom (i : Image) (bs : Bytes) : Prop where
  data : i.data = bs
  base : Magic.find? bs = some i.base
  format : readFormat bs i.base = .ok i.format
  pointers : readPointers bs i.base = .ok i.pointers
  /-- The table of contents stands where its pointer leads. -/
  itoc : ∃ address, i.pointers.address? i.format .itoc = some address ∧
    readItoc bs (i.base + address) = .ok i.itoc

/-- **An image is read if each of its steps finds what is in it.** -/
theorem parse_eq_ok_iff {i : Image} : parse data = .ok i ↔ i.ReadFrom data := by
  constructor
  · intro h
    unfold parse at h
    split at h
    · cases h
    next base hbase =>
    obtain ⟨format, hformat, h⟩ := exists_of_bind_eq_ok h
    obtain ⟨pointers, hpointers, h⟩ := exists_of_bind_eq_ok h
    split at h
    · cases h
    next address haddress =>
    obtain ⟨itoc, hitoc, h⟩ := exists_of_bind_eq_ok h
    cases h
    exact ⟨rfl, hbase, hformat, hpointers, address, haddress, hitoc⟩
  · rintro ⟨rfl, hbase, hformat, hpointers, address, haddress, hitoc⟩
    rw [parse, hbase]
    simp only [hformat, hpointers, haddress, hitoc, ok_bind]
    rfl

end Image

/-! ### Tables -/

namespace Toc

variable {data : Bytes} {address : Nat}

/-- No table is read where there is no room for a header. -/
theorem read_of_lt (h : data.length < address + TocRecord.size) :
    read data address = .error (.truncated address data.length) := by
  rw [read]
  split
  · have hshort : (data.drop address).length < TocRecord.size := by
      rw [List.length_drop]
      omega
    rw [decode_of_lt hshort]
    rfl
  · rfl

/-- **A table is read where there is room for a header**, if the first dword is a signature. -/
theorem read_of_le (h : address + TocRecord.size ≤ data.length) :
    match TocKind.ofSignature? (data.u32At address) with
    | none => read data address = .error (.badSignature address (data.u32At address))
    | some kind => ∃ t findings, read data address = .ok (t, findings) ∧ t.kind = kind ∧
      t.header.signature = data.u32At address := by
  have hfit : address ≤ data.length := by omega
  have hroom : TocRecord.size ≤ (data.drop address).length := by
    rw [List.length_drop]
    omega
  have hdword : Bytes.u32At (data.drop address) 0 = data.u32At address := Bytes.u32At_drop _ _ _
  rw [read, if_pos hfit, decode_of_le hroom, hdword]
  cases TocKind.ofSignature? (data.u32At address) with
  | none => rfl
  | some kind => exact ⟨_, _, rfl, rfl, (TocHeader.signature_decodeAt _ _).trans hdword⟩

end Toc

namespace Image

variable {data : Bytes} {base : Nat}

/-! ### Anchors one by one -/

theorem readFormat_of_le (h : data.length ≤ base + formatOffset) :
    readFormat data base = .error (.truncated "image format" (base + formatOffset) data.length) := by
  rw [readFormat, Bytes.readU8, Bytes.slice?_of_lt (by omega)]
  rfl

theorem exists_readFormat (h : base + formatOffset < data.length) :
    ∃ format, readFormat data base = .ok format := by
  rw [readFormat, Bytes.readU8, Bytes.slice?_of_le (by omega)]
  exact ⟨_, rfl⟩

/-- **The pointer to the table of contents** of an image that starts at `base`: the third one. -/
def itocPointer (data : Bytes) (base : Nat) : UInt32 :=
  data.u32At (base + Pointers.offset + 2 * Pointer.size)

/-- Where the pointer to the table of contents leads. -/
def itocAddress (data : Bytes) (base : Nat) : Nat := base + (itocPointer data base).toNat

theorem readPointers_of_lt (h : data.length < base + Pointers.offset + Pointers.size) :
    readPointers data base
      = .error (.truncated "hardware pointers" (base + Pointers.offset) data.length) := by
  have hshort : ¬Pointers.size ≤ (data.drop (base + Pointers.offset)).length := by
    have hpos : 0 < Pointers.size := by decide
    rw [List.length_drop]
    omega
  rw [readPointers, Pointers.decode, if_neg hshort]

/-- Where there is room for the pointers, there is one to the table of contents among them, in either
format. -/
theorem exists_readPointers (h : base + Pointers.offset + Pointers.size ≤ data.length) :
    ∃ ps, readPointers data base = .ok ps ∧ ∀ format : Format, ps.address? format .itoc =
      if itocPointer data base = Pointer.absentValue then none
      else some (itocPointer data base).toNat := by
  have hroom : Pointers.size ≤ (data.drop (base + Pointers.offset)).length := by
    rw [List.length_drop]
    omega
  rw [readPointers, Pointers.decode, if_pos hroom]
  refine ⟨_, rfl, fun format => ?_⟩
  have hindex : format.indexOf? .itoc = some 2 := by cases format <;> rfl
  have hvalue : (Pointer.decodeAt (data.drop (base + Pointers.offset)) (2 * Pointer.size)).value
      = itocPointer data base := Bytes.u32At_drop _ _ _
  have hrecord : ((List.range Pointers.count).map fun i =>
      Pointer.decodeAt (data.drop (base + Pointers.offset)) (i * Pointer.size))[2]?
      = some (Pointer.decodeAt (data.drop (base + Pointers.offset)) (2 * Pointer.size)) := rfl
  simp only [Pointers.address?, hindex, hrecord, Option.bind_eq_bind, Option.bind_some, Pointer.isAbsent,
    hvalue, decide_eq_true_eq]

theorem readItoc_of_lt {address : Nat} (h : data.length < address + TocRecord.size) :
    readItoc data address = .error (.toc (.truncated address data.length)) := by
  rw [readItoc, Toc.read_of_lt h]
  rfl

/-- The table of contents is read where its own signature stands. Any other dword is a bad signature, that
of a table of the other kind included. -/
theorem readItoc_of_le {address : Nat} (h : address + TocRecord.size ≤ data.length) :
    if data.u32At address = TocKind.itoc.signature then ∃ itoc, readItoc data address = .ok itoc
    else readItoc data address = .error (.toc (.badSignature address (data.u32At address))) := by
  have hread := Toc.read_of_le h
  split at hread
  · next hkind =>
    have hne : data.u32At address ≠ TocKind.itoc.signature := by
      intro hsignature
      rw [TocKind.ofSignature?_eq_some_iff.2 hsignature] at hkind
      cases hkind
    rw [if_neg hne, readItoc, hread]
    rfl
  · next kind hkind =>
    obtain ⟨t, findings, hread, rfl, hsignature⟩ := hread
    rw [TocKind.ofSignature?_eq_some_iff] at hkind
    rw [readItoc, hread, hkind]
    -- A table of the other kind is read, and refused for its signature.
    cases hk : t.kind with
    | itoc =>
      rw [if_pos rfl]
      exact ⟨⟨address, t⟩, if_pos hk⟩
    | dtoc =>
      have hne : TocKind.dtoc.signature ≠ TocKind.itoc.signature := by decide
      rw [if_neg hne, ← hk, ← hkind, ← hsignature]
      exact if_neg (by rw [hk]; decide)

/-! ### The first missing anchor -/

/-- **The anchors of the image that starts at `base` are there.** -/
structure AnchoredAt (data : Bytes) (base : Nat) : Prop where
  /-- There is room for the pointers. -/
  pointers_le : base + Pointers.offset + Pointers.size ≤ data.length
  /-- One of them leads to the table of contents. -/
  present : itocPointer data base ≠ Pointer.absentValue
  /-- There is room for a header where it leads. -/
  header_le : itocAddress data base + TocRecord.size ≤ data.length
  /-- The header starts such a table. -/
  signature : data.u32At (itocAddress data base) = TocKind.itoc.signature

/-- **The first anchor that is missing**, in the order in which they are looked for. -/
def missingAnchor? (data : Bytes) : Option ParseError :=
  match Magic.find? data with
  | none => some .notFirmware
  | some base =>
    if data.length ≤ base + formatOffset then
      some (.truncated "image format" (base + formatOffset) data.length)
    else if data.length < base + Pointers.offset + Pointers.size then
      some (.truncated "hardware pointers" (base + Pointers.offset) data.length)
    else if itocPointer data base = Pointer.absentValue then some (.missingPointer .itoc)
    else if data.length < itocAddress data base + TocRecord.size then
      some (.toc (.truncated (itocAddress data base) data.length))
    else if data.u32At (itocAddress data base) ≠ TocKind.itoc.signature then
      some (.toc (.badSignature (itocAddress data base) (data.u32At (itocAddress data base))))
    else none

/-- **Reading an image fails on the first missing anchor**, and on nothing else. -/
theorem parse_missingAnchor? (data : Bytes) :
    match missingAnchor? data with
    | some e => parse data = .error e
    | none => ∃ i, parse data = .ok i := by
  unfold missingAnchor? parse
  -- Anchor by anchor, in the order in which both sides look for them.
  cases Magic.find? data with
  | none => rfl
  | some base =>
    simp only
    by_cases hformat : data.length ≤ base + formatOffset
    · rw [if_pos hformat, readFormat_of_le hformat]
      rfl
    obtain ⟨format, hread⟩ := exists_readFormat (Nat.not_le.1 hformat)
    rw [if_neg hformat, hread]
    by_cases hpointers : data.length < base + Pointers.offset + Pointers.size
    · rw [if_pos hpointers, readPointers_of_lt hpointers]
      rfl
    obtain ⟨ps, hread, haddress⟩ := exists_readPointers (Nat.not_lt.1 hpointers)
    rw [if_neg hpointers, hread]
    simp only [ok_bind, haddress format]
    by_cases habsent : itocPointer data base = Pointer.absentValue
    · rw [if_pos habsent, if_pos habsent]
    rw [if_neg habsent, if_neg habsent]
    by_cases hheader : data.length < itocAddress data base + TocRecord.size
    · rw [if_pos hheader]
      simp only
      rw [← itocAddress, readItoc_of_lt hheader]
      rfl
    rw [if_neg hheader]
    have hread := readItoc_of_le (Nat.not_lt.1 hheader)
    by_cases hsignature : data.u32At (itocAddress data base) = TocKind.itoc.signature
    · rw [if_pos hsignature] at hread
      obtain ⟨itoc, hread⟩ := hread
      rw [if_neg (not_not_intro hsignature)]
      simp only
      rw [← itocAddress, hread]
      exact ⟨_, rfl⟩
    · rw [if_neg hsignature] at hread
      rw [if_pos hsignature]
      simp only
      rw [← itocAddress, hread]
      rfl

/-- No anchor is missing if all of them are there. -/
theorem missingAnchor?_eq_none_iff {data : Bytes} :
    missingAnchor? data = none ↔ ∃ base, Magic.find? data = some base ∧ AnchoredAt data base := by
  unfold missingAnchor?
  cases Magic.find? data with
  | none => simp
  | some base =>
    have hite (c : Prop) [Decidable c] (e : ParseError) (rest : Option ParseError) :
        (if c then some e else rest) = none ↔ ¬c ∧ rest = none := by
      by_cases hc : c <;> simp [hc]
    simp only [hite, Nat.not_le, Nat.not_lt, ne_eq, Decidable.not_not, and_true, Option.some.injEq,
      exists_eq_left']
    constructor
    · rintro ⟨-, hpointers, hpresent, hheader, hsignature⟩
      exact ⟨hpointers, hpresent, hheader, hsignature⟩
    · rintro ⟨hpointers, hpresent, hheader, hsignature⟩
      -- The format byte stands in front of the pointers, so there is room for it as well.
      have hformat : formatOffset < Pointers.offset + Pointers.size := by decide
      exact ⟨by omega, hpointers, hpresent, hheader, hsignature⟩

/-- An image can be read if its anchors are there. -/
theorem exists_parse_iff {data : Bytes} :
    (∃ i, parse data = .ok i) ↔ ∃ base, Magic.find? data = some base ∧ AnchoredAt data base := by
  have hparse := parse_missingAnchor? data
  rw [← missingAnchor?_eq_none_iff]
  cases hmissing : missingAnchor? data with
  | none =>
    rw [hmissing] at hparse
    exact iff_of_true hparse rfl
  | some e =>
    rw [hmissing] at hparse
    simp [hparse]

/-- **Only the anchors decide whether an image can be read**, and the first one that is missing is the
reason why it cannot. -/
theorem parse_outcome (data : Bytes) :
    ((∃ i, parse data = .ok i) ↔ ∃ base, Magic.find? data = some base ∧ AnchoredAt data base) ∧
      ∀ e, parse data = .error e ↔ missingAnchor? data = some e := by
  refine ⟨exists_parse_iff, fun e => ?_⟩
  have hparse := parse_missingAnchor? data
  cases hmissing : missingAnchor? data with
  | none =>
    rw [hmissing] at hparse
    obtain ⟨i, hi⟩ := hparse
    simp [hi]
  | some reason =>
    rw [hmissing] at hparse
    simp [hparse]

end Image

end FlashImage

import FlashImage.Proofs.Image.Checks
import FlashImage.Proofs.Image.Reading

/-!
# Images behind other bytes

How the flash is divided decides at which of a few offsets an image starts, and nothing in the image
says which one it is. So an image reads the same wherever it stands: put behind other bytes, it is found
where it now is, and whatever was found in it is found again, further on by the length of the bytes in
front (`Image.parse_append`).

Addresses come from three sides. Pointers and entries count from the start of the image, what is announced
by them counts from the start of the bytes, and the last sector is found from their end. All of them move
by the same distance, the last one only if that sector is in the image itself
(`Image.dtocAddress?_moved`).

## Parts

* moving what has a place: tables, announcements, sections, images;
* where a moved image starts, and reading it;
* what is in a moved image;
* the same image at another place.
-/

namespace FlashImage

/-! ### Moving -/

/-- A table further on. -/
def PlacedToc.moved (distance : Nat) (t : PlacedToc) : PlacedToc :=
  { t with address := distance + t.address }

/-- An announcement of the same section further on. -/
def Placement.moved (distance : Nat) (p : Placement) : Placement :=
  { p with offset := distance + p.offset }

/-- The same section further on. -/
def Section.moved (distance : Nat) (s : Section) : Section :=
  { s with offset := distance + s.offset }

theorem Section.offset_moved (distance : Nat) (s : Section) :
    (s.moved distance).offset = distance + s.offset := rfl

theorem Section.last_moved (distance : Nat) (s : Section) :
    (s.moved distance).last = distance + s.last := Nat.add_assoc _ _ _

/-- **The same image behind other bytes.** -/
def Image.moved (front : Bytes) (i : Image) : Image :=
  { i with
    data := front ++ i.data
    base := front.length + i.base
    itoc := i.itoc.moved front.length }

/-! ### The start -/

namespace Magic

/-- The offsets that are tried are in order, and the pattern fits between any two of them. -/
theorem pairwise_searchOffsets : searchOffsets.Pairwise fun o p => o + pattern.length ≤ p := by decide

/-- **An image behind other bytes is found behind them**, at one of the offsets that are tried, unless
the pattern stands at an earlier one. -/
theorem find?_append {front data : Bytes} (hfront : front.length ∈ searchOffsets)
    (hearlier : ∀ o ∈ searchOffsets, o < front.length → front.slice o pattern.length ≠ pattern)
    (hdata : find? data = some 0) : find? (front ++ data) = some front.length := by
  obtain ⟨earlier, later, hsplit⟩ := List.append_of_mem hfront
  have hpairwise := pairwise_searchOffsets
  rw [hsplit, List.pairwise_append] at hpairwise
  obtain ⟨-, -, hspace⟩ := hpairwise
  refine List.find?_eq_some_iff_append.2 ⟨?_, earlier, later, hsplit, fun o ho => ?_⟩
  · have hslice := Bytes.slice_append_right front data 0 pattern.length
    rw [Nat.add_zero, slice_of_find? hdata] at hslice
    exact decide_eq_true hslice
  · -- There is room for the pattern between an earlier offset and the image.
    have hroom : o + pattern.length ≤ front.length := hspace o ho _ List.mem_cons_self
    have hslice : (front ++ data).slice o pattern.length = front.slice o pattern.length := by
      rw [← Bytes.slice_take hroom, List.take_left]
    have hpos : 0 < pattern.length := by decide
    have hmem : o ∈ searchOffsets := hsplit ▸ List.mem_append_left _ ho
    simp only [hslice, Bool.not_eq_true', decide_eq_false_iff_not]
    exact hearlier o hmem (by omega)

end Magic

/-! ### Reading -/

/-- **A table behind other bytes is read as before.** What is wrong with it is reported with its place,
so only the table itself stays the same. -/
theorem Toc.read_append (front data : Bytes) (address : Nat) :
    match read data address with
    | .ok (t, _) => ∃ findings, read (front ++ data) (front.length + address) = .ok (t, findings)
    | .error _ => ∃ e, read (front ++ data) (front.length + address) = .error e := by
  rw [read, read, List.drop_length_add_append, List.length_append]
  by_cases hfit : address ≤ data.length
  · rw [if_pos hfit, if_pos (Nat.add_le_add_left hfit _)]
    cases decode (data.drop address) with
    | ok t => exact ⟨_, rfl⟩
    | error e => exact ⟨_, rfl⟩
  · rw [if_neg hfit, if_neg (by omega)]
    exact ⟨_, rfl⟩

/-- **An announcement further on gives the same section**, further on. -/
theorem Placement.section?_append (front data : Bytes) (p : Placement) (encrypted : Bool) :
    (p.moved front.length).section? (front ++ data) encrypted
      = (p.section? data encrypted).map (Section.moved front.length) := by
  rw [section?, section?]
  simp only [moved]
  cases p.length with
  | none => rfl
  | some length =>
    have hfit : front.length + p.offset + length ≤ (front ++ data).length
        ↔ p.offset + length ≤ data.length := by
      rw [List.length_append]
      omega
    simp only [hfit]
    split
    · simp only [sectionOf, Bytes.slice_append_right, Option.map_some, Section.moved]
    · rfl

namespace Image

section Reading

variable {front data : Bytes} {base : Nat}

/-- The anchors of an image are there wherever it stands. -/
theorem anchoredAt_append_iff :
    AnchoredAt (front ++ data) (front.length + base) ↔ AnchoredAt data base := by
  -- Each of the four anchors is looked for at a distance from the base, which moves with the image.
  have hpointer : itocPointer (front ++ data) (front.length + base) = itocPointer data base := by
    rw [itocPointer, itocPointer, Nat.add_assoc, Nat.add_assoc, Bytes.u32At_append_right, Nat.add_assoc]
  have haddress : itocAddress (front ++ data) (front.length + base)
      = front.length + itocAddress data base := by
    rw [itocAddress, itocAddress, hpointer, Nat.add_assoc]
  constructor
  · rintro ⟨hpointers, hpresent, hheader, hsignature⟩
    rw [haddress, List.length_append] at hheader
    rw [List.length_append] at hpointers
    rw [haddress, Bytes.u32At_append_right] at hsignature
    exact ⟨by omega, hpointer ▸ hpresent, by omega, hsignature⟩
  · rintro ⟨hpointers, hpresent, hheader, hsignature⟩
    refine ⟨?_, hpointer.symm ▸ hpresent, ?_, ?_⟩
    · rw [List.length_append]
      omega
    · rw [haddress, List.length_append]
      omega
    · rw [haddress, Bytes.u32At_append_right, hsignature]

theorem readFormat_append {format : Format} (h : readFormat data base = .ok format) :
    readFormat (front ++ data) (front.length + base) = .ok format := by
  have hroom : base + formatOffset < data.length := by
    refine Nat.lt_of_not_le fun hle => ?_
    rw [readFormat_of_le hle] at h
    cases h
  rw [readFormat, Bytes.readU8, Bytes.slice?_of_le (by omega)] at h
  rw [readFormat, Bytes.readU8, Bytes.slice?_of_le (by rw [List.length_append]; omega), Nat.add_assoc,
    Bytes.slice_append_right]
  exact h

theorem readPointers_append {ps : Pointers} (h : readPointers data base = .ok ps) :
    readPointers (front ++ data) (front.length + base) = .ok ps := by
  rw [readPointers_eq_ok_iff] at h ⊢
  rw [Nat.add_assoc, List.drop_length_add_append, h]

theorem readItoc_append {address : Nat} {itoc : PlacedToc} (h : readItoc data address = .ok itoc) :
    readItoc (front ++ data) (front.length + address) = .ok (itoc.moved front.length) := by
  obtain ⟨rfl, hkind, findings, hread⟩ := readItoc_eq_ok_iff.1 h
  have hmoved := Toc.read_append front data itoc.address
  rw [hread] at hmoved
  exact readItoc_eq_ok_iff.2 ⟨rfl, hkind, hmoved⟩

/-- **An image behind other bytes is the moved image**, if it is found there. -/
theorem parse_append_of_find? {i : Image} (h : parse data = .ok i)
    (hmoved : Magic.find? (front ++ data) = some (front.length + i.base)) :
    parse (front ++ data) = .ok (i.moved front) := by
  obtain ⟨rfl, -, hformat, hpointers, address, haddress, hitoc⟩ := parse_eq_ok_iff.1 h
  have hitoc' : readItoc (front ++ i.data) (front.length + i.base + address)
      = .ok (i.itoc.moved front.length) := by
    rw [Nat.add_assoc]
    exact readItoc_append hitoc
  exact parse_eq_ok_iff.2
    ⟨rfl, hmoved, readFormat_append hformat, readPointers_append hpointers, address, haddress, hitoc'⟩

end Reading

/-! ### What is in a moved image -/

section Moved

variable {i : Image} (front : Bytes)

/-- The place of the device's table moves with the image, the last sector only if it is in the image. -/
theorem dtocAddress?_moved (hsector : sectorSize ≤ i.data.length) :
    (i.moved front).dtocAddress? = i.dtocAddress?.map (front.length + ·) := by
  have hpointer : (i.moved front).pointers.address? (i.moved front).format .dtoc
      = i.pointers.address? i.format .dtoc := rfl
  have hlength : (i.moved front).data.length = front.length + i.data.length := List.length_append
  rw [dtocAddress?, dtocAddress?, hpointer, if_pos hsector, if_pos (by omega)]
  cases i.pointers.address? i.format .dtoc with
  | some address => exact congrArg some (Nat.add_assoc _ _ _)
  | none => exact congrArg some (by rw [hlength, Nat.add_sub_assoc hsector])

theorem dtoc_moved (hsector : sectorSize ≤ i.data.length) :
    (i.moved front).dtoc = i.dtoc.map (PlacedToc.moved front.length) := by
  rw [dtoc, dtoc, readDtoc, readDtoc, dtocAddress?_moved front hsector]
  cases i.dtocAddress? with
  | none => rfl
  | some address =>
    have hread := Toc.read_append front i.data address
    simp only [Option.map_some, moved]
    split at hread
    · next toc findings hok =>
      obtain ⟨findings', hread⟩ := hread
      simp only [hok, hread]
      split <;> rfl
    · next e herror =>
      obtain ⟨e', hread⟩ := hread
      simp only [herror, hread, Option.map_none]

theorem entriesOf_moved (base distance : Nat) (t : PlacedToc) :
    entriesOf (distance + base) (t.moved distance)
      = (entriesOf base t).map (Placement.moved distance) := by
  rw [entriesOf, entriesOf, List.map_map]
  refine List.map_congr_left fun p _ => ?_
  obtain ⟨e, index⟩ := p
  simp only [Function.comp_apply, Placement.moved, PlacedToc.moved, Nat.add_assoc]

theorem pointerPlacements_moved :
    (i.moved front).pointerPlacements = i.pointerPlacements.map (Placement.moved front.length) := by
  rw [pointerPlacements, pointerPlacements, List.map_filterMap]
  refine List.filterMap_congr fun r _ => ?_
  obtain ⟨role, code, length?⟩ := r
  -- The length of what a pointer leads to is read from the bytes there, and they are the same.
  simp only [moved, Nat.add_assoc, List.drop_length_add_append]
  cases i.format.indexOf? role with
  | none => rfl
  | some index =>
    cases i.pointers.address? i.format role with
    | none => rfl
    | some address => rfl

/-- **A moved image announces the same sections**, further on. -/
theorem placements_moved (hsector : sectorSize ≤ i.data.length) :
    (i.moved front).placements = i.placements.map (Placement.moved front.length) := by
  have harray : (i.moved front).pointersOffset = front.length + i.pointersOffset := Nat.add_assoc _ _ _
  have hitoc : entriesOf (i.moved front).base (i.moved front).itoc
      = (entriesOf i.base i.itoc).map (Placement.moved front.length) := entriesOf_moved _ _ _
  rw [placements, placements, dtoc_moved front hsector, pointerPlacements_moved, hitoc, harray]
  cases i.dtoc with
  | none =>
    simp only [Option.map_none, Option.toList_none, List.map_nil, List.flatMap_nil, List.map_append,
      List.map_cons, List.append_nil]
    rfl
  | some t =>
    simp only [Option.map_some, Option.toList_some, List.map_cons, List.map_nil, List.flatMap_singleton,
      List.map_append, moved, entriesOf_moved]
    rfl

/-- Moving keeps the order of sections. -/
theorem inOrder_moved (distance : Nat) (s t : Section) :
    inOrder (s.moved distance) (t.moved distance) = inOrder s t := by
  simp only [inOrder, Section.offset_moved, Section.last_moved, Nat.add_lt_add_iff_left,
    Nat.add_left_cancel_iff, Nat.add_le_add_iff_left]

/-- **A moved image has the same sections in the same order**, further on. -/
theorem sections_moved (hsector : sectorSize ≤ i.data.length) :
    (i.moved front).sections = i.sections.map (Section.moved front.length) := by
  have hfound : (i.moved front).placements.filterMap
        (·.section? (i.moved front).data (i.moved front).encrypted)
      = (i.placements.filterMap (·.section? i.data i.encrypted)).map (Section.moved front.length) := by
    rw [placements_moved front hsector, List.filterMap_map, List.map_filterMap]
    exact List.filterMap_congr fun p _ => p.section?_append front i.data i.encrypted
  rw [sections, hfound, sections, List.map_mergeSort]
  exact fun s _ t _ => (inOrder_moved _ s t).symm

end Moved

end Image

/-! ### The same image at another place -/

/-- **The same section at another place**: whatever is said about it is the same, but for its offset. -/
structure Section.Relocated [Algorithms] (distance : Nat) (s t : Section) : Prop where
  offset : t.offset = s.offset + distance
  code : t.code = s.code
  data : t.data = s.data
  origin : t.origin = s.origin
  entry : t.entry = s.entry
  place : t.place = s.place
  slot : t.type.slot = s.type.slot
  stripped : t.stripped = s.stripped
  encrypted : t.encrypted = s.encrypted
  projection : t.projection = s.projection
  status : t.status = s.status

/-- Nothing that is said about a section depends on its place. -/
theorem Section.relocated_moved [Algorithms] (distance : Nat) (s : Section) :
    s.Relocated distance (s.moved distance) where
  offset := Nat.add_comm _ _
  code := rfl
  data := rfl
  origin := rfl
  entry := rfl
  place := rfl
  slot := rfl
  stripped := rfl
  encrypted := rfl
  projection := rfl
  status := rfl

/-- **The same table at another place.** -/
structure PlacedToc.Relocated (distance : Nat) (t u : PlacedToc) : Prop where
  address : u.address = t.address + distance
  toc : u.toc = t.toc

theorem PlacedToc.relocated_moved (distance : Nat) (t : PlacedToc) :
    t.Relocated distance (t.moved distance) :=
  ⟨Nat.add_comm _ _, rfl⟩

namespace Image

/-- **The same image at another place.** -/
structure Relocated [Algorithms] (distance : Nat) (i j : Image) : Prop where
  base : j.base = i.base + distance
  format : j.format = i.format
  encrypted : j.encrypted = i.encrypted
  pointers : j.pointers = i.pointers
  hasCrcErrors : j.hasCrcErrors = i.hasCrcErrors
  itoc : i.itoc.Relocated distance j.itoc
  /-- There is a table of the device in both of them or in neither. -/
  dtoc : Option.Rel (PlacedToc.Relocated distance) i.dtoc j.dtoc
  /-- The sections are the same, one by one and in the same order. -/
  sections : List.Forall₂ (Section.Relocated distance) i.sections j.sections

variable {i : Image}

/-- Whether any check failed can be told from the sections. -/
theorem hasCrcErrors_iff [Algorithms] (hi : i.Anchored) :
    i.hasCrcErrors = true ↔ ∃ s ∈ i.sections, s.status.isInvalid = true := by
  rw [exists_invalid_iff hi, hasCrcErrors, List.any_eq_true, exists_mem_diagnostics_iff fun d hd => hd]
  refine exists_congr fun d => and_iff_left_of_imp fun hd => ?_
  cases hd <;> rfl

/-- A moved image is the same image at another place. -/
theorem relocated_moved [Algorithms] {front : Bytes} (hi : i.Anchored)
    (hmoved : (i.moved front).Anchored) (hsector : sectorSize ≤ i.data.length) :
    i.Relocated front.length (i.moved front) where
  base := Nat.add_comm _ _
  format := rfl
  encrypted := rfl
  pointers := rfl
  hasCrcErrors := by
    rw [Bool.eq_iff_iff, hasCrcErrors_iff hi, hasCrcErrors_iff hmoved, sections_moved front hsector]
    simp only [List.mem_map, exists_exists_and_eq_and]
    rfl
  itoc := i.itoc.relocated_moved _
  dtoc := by
    rw [dtoc_moved front hsector]
    cases i.dtoc with
    | none => exact .none
    | some t => exact .some (t.relocated_moved _)
  sections := by
    rw [sections_moved front hsector, List.forall₂_map_right_iff, List.forall₂_same]
    exact fun s _ => s.relocated_moved _

/-- **An image reads the same wherever it stands.** Behind bytes that are as long as one of the offsets
that are tried, and that do not start an image themselves, it is read if it is read alone, and is the same
image. -/
theorem parse_append [Algorithms] {front data : Bytes} {k : Nat} (hk : k ∈ Magic.searchOffsets)
    (hfront : front.length = k)
    (hearlier : ∀ o ∈ Magic.searchOffsets, o < k → front.slice o Magic.pattern.length ≠ Magic.pattern)
    (hdata : Magic.find? data = some 0) (hsector : sectorSize ≤ data.length) :
    ((∃ j, parse (front ++ data) = .ok j) ↔ ∃ i, parse data = .ok i) ∧
      ∀ i j, parse data = .ok i → parse (front ++ data) = .ok j → i.Relocated k j := by
  subst hfront
  have hmoved : Magic.find? (front ++ data) = some front.length := Magic.find?_append hk hearlier hdata
  constructor
  · rw [exists_parse_iff, exists_parse_iff, hmoved, hdata]
    simp only [Option.some.injEq, exists_eq_left']
    have hanchored : AnchoredAt (front ++ data) (front.length + 0) ↔ AnchoredAt data 0 :=
      anchoredAt_append_iff
    exact hanchored
  · intro i j hi hj
    -- What is read behind the front can only be the image, moved.
    have hbase : i.base = 0 := Option.some.inj ((parse_eq_ok_iff.1 hi).base.symm.trans hdata)
    have hparse : parse (front ++ data) = .ok (i.moved front) :=
      parse_append_of_find? hi (by rw [hbase]; exact hmoved)
    obtain rfl : i.moved front = j := Except.ok.inj (hparse.symm.trans hj)
    obtain ⟨hbytes, hanchored⟩ := anchored_of_parse hi
    exact relocated_moved hanchored (anchored_of_parse hj).2 (hbytes ▸ hsector)

/-- The small image, with an erased sector behind it. -/
def smallFlash : Bytes := smallImage ++ List.replicate sectorSize 0xff

/-- The small image is the same image behind zeros. -/
theorem parse_append_smallFlash : ∃ i j, parse smallFlash = .ok i ∧
    parse (List.replicate 0x10000 0 ++ smallFlash) = .ok j ∧ @Relocated .standard 0x10000 i j := by
  have hsector : sectorSize ≤ smallFlash.length := by
    rw [smallFlash, List.length_append, List.length_replicate]
    exact Nat.le_add_left _ _
  have hstart : Magic.find? smallFlash = some 0 := by decide +kernel
  have hread : ∃ i, parse smallFlash = .ok i := by
    have haddress : itocAddress smallFlash 0 = 152 := by decide +kernel
    refine exists_parse_iff.2 ⟨0, hstart, ?_, by decide +kernel, ?_, by decide +kernel⟩
    · exact Nat.le_trans (by decide) hsector
    · rw [haddress]
      exact Nat.le_trans (by decide) hsector
  have hmoved := @parse_append .standard (List.replicate 0x10000 0) smallFlash 0x10000 (by decide)
    List.length_replicate (by decide +kernel) hstart hsector
  obtain ⟨i, hi⟩ := hread
  obtain ⟨j, hj⟩ := hmoved.1.2 ⟨i, hi⟩
  exact ⟨i, j, hi, hj, hmoved.2 i j hi hj⟩

end Image

end FlashImage

import FlashImage.Machine.Image
import FlashImage.Proofs.Image.Reading
import FlashImage.Proofs.Image.Structure
import FlashImage.Proofs.Machine.Sections

/-!
# Reading an image without fault

Reading an image does what its definition does (`parse_eq`), and is refused for want of an anchor, and for
nothing else that is looked at on the way (`parse_missingAnchor?`). The start of an image is one of a few
offsets, and pointers and entries lead to addresses of 32 and 34 bits, so no place that is announced is out of
range, whether the image reaches that far or not. The range of a section is tested against the image before
there is a section. Afterwards its end is the end of a range of the image, which is what sorting the sections,
comparing them and cutting out the gaps between them rely on.

The sections are collected one by one, with what is wrong with them (`Layout`). What has been collected
after some announcements is what `Image` says about these announcements (`Layout.after`); each kind of
step adds its own (`collect_after`, `collectTable_after`, `collectPointed_after`, `collectEntries_after`), and
so does a loop of such steps (`foldlM_after`).
-/

namespace FlashImage.Machine

variable {data : Bytes} {i : Image}

/-! ### Anchors -/

theorem hasPattern_eq {offset : Nat} (h : offset < 2 ^ 32) :
    hasPattern data offset = .ok (decide (data.slice offset Magic.pattern.length = Magic.pattern)) := by
  rw [hasPattern, add_eq (Nat.lt_of_lt_of_le (Nat.add_lt_add_right h _) (by decide)), ok_bind, part?]
  show Except.ok _ = Except.ok _
  rw [Nat.add_sub_cancel_left]
  by_cases hin : offset + Magic.pattern.length ≤ data.length
  · rw [if_pos ⟨Nat.le_add_right _ _, hin⟩]
    simp
  · have hne : data.slice offset Magic.pattern.length ≠ Magic.pattern := by
      intro heq
      have hlength := congrArg List.length heq
      have hpos : 0 < Magic.pattern.length := by decide
      rw [Bytes.length_slice] at hlength
      omega
    rw [if_neg fun h => hin h.2]
    simp [hne]

/-- The offsets that are tried are small ones. -/
theorem findMagic_eq {offsets : List Nat} (h : ∀ offset ∈ offsets, offset < 2 ^ 32) :
    findMagic data offsets
      = .ok (offsets.find? fun o => data.slice o Magic.pattern.length = Magic.pattern) := by
  induction offsets with
  | nil => rfl
  | cons offset rest ih =>
    obtain ⟨hoffset, hrest⟩ := List.forall_mem_cons.1 h
    rw [findMagic, hasPattern_eq hoffset, ok_bind, ih hrest, List.find?_cons]
    cases decide (data.slice offset Magic.pattern.length = Magic.pattern) <;> rfl

theorem readFormat_eq (hd : data.length < 2 ^ 63) {base : Nat} (hbase : base < 2 ^ 26) :
    readFormat data base = settled (Image.readFormat data base) := by
  rw [readFormat, add_eq (Nat.lt_of_lt_of_le (Nat.add_lt_add_right hbase _) (by decide)), lift_ok,
    settled_ok_bind, readU8_eq (by omega), adapt_settled, Image.readFormat]
  cases data.readU8 (base + Image.formatOffset) <;> rfl

theorem readPointers_eq (hd : data.length < 2 ^ 63) {base : Nat} (hbase : base < 2 ^ 26) :
    readPointers data base = settled (Image.readPointers data base) := by
  rw [readPointers, add_eq (Nat.lt_of_lt_of_le (Nat.add_lt_add_right hbase _) (by decide)), lift_ok,
    settled_ok_bind, slice_eq (by omega), Image.readPointers, Bytes.slice?]
  cases hdecode : Pointers.decode (data.drop (base + Pointers.offset)) with
  | ok ps =>
    obtain ⟨hsize, htake⟩ := Pointers.decode_spec hdecode
    have hpos : 0 < Pointers.size := by decide
    rw [List.length_drop] at hsize
    rw [if_pos (by omega), settled_ok_bind, Bytes.slice, htake]
    rfl
  | error e =>
    have hroom : ¬ base + Pointers.offset + Pointers.size ≤ data.length := by
      intro hroom
      rw [Pointers.decode, if_pos (by rw [List.length_drop]; omega)] at hdecode
      cases hdecode
    rw [if_neg hroom]
    rfl

theorem pointerFindings_eq : pointerFindings i.pointers = .ok i.pointerFindings := by
  rw [pointerFindings, badRecords_eq]
  rfl

theorem readItoc_eq (hd : data.length < 2 ^ 63) {base rel : Nat} (hbase : base < 2 ^ 26)
    (hrel : rel < 2 ^ 32) : readItoc data base rel = settled ((Image.readItoc data (base + rel)).map
      fun itoc => (itoc, itoc.toc.findings itoc.address ++ itoc.toc.endFindings itoc.address data.length)) := by
  rw [readItoc, add_eq (by omega), lift_ok, settled_ok_bind, readToc_eq hd, adapt_settled, Image.readItoc]
  cases hread : Toc.read data (base + rel) with
  | error e => rfl
  | ok found =>
    obtain ⟨toc, found⟩ := found
    obtain ⟨-, -, rfl⟩ := Toc.of_read hread
    simp only [mapError_ok, settled_ok_bind, field_eq, lift_ok, ok_bind]
    split <;> rfl

theorem dtocAddress_eq (hi : i.Anchored) : dtocAddress i = .ok i.dtocAddress? := by
  rw [dtocAddress, Image.dtocAddress?]
  have hbase := hi.base_lt
  cases haddress : i.pointers.address? i.format .dtoc with
  | none => rfl
  | some rel =>
    have hrel := Pointers.address?_lt haddress
    simp only [add_eq (show i.base + rel < 2 ^ 64 by omega), ok_bind]
    rfl

theorem readDtoc_eq (hi : i.Anchored) (hd : i.data.length < 2 ^ 63) :
    readDtoc i = .ok (i.dtoc, i.dtocFindings) := by
  rw [readDtoc, dtocAddress_eq hi, ok_bind, Image.dtoc, Image.dtocFindings, Image.readDtoc]
  cases i.dtocAddress? with
  | none => rfl
  | some address =>
    simp only [readToc_eq hd, Option.map_some, ExceptT.run, settled, ExceptT.mk, ok_bind, field_eq]
    cases Toc.read i.data address with
    | ok found =>
      simp only
      split
      · rfl
      · split <;> rfl
    | error e =>
      simp only
      split
      · rfl
      · cases e <;> rfl

/-- **The anchors are looked for without fault**, and the first that is missing is the reason why an image
is not read. -/
theorem readAnchors_eq (hd : data.length < 2 ^ 63) : readAnchors data
    = settled ((Image.parse data).map fun i => (i, i.pointerFindings ++ i.itocFindings)) := by
  -- The bases are from a short list, so no sum with one of them leaves a word.
  have hsmall : ∀ o ∈ Magic.searchOffsets, o < 2 ^ 26 := by decide
  have hmagic : findMagic data Magic.searchOffsets = .ok (Magic.find? data) :=
    findMagic_eq fun o ho => Nat.lt_trans (hsmall o ho) (by decide)
  rw [readAnchors, hmagic, Image.parse, lift_ok, settled_ok_bind]
  cases hfind : Magic.find? data with
  | none => rfl
  | some base =>
    have hbase := hsmall base (List.mem_of_find?_eq_some hfind)
    simp only [readFormat_eq hd hbase, readPointers_eq hd hbase]
    cases Image.readFormat data base with
    | error e => rfl
    | ok format =>
    cases Image.readPointers data base with
    | error e => rfl
    | ok pointers =>
    rw [settled_ok_bind, settled_ok_bind, ok_bind, ok_bind]
    cases haddress : pointers.address? format .itoc with
    | none =>
      rw [pointerFindings, badRecords_eq]
      rfl
    | some rel =>
      simp only [readItoc_eq hd hbase (Pointers.address?_lt haddress)]
      cases Image.readItoc data (base + rel) with
      | error e =>
        rw [pointerFindings, badRecords_eq]
        rfl
      | ok itoc =>
        rw [pointerFindings_eq (i := ⟨data, format, base, pointers, itoc⟩)]
        rfl

/-! ### Collecting sections -/

/-- What has been collected after some announcements. -/
def Layout.after [Algorithms] (data : Bytes) (encrypted : Bool) (found : List Diagnostic)
    (announced : List Placement) : Layout :=
  ⟨(announced.filterMap (·.section? data encrypted)).map .of,
    found ++ announced.flatMap (·.findings data encrypted)⟩

/-- A structure that a pointer leads to tells its length without fault. -/
theorem pointedLength_eq {bs : Bytes} (hbs : bs.length < 2 ^ 63) :
    ∀ r ∈ Image.pointedTo, pointedLength r.1 bs = .ok (r.2.2 bs) := by
  simp only [Image.pointedTo, List.forall_mem_cons]
  refine ⟨statedLength_eq hbs (by decide), rfl, statedLength_eq hbs (by decide), by simp⟩

section Collecting

variable [Algorithms] {encrypted : Bool} {found : List Diagnostic}

theorem Layout.after_concat (p : Placement) (announced : List Placement) :
    after data encrypted found (announced ++ [p]) =
      ⟨(after data encrypted found announced).sections
          ++ (p.section? data encrypted).toList.map .of,
        (after data encrypted found announced).found ++ p.findings data encrypted⟩ := by
  simp only [after, List.filterMap_append, List.filterMap_cons, List.flatMap_append, List.map_append,
    List.append_assoc]
  cases p.section? data encrypted <;> simp

/-- Collecting the section that is announced. -/
theorem collect_after (hd : data.length < 2 ^ 63) (code : SectionCode) (offset len : Nat)
    (origin : Origin) (entry : Option TocEntry) (announced : List Placement) :
    collect data encrypted code offset len origin entry (.after data encrypted found announced)
      = .ok (.after data encrypted found (announced ++ [⟨code, offset, some len, origin, entry⟩])) := by
  rw [Layout.after_concat, collect, Placement.section?, Placement.findings]
  by_cases hlen : len = 0
  · simp [hlen]
    rfl
  · by_cases hfit : offset + len ≤ data.length
    · have hbytes : (checkedAdd offset len).bind (part? data offset) = some (data.slice offset len) := by
        rw [checkedAdd_eq (by omega), Option.bind_some, part?, if_pos ⟨by omega, hfit⟩,
          Nat.add_sub_cancel_left]
      have hload := load_eq (s := ⟨code, offset, data.slice offset len, origin, entry, encrypted⟩) (by
        rw [Bytes.length_slice]
        omega)
      simp only [if_neg hlen, hbytes, hload, if_pos hfit, if_pos (And.intro hlen hfit), ok_bind]
      rfl
    · have hbytes : (checkedAdd offset len).bind (part? data offset) = none := by
        -- The end may be behind the image, or not even be a word.
        rcases Nat.lt_or_ge (offset + len) (2 ^ 64) with hsum | hsum
        · rw [checkedAdd_eq hsum, Option.bind_some, part?, if_neg (by simp [hfit])]
        · rw [checkedAdd_eq_none hsum, Option.bind_none]
      simp [hlen, hfit, hbytes]
      rfl

/-- **A loop of steps** that each collect what is announced by one thing collects what all of them
announce. -/
theorem foldlM_after {α : Type} {step : Layout → α → Run Layout} {placements : α → List Placement}
    {xs : List α} (h : ∀ x ∈ xs, ∀ announced, step (.after data encrypted found announced) x
      = .ok (.after data encrypted found (announced ++ placements x))) (announced : List Placement) :
    xs.foldlM step (.after data encrypted found announced)
      = .ok (.after data encrypted found (announced ++ xs.flatMap placements)) := by
  induction xs generalizing announced with
  | nil => rw [List.flatMap_nil, List.append_nil]; rfl
  | cons x xs ih =>
    obtain ⟨hx, hxs⟩ := List.forall_mem_cons.1 h
    rw [List.foldlM_cons, hx, ok_bind, ih hxs, List.flatMap_cons, List.append_assoc]

theorem collectTable_after (hi : i.Anchored) (hd : i.data.length < 2 ^ 63) {t : PlacedToc}
    (ht : t ∈ i.tables) (announced : List Placement) :
    collectTable i.data encrypted (.after i.data encrypted found announced) t
      = .ok (.after i.data encrypted found (announced ++ [Image.tableOf t])) := by
  have hsize := Image.size_le_of_mem_tables hi ht
  rw [collectTable, tocSize_eq (by omega), ok_bind, collect_after hd]
  rfl

/-- What is announced by one pointer. -/
def pointed (i : Image) (r : Role × SectionCode × (Bytes → Option Nat)) : Option Placement := do
  let index ← i.format.indexOf? r.1
  let address ← i.pointers.address? i.format r.1
  return ⟨r.2.1, i.base + address, r.2.2 (i.data.drop (i.base + address)), .pointer index, none⟩

theorem collectPointed_after (hi : i.Anchored) (hd : i.data.length < 2 ^ 63)
    {r : Role × SectionCode × (Bytes → Option Nat)} (hr : r ∈ Image.pointedTo)
    (announced : List Placement) :
    collectPointed i encrypted (.after i.data encrypted found announced) r.1 r.2.1
      = .ok (.after i.data encrypted found (announced ++ (pointed i r).toList)) := by
  have hbase := hi.base_lt
  rw [collectPointed]
  cases hindex : i.format.indexOf? r.1 with
  | none =>
    rw [pointed, hindex]
    simp
    rfl
  | some index =>
  cases haddress : i.pointers.address? i.format r.1 with
  | none =>
    rw [pointed, hindex, haddress]
    simp
    rfl
  | some rel =>
    have hrel := Pointers.address?_lt haddress
    -- Behind the end there is nothing to take the length from.
    have hrest : (part? i.data (i.base + rel) i.data.length).getD [] = i.data.drop (i.base + rel) := by
      rw [part?]
      split
      · rw [Option.getD_some, Bytes.slice, ← List.length_drop, List.take_length]
      · rw [Option.getD_none, List.drop_eq_nil_of_le (by omega)]
    have hlength : (i.data.drop (i.base + rel)).length < 2 ^ 63 := by
      rw [List.length_drop]
      omega
    have hpointed : pointed i r = some
        ⟨r.2.1, i.base + rel, r.2.2 (i.data.drop (i.base + rel)), .pointer index, none⟩ := by
      rw [pointed, hindex, haddress]
      rfl
    simp only [add_eq (show i.base + rel < 2 ^ 64 by omega), ok_bind, hrest, pointedLength_eq hlength r hr,
      hpointed, Option.toList_some]
    cases r.2.2 (i.data.drop (i.base + rel)) with
    | none =>
      rw [Layout.after_concat]
      simp only [Placement.section?, Option.toList_none, List.map_nil, List.append_nil]
      rfl
    | some len => exact collect_after hd _ _ _ _ _ _

theorem collectEntries_after (hi : i.Anchored) (hd : i.data.length < 2 ^ 63) (t : PlacedToc)
    (announced : List Placement) :
    collectEntries i encrypted (.after i.data encrypted found announced) t
      = .ok (.after i.data encrypted found (announced ++ Image.entriesOf i.base t)) := by
  have hbase := hi.base_lt
  have hentry (x : TocEntry × Nat) (announced : List Placement) :
      collectEntry i encrypted t.toc.kind (.after i.data encrypted found announced) x.1 x.2
        = .ok (.after i.data encrypted found (announced ++
          [⟨x.1.code, i.base + x.1.address, some x.1.size, .toc t.toc.kind x.2, some x.1⟩])) := by
    have haddress := x.1.address_lt
    rw [collectEntry, entryType_eq, ok_bind, entryAddress_eq, ok_bind, add_eq (by omega), ok_bind,
      entrySize_eq, ok_bind, collect_after hd]
    rfl
  rw [collectEntries, foldlM_after fun x _ => hentry x, Image.entriesOf, List.map_eq_flatMap]

end Collecting

/-! ### Sections in order -/

@[simp] theorem map_subject_of [Algorithms] (sections : List Section) :
    (sections.map Loaded.of).map (·.subject) = sections := by
  rw [List.map_map]
  exact List.map_id _

theorem sorted_eq [Algorithms] {sections : List Section} (h : ∀ s ∈ sections, s.last < 2 ^ 64) :
    sorted (sections.map .of) = .ok ((sections.mergeSort Image.inOrder).map .of) := by
  have hkey : ∀ s ∈ sections.map Loaded.of, (do return (s, s.subject.offset, ← last s.subject))
      = (.ok (s, s.subject.offset, s.subject.last) : Run (Loaded × Nat × Nat)) := by
    intro s hs
    obtain ⟨t, ht, rfl⟩ := List.mem_map.1 hs
    rw [show last (Loaded.of t).subject = .ok t.last from last_eq (h t ht)]
    rfl
  let order (a b : Loaded × Nat × Nat) : Bool := a.2.1 < b.2.1 || (a.2.1 = b.2.1 && a.2.2 ≤ b.2.2)
  let key (s : Section) : Loaded × Nat × Nat := (.of s, s.offset, s.last)
  have hsort : (sections.map key).mergeSort order = (sections.mergeSort Image.inOrder).map key :=
    (List.map_mergeSort (r := Image.inOrder) (s := order) (f := key) fun s _ t _ => rfl).symm
  rw [sorted, mapM_eq hkey, ok_bind]
  rw [List.map_map]
  show Except.ok (((sections.map key).mergeSort order).map Prod.fst) = _
  rw [hsort, List.map_map]
  rfl

theorem overlap_eq {p s : Section} (hp : p.last < 2 ^ 64) (hs : s.last < 2 ^ 64) :
    overlap p s = .ok (if s.offset < p.last then
      [.sectionOverlap p.name (p.offset, p.last) s.name (s.offset, s.last)] else []) := by
  rw [overlap, last_eq hp, ok_bind, last_eq hs]
  split <;> rfl

theorem overlapsFrom_eq {sections : List Section} {furthest : Option Section}
    (hfurthest : ∀ p ∈ furthest, p.last < 2 ^ 64) (h : ∀ s ∈ sections, s.last < 2 ^ 64) :
    overlapsFrom furthest sections = .ok (Image.overlapsFrom furthest sections) := by
  induction sections generalizing furthest with
  | nil => rfl
  | cons s rest ih =>
    obtain ⟨hs, hrest⟩ := List.forall_mem_cons.1 h
    cases furthest with
    | none => exact ih (fun p hp => Option.mem_some.1 hp ▸ hs) hrest
    | some p =>
      have hp := hfurthest p rfl
      -- Whichever of the two reaches further, its end is a word.
      have hfurther : ∀ q ∈ some (if p.last < s.last then s else p), q.last < 2 ^ 64 := by
        intro q hq
        cases hq
        split <;> assumption
      rw [overlapsFrom, overlap_eq hp hs, ok_bind, last_eq hp, ok_bind, last_eq hs, ok_bind]
      simp only [ih hfurther hrest]
      rfl

theorem crcFindings_eq [Algorithms] (s : Section) : crcFindings (.of s) = Image.crcFindings s := by
  rw [crcFindings, Image.crcFindings]
  exact if_congr Section.selfChecked_iff.symm rfl rfl

/-! ### Reading -/

/-- An image with what is said about it. -/
def Parsed.of [Algorithms] (i : Image) : Parsed :=
  ⟨i, i.dtoc, i.encrypted, i.sections.map .of, i.diagnostics⟩

theorem collectAll_after [Algorithms] (hi : i.Anchored) (hd : i.data.length < 2 ^ 63)
    (found : List Diagnostic) : collectAll i i.dtoc i.encrypted (.after i.data i.encrypted found [])
      = .ok (.after i.data i.encrypted found i.placements) := by
  have hbase := hi.base_lt
  have hoffset : i.base + Pointers.offset < 2 ^ 64 := by
    unfold Pointers.offset
    omega
  -- Tables, pointers and entries each add what they announce, whatever has been announced before.
  have htables (announced : List Placement) :
      (i.itoc :: i.dtoc.toList).foldlM (collectTable i.data i.encrypted) (.after i.data i.encrypted found announced)
        = .ok (.after i.data i.encrypted found (announced ++ i.tables.map Image.tableOf)) := by
    rw [List.map_eq_flatMap]
    exact foldlM_after (fun t ht => collectTable_after hi hd ht) announced
  have hpointed (announced : List Placement) :
      Image.pointedTo.foldlM (fun l r => collectPointed i i.encrypted l r.1 r.2.1)
          (.after i.data i.encrypted found announced)
        = .ok (.after i.data i.encrypted found (announced ++ i.pointerPlacements)) := by
    rw [Image.pointerPlacements, List.filterMap_eq_flatMap_toList]
    exact foldlM_after (fun r hr => collectPointed_after hi hd hr) announced
  have hentries (announced : List Placement) :
      (i.itoc :: i.dtoc.toList).foldlM (collectEntries i i.encrypted) (.after i.data i.encrypted found announced)
        = .ok (.after i.data i.encrypted found (announced ++ i.tables.flatMap (Image.entriesOf i.base))) :=
    foldlM_after (fun t _ => collectEntries_after hi hd t) announced
  rw [collectAll, add_eq hoffset, ok_bind, collect_after hd, ok_bind, htables, ok_bind, hpointed, ok_bind,
    hentries, Image.placements, Image.tables]
  simp only [List.nil_append, List.map_cons, List.flatMap_cons, List.cons_append, List.append_assoc]
  rfl

theorem survey_eq [Algorithms] (hi : i.Anchored) (hd : i.data.length < 2 ^ 63) :
    survey i (i.pointerFindings ++ i.itocFindings) = .ok (.of i) := by
  let found := i.pointerFindings ++ i.itocFindings ++ i.dtocFindings
  have hencrypted : i.itoc.toc.entries.anyM (entryHas TocEntry.encryptedField) = .ok i.encrypted :=
    anyM_eq fun e _ => entryHas_eq _ e
  have hcollected : collectAll i i.dtoc i.encrypted ⟨[], found⟩
      = .ok (.after i.data i.encrypted found i.placements) := by
    have hstart : (⟨[], found⟩ : Layout) = .after i.data i.encrypted found [] := by simp [Layout.after]
    rw [hstart, collectAll_after hi hd]
  have hlast : ∀ s ∈ i.sections, s.last < 2 ^ 64 := fun s hs => (Image.last_lt_of_mem_sections hd hs).2.2
  have hsorted : sorted (Layout.after i.data i.encrypted found i.placements).sections
      = .ok (i.sections.map .of) := sorted_eq fun s hs => hlast s (List.mem_mergeSort.2 hs)
  have hchecks : (i.sections.map Loaded.of).flatMap crcFindings = i.sections.flatMap Image.crcFindings := by
    rw [List.flatMap_map]
    exact congrArg (List.flatMap · _) (funext crcFindings_eq)
  rw [survey, readDtoc_eq hi hd, ok_bind, hencrypted]
  dsimp only
  rw [ok_bind, hcollected, ok_bind, hsorted, ok_bind, map_subject_of,
    overlapsFrom_eq (by simp) hlast, ok_bind, hchecks]
  rfl

/-- **Reading an image has no fault**, whatever the image is. It gives the image and all that `Image`
says about it, or it is refused for the same reason. -/
theorem parse_eq [Algorithms] (hd : data.length < 2 ^ 63) :
    parse data = settled ((Image.parse data).map .of) := by
  rw [parse, readAnchors_eq hd]
  cases hparse : Image.parse data with
  | error e => rfl
  | ok i =>
    obtain ⟨rfl, hi⟩ := Image.anchored_of_parse hparse
    show (survey i (i.pointerFindings ++ i.itocFindings) : Step ParseError Parsed) = _
    rw [survey_eq hi hd]
    rfl

/-- **Only a missing anchor keeps an image from being read**, and the first one is the reason. Whatever else is
looked at, the device's table, the entries, the sections with their CRCs and contents and their overlaps, it can
be found to be wrong, but the image is read all the same. -/
theorem parse_missingAnchor? [Algorithms] (hd : data.length < 2 ^ 63) :
    match Image.missingAnchor? data with
    | some e => parse data = settled (.error e)
    | none => ∃ i, parse data = settled (.ok (.of i)) := by
  have hparse := Image.parse_missingAnchor? data
  rw [parse_eq hd]
  cases hmissing : Image.missingAnchor? data with
  | some e =>
    rw [hmissing] at hparse
    simp only at hparse
    rw [hparse]
    rfl
  | none =>
    rw [hmissing] at hparse
    obtain ⟨i, hi⟩ := hparse
    rw [hi]
    exact ⟨i, rfl⟩

end FlashImage.Machine

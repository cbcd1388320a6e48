import FlashImage.Proofs.Image.Inventory

/-!
# The pointer array and the tables describe themselves

The structures that tell where everything else is are sections too. Each of them is read twice: once from
the open end of the image, to find the sections at all, and once from its own section, to show it. The
second reading sees the range that the first one took and nothing behind it, be it that a table ends with
a marker, with the end of the image, or with a record that is cut off; so what is shown is what was found
(`Image.describes_pointerArraySection`, `Image.describes_tableSection`). They are never encrypted, so the
same holds in an encrypted image.

That their ranges lie in the image is known before they are announced, so none of them is reported as cut
off (`Image.truncated_notMem_diagnostics`).
-/

namespace FlashImage

/-! ### Sections that are shown in full -/

/-- **A section is described** by a form: it is shown in that form, all of its bytes are contents, and they
are what the form is stored as. -/
structure Section.Describes [Algorithms] (s : Section) (form : Projection) : Prop where
  projection : s.projection = form
  isDecoded : s.projection.isDecoded = true
  encode : form.encode = .ok s.data
  encrypted : s.encrypted = false
  stripped : s.stripped = false
  findings : s.findings = []

/-- The types of sections that report on their own records are known and carry no CRC, and there are two
forms among them. -/
theorem Section.type_of_selfChecked {s : Section} (h : s.selfChecked = true) :
    s.code.type?.isNone = false ∧ s.type.place = .none ∧
      (s.type.family = .pointers ∨ s.type.family = .toc) := by
  rw [Section.type]
  rcases selfChecked_iff.1 h with hcode | hcode | hcode <;> rw [hcode]
  · exact ⟨rfl, rfl, .inl rfl⟩
  · exact ⟨rfl, rfl, .inr rfl⟩
  · exact ⟨rfl, rfl, .inr rfl⟩

/-- **A section that reports on its own records is described** by the form that its bytes are read in, if
the form gives all of them back. -/
theorem Section.describes_of_decode [Algorithms] {s : Section} {form : Projection}
    (hself : s.selfChecked = true) (hdecode : Projection.decode s.type.family s.data = .ok form)
    (hencode : form.encode = .ok s.data) : s.Describes form := by
  obtain ⟨hknown, hplace, hfamily⟩ := type_of_selfChecked hself
  have hmisfits : s.misfits = false := by
    rcases hfamily with h | h <;> rw [misfits, h] <;> rfl
  obtain ⟨hdecoded, hkeeps⟩ : form.isDecoded = true ∧ form.keepsBytes = false := by
    rcases hfamily with h | h <;> rw [h] at hdecode <;>
      obtain ⟨_, -, rfl⟩ := exists_of_map_eq_ok hdecode <;> exact ⟨rfl, rfl⟩
  have hencrypted : s.encrypted = false := by
    rw [encrypted, hself]
    exact Bool.and_false _
  have hproject : s.project = .ok form := by
    rw [project, hmisfits, payload_of_place hplace, hdecode]
    show (if form.keepsBytes then pure form else _) = Except.ok form
    rw [hkeeps, hencode]
    exact if_pos rfl
  have hprojection : s.projection = form := by
    rw [projection, hknown, hencrypted, hproject]
    rfl
  refine ⟨hprojection, hprojection ▸ hdecoded, hencode, hencrypted, ?_, ?_⟩
  · rw [stripped, place_of_type hplace]
    rfl
  · rw [findings, hknown, hencrypted, hproject]
    rfl

namespace Image

variable {i : Image}

/-- The section of the pointer array is as long as the array, and is shown as the pointers that were
read. -/
theorem describes_pointerArraySection [Algorithms] (hi : i.Anchored) :
    i.pointerArraySection.size = Pointers.size ∧
      i.pointerArraySection.Describes (.pointers i.pointers) := by
  obtain ⟨hsize, hdecode⟩ := Pointers.decode_spec hi.pointers
  have hdata : i.pointerArraySection.data
      = (i.data.drop (i.base + Pointers.offset)).take Pointers.size := rfl
  have hlength : i.pointerArraySection.data.length = Pointers.size := by
    rw [hdata, List.length_take, Nat.min_eq_left hsize]
  have hencode : i.pointers.encode = i.pointerArraySection.data := by
    rw [← hdata] at hdecode
    calc i.pointers.encode
        = i.pointerArraySection.data.take Pointers.size := Pointers.encode_of_decode hdecode
      _ = i.pointerArraySection.data := List.take_of_length_le (Nat.le_of_eq hlength)
  refine ⟨hlength, Section.describes_of_decode rfl ?_ (congrArg Except.ok hencode)⟩
  show ((Pointers.decode i.pointerArraySection.data).mapError _).map _ = _
  rw [hdata, hdecode]
  rfl

/-- **The section of a table is as long as the table**, and is shown as the table that was read. -/
theorem describes_tableSection [Algorithms] (hi : i.Anchored) {t : PlacedToc} (ht : t ∈ i.tables) :
    (i.tableSection t).size = t.toc.size ∧ (i.tableSection t).Describes (.toc t.toc) := by
  obtain ⟨hsize, hencode, hdecode⟩ := Toc.decode_spec (decode_of_mem_tables hi ht).2
  have hdata : (i.tableSection t).data = (i.data.drop t.address).take t.toc.size := rfl
  have hfamily : (i.tableSection t).type.family = .toc := by
    have hcode (k : TocKind) : ((tocCode k).type?.getD (.image (tocCode k).name .entry .generic)).family
        = .toc := by
      cases k <;> rfl
    exact hcode t.toc.kind
  refine ⟨?_, Section.describes_of_decode ?_ ?_ ?_⟩
  · rw [Section.size, hdata, List.length_take, Nat.min_eq_left hsize]
  · rw [Section.selfChecked, hfamily]
  · rw [hfamily, hdata]
    show ((Toc.decode _).mapError _).map _ = _
    rw [hdecode]
    rfl
  · rw [hdata, ← hencode]
    rfl

/-- **Nothing reports the pointer array or a table as cut off.** -/
theorem truncated_notMem_diagnostics [Algorithms] (hi : i.Anchored) {code : SectionCode}
    (hcode : code = SectionCode.pointers ∨ code = SectionCode.itoc ∨ code = SectionCode.dtoc)
    (offset length size : Nat) : .truncated code.name offset length size ∉ i.diagnostics := by
  intro hmem
  have hfiltered : .truncated code.name offset length size ∈ i.diagnostics.filter Diagnostic.isTruncated :=
    List.mem_filter.2 ⟨hmem, rfl⟩
  rw [(filter_isTruncated_diagnostics_perm hi).mem_iff, List.mem_append] at hfiltered
  rcases hfiltered with hend | hcut
  · -- A missing end marker is reported in words that name no type.
    obtain ⟨t, -, hend⟩ := List.mem_flatMap.1 hend
    rw [Toc.endFindings] at hend
    split at hend
    · cases hend
    · have hname := (Diagnostic.truncated.inj (List.mem_singleton.1 hend)).1
      cases hkind : t.toc.kind <;> rw [hkind] at hname <;>
        rcases hcode with rfl | rfl | rfl <;> exact absurd hname (by decide)
  · -- What is cut off came of a pointer or an entry, and has another type.
    obtain ⟨o, ho, hfinding⟩ := List.mem_filterMap.1 hcut
    obtain ⟨hpointers, hitoc, hdtoc⟩ := code_of_mem_outcomes ho
    cases o with
    | found s => cases hfinding
    | cutOff code' _ _ _ =>
      have hname := (Diagnostic.truncated.inj (Option.some.inj hfinding)).1
      obtain rfl := SectionCode.name_injective hname
      rcases hcode with h | h | h
      · exact hpointers h
      · exact hitoc h
      · exact hdtoc h

/-! ### The result -/

/-- **The structures of an image describe themselves.** -/
structure SelfDescribing [Algorithms] (i : Image) : Prop where
  /-- The pointer array is a section once. -/
  pointers : ∃ s, i.sectionsOfType SectionCode.pointers = [s] ∧ s.offset = i.pointersOffset ∧
    s.size = Pointers.size ∧ s.Describes (.pointers i.pointers)
  /-- The image's own table is a section once. -/
  itoc : ∃ s, i.sectionsOfType SectionCode.itoc = [s] ∧ s.offset = i.itoc.address ∧
    s.size = i.itoc.toc.size ∧ s.Describes (.toc i.itoc.toc)
  /-- So is the table of the device, if there is one. -/
  dtoc : ∀ t, i.dtoc = some t → ∃ s, i.sectionsOfType SectionCode.dtoc = [s] ∧ s.offset = t.address ∧
    s.size = t.toc.size ∧ s.Describes (.toc t.toc)
  dtoc_iff : (∃ s ∈ i.sections, s.code = SectionCode.dtoc) ↔ i.dtoc.isSome = true
  /-- None of them is reported as cut off. -/
  not_truncated : ∀ code, code = SectionCode.pointers ∨ code = SectionCode.itoc ∨
    code = SectionCode.dtoc → ∀ offset length size,
    .truncated code.name offset length size ∉ i.diagnostics

/-- **Whatever image is read, its structures describe themselves.** -/
theorem selfDescribing_of_parse [Algorithms] {data : Bytes} (h : Image.parse data = .ok i) :
    i.SelfDescribing := by
  obtain ⟨-, hi⟩ := anchored_of_parse h
  obtain ⟨hpointers, hitoc, hdtoc⟩ := sectionsOfType_eq hi
  obtain ⟨hsize, hdescribes⟩ := describes_pointerArraySection hi
  obtain ⟨hitocSize, hitocDescribes⟩ := describes_tableSection hi (t := i.itoc) List.mem_cons_self
  refine ⟨⟨_, hpointers, rfl, hsize, hdescribes⟩, ⟨_, hitoc, rfl, hitocSize, hitocDescribes⟩, ?_, ?_,
    fun code hcode => truncated_notMem_diagnostics hi hcode⟩
  · intro t ht
    obtain ⟨htSize, htDescribes⟩ := describes_tableSection hi (t := t)
      (List.mem_cons_of_mem _ (Option.mem_toList.2 ht))
    rw [ht] at hdtoc
    exact ⟨_, hdtoc, rfl, htSize, htDescribes⟩
  · have hexists : (∃ s ∈ i.sections, s.code = SectionCode.dtoc) ↔
        i.sectionsOfType SectionCode.dtoc ≠ [] := by
      simp [sectionsOfType]
    rw [hexists, hdtoc, ne_eq, List.map_eq_nil_iff]
    cases i.dtoc <;> simp

/-- The pointer array and the table of the small image describe themselves. -/
theorem selfDescribing_of_parse_smallImage : ∃ i, Image.parse smallImage = .ok i ∧
    @SelfDescribing .standard i := by
  obtain ⟨i, h⟩ := exists_parse_smallImage
  exact ⟨i, h, @selfDescribing_of_parse i .standard smallImage h⟩

end Image

end FlashImage

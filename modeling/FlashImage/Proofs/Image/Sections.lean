import FlashImage.Proofs.Image.Reading

/-!
# Where the sections of an image are

A section comes from an announcement whose range lies in the image, so it holds the bytes that stand
there (`Image.place_of_mem_sections`), and sorting puts the sections in the order of their ranges
(`Image.pairwise_sections`).
-/

namespace FlashImage

/-- The bytes of an image that was read are the bytes it was read from. -/
theorem Image.data_of_parse {data : Bytes} {i : Image} (h : Image.parse data = .ok i) :
    i.data = data :=
  (Image.parse_eq_ok_iff.1 h).data

/-- **What an announcement gives** is cut out of the image, and all of its range is there. -/
theorem Placement.exists_of_section? {p : Placement} {data : Bytes} {encrypted : Bool} {s : Section}
    (h : p.section? data encrypted = some s) :
    ∃ length, p.length = some length ∧ length ≠ 0 ∧ p.offset + length ≤ data.length
      ∧ s = p.sectionOf data encrypted length := by
  unfold Placement.section? at h
  split at h
  · cases h
  · next length hlength =>
    split at h
    · next hfit =>
      cases h
      exact ⟨length, hlength, hfit.1, hfit.2, rfl⟩
    · cases h

/-- Whatever an announcement gives lies in the image, holds the bytes there, and is not empty. -/
theorem Placement.section?_eq_some {p : Placement} {data : Bytes} {encrypted : Bool} {s : Section}
    (h : p.section? data encrypted = some s) :
    s.data ≠ [] ∧ s.last ≤ data.length ∧ s.data = data.slice s.offset s.size := by
  obtain ⟨length, -, hpos, hfit, rfl⟩ := exists_of_section? h
  have hlen : (data.slice p.offset length).length = length := Bytes.length_slice_of_le hfit
  refine ⟨?_, ?_, ?_⟩
  · exact List.ne_nil_of_length_pos (by rw [Placement.sectionOf, hlen]; omega)
  · simp only [Placement.sectionOf, Section.last, hlen]
    exact hfit
  · simp only [Placement.sectionOf, Section.size, hlen]

/-- Every section of an image was announced. -/
theorem Image.exists_placement {i : Image} {s : Section} (hs : s ∈ i.sections) :
    ∃ p ∈ i.placements, p.section? i.data i.encrypted = some s := by
  rw [Image.sections, List.mem_mergeSort, List.mem_filterMap] at hs
  exact hs

/-- A section of an image lies in it, holds the bytes there, and is not empty. -/
theorem Image.place_of_mem_sections {i : Image} {s : Section} (hs : s ∈ i.sections) :
    s.data ≠ [] ∧ s.last ≤ i.data.length ∧ s.data = i.data.slice s.offset s.size := by
  obtain ⟨p, -, hp⟩ := Image.exists_placement hs
  exact Placement.section?_eq_some hp

/-- The sections of an image stand by their start, and those that start together by their end. -/
theorem Image.pairwise_sections (i : Image) :
    i.sections.Pairwise fun s t => s.offset < t.offset ∨ s.offset = t.offset ∧ s.last ≤ t.last := by
  -- `mergeSort` asks for an order that is transitive and total, which `inOrder` is on any sections.
  have sorted : i.sections.Pairwise fun s t => Image.inOrder s t = true := by
    refine List.pairwise_mergeSort ?_ ?_ _
    · intro s t u hst htu
      simp only [Image.inOrder, Bool.or_eq_true, Bool.and_eq_true, decide_eq_true_eq] at hst htu ⊢
      omega
    · intro s t
      simp only [Image.inOrder, Bool.or_eq_true, Bool.and_eq_true, decide_eq_true_eq]
      omega
  refine sorted.imp ?_
  intro s t hst
  simpa [Image.inOrder] using hst

/-- The sections of an image stand by their start. -/
theorem Image.pairwise_offset (i : Image) :
    i.sections.Pairwise fun s t => s.offset ≤ t.offset := by
  refine i.pairwise_sections.imp ?_
  intro s t hst
  omega

/-! ### A small image -/

/-- **A small image**: a pointer array in which only the table of contents is present, the table with
two entries, and erased flash at the end. The section of the first entry reaches past the end of the
table, and the section of the second, of unknown type, lies in both of them. -/
def smallImage : Bytes :=
  Magic.pattern ++ List.replicate 16 0
    ++ Pointers.encode ⟨[.absent, .absent, ⟨152, 0, 0⟩] ++ List.replicate 13 .absent⟩
    ++ Bytes.ofDwords [TocKind.itoc.signature, 0, 0, 0, 0, 0, 0, 0]
    ++ Bytes.ofDwords [0xe600000c, 0, 0, 0, 0, 120, 0, 0]
    ++ Bytes.ofDwords [0x7f000001, 0, 0, 0, 0, 122, 0, 0]
    ++ List.replicate 32 0xff ++ List.replicate 16 0xff

/-- The small image can be read. -/
theorem exists_parse_smallImage : ∃ i, Image.parse smallImage = .ok i := by
  have hok : (Image.parse smallImage).toBool = true := by decide +kernel
  cases h : Image.parse smallImage with
  | ok i => exact ⟨i, rfl⟩
  | error e => rw [h] at hok; cases hok

end FlashImage

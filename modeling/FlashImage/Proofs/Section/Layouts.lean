import FlashImage.Proofs.Machine.Encoders
import FlashImage.Proofs.Toc.RoundTrip
import Mathlib.Algebra.GroupWithZero.Nat

/-!
# What a projection is written as

Whatever it is that a projection says, its stored form is a row of parts (`Projection.layout`). Most parts
are as long as they happen to be. Only texts and reserved areas of a fixed width can fail to fit: a text
that has more bytes than its field, and an area that does not have exactly as many as it should.

So writing a row of parts is either refused, with the first part that does not fit
(`Part.writeAll_of_misfit`), or gives the parts one behind the other (`Part.exists_writeAll`). A projection
that is read from an edited file can say anything, and nothing else can go wrong with it. In particular no
buffer is too short for what is written to it, even if the lengths in the projection contradict each other:
each encoder sums up the same parts that it writes.
-/

namespace FlashImage

/-! ### Parts -/

/-- **A part of a stored form.** -/
inductive Part where
  /-- Bytes, as many as there are. -/
  | plain (bs : Bytes)
  /-- Text in a field of a fixed width. -/
  | text (name : String) (t : FieldText) (width : Nat)
  /-- A reserved area of a fixed width. -/
  | area (name : String) (bs : Bytes) (width : Nat)
  deriving DecidableEq

namespace Part

/-- The bytes that a part is given. -/
def contents : Part → Bytes
  | plain bs => bs
  | text _ t _ => t.bytes
  | area _ bs _ => bs

/-- The number of bytes of a part when it is written. -/
def width : Part → Nat
  | plain bs => bs.length
  | text _ _ width => width
  | area _ _ width => width

/-- What a part is called when it is refused. -/
def name : Part → String
  | plain _ => ""
  | text name _ _ => name
  | area name _ _ => name

/-- **Whether a part fits**: a text has at most as many bytes as its field, and an area exactly as many. -/
def Fits : Part → Prop
  | plain _ => True
  | text _ t width => t.bytes.length ≤ width
  | area _ bs width => bs.length = width

instance : (p : Part) → Decidable p.Fits
  | plain _ => inferInstanceAs (Decidable True)
  | text _ _ _ => inferInstanceAs (Decidable (_ ≤ _))
  | area _ _ _ => inferInstanceAs (Decidable (_ = _))

/-- **Writing a part.** -/
def write : Part → Except AccessError Bytes
  | plain bs => .ok bs
  | text name t width => t.toField name width
  | area name bs width => Bytes.exactWidth name bs width

/-- The refusal of a part that does not fit: how many bytes it has, and how many bits there are for them. -/
def overflow (p : Part) : AccessError := .fieldOverflow p.name p.contents.length (p.width * 8)

/-- A part that fits is written with its width. -/
theorem exists_write_of_fits {p : Part} (h : p.Fits) : ∃ bs, p.write = .ok bs ∧ bs.length = p.width := by
  cases p with
  | plain bs => exact ⟨bs, rfl, rfl⟩
  | text name t width =>
    have hwrite : t.toField name width = .ok _ := if_neg (Nat.not_lt.2 h)
    exact ⟨_, hwrite, FieldText.length_of_toField hwrite⟩
  | area name bs width => exact ⟨bs, if_pos h, h⟩

/-- A part that does not fit is refused. -/
theorem write_of_not_fits {p : Part} (h : ¬ p.Fits) (hwidth : p.width * 8 < 2 ^ 32) :
    p.write = .error p.overflow := by
  rw [overflow, ← Nat.mod_eq_of_lt hwidth]
  cases p with
  | plain bs => exact absurd trivial h
  | text name t width => exact if_pos (Nat.lt_of_not_le h)
  | area name bs width => exact if_neg h

/-- **Writing a row of parts**, one behind the other. -/
def writeAll : List Part → Except AccessError Bytes
  | [] => .ok []
  | p :: ps => do return (← p.write) ++ (← writeAll ps)

/-- The first part of a row that does not fit. -/
def misfit? (ps : List Part) : Option Part := ps.find? fun p => ¬ p.Fits

theorem misfit?_eq_none_iff {ps : List Part} : misfit? ps = none ↔ ∀ p ∈ ps, p.Fits := by
  simp [misfit?]

/-- **A row with a misfit is refused**, with the first one. -/
theorem writeAll_of_misfit {ps : List Part} {p : Part} (h : misfit? ps = some p)
    (hwidth : ∀ p ∈ ps, ¬ p.Fits → p.width * 8 < 2 ^ 32) : writeAll ps = .error p.overflow := by
  induction ps with
  | nil => cases h
  | cons q ps ih =>
    obtain ⟨hq, hwidth⟩ := List.forall_mem_cons.1 hwidth
    by_cases hfits : q.Fits
    · -- Whatever the first part is written as, the misfit is behind it.
      obtain ⟨bs, hwrite, -⟩ := exists_write_of_fits hfits
      rw [misfit?, List.find?_cons_of_neg (by simpa using hfits)] at h
      rw [writeAll, hwrite, ok_bind, ih h hwidth]
      rfl
    · rw [misfit?, List.find?_cons_of_pos (by simpa using hfits)] at h
      cases h
      rw [writeAll, write_of_not_fits hfits (hq hfits)]
      rfl

/-- **A row without a misfit is written**, and as long as its parts together. -/
theorem exists_writeAll {ps : List Part} (h : ∀ p ∈ ps, p.Fits) :
    ∃ bs, writeAll ps = .ok bs ∧ bs.length = (ps.map width).sum := by
  induction ps with
  | nil => exact ⟨[], rfl, rfl⟩
  | cons p ps ih =>
    obtain ⟨hp, h⟩ := List.forall_mem_cons.1 h
    obtain ⟨bs, hwrite, hlength⟩ := exists_write_of_fits hp
    obtain ⟨rest, hrest, hlengths⟩ := ih h
    refine ⟨bs ++ rest, by rw [writeAll, hwrite, ok_bind, hrest]; rfl, ?_⟩
    rw [List.length_append, hlength, hlengths, List.map_cons, List.sum_cons]

/-- Parts without a width of their own are written as they are. -/
theorem writeAll_plain (parts : List Bytes) : writeAll (parts.map plain) = .ok parts.flatten := by
  induction parts with
  | nil => rfl
  | cons part parts ih =>
    rw [List.map_cons, writeAll, ih]
    rfl

end Part

/-! ### The parts of each form -/

/-- **A description**: numbers between texts and reserved areas, and whatever follows the block. -/
def ImageInfo.layout (i : ImageInfo) : List Part :=
  [.plain i.encodeHead, .text "psid" i.psid 16,
    .plain (Bytes.u32 i.reserved2 ++ Bytes.u16 i.reserved3 ++ Bytes.u16 i.vsdVendorId),
    .text "vsd" i.vsd 208, .plain (Bytes.ofDwords [i.imageSize.1, i.imageSize.2]),
    .area "reserved4" i.reserved4 16, .plain i.encodeHardwareIds, .area "reserved5" i.reserved5 12,
    .text "prod_ver" i.prodVer 16, .text "name" i.name 64, .text "description" i.description 256,
    .area "reserved6" i.reserved6 368, .plain i.extra]

def DeviceInfo.layout (i : DeviceInfo) : List Part :=
  let (s0, s1, s2, s3) := i.signature
  [.plain (Bytes.ofDwords [s0, s1, s2, s3] ++ Bytes.u32 i.version), .area "reserved0" i.reserved0 12,
    .plain (i.guids.encode ++ i.macs.encode), .area "reserved1" i.reserved1 144, .text "vsd" i.vsd 208,
    .area "reserved2" i.reserved2 92]

def MfgInfo.layout (m : MfgInfo) : List Part :=
  [.text "psid" m.psid 16, .area "reserved0" m.reserved0 12,
    .plain (Bytes.u32 m.version ++ m.guids.encode ++ m.macs.encode), .plain m.reserved1]

def ToolsArea.layout (t : ToolsArea) : List Part :=
  [.plain (Bytes.ofDwords [t.version, t.binVersion, t.slotSize]), .area "reserved" t.reserved 48,
    .plain (Bytes.u16 t.crcReserved ++ Bytes.u16 t.crc)]

/-- The parts of a key. -/
def PublicKey.parts (k : PublicKey) : List Bytes := [Bytes.u32 k.exponent, k.uuid, k.key]

namespace Projection

/-- **The parts of a projection** without any of a fixed width, if it has only such parts. -/
def plainParts : Projection → List Bytes
  | pointers p => p.records.map Pointer.encode
  | toc t => t.header.encode :: t.records.map TocEntry.encode
  | boot2 b => [Bytes.u32 b.header, Bytes.u32 b.sizeDwords, b.code, Bytes.u32 b.reserved]
  | hashesTable t =>
    Bytes.ofDwords [t.version, t.count, t.dwords, t.reserved] :: t.entries.map HashEntry.encode
      ++ [t.storage]
  | resetInfo r => Bytes.u32 r.capabilities :: r.versions.map Version.encode ++ [r.reserved]
  | imageSignature s => [Bytes.u32 s.type, s.signature, s.padding]
  | publicKeys ks => ks.keys.flatMap PublicKey.parts ++ [ks.tail]
  | forbiddenVersions f => Bytes.u32 f.count :: f.versions.map Version.encode ++ [f.padding]
  | debugIni i => [i.compressed]
  | debugParams p => [p.stored]
  | blob b => [b.data]
  | imageInfo _ | deviceInfo _ | mfgInfo _ | toolsArea _ | raw _ => []

/-- **The parts of a projection**, in the order in which they are stored. -/
def layout : Projection → List Part
  | imageInfo i => i.layout
  | deviceInfo i => i.layout
  | mfgInfo m => m.layout
  | toolsArea t => t.layout
  | p => p.plainParts.map .plain

/-! ### Projections are written part by part -/

/-- A key is its parts. -/
theorem flatMap_encode_keys (keys : List PublicKey) :
    keys.flatMap PublicKey.encode = (keys.flatMap PublicKey.parts).flatten := by
  induction keys with
  | nil => rfl
  | cons k keys ih =>
    rw [List.flatMap_cons, List.flatMap_cons, List.flatten_append, ih]
    simp [PublicKey.encode, PublicKey.parts]

/-- **A projection is written part by part.** -/
theorem encode_eq_writeAll {p : Projection} (h : p.isDecoded = true) :
    p.encode = Part.writeAll p.layout := by
  -- Without parts of a fixed width, it is the parts one behind the other.
  have hplain {p : Projection} (hlayout : p.layout = p.plainParts.map .plain)
      (hencode : p.encode = .ok p.plainParts.flatten) : p.encode = Part.writeAll p.layout := by
    rw [hlayout, Part.writeAll_plain, hencode]
  cases p with
  | raw note => cases h
  | imageInfo i =>
    simp only [encode, layout, ImageInfo.encode, ImageInfo.layout, Part.writeAll, Part.write, ok_bind,
      bind_assoc, pure_bind, List.append_assoc, List.append_nil]
  | deviceInfo i =>
    -- The last area is what is left of the block.
    have hlast : DeviceInfo.size - 416 = 92 := rfl
    simp only [encode, layout, DeviceInfo.encode, DeviceInfo.layout, hlast, Part.writeAll, Part.write,
      ok_bind, bind_assoc, pure_bind, List.append_assoc, List.append_nil]
  | mfgInfo m =>
    simp only [encode, layout, MfgInfo.encode, MfgInfo.layout, Part.writeAll, Part.write, ok_bind,
      bind_assoc, pure_bind, List.append_assoc, List.append_nil]
  | toolsArea t =>
    have hlast : ToolsArea.crcOffset - 12 = 48 := rfl
    simp only [encode, layout, ToolsArea.encode, ToolsArea.layout, hlast, Part.writeAll, Part.write,
      ok_bind, bind_assoc, pure_bind, List.append_assoc, List.append_nil]
  | pointers p => exact hplain rfl (by simp [encode, plainParts, Pointers.encode, List.flatMap_def])
  | toc t => exact hplain rfl (by simp [encode, plainParts, Toc.encode, List.flatMap_def])
  | boot2 b => exact hplain rfl (by simp [encode, plainParts, Boot2.encode])
  | hashesTable t =>
    exact hplain rfl (by simp [encode, plainParts, HashesTable.encode, List.flatMap_def])
  | resetInfo r =>
    exact hplain rfl (by
      simp [encode, plainParts, ResetInfo.encode, Version.encodeAll, List.flatMap_def])
  | imageSignature s => exact hplain rfl (by simp [encode, plainParts, ImageSignature.encode])
  | publicKeys ks =>
    exact hplain rfl (by simp [encode, plainParts, PublicKeys.encode, flatMap_encode_keys])
  | forbiddenVersions f =>
    exact hplain rfl (by
      simp [encode, plainParts, ForbiddenVersions.encode, Version.encodeAll, List.flatMap_def])
  | debugIni i => exact hplain rfl (by simp [encode, plainParts])
  | debugParams p => exact hplain rfl (by simp [encode, plainParts])
  | blob b => exact hplain rfl (by simp [encode, plainParts])

/-- **How long the parts of a projection are together.** -/
def storedLength : Projection → Nat
  | pointers p => 8 * p.records.length
  | toc t => 32 * (1 + t.records.length)
  | imageInfo i => 1024 + i.extra.length
  | deviceInfo _ => 508
  | mfgInfo m => 64 + m.reserved1.length
  | boot2 b => 12 + b.code.length
  | hashesTable t => 16 + 8 * t.entries.length + t.storage.length
  | resetInfo r => 4 + 8 * r.versions.length + r.reserved.length
  | imageSignature s => 4 + s.signature.length + s.padding.length
  | publicKeys ks => (ks.keys.map fun k => 4 + k.uuid.length + k.key.length).sum + ks.tail.length
  | forbiddenVersions f => 4 + 8 * f.versions.length + f.padding.length
  | debugIni i => i.compressed.length
  | debugParams p => p.stored.length
  | blob b => b.data.length
  | toolsArea _ => 64
  | raw _ => 0

/-- Records of one size in a row. -/
theorem sum_length_records {α : Type} {encode : α → Bytes} {size : Nat}
    (hsize : ∀ x, (encode x).length = size) (xs : List α) :
    ((xs.map encode).map List.length).sum = size * xs.length := by
  rw [List.map_map, Function.comp_def]
  simp only [hsize, List.map_const', List.sum_replicate_nat]
  exact Nat.mul_comm _ _

/-- A key is as long as its parts. -/
theorem sum_length_keys (keys : List PublicKey) :
    ((keys.flatMap PublicKey.parts).map List.length).sum
      = (keys.map fun k => 4 + k.uuid.length + k.key.length).sum := by
  induction keys with
  | nil => rfl
  | cons k keys ih =>
    rw [List.flatMap_cons, List.map_append, List.sum_append, ih, List.map_cons, List.sum_cons]
    simp only [PublicKey.parts, List.map_cons, List.map_nil, List.sum_cons, List.sum_nil,
      Bytes.length_u32]
    omega

/-- **A projection is as long as its parts.** -/
theorem sum_width_layout (p : Projection) : (p.layout.map Part.width).sum = p.storedLength := by
  have hplain (parts : List Bytes) :
      ((parts.map Part.plain).map Part.width).sum = (parts.map List.length).sum := by
    rw [List.map_map]
    rfl
  -- A form is a row of fields, whose widths are added up, or of plain parts, whose lengths are.
  cases p with
  | imageInfo i =>
    simp only [layout, ImageInfo.layout, ImageInfo.encodeHead, ImageInfo.encodeHardwareIds, storedLength,
      List.map_cons, List.map_nil, List.sum_cons, List.sum_nil, Part.width, List.length_append,
      Bytes.length_u32, Bytes.length_u16, Bytes.length_ofDwords, List.length_cons, List.length_nil]
    omega
  | deviceInfo i =>
    simp only [layout, DeviceInfo.layout, storedLength, List.map_cons, List.map_nil, List.sum_cons,
      List.sum_nil, Part.width, List.length_append, Bytes.length_u32, Bytes.length_ofDwords,
      UidBlock.length_encode, UidBlock.size, List.length_cons, List.length_nil]
    rfl
  | mfgInfo m =>
    simp only [layout, MfgInfo.layout, storedLength, List.map_cons, List.map_nil, List.sum_cons,
      List.sum_nil, Part.width, List.length_append, Bytes.length_u32, UidBlock.length_encode,
      UidBlock.size]
    omega
  | toolsArea t =>
    simp only [layout, ToolsArea.layout, storedLength, List.map_cons, List.map_nil, List.sum_cons,
      List.sum_nil, Part.width, List.length_append, Bytes.length_u16, Bytes.length_ofDwords, List.length_cons,
      List.length_nil]
    rfl
  | raw note => rfl
  | pointers p => exact (hplain _).trans (sum_length_records Pointer.length_encode p.records)
  | toc t =>
    have hsize (e : TocEntry) : e.encode.length = TocRecord.size := e.record.length_encode
    refine (hplain _).trans ?_
    rw [plainParts, List.map_cons, List.sum_cons, sum_length_records hsize, TocHeader.encode,
      TocRecord.length_encode, storedLength, Nat.mul_add]
    rfl
  | hashesTable t =>
    refine (hplain _).trans ?_
    rw [plainParts, List.map_append, List.sum_append, List.map_cons, List.sum_cons,
      sum_length_records HashEntry.length_encode, Bytes.length_ofDwords]
    rfl
  | resetInfo r =>
    refine (hplain _).trans ?_
    rw [plainParts, List.map_append, List.sum_append, List.map_cons, List.sum_cons,
      sum_length_records Version.length_encode, Bytes.length_u32]
    rfl
  | forbiddenVersions f =>
    refine (hplain _).trans ?_
    rw [plainParts, List.map_append, List.sum_append, List.map_cons, List.sum_cons,
      sum_length_records Version.length_encode, Bytes.length_u32]
    rfl
  | boot2 b =>
    refine (hplain _).trans ?_
    simp only [plainParts, storedLength, List.map_cons, List.map_nil, List.sum_cons, List.sum_nil,
      Bytes.length_u32]
    omega
  | imageSignature s =>
    refine (hplain _).trans ?_
    simp only [plainParts, storedLength, List.map_cons, List.map_nil, List.sum_cons, List.sum_nil,
      Bytes.length_u32]
    omega
  | publicKeys ks =>
    refine (hplain _).trans ?_
    rw [plainParts, List.map_append, List.sum_append, sum_length_keys]
    rfl
  | debugIni i => exact hplain _
  | debugParams p => exact hplain _
  | blob b => exact hplain _

/-- The width of a field in bits is a number of 32 bits. -/
theorem width_of_misfit (p : Projection) : ∀ part ∈ p.layout, ¬ part.Fits → part.width * 8 < 2 ^ 32 := by
  have hplain (parts : List Bytes) :
      ∀ part ∈ parts.map Part.plain, ¬ part.Fits → part.width * 8 < 2 ^ 32 := by
    intro part hpart hmisfit
    obtain ⟨bs, -, rfl⟩ := List.mem_map.1 hpart
    exact absurd trivial hmisfit
  cases p with
  | imageInfo i => simp [layout, ImageInfo.layout, Part.Fits, Part.width]
  | deviceInfo i => simp [layout, DeviceInfo.layout, Part.Fits, Part.width]
  | mfgInfo m => simp [layout, MfgInfo.layout, Part.Fits, Part.width]
  | toolsArea t => simp [layout, ToolsArea.layout, Part.Fits, Part.width]
  | _ => exact hplain _

/-- **What is written is as long as its parts.** -/
theorem length_of_encode {p : Projection} {bs : Bytes} (h : p.encode = .ok bs) :
    bs.length = p.storedLength := by
  have hdecoded : p.isDecoded = true := by
    cases p with
    | raw note => cases h
    | _ => rfl
  rw [encode_eq_writeAll hdecoded] at h
  cases hmisfit : Part.misfit? p.layout with
  | none =>
    obtain ⟨bs', hbs, hlength⟩ := Part.exists_writeAll (Part.misfit?_eq_none_iff.1 hmisfit)
    cases h.symm.trans hbs
    exact hlength.trans p.sum_width_layout
  | some part => cases h.symm.trans (Part.writeAll_of_misfit hmisfit p.width_of_misfit)

/-- There is no room for a projection only if it is too long. -/
theorem le_storedLength_of_not_bounded {p : Projection} (h : ¬ Machine.Bounded p) :
    2 ^ 63 ≤ p.storedLength := by
  cases p with
  | imageInfo i => exact Nat.le_of_not_lt h
  | mfgInfo m => exact Nat.le_of_not_lt h
  | boot2 b =>
    have hlarge : 2 ^ 63 ≤ b.code.length + 12 := Nat.le_of_not_lt h
    rwa [Nat.add_comm] at hlarge
  | hashesTable t =>
    have hlarge : 2 ^ 63 ≤ 16 + t.entries.length * 8 + t.storage.length := Nat.le_of_not_lt h
    rwa [Nat.mul_comm] at hlarge
  | resetInfo r =>
    have hlarge : 2 ^ 63 ≤ 4 + r.versions.length * 8 + r.reserved.length := Nat.le_of_not_lt h
    rwa [Nat.mul_comm] at hlarge
  | forbiddenVersions f =>
    have hlarge : 2 ^ 63 ≤ 4 + f.versions.length * 8 + f.padding.length := Nat.le_of_not_lt h
    rwa [Nat.mul_comm] at hlarge
  | _ => exact absurd trivial h

/-! ### What can go wrong when a projection is written -/

/-- **Writing a projection** that may say anything. -/
structure EncodesByParts (p : Projection) : Prop where
  /-- It is refused exactly if some part does not fit, with the first one of these. -/
  refused : ∀ e, p.encode = .error e ↔ ∃ part, Part.misfit? p.layout = some part ∧
    e = .fieldOverflow part.name part.contents.length (part.width * 8)
  /-- If all parts fit, it is as long as all of them together. -/
  written : (∀ part ∈ p.layout, part.Fits) → ∃ bs, p.encode = .ok bs ∧ bs.length = p.storedLength
  /-- Without parts of a fixed width, it is the parts one behind the other. -/
  plain : ∀ parts : List Bytes, p.layout = parts.map .plain → p.encode = .ok parts.flatten
  /-- The buffer it is written to has room for everything that is written to it. -/
  buffers : Machine.Bounded p → Machine.encode p = Machine.settled p.encode

/-- **Only misfits are refused**, whatever a projection says. -/
theorem encodesByParts {p : Projection} (h : p.isDecoded = true) : p.EncodesByParts := by
  have hencode := encode_eq_writeAll h
  refine ⟨fun e => ?_, fun hfits => ?_, fun parts hlayout => ?_, Machine.encode_eq⟩
  · rw [hencode]
    cases hmisfit : Part.misfit? p.layout with
    | none =>
      obtain ⟨bs, hbs, -⟩ := Part.exists_writeAll (Part.misfit?_eq_none_iff.1 hmisfit)
      simp [hbs]
    | some part =>
      rw [Part.writeAll_of_misfit hmisfit p.width_of_misfit]
      simp [Part.overflow, eq_comm]
  · obtain ⟨bs, hbs, hlength⟩ := Part.exists_writeAll hfits
    exact ⟨bs, hencode.trans hbs, hlength.trans p.sum_width_layout⟩
  · rw [hencode, hlayout, Part.writeAll_plain]

/-- **A record with two misfits**: one character too many, and one byte too few. -/
def misfits : MfgInfo where
  psid := .text "MT_0000000000000Ä"
  reserved0 := List.replicate 11 0
  version := 0
  guids := ⟨0, 0, 0⟩
  macs := ⟨0, 0, 0⟩
  reserved1 := []

/-- The first misfit is reported, with the number of its bytes: one of its characters takes two. -/
theorem encodesByParts_misfits : (mfgInfo misfits).isDecoded = true ∧ (mfgInfo misfits).EncodesByParts ∧
    (mfgInfo misfits).layout.map (fun part => decide part.Fits) = [false, false, true, true] ∧
    (mfgInfo misfits).encode = .error (.fieldOverflow "psid" 18 128) := by
  have hparts := encodesByParts (p := mfgInfo misfits) rfl
  have hmisfit : Part.misfit? (mfgInfo misfits).layout = some (.text "psid" misfits.psid 16) := by decide
  exact ⟨rfl, hparts, by decide, (hparts.refused _).2 ⟨_, hmisfit, by decide⟩⟩

end Projection

end FlashImage

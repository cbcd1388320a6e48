import FlashImage.Proofs.Machine.Decoders
import FlashImage.Proofs.Machine.Writes
import FlashImage.Proofs.Section.BitExact

/-!
# Writing contents without fault

A projection is written back to be compared with the contents it was read from, so encoders run on what
decoders gave. Each of them sums up the size of its buffer and lists its writes, some of them at offsets
that depend on how many records there are.
-/

namespace FlashImage.Machine

/-! ### Rows of records -/

/-- **A row of records** is written without fault, side by side, as the records are. -/
theorem writeRows_spec {α : Type} {row : α → Nat → Run (List Write)} (row' : α → Nat → List Write)
    {encode : α → Bytes} {xs : List α} {first size : Nat}
    (hrow : ∀ x, ∀ i < xs.length, row x i = .ok (row' x i))
    (hchain : ∀ x, ∀ i < xs.length, Chain (first + i * size) (first + i * size + size) (row' x i))
    (hparts : ∀ x i, parts (row' x i) = .ok (encode x)) :
    ∃ ws, writeRows row xs = .ok ws ∧ Chain first (first + xs.length * size) ws
      ∧ parts ws = .ok (xs.flatMap encode) := by
  have hrows : ∀ x ∈ xs.zipIdx, row x.1 x.2 = .ok (row' x.1 x.2) := by
    intro x hx
    have hget := List.mk_mem_zipIdx_iff_getElem?.1 hx
    exact hrow x.1 x.2 (List.getElem?_eq_some_iff.1 hget).1
  refine ⟨xs.zipIdx.flatMap fun x => row' x.1 x.2, ?_, chain_rows fun x _ => hchain x,
    parts_rows 0 hparts⟩
  rw [writeRows, mapM_eq hrows, List.flatMap_def]
  rfl

theorem writeDwords_spec {first : Nat} {dwords : List UInt32} (h : first + dwords.length * 4 < 2 ^ 64) :
    ∃ ws, writeDwords first dwords = .ok ws ∧ Chain first (first + dwords.length * 4) ws
      ∧ parts ws = .ok (Bytes.ofDwords dwords) := by
  refine writeRows_spec (fun dword i => [.u32 (first + i * 4) dword]) (fun dword i hi => ?_)
    (fun dword i _ => ⟨rfl, trivial, rfl⟩) (fun dword i => ?_)
  · rw [mul_eq (by omega), ok_bind, add_eq (by omega)]
    rfl
  · exact congrArg Except.ok (List.append_nil _)

theorem writeUid_spec {offset : Nat} (h : offset + 16 < 2 ^ 64) (b : UidBlock) :
    ∃ ws, writeUid offset b = .ok ws ∧ Chain offset (offset + 16) ws ∧ parts ws = .ok b.encode := by
  refine ⟨[.u64 offset b.uid, .u32 (offset + 8) b.allocation, .u32 (offset + 12) b.reserved], ?_,
    ⟨rfl, trivial, rfl, trivial, rfl, trivial, rfl⟩, ?_⟩
  · rw [writeUid, add_eq (by omega), ok_bind, add_eq (by omega)]
    rfl
  · simp [parts, Write.part, UidBlock.encode]

theorem writeVersions_spec {vs : List Version} (h : 4 + vs.length * Version.size < 2 ^ 64) :
    ∃ ws, writeVersions vs = .ok ws ∧ Chain 4 (4 + vs.length * Version.size) ws
      ∧ parts ws = .ok (Version.encodeAll vs) := by
  unfold Version.size at h
  refine writeRows_spec (fun v i => [.u16 (4 + i * 8) v.major, .u16 (4 + i * 8 + 2) v.minor,
      .u16 (4 + i * 8 + 4) v.subminor, .u16 (4 + i * 8 + 6) v.reserved]) (fun v i hi => ?_)
    (fun v i _ => ⟨rfl, trivial, rfl, trivial, rfl, trivial, rfl, trivial, rfl⟩) (fun v i => ?_)
  · unfold Version.size
    rw [mul_eq (by omega), ok_bind, add_eq (by omega), ok_bind, add_eq (by omega), ok_bind,
      add_eq (by omega), ok_bind, add_eq (by omega)]
    rfl
  · simp [parts, Write.part, Version.encode]

theorem writeHashEntries_spec {es : List HashEntry} (h : 16 + es.length * HashEntry.size < 2 ^ 64) :
    ∃ ws, writeHashEntries es = .ok ws ∧ Chain 16 (HashesTable.storageOffset es.length) ws
      ∧ parts ws = .ok (es.flatMap HashEntry.encode) := by
  unfold HashEntry.size at h
  refine writeRows_spec (fun e i => [.u32 (16 + i * 8) e.location, .u32 (16 + i * 8 + 4) e.extent])
    (fun e i hi => ?_) (fun e i _ => ⟨rfl, trivial, rfl, trivial, rfl⟩) (fun e i => ?_)
  · unfold HashEntry.size HashesTable.headerSize
    rw [mul_eq (by omega), ok_bind, add_eq (by omega), ok_bind, add_eq (by omega)]
    rfl
  · simp [parts, Write.part, HashEntry.encode]

/-- A field is as wide as itself. -/
theorem exactWidth_self (name : String) (bs : Bytes) : Bytes.exactWidth name bs bs.length = .ok bs :=
  if_pos rfl

/-! ### Descriptions of images and devices -/

theorem encodeImageInfo_eq {i : ImageInfo} (h : ImageInfo.size + i.extra.length < 2 ^ 63) :
    encodeImageInfo i = settled i.encode := by
  obtain ⟨ws, hws, hchain, hparts⟩ := @writeDwords_spec 0x120
    [i.supportedHwId.1, i.supportedHwId.2.1, i.supportedHwId.2.2.1, i.supportedHwId.2.2.2] (by simp)
  have hsize : add ImageInfo.size i.extra.length = .ok (ImageInfo.size + i.extra.length) :=
    add_eq (by omega)
  rw [encodeImageInfo, hsize, lift_ok, settled_ok_bind]
  dsimp only
  rw [hws, lift_ok, settled_ok_bind, fill_eq]
  · simp only [parts, parts_append, hparts, Write.part, ImageInfo.encode, ok_bind, bind_assoc, pure_bind,
      exactWidth_self]
    simp [ImageInfo.encodeHead, ImageInfo.encodeHardwareIds, Bytes.ofDwords]
  · refine Chain.append (Chain.append ?_ hchain) ?_
    · simp [Chain, Write.offset, Write.width, Write.Countable]
    · simp [Chain, Write.offset, Write.width, Write.Countable, ImageInfo.size]
  · exact h

theorem encodeDeviceInfo_eq (i : DeviceInfo) : encodeDeviceInfo i = settled i.encode := by
  obtain ⟨signature, hsignature, hchain, hparts⟩ := @writeDwords_spec 0
    [i.signature.1, i.signature.2.1, i.signature.2.2.1, i.signature.2.2.2] (by simp)
  obtain ⟨guids, hguids, hguidsChain, hguidsParts⟩ := @writeUid_spec 0x20 (by decide) i.guids
  obtain ⟨macs, hmacs, hmacsChain, hmacsParts⟩ := @writeUid_spec 0x30 (by decide) i.macs
  rw [encodeDeviceInfo]
  dsimp only
  rw [hsignature, lift_ok, settled_ok_bind, hguids, lift_ok, settled_ok_bind, hmacs, lift_ok,
    settled_ok_bind, fill_eq _ (by decide)]
  · simp only [parts, parts_append, hparts, hguidsParts, hmacsParts, Write.part, DeviceInfo.encode, ok_bind,
      bind_assoc, pure_bind]
    simp
  · refine (((hchain.append ?_).append hguidsChain).append hmacsChain).append ?_
    · simp [Chain, Write.offset, Write.width, Write.Countable]
    · simp [Chain, Write.offset, Write.width, Write.Countable, DeviceInfo.size]

theorem encodeMfgInfo_eq {m : MfgInfo} (h : MfgInfo.size + m.reserved1.length < 2 ^ 63) :
    encodeMfgInfo m = settled m.encode := by
  obtain ⟨guids, hguids, hguidsChain, hguidsParts⟩ := @writeUid_spec 0x20 (by decide) m.guids
  obtain ⟨macs, hmacs, hmacsChain, hmacsParts⟩ := @writeUid_spec (0x20 + UidBlock.size) (by decide) m.macs
  rw [encodeMfgInfo, add_eq (by omega), lift_ok, settled_ok_bind, hguids, lift_ok, settled_ok_bind, hmacs,
    lift_ok, settled_ok_bind, fill_eq _ h]
  · simp only [parts, parts_append, hguidsParts, hmacsParts, Write.part, MfgInfo.encode, ok_bind,
      bind_assoc, pure_bind, exactWidth_self]
    simp
  · refine ((Chain.append ?_ hguidsChain).append hmacsChain).append ?_
    · simp [Chain, Write.offset, Write.width, Write.Countable]
    · simp [Chain, Write.offset, Write.width, Write.Countable, MfgInfo.size, UidBlock.size]

/-! ### Digests and versions -/

theorem encodeHashesTable_eq {t : HashesTable}
    (h : HashesTable.storageOffset t.entries.length + t.storage.length < 2 ^ 63) :
    encodeHashesTable t = settled (.ok t.encode) := by
  unfold HashesTable.storageOffset HashesTable.headerSize HashEntry.size at h
  obtain ⟨entries, hentries, hchain, hparts⟩ := @writeHashEntries_spec t.entries (by
    unfold HashEntry.size
    omega)
  unfold HashesTable.storageOffset HashEntry.size HashesTable.headerSize at hchain
  unfold encodeHashesTable HashEntry.size HashesTable.headerSize
  rw [mul_eq (by omega), lift_ok, settled_ok_bind, add_eq (by omega), lift_ok, settled_ok_bind,
    add_eq (by omega), lift_ok, settled_ok_bind, hentries, lift_ok, settled_ok_bind,
    fill_eq _ (by omega)]
  · simp only [parts, parts_append, hparts, Write.part, ok_bind, pure_bind, exactWidth_self]
    simp [HashesTable.encode, Bytes.ofDwords]
    rfl
  · refine Chain.append (Chain.append ?_ hchain) ?_
    · simp [Chain, Write.offset, Write.width, Write.Countable]
    · simp [Chain, Write.offset, Write.width, Write.Countable]

theorem encodeVersions_eq {dword : UInt32} {vs : List Version} {name : String} {rest : Bytes}
    (h : 4 + vs.length * Version.size + rest.length < 2 ^ 63) : encodeVersions dword vs name rest
      = settled (.ok (Bytes.u32 dword ++ Version.encodeAll vs ++ rest)) := by
  unfold Version.size at h
  obtain ⟨versions, hversions, hchain, hparts⟩ := @writeVersions_spec vs (by
    unfold Version.size
    omega)
  unfold Version.size at hchain
  unfold encodeVersions Version.size
  rw [mul_eq (by omega), lift_ok, settled_ok_bind, add_eq (by omega), lift_ok, settled_ok_bind,
    add_eq (by omega), lift_ok, settled_ok_bind, hversions, lift_ok, settled_ok_bind,
    fill_eq _ (by omega)]
  · simp only [parts, parts_append, hparts, Write.part, ok_bind, pure_bind, exactWidth_self]
    simp
    rfl
  · refine Chain.append (Chain.append ?_ hchain) ?_
    · simp [Chain, Write.offset, Write.width, Write.Countable]
    · simp [Chain, Write.offset, Write.width, Write.Countable]

theorem faults_encodeHashesTable {t : HashesTable}
    (h : 2 ^ 63 ≤ HashesTable.storageOffset t.entries.length + t.storage.length) :
    Faults (encodeHashesTable t) := by
  refine faults_mul fun _ => faults_add fun hstart => faults_add fun _ => ?_
  obtain ⟨entries, hentries, -⟩ := writeHashEntries_spec hstart
  rw [hentries, lift_ok, settled_ok_bind]
  exact faults_fill h _

theorem faults_encodeVersions {dword : UInt32} {vs : List Version} {name : String} {rest : Bytes}
    (h : 2 ^ 63 ≤ 4 + vs.length * Version.size + rest.length) :
    Faults (encodeVersions dword vs name rest) := by
  refine faults_mul fun _ => faults_add fun hlast => faults_add fun _ => ?_
  obtain ⟨versions, hversions, -⟩ := writeVersions_spec hlast
  rw [hversions, lift_ok, settled_ok_bind]
  exact faults_fill h _

theorem encodeToolsArea_eq (t : ToolsArea) : encodeToolsArea t = settled t.encode := by
  rw [encodeToolsArea, fill_eq _ (by decide)]
  · simp only [parts, Write.part, ToolsArea.encode, ok_bind, bind_assoc, pure_bind]
    simp [Bytes.ofDwords]
  · simp [Chain, Write.offset, Write.width, Write.Countable, ToolsArea.size, ToolsArea.crcOffset]

/-! ### Contents of every kind -/

/-- **A projection that there is room for.** It counts only where the size is summed up before the record
is written. -/
def Bounded : Projection → Prop
  | .imageInfo i => ImageInfo.size + i.extra.length < 2 ^ 63
  | .mfgInfo m => MfgInfo.size + m.reserved1.length < 2 ^ 63
  | .boot2 b => b.code.length + 12 < 2 ^ 63
  | .hashesTable t => HashesTable.storageOffset t.entries.length + t.storage.length < 2 ^ 63
  | .resetInfo r => 4 + r.versions.length * Version.size + r.reserved.length < 2 ^ 63
  | .forbiddenVersions f => 4 + f.versions.length * Version.size + f.padding.length < 2 ^ 63
  | _ => True

theorem encode_eq {p : Projection} (h : Bounded p) : encode p = settled p.encode := by
  cases p with
  | imageInfo i => exact encodeImageInfo_eq h
  | deviceInfo i => exact encodeDeviceInfo_eq i
  | mfgInfo m => exact encodeMfgInfo_eq h
  | boot2 b =>
    have hroom : b.code.length + 12 < 2 ^ 63 := h
    rw [encode, add_eq (by omega), lift_ok, settled_ok_bind, allocate_eq hroom]
    rfl
  | hashesTable t => exact encodeHashesTable_eq h
  | resetInfo r => exact encodeVersions_eq h
  | forbiddenVersions f => exact encodeVersions_eq h
  | toolsArea t => exact encodeToolsArea_eq t
  | _ => rfl

/-- **A projection that there is no room for is not written.** The size of its buffer is out of range, or too
large for a buffer. -/
theorem faults_encode {p : Projection} (h : ¬ Bounded p) : Faults (encode p) := by
  cases p with
  | imageInfo i =>
    refine faults_add fun _ => ?_
    obtain ⟨ws, hws, -⟩ := @writeDwords_spec 0x120
      [i.supportedHwId.1, i.supportedHwId.2.1, i.supportedHwId.2.2.1, i.supportedHwId.2.2.2] (by simp)
    dsimp only
    rw [hws, lift_ok, settled_ok_bind]
    exact faults_fill (Nat.le_of_not_lt h) _
  | mfgInfo m =>
    refine faults_add fun _ => ?_
    obtain ⟨guids, hguids, -⟩ := @writeUid_spec 0x20 (by decide) m.guids
    obtain ⟨macs, hmacs, -⟩ := @writeUid_spec (0x20 + UidBlock.size) (by decide) m.macs
    rw [hguids, lift_ok, settled_ok_bind, hmacs, lift_ok, settled_ok_bind]
    exact faults_fill (Nat.le_of_not_lt h) _
  | boot2 b =>
    refine faults_add fun _ => ?_
    rw [allocate_fault (Nat.le_of_not_lt h)]
    exact (faults_lift _).bind _
  | hashesTable t => exact faults_encodeHashesTable (Nat.le_of_not_lt h)
  | resetInfo r => exact faults_encodeVersions (Nat.le_of_not_lt h)
  | forbiddenVersions f => exact faults_encodeVersions (Nat.le_of_not_lt h)
  | _ => exact absurd trivial h

/-- **What a decoder gives is bounded**, since its parts are parts of the contents. -/
theorem bounded_of_decode [Algorithms] {family : Family} {d : Bytes} {p : Projection}
    (hd : d.length < 2 ^ 63) (h : Projection.decode family d = .ok p) : Bounded p := by
  -- What a form holds lies behind a head that was tested to be there.
  cases family with
  | imageInfo =>
    obtain ⟨i, hi, rfl⟩ := exists_of_map_eq_ok h
    obtain ⟨hroom, hi⟩ := of_needBytes hi
    cases hi
    show ImageInfo.size + (d.drop _).length < 2 ^ 63
    rw [List.length_drop, Nat.add_sub_cancel' hroom]
    exact hd
  | mfgInfo =>
    obtain ⟨m, hm, rfl⟩ := exists_of_map_eq_ok h
    obtain ⟨hroom, hm⟩ := of_needBytes hm
    cases hm
    show MfgInfo.size + (d.drop _).length < 2 ^ 63
    rw [List.length_drop, Nat.add_sub_cancel' hroom]
    exact hd
  | boot2 =>
    obtain ⟨b, hb, rfl⟩ := exists_of_map_eq_ok h
    obtain ⟨header, -, hb⟩ := exists_of_bind_eq_ok hb
    obtain ⟨dwords, -, hb⟩ := exists_of_bind_eq_ok hb
    split at hb
    · next hlength =>
      cases hb
      show (d.slice _ _).length + 12 < 2 ^ 63
      rw [Bytes.length_slice]
      omega
    · cases hb
  | hashesTable =>
    obtain ⟨t, ht, rfl⟩ := exists_of_map_eq_ok h
    obtain ⟨-, ht⟩ := of_needBytes ht
    split at ht
    · obtain ⟨hroom, ht⟩ := of_needBytes ht
      cases ht
      simp only [Bounded, List.length_map, List.length_range, List.length_drop]
      omega
    · cases ht
  | resetInfo =>
    obtain ⟨r, hr, rfl⟩ := exists_of_map_eq_ok h
    obtain ⟨hroom, hr⟩ := of_needBytes hr
    cases hr
    unfold ResetInfo.size at hroom
    simp only [Bounded, Version.decodeAll, List.length_map, List.length_range, List.length_drop,
      ResetInfo.size]
    omega
  | forbiddenVersions =>
    obtain ⟨f, hf, rfl⟩ := exists_of_map_eq_ok h
    obtain ⟨-, hf⟩ := of_needBytes hf
    obtain ⟨hroom, hf⟩ := of_needBytes hf
    cases hf
    unfold ForbiddenVersions.size at hroom
    simp only [Bounded, Version.decodeAll, List.length_map, List.length_range, List.length_drop,
      ForbiddenVersions.size]
    omega
  | generic | debugParams | blob | vpd =>
    cases h
    trivial
  | _ =>
    obtain ⟨x, -, rfl⟩ := exists_of_map_eq_ok h
    trivial

end FlashImage.Machine

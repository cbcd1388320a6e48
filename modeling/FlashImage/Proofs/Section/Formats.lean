import FlashImage.Proofs.Machine.Decoders
import FlashImage.Proofs.Section.BitExact
import FlashImage.Proofs.Toc.Table

/-!
# What decoders accept

Each decoder tests how long its contents are, and some what they are marked with or what length they state.
That is all that decides whether it accepts them (`Family.Accepts`): what stands in the fields behind these
tests does not matter, and the fields can all be read.

Two decoders read without a test. The array of pointers is read as a whole, and the boot loader begins with
two dwords, the second of which states its length. Only these two can be refused because of an access, and
only by contents that are too short for what is read first. All others are refused in words of their own
(`AcceptsIff`), which is shown for each of them by the tests it makes, one after the other.
-/

namespace FlashImage

/-! ### Decoders that test before they read -/

/-- **A decoder that accepts on a condition**, and does not fail in an access if it does not. -/
def AcceptsIff {α : Type} (x : Except DecodeError α) (condition : Prop) : Prop :=
  match x with
  | .ok _ => condition
  | .error (.access _) => False
  | .error _ => ¬ condition

namespace AcceptsIff

variable {α β : Type} {x : Except DecodeError α} {p q : Prop} {d : Bytes} {n : Nat}

theorem exists_iff (h : AcceptsIff x p) : (∃ a, x = .ok a) ↔ p := by
  cases x with
  | ok a => exact iff_of_true ⟨a, rfl⟩ h
  | error e =>
    cases e with
    | access e => exact h.elim
    | _ => exact iff_of_false (fun ⟨a, ha⟩ => nomatch ha) h

theorem ne_access (h : AcceptsIff x p) (e : AccessError) : x ≠ .error (.access e) := by
  rintro rfl
  exact h

theorem congr (h : AcceptsIff x p) (hpq : p ↔ q) : AcceptsIff x q := propext hpq ▸ h

/-- What is made of the result does not matter. -/
theorem map (h : AcceptsIff x p) (f : α → β) : AcceptsIff (x.map f) p := by
  cases x with
  | ok a => exact h
  | error e => cases e <;> exact h

/-- **A test for length**, and whatever is tested on contents that are long enough. -/
theorem needBytes (h : n ≤ d.length → AcceptsIff x p) :
    AcceptsIff (do FlashImage.needBytes d n; x) (n ≤ d.length ∧ p) := by
  rcases Nat.lt_or_ge d.length n with hlt | hle
  · rw [needBytes_of_lt hlt]
    exact fun hp => absurd hp.1 (Nat.not_le.2 hlt)
  · rw [needBytes_of_le hle]
    exact (h hle).congr (iff_and_self.2 fun _ => hle)

/-- A test for length that is the only one. -/
theorem needBytes_ok {a : α} : AcceptsIff (do FlashImage.needBytes d n; .ok a) (n ≤ d.length) :=
  (needBytes (x := .ok a) (p := True) fun _ => trivial).congr (and_iff_left trivial)

end AcceptsIff

/-! ### The condition of each kind -/

/-- A number in the lowest byte of a dword. -/
theorem toNat_bits_byte (word : UInt32) : (bits word 7 0).toNat = word.toNat % 256 := by
  rw [toNat_bits word (by decide) (by decide), Nat.pow_zero, Nat.div_one]
  rfl

/-- **What contents of a kind have to be like**, to be accepted. -/
def Family.Accepts [Algorithms] (family : Family) (d : Bytes) : Prop :=
  match family with
  | .pointers => 128 ≤ d.length
  | .toc => 32 ≤ d.length ∧ (d.u32At 0 = 0x49544f43 ∨ d.u32At 0 = 0x64544f63)
  | .imageInfo => 1024 ≤ d.length
  | .deviceInfo => d.length = 508 ∧ d.u32At 0 = 0x6d446576
  | .mfgInfo => 64 ≤ d.length
  | .boot2 => 8 ≤ d.length ∧ d.length = ((d.u32At 4).toNat + 3) * 4
  | .hashesTable => 16 ≤ d.length ∧ d.length = (d.u32At 8).toNat * 4 ∧
    16 + 8 * ((d.u32At 4).toNat % 256) ≤ d.length
  | .resetInfo => 52 ≤ d.length
  | .imageSignature length => 4 + length.toNat ≤ d.length
  | .publicKeys length => 20 + length.toNat ≤ d.length
  | .forbiddenVersions => 4 ≤ d.length ∧ 4 + 8 * ((d.u32At 0).toNat % 256) ≤ d.length
  | .toolsArea => d.length = 64
  | .debugIni => ∃ ini, Algorithms.zlib d = .ok ini
  | .debugParams | .blob | .vpd | .generic => True

variable {d : Bytes}

theorem Toc.acceptsIff : AcceptsIff ((Toc.decode d).mapError .toc)
    (32 ≤ d.length ∧ (d.u32At 0 = 0x49544f43 ∨ d.u32At 0 = 0x64544f63)) := by
  rcases Nat.lt_or_ge d.length TocRecord.size with hlt | hle
  · rw [decode_of_lt hlt]
    exact fun h => absurd h.1 (Nat.not_le.2 hlt)
  · rw [decode_of_le hle]
    cases hkind : TocKind.ofSignature? (d.u32At 0) with
    | none =>
      rintro ⟨-, hmark | hmark⟩
      · rw [hmark] at hkind
        exact absurd hkind (by decide)
      · rw [hmark] at hkind
        exact absurd hkind (by decide)
    | some kind =>
      refine ⟨hle, ?_⟩
      rw [TocKind.ofSignature?_eq_some_iff.1 hkind]
      cases kind
      · exact .inl rfl
      · exact .inr rfl

theorem DeviceInfo.acceptsIff :
    AcceptsIff (DeviceInfo.decode d) (d.length = 508 ∧ d.u32At 0 = 0x6d446576) := by
  unfold decode
  split
  · next hlength => exact fun h => hlength h.1
  · next hlength =>
    split
    · next hmark => exact fun h => hmark h.2
    · next hmark => exact ⟨Decidable.not_not.1 hlength, Decidable.not_not.1 hmark⟩

theorem HashesTable.acceptsIff : AcceptsIff (HashesTable.decode d)
    (16 ≤ d.length ∧ d.length = (d.u32At 8).toNat * 4 ∧
      16 + 8 * ((d.u32At 4).toNat % 256) ≤ d.length) := by
  refine AcceptsIff.needBytes fun _ => ?_
  have hroom : storageOffset (entryCount (d.u32At 4)) = 16 + 8 * ((d.u32At 4).toNat % 256) := by
    rw [storageOffset, entryCount, toNat_bits_byte, Nat.mul_comm]
    rfl
  split
  · next hlength =>
    refine AcceptsIff.needBytes_ok.congr ?_
    rw [hroom]
    exact (and_iff_right hlength).symm
  · next hlength => exact fun h => hlength h.1

theorem ForbiddenVersions.acceptsIff : AcceptsIff (ForbiddenVersions.decode d)
    (4 ≤ d.length ∧ 4 + 8 * ((d.u32At 0).toNat % 256) ≤ d.length) := by
  refine AcceptsIff.needBytes fun _ => AcceptsIff.needBytes_ok.congr ?_
  rw [size, versionCount, toNat_bits_byte, Nat.mul_comm]
  rfl

theorem ToolsArea.acceptsIff : AcceptsIff (ToolsArea.decode d) (d.length = 64) := by
  unfold decode
  split
  · next hlength => exact hlength
  · next hlength => exact hlength

theorem DebugIni.acceptsIff [Algorithms] :
    AcceptsIff (DebugIni.decode d) (∃ ini, Algorithms.zlib d = .ok ini) := by
  unfold decode
  split
  · next ini hini => exact ⟨ini, hini⟩
  · next e he => exact fun ⟨ini, hini⟩ => by rw [he] at hini; cases hini

/-- **Contents of all kinds but two** are tested before they are read. -/
theorem Projection.acceptsIff [Algorithms] {family : Family} (hpointers : family ≠ .pointers)
    (hboot2 : family ≠ .boot2) : AcceptsIff (decode family d) (family.Accepts d) := by
  cases family with
  | pointers => exact absurd rfl hpointers
  | boot2 => exact absurd rfl hboot2
  | toc => exact Toc.acceptsIff.map _
  | imageInfo => exact (AcceptsIff.needBytes_ok (n := 1024)).map _
  | deviceInfo => exact DeviceInfo.acceptsIff.map _
  | mfgInfo => exact (AcceptsIff.needBytes_ok (n := 64)).map _
  | hashesTable => exact HashesTable.acceptsIff.map _
  | resetInfo => exact (AcceptsIff.needBytes_ok (n := 52)).map _
  | imageSignature length => exact AcceptsIff.needBytes_ok.map _
  | publicKeys length => exact (AcceptsIff.needBytes_ok (n := 20 + length.toNat)).map _
  | forbiddenVersions => exact ForbiddenVersions.acceptsIff.map _
  | toolsArea => exact ToolsArea.acceptsIff.map _
  | debugIni => exact DebugIni.acceptsIff.map _
  | debugParams | blob | vpd | generic => trivial

/-! ### Contents that are read without a test -/

/-- **An array of less than sixteen pointers** is refused. -/
theorem Pointers.decode_of_lt (h : d.length < 128) : decode d = .error (.shortBuffer 0 128 d.length) :=
  if_neg (Nat.not_le.2 h)

theorem Pointers.exists_decode_of_le (h : 128 ≤ d.length) : ∃ ps, decode d = .ok ps := ⟨_, if_pos h⟩

/-- **A boot loader of less than two dwords** is refused, with the dword that is not there. -/
theorem Boot2.decode_of_lt (h : d.length < 8) : decode d
    = .error (.access (.shortBuffer (if d.length < 4 then 0 else 4) 4 d.length)) := by
  rw [decode]
  by_cases hheader : d.length < 4
  · rw [if_pos hheader, Bytes.readU32_of_lt hheader]
    rfl
  · rw [if_neg hheader, Bytes.readU32_of_le (Nat.le_of_not_lt hheader), Bytes.readU32_of_lt h]
    rfl

/-- A boot loader of two dwords or more is as long as it says, or refused because it is not. -/
theorem Boot2.acceptsIff_of_le (h : 8 ≤ d.length) :
    AcceptsIff (decode d) (8 ≤ d.length ∧ d.length = ((d.u32At 4).toNat + 3) * 4) := by
  rw [decode, Bytes.readU32_of_le (Nat.le_trans (by decide) h), Bytes.readU32_of_le h, mapError_ok,
    mapError_ok, ok_bind, ok_bind]
  split
  · next hlength => exact ⟨h, hlength⟩
  · next hlength => exact fun hp => hlength hp.2

/-! ### What is accepted -/

/-- **Contents of every kind** are too short for what is read without a test, or accepted on the condition
of the kind. -/
theorem Projection.decode_cases [Algorithms] (family : Family) (d : Bytes) :
    (family = .pointers ∧ d.length < 128 ∧
      decode family d = .error (.access (.shortBuffer 0 128 d.length))) ∨
    (family = .boot2 ∧ d.length < 8 ∧
      decode family d = .error (.access (.shortBuffer (if d.length < 4 then 0 else 4) 4 d.length))) ∨
    ((family = .pointers → 128 ≤ d.length) ∧ (family = .boot2 → 8 ≤ d.length) ∧
      AcceptsIff (decode family d) (family.Accepts d)) := by
  by_cases hpointers : family = .pointers
  · subst hpointers
    rcases Nat.lt_or_ge d.length 128 with hlt | hle
    · refine .inl ⟨rfl, hlt, ?_⟩
      rw [decode, Pointers.decode_of_lt hlt]
      rfl
    · obtain ⟨ps, hps⟩ := Pointers.exists_decode_of_le hle
      refine .inr (.inr ⟨fun _ => hle, nofun, ?_⟩)
      rw [decode, hps]
      exact hle
  by_cases hboot2 : family = .boot2
  · subst hboot2
    rcases Nat.lt_or_ge d.length 8 with hlt | hle
    · refine .inr (.inl ⟨rfl, hlt, ?_⟩)
      rw [decode, Boot2.decode_of_lt hlt]
      rfl
    · exact .inr (.inr ⟨nofun, fun _ => hle, (Boot2.acceptsIff_of_le hle).map _⟩)
  · exact .inr (.inr ⟨(absurd · hpointers), (absurd · hboot2), acceptsIff hpointers hboot2⟩)

namespace Family

variable [Algorithms] {family : Family}

theorem exists_decode_iff : (∃ p, Projection.decode family d = .ok p) ↔ family.Accepts d := by
  rcases Projection.decode_cases family d with ⟨rfl, hlt, h⟩ | ⟨rfl, hlt, h⟩ | ⟨-, -, h⟩
  · exact iff_of_false (fun ⟨p, hp⟩ => by rw [h] at hp; cases hp) (Nat.not_le.2 hlt)
  · exact iff_of_false (fun ⟨p, hp⟩ => by rw [h] at hp; cases hp) fun haccepts =>
      absurd haccepts.1 (Nat.not_le.2 hlt)
  · exact h.exists_iff

theorem decode_eq_access_iff {e : AccessError} : Projection.decode family d = .error (.access e) ↔
    (family = .pointers ∧ d.length < 128 ∧ e = .shortBuffer 0 128 d.length) ∨
    (family = .boot2 ∧ d.length < 8 ∧
      e = .shortBuffer (if d.length < 4 then 0 else 4) 4 d.length) := by
  rcases Projection.decode_cases family d with ⟨rfl, hlt, h⟩ | ⟨rfl, hlt, h⟩ | ⟨hpointers, hboot2, h⟩
  · simp [h, hlt, eq_comm]
  · simp [h, hlt, eq_comm]
  · refine iff_of_false (h.ne_access e) ?_
    rintro (⟨hfamily, hlt, -⟩ | ⟨hfamily, hlt, -⟩)
    · exact absurd (hpointers hfamily) (Nat.not_le.2 hlt)
    · exact absurd (hboot2 hfamily) (Nat.not_le.2 hlt)

/-- **What the decoder of a kind does** with contents. -/
structure DecodesExactly (family : Family) (d : Bytes) : Prop where
  /-- It accepts what is like contents of the kind have to be. -/
  accepts : (∃ p, Projection.decode family d = .ok p) ↔ family.Accepts d
  /-- Only the pointers and the boot loader are refused because of an access, and only if the array or the
  first two dwords are not all there. -/
  access : ∀ e, Projection.decode family d = .error (.access e) ↔
    (family = .pointers ∧ d.length < 128 ∧ e = .shortBuffer 0 128 d.length) ∨
    (family = .boot2 ∧ d.length < 8 ∧
      e = .shortBuffer (if d.length < 4 then 0 else 4) 4 d.length)
  /-- Reading field by field, with all that could be refused on the way, gives nothing else. -/
  reads : d.length < 2 ^ 63 → Machine.recordSize family < 2 ^ 64 →
    Machine.decode family d = Machine.settled (Projection.decode family d)
  /-- A signature or a key of a size that is not a word is not looked for. -/
  faults : 2 ^ 64 ≤ Machine.recordSize family → (Machine.decode family d).run = .error .overflow

/-- **Decoders accept exactly their formats.** -/
theorem decodesExactly (family : Family) (d : Bytes) : family.DecodesExactly d :=
  ⟨exists_decode_iff, fun _ => decode_eq_access_iff, Machine.decode_eq, (Machine.decode_fault · d)⟩

end Family

end FlashImage

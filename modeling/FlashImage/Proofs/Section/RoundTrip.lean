import FlashImage.Algorithms.Standard
import FlashImage.Proofs.Section.BitExact
import FlashImage.Proofs.Section.JsonForm

/-!
# What was read from a section is read back from its JSON

Whatever is read from contents meets what its JSON form asks for (`Projection.fits_of_decode`): its texts
come from fields, and its lengths are lengths of byte strings in memory. So the JSON text of a projection
gives the projection back, without the contents of the section where they are kept as bytes.
-/

namespace FlashImage

/-! ### What decoders promise -/

theorem ImageInfo.fits_of_decode {d : Bytes} {i : ImageInfo} (h : decode d = .ok i) : i.Fits := by
  obtain ⟨-, h⟩ := of_needBytes h
  cases h
  exact ⟨FieldText.canonical_ofField _, FieldText.canonical_ofField _, FieldText.canonical_ofField _,
    FieldText.canonical_ofField _, FieldText.canonical_ofField _⟩

theorem DeviceInfo.canonical_of_decode {d : Bytes} {i : DeviceInfo} (h : decode d = .ok i) :
    i.vsd.Canonical := by
  rw [decode] at h
  split at h
  · cases h
  split at h
  · cases h
  cases h
  exact FieldText.canonical_ofField _

theorem MfgInfo.canonical_of_decode {d : Bytes} {m : MfgInfo} (h : decode d = .ok m) :
    m.psid.Canonical := by
  obtain ⟨-, h⟩ := of_needBytes h
  cases h
  exact FieldText.canonical_ofField _

section

variable [Algorithms] {d : Bytes}

theorem DebugIni.fits_of_decode {i : DebugIni} (hd : d.length < 2 ^ 64)
    (hzlib : ∀ out, Algorithms.zlib d = .ok out → out.length < 2 ^ 64) (h : decode d = .ok i) :
    i.Fits := by
  rw [decode] at h
  split at h
  · next ini hini =>
    cases h
    exact ⟨hd, hzlib ini hini⟩
  · cases h

theorem DebugParams.fits_decode (hd : d.length < 2 ^ 64)
    (hdeflate : ∀ out, Algorithms.deflate d = .ok out → out.length < 2 ^ 64) : (decode d).Fits := by
  refine ⟨hd, ?_⟩
  intro n hn
  obtain ⟨out, hout, rfl⟩ := Option.map_eq_some_iff.1 hn
  rw [inflate?] at hout
  split at hout
  · cases hout
  · cases hdef : Algorithms.deflate d with
    | error e =>
      rw [hdef] at hout
      cases hout
    | ok out' =>
      rw [hdef] at hout
      cases hout
      exact hdeflate _ hdef

namespace Projection

/-- A form that says everything asks for no more than texts that were read from fields. -/
theorem fits_of_not_keepsBytes {family : Family} {p : Projection} (hkeeps : p.keepsBytes = false)
    (h : decode family d = .ok p) : p.Fits := by
  cases family with
  | imageInfo =>
    obtain ⟨i, hi, rfl⟩ := exists_of_map_eq_ok h
    exact ImageInfo.fits_of_decode hi
  | deviceInfo =>
    obtain ⟨i, hi, rfl⟩ := exists_of_map_eq_ok h
    exact DeviceInfo.canonical_of_decode hi
  | mfgInfo =>
    obtain ⟨m, hm, rfl⟩ := exists_of_map_eq_ok h
    exact MfgInfo.canonical_of_decode hm
  | debugIni =>
    obtain ⟨i, -, rfl⟩ := exists_of_map_eq_ok h
    cases hkeeps
  | generic | debugParams | blob | vpd =>
    cases h
    cases hkeeps
  | _ =>
    obtain ⟨_, -, rfl⟩ := exists_of_map_eq_ok h
    trivial

/-- **What is read from contents can be read back from JSON.** Lengths are those of byte strings in
memory, of the contents as they are and of what they inflate to. -/
theorem fits_of_decode {family : Family} {p : Projection} (hd : d.length < 2 ^ 64)
    (hzlib : ∀ out, Algorithms.zlib d = .ok out → out.length < 2 ^ 64)
    (hdeflate : ∀ out, Algorithms.deflate d = .ok out → out.length < 2 ^ 64)
    (h : decode family d = .ok p) : p.Fits := by
  -- Only forms that leave contents out tell lengths, and those depend on the algorithms.
  cases hkeeps : p.keepsBytes with
  | false => exact fits_of_not_keepsBytes hkeeps h
  | true =>
    cases family with
    | debugIni =>
      obtain ⟨i, hi, rfl⟩ := exists_of_map_eq_ok h
      exact DebugIni.fits_of_decode hd hzlib hi
    | debugParams =>
      cases h
      exact DebugParams.fits_decode hd hdeflate
    | blob | vpd =>
      cases h
      exact hd
    | generic =>
      cases h
      trivial
    | boot2 =>
      obtain ⟨b, -, rfl⟩ := exists_of_map_eq_ok h
      trivial
    | _ =>
      obtain ⟨_, -, rfl⟩ := exists_of_map_eq_ok h
      cases hkeeps

/-- **The JSON text of what was read from contents gives it back.** A form that says everything comes
back whole; of the others, exactly the contents that are kept as bytes beside it are left out. -/
theorem parse_pretty_of_decode {family : Family} {p : Projection} (hd : d.length < 2 ^ 64)
    (hzlib : ∀ out, Algorithms.zlib d = .ok out → out.length < 2 ^ 64)
    (hdeflate : ∀ out, Algorithms.deflate d = .ok out → out.length < 2 ^ 64)
    (h : decode family d = .ok p) :
    (Json.parse? p.toJson.pretty).bind ofJson? = some (if p.keepsBytes then p.withoutContents else p) := by
  have hback := ofJson?_parse?_pretty (fits_of_decode hd hzlib hdeflate h)
  cases hkeeps : p.keepsBytes with
  | false =>
    rw [withoutContents_of_not_keepsBytes hkeeps] at hback
    exact hback
  | true => exact hback

end Projection

end

namespace Projection

/-- Settings in a zlib stream of ten bytes. -/
theorem parse_pretty_of_decode_debugIni :
    ∃ d p, @decode Algorithms.standard .debugIni d = .ok p ∧ p.keepsBytes = true ∧
      (Json.parse? p.toJson.pretty).bind ofJson? = some p.withoutContents := by
  let d : Bytes := [0x78, 0x9c, 0xcb, 0xc8, 0x04, 0x00, 0x01, 0x3b, 0x00, 0xd2]
  have hinflated : Inflate.zlib d = .ok [0x68, 0x69] := by
    have hoption : (Inflate.zlib d).toOption = some [0x68, 0x69] := by decide +kernel
    cases hzlib : Inflate.zlib d with
    | error e => rw [hzlib] at hoption; cases hoption
    | ok out => rw [hzlib] at hoption; exact congrArg Except.ok (Option.some.inj hoption)
  -- The bytes are a text within a frame, and without the frame they are none.
  have hdeflate : (Inflate.deflate d).toOption = none := by decide +kernel
  have hread : @decode Algorithms.standard .debugIni d
      = .ok (debugIni ⟨10, 2, d, Bytes.toStringLossy [0x68, 0x69]⟩) := by
    show (@DebugIni.decode Algorithms.standard d).map debugIni = _
    rw [DebugIni.decode, show Algorithms.zlib d = _ from hinflated]
    rfl
  refine ⟨d, _, hread, rfl, ?_⟩
  refine @parse_pretty_of_decode Algorithms.standard d .debugIni _ (by decide) ?_ ?_ hread
  · intro out hout
    obtain rfl := Except.ok.inj (hinflated.symm.trans hout)
    decide
  · intro out hout
    rw [show Inflate.deflate d = _ from hout] at hdeflate
    cases hdeflate

end Projection

end FlashImage

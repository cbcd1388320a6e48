import FlashImage.Proofs.Bytes.Parts

/-!
# Finding parts again

An encoder puts parts one behind the other, and a decoder looks for them at offsets of its own. A part is
found again where the lengths of the parts in front of it add up to (`hasParts_of_slice`), so a layout is
right if the offsets that its decoder looks at are these sums. A row of records of one size is read back
record by record in the same way (`map_decodeAt`).
-/

namespace FlashImage.Bytes

/-- What stands behind other bytes is found again there, with more bytes behind it or none. -/
theorem slice_middle (front part rest : Bytes) :
    slice (front ++ (part ++ rest)) front.length part.length = part := by
  have hpart := slice_append_right front (part ++ rest) 0 part.length
  rwa [Nat.add_zero, slice_zero_left, List.take_left] at hpart

/-- **Parts that stand one behind the other** from an offset on. -/
def HasParts (bs : Bytes) : Nat → List Bytes → Prop
  | _, [] => True
  | offset, part :: parts => bs.slice offset part.length = part ∧ HasParts bs (offset + part.length) parts

/-- **Parts in a row are found again**, each behind those in front of it. -/
theorem hasParts_of_slice {bs : Bytes} {offset : Nat} {parts : List Bytes}
    (h : bs.slice offset parts.flatten.length = parts.flatten) : HasParts bs offset parts := by
  induction parts generalizing offset with
  | nil => trivial
  | cons part parts ih =>
    rw [List.flatten_cons, List.length_append, ← slice_append_slice] at h
    -- All of the parts are there, so the first one is as long as it should be.
    have hlength : (bs.slice offset part.length).length = part.length := by
      have hall := congrArg List.length h
      simp only [List.length_append, length_slice] at hall ⊢
      omega
    obtain ⟨hpart, hparts⟩ := List.append_inj h hlength
    exact ⟨hpart, ih hparts⟩

/-- Parts at the front of a byte string are found there. -/
theorem hasParts_flatten_append (parts : List Bytes) (rest : Bytes) :
    HasParts (parts.flatten ++ rest) 0 parts :=
  hasParts_of_slice (slice_middle [] parts.flatten rest)

/-- **A fixed part in front of the rest**: there is room for it, the rest is what is left without it, and
its own parts are found in it. -/
theorem fixed_part {parts : List Bytes} {size : Nat} (h : parts.flatten.length = size) (rest : Bytes) :
    size ≤ (parts.flatten ++ rest).length ∧ (parts.flatten ++ rest).drop size = rest ∧
      HasParts (parts.flatten ++ rest) 0 parts := by
  refine ⟨?_, List.drop_left' h, hasParts_flatten_append parts rest⟩
  rw [List.length_append, h]
  exact Nat.le_add_right _ _

/-- **A row of records is read back**, if each of them is. -/
theorem map_decodeAt {α : Type} {decodeAt : Bytes → Nat → α} {encode : α → Bytes} {size : Nat}
    {bs : Bytes} {offset : Nat} {xs : List α} (hsize : ∀ x ∈ xs, (encode x).length = size)
    (hread : ∀ x ∈ xs, ∀ offset, bs.slice offset (encode x).length = encode x → decodeAt bs offset = x)
    (h : bs.slice offset (xs.flatMap encode).length = xs.flatMap encode) :
    (List.range xs.length).map (fun i => decodeAt bs (offset + i * size)) = xs := by
  induction xs generalizing offset with
  | nil => rfl
  | cons x xs ih =>
    have hrow : (x :: xs).flatMap encode = [encode x, xs.flatMap encode].flatten := by simp
    rw [hrow] at h
    obtain ⟨hfirst, hothers, -⟩ := hasParts_of_slice h
    rw [hsize x List.mem_cons_self] at hothers
    have hbehind := ih (fun x hx => hsize x (List.mem_cons_of_mem _ hx))
      (fun x hx => hread x (List.mem_cons_of_mem _ hx)) hothers
    rw [List.length_cons, List.range_succ_eq_map, List.map_cons, List.map_map, Nat.zero_mul, Nat.add_zero,
      hread x List.mem_cons_self offset hfirst]
    refine congrArg (x :: ·) (Eq.trans ?_ hbehind)
    -- The record behind `i` others of the row has one more in front of it.
    refine List.map_congr_left fun i _ => ?_
    rw [Function.comp_apply, Nat.succ_mul, Nat.add_comm (i * size) size, Nat.add_assoc]

end FlashImage.Bytes

import FlashImage.Machine.Encoders
import FlashImage.Proofs.Machine.Access

/-!
# Filling a buffer without fault

An encoder makes a buffer of zeros as long as the record, and writes one part after the other into it,
each at its own offset. The definition of its result is the parts side by side. Both agree if each part
starts where the one before it ends, and the last one ends with the buffer: then the part that is
written next is in front of all the zeros that are left, which is the invariant of `runAll_eq`.

What an encoder writes is listed as `Write`s, and `Chain` says of such a list that its parts are side by
side, and that each is of a width that can be reported and made room for.
-/

namespace FlashImage.Machine

namespace Write

def offset : Write → Nat
  | u16 offset _ | u32 offset _ | u64 offset _ | text offset _ _ _ | bytes offset _ _ _ => offset

def width : Write → Nat
  | u16 _ _ => 2
  | u32 _ _ => 4
  | u64 _ _ => 8
  | text _ _ _ width | bytes _ _ _ width => width

/-- The bytes of a part, unless it does not fit its width. -/
def part : Write → Except AccessError Bytes
  | u16 _ x => .ok (Bytes.u16 x)
  | u32 _ x => .ok (Bytes.u32 x)
  | u64 _ x => .ok (Bytes.u64 x)
  | text _ name t width => t.toField name width
  | bytes _ name bs width => Bytes.exactWidth name bs width

/-- A width that does not match is reported in bits. -/
def Countable : Write → Prop
  | text _ _ _ width => width * 8 < 2 ^ 64
  | bytes _ _ bs width => bs.length = width ∨ width * 8 < 2 ^ 64
  | _ => True

theorem length_of_part {w : Write} {bs : Bytes} (h : w.part = .ok bs) : bs.length = w.width := by
  cases w with
  | u16 offset x => cases h; exact Bytes.length_u16 x
  | u32 offset x => cases h; exact Bytes.length_u32 x
  | u64 offset x => cases h; exact Bytes.length_u64 x
  | text offset name t width => exact FieldText.length_of_toField h
  | bytes offset name src width =>
    rw [part, Bytes.exactWidth] at h
    split at h
    · next hlength =>
      cases h
      exact hlength
    · cases h

theorem run_eq {w : Write} {buffer : Bytes} (h : buffer.length < 2 ^ 64) (hw : w.Countable) :
    w.run buffer = settled (w.part >>= buffer.put? w.offset) := by
  cases w with
  | u16 offset x => exact put_eq h
  | u32 offset x => exact put_eq h
  | u64 offset x => exact put_eq h
  | text offset name t width =>
    have hcounted : width * 8 < 2 ^ 64 := hw
    rw [run, toField_eq (by omega) fun _ => hcounted]
    refine settled_bind fun bs hbs => ?_
    have hlength := FieldText.length_of_toField hbs
    rw [exactWidth_eq (.inl hlength), Bytes.exactWidth, if_pos hlength]
    exact put_eq h
  | bytes offset name bs width =>
    rw [run, exactWidth_eq hw]
    exact settled_bind fun bs _ => put_eq h

end Write

/-! ### Parts side by side -/

/-- The parts of a list of writes, one behind the other. -/
def parts : List Write → Except AccessError Bytes
  | [] => .ok []
  | w :: ws => do return (← w.part) ++ (← parts ws)

/-- **The writes of a list lie side by side** from one offset to another. -/
def Chain (first last : Nat) : List Write → Prop
  | [] => first = last
  | w :: ws => w.offset = first ∧ w.Countable ∧ Chain (first + w.width) last ws

theorem Chain.le {first last : Nat} {ws : List Write} (h : Chain first last ws) : first ≤ last := by
  induction ws generalizing first with
  | nil => exact Nat.le_of_eq h
  | cons w ws ih => exact Nat.le_trans (Nat.le_add_right _ _) (ih h.2.2)

theorem Chain.append {first middle last : Nat} {ws ws' : List Write} (h : Chain first middle ws)
    (h' : Chain middle last ws') : Chain first last (ws ++ ws') := by
  induction ws generalizing first with
  | nil =>
    obtain rfl : first = middle := h
    exact h'
  | cons w ws ih => exact ⟨h.1, h.2.1, ih h.2.2⟩

theorem parts_append (ws ws' : List Write) :
    parts (ws ++ ws') = do return (← parts ws) ++ (← parts ws') := by
  induction ws with
  | nil =>
    rw [List.nil_append, parts, ok_bind]
    cases parts ws' <;> rfl
  | cons w ws ih =>
    rw [List.cons_append, parts, parts, ih]
    cases w.part with
    | error e => rfl
    | ok a =>
      cases parts ws with
      | error e => rfl
      | ok b =>
        cases parts ws' with
        | error e => rfl
        | ok c => exact congrArg Except.ok (List.append_assoc a b c).symm

/-- **Rows of writes.** Records of one size, written one behind the other, lie side by side. -/
theorem chain_rows {α : Type} {xs : List α} {row : α → Nat → List Write} {first size : Nat}
    (h : ∀ x ∈ xs, ∀ i < xs.length, Chain (first + i * size) (first + i * size + size) (row x i)) :
    Chain first (first + xs.length * size) (xs.zipIdx.flatMap fun x => row x.1 x.2) := by
  -- The rows from number `k` on start where the rows before them end.
  have hfrom (ys : List α) (k : Nat) (hys : ys ⊆ xs) (hk : k + ys.length ≤ xs.length) :
      Chain (first + k * size) (first + (k + ys.length) * size)
        ((ys.zipIdx k).flatMap fun x => row x.1 x.2) := by
    induction ys generalizing k with
    | nil => exact rfl
    | cons y ys ih =>
      obtain ⟨hy, hys⟩ := List.cons_subset.1 hys
      rw [List.length_cons] at hk ⊢
      have hrow := h y hy k (by omega)
      have hnext := ih (k + 1) hys (by omega)
      rw [Nat.succ_mul, ← Nat.add_assoc, Nat.add_right_comm k 1] at hnext
      rw [List.zipIdx_cons, List.flatMap_cons, ← Nat.add_assoc]
      exact hrow.append hnext
  have hall := hfrom xs 0 (List.Subset.refl _) (by omega)
  rwa [Nat.zero_mul, Nat.add_zero, Nat.zero_add] at hall

theorem parts_rows {α : Type} {xs : List α} {row : α → Nat → List Write} {encode : α → Bytes} (k : Nat)
    (h : ∀ x i, parts (row x i) = .ok (encode x)) :
    parts ((xs.zipIdx k).flatMap fun x => row x.1 x.2) = .ok (xs.flatMap encode) := by
  induction xs generalizing k with
  | nil => rfl
  | cons x xs ih =>
    rw [List.zipIdx_cons, List.flatMap_cons, parts_append, h, ih, List.flatMap_cons]
    rfl

/-! ### The buffer -/

/-- What is behind the parts written so far is still zero, and the next part goes in front of it. -/
theorem runAll_eq {ws : List Write} {front : Bytes} {last : Nat} (h : Chain front.length last ws)
    (hlast : last < 2 ^ 64) : runAll (front ++ List.replicate (last - front.length) 0) ws
      = settled ((parts ws).map (front ++ ·)) := by
  -- What has been written is the front, with zeros where the rest will go.
  induction ws generalizing front with
  | nil =>
    obtain rfl : front.length = last := h
    rw [Nat.sub_self, List.replicate_zero]
    rfl
  | cons w ws ih =>
    obtain ⟨hoffset, hw, hws⟩ := h
    have hle := hws.le
    have hlength : (front ++ List.replicate (last - front.length) (0 : UInt8)).length = last := by
      rw [List.length_append, List.length_replicate]
      omega
    rw [runAll, List.foldlM_cons, Write.run_eq (by omega) hw, hoffset, parts]
    cases hpart : w.part with
    | error e => rfl
    | ok bs =>
      have hbs := Write.length_of_part hpart
      have hput : Bytes.put? (front ++ List.replicate (last - front.length) 0) front.length bs
          = .ok ((front ++ bs) ++ List.replicate (last - (front ++ bs).length) 0) := by
        have hleft : last - (front ++ bs).length = last - front.length - bs.length := by
          rw [List.length_append, Nat.sub_add_eq]
        rw [Bytes.put?, if_pos (by omega), Bytes.overlay, List.take_left, List.drop_append,
          List.drop_of_length_le (by omega), List.nil_append, Nat.add_sub_cancel_left,
          List.drop_replicate, hleft]
      rw [ok_bind, ok_bind, hput, settled_ok_bind]
      have hchain : Chain (front ++ bs).length last ws := by
        rw [List.length_append, hbs]
        exact hws
      have hrest := ih hchain
      rw [runAll] at hrest
      rw [hrest]
      cases parts ws with
      | error e => rfl
      | ok rest => exact congrArg (fun bs => settled (.ok bs)) (List.append_assoc front bs rest)

/-- **A buffer that is filled from end to end** holds the parts side by side. -/
theorem fill_eq {ws : List Write} {size : Nat} (h : Chain 0 size ws) (hsize : size < 2 ^ 63) :
    fill size ws = settled (parts ws) := by
  have hall := @runAll_eq ws [] size h (by omega)
  rw [List.nil_append, List.length_nil, Nat.sub_zero] at hall
  rw [fill, filled_eq hsize, lift_ok, settled_ok_bind, hall]
  cases parts ws <;> rfl

/-- A buffer that there is no room for is not filled. -/
theorem faults_fill {size : Nat} (h : 2 ^ 63 ≤ size) (ws : List Write) : Faults (fill size ws) := by
  rw [fill, filled, allocate_fault h]
  exact (faults_lift _).bind _

end FlashImage.Machine

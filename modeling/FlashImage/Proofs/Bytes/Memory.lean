import FlashImage.Machine.Buffer
import FlashImage.Proofs.Bytes.Rows
import FlashImage.Proofs.Machine.Access
import Mathlib.Algebra.BigOperators.Group.Finset.Basic
import Mathlib.Algebra.BigOperators.Intervals
import Mathlib.Data.List.Induction

/-!
# A buffer is a memory of bytes

Whatever is encoded or put together is written into a buffer, and whatever is decoded is read from one. Offsets
and widths are often computed from the data, so a range may start or end behind the buffer, and its end may
not even be a number of 64 bits.

Over any run of writes a buffer is a memory of bytes all the same (`Bytes.actsAsMemory_unless_overflow`), except
that one kind of write ends the run: a field of another width than it should have, if that width is too large to
be reported in bits (`BufferWrite.Overflows`). Everything else rests on one fact about a single write: whether it
is done depends on the write and on the length of the buffer, and on nothing that the buffer holds
(`BufferWrite.Fits`). No write changes the length, so the writes of a run that are done are known before the
first of them. A byte is then the one that the last of these put there, or else the one from before the run
(`Bytes.getElem?_writeAll`).

A word that is read is a sum over the bytes that it is read from, each with its place value
(`Bytes.toNat_eq_sum`). That a write is read back is no new argument: after the run, the bytes of its range
are the ones it put there, as long as no later write reaches into the range.
-/

namespace FlashImage

open Machine (settled)

/-! ### Writes -/

namespace BufferWrite

/-- How many bytes it should be. -/
def width : BufferWrite → Nat
  | u16 _ _ => 2
  | u32 _ _ => 4
  | u64 _ _ => 8
  | bytes _ src => src.length
  | field _ _ _ width => width.toNat

/-- **A write that can be done** to a buffer of `size` bytes: its source is as long as it should be, and its
range ends within the buffer. -/
def Fits (w : BufferWrite) (size : Nat) : Prop :=
  w.source.length = w.width ∧ w.offset + w.source.length ≤ size

instance (w : BufferWrite) (size : Nat) : Decidable (w.Fits size) := inferInstanceAs (Decidable (_ ∧ _))

/-- **A write that ends the run**: a field that should have another width, which cannot be counted in bits. -/
def Overflows (w : BufferWrite) : Prop := w.source.length ≠ w.width ∧ 2 ^ 64 ≤ w.width * 8

instance (w : BufferWrite) : Decidable w.Overflows := inferInstanceAs (Decidable (_ ∧ _))

/-- Why a write that does not fit is refused. The width of a field is tested before its range. -/
def refusal (size : Nat) : BufferWrite → AccessError
  | field offset name src width =>
    if src.length = width.toNat then .shortBuffer offset.toNat src.length size
    else .fieldOverflow name src.length (width.toNat * 8 % 2 ^ 32)
  | w => .shortBuffer w.offset w.source.length size

/-- The buffer after a write, which is the one from before if the write does not fit. -/
def perform (bs : Bytes) (w : BufferWrite) : Bytes :=
  if w.Fits bs.length then bs.overlay w.offset w.source else bs

/-- The byte that a write has for a position, if its range covers the position. -/
def byteAt? (w : BufferWrite) (p : Nat) : Option UInt8 :=
  if w.offset ≤ p then w.source[p - w.offset]? else none

/-- The byte that a write puts at a position of a buffer of `size` bytes. -/
def put? (size p : Nat) (w : BufferWrite) : Option UInt8 :=
  if w.Fits size then w.byteAt? p else none

/-- Two writes whose ranges do not meet. -/
def Apart (v w : BufferWrite) : Prop :=
  v.offset + v.source.length ≤ w.offset ∨ w.offset + w.source.length ≤ v.offset

/-- **What was written is read**, by a read of the same width at the same offset. -/
def ReadBack (bs : Bytes) : BufferWrite → Prop
  | u16 offset x => Machine.readU16 bs offset.toNat = settled (.ok x)
  | u32 offset x => Machine.readU32 bs offset.toNat = settled (.ok x)
  | u64 offset x => Machine.readU64 bs offset.toNat = settled (.ok x)
  | bytes offset src | field offset _ src _ => Machine.slice bs offset.toNat src.length = settled (.ok src)

/-! ### One write -/

/-- A copy lays its source over the buffer if its range ends there, and is refused if it does not. -/
theorem run_overwrite {bs : Bytes} (h : bs.length < 2 ^ 64) (offset : Nat) (src : Bytes) :
    (Machine.overwrite offset src).run.run bs = .ok (
      if offset + src.length ≤ bs.length then (.ok (), bs.overlay offset src)
      else (.error (.shortBuffer offset src.length bs.length), bs)) := by
  have hsteps : (Machine.overwrite offset src).run.run bs
      = (Machine.InPlace.step (Machine.put bs offset src) >>= fun after => set after).run.run bs := rfl
  rw [hsteps, Machine.put_eq h, Bytes.put?]
  split <;> rfl

theorem perform_of_fits {bs : Bytes} {w : BufferWrite} (h : w.Fits bs.length) :
    w.perform bs = bs.overlay w.offset w.source := if_pos h

theorem perform_of_not_fits {bs : Bytes} {w : BufferWrite} (h : ¬ w.Fits bs.length) : w.perform bs = bs :=
  if_neg h

/-- **A write is done if it fits**, and refused if it does not, unless it overflows. -/
theorem inPlace_eq {bs : Bytes} (h : bs.length < 2 ^ 64) {w : BufferWrite} (hw : ¬ w.Overflows) :
    w.inPlace.run.run bs
      = .ok (if w.Fits bs.length then .ok () else .error (w.refusal bs.length), w.perform bs) := by
  -- Without a width to be tested, all that counts is the range.
  have hput (hwidth : w.source.length = w.width) :
      (Machine.overwrite w.offset w.source).run.run bs = .ok (if w.Fits bs.length then .ok ()
        else .error (.shortBuffer w.offset w.source.length bs.length), w.perform bs) := by
    rw [run_overwrite h]
    by_cases hin : w.offset + w.source.length ≤ bs.length
    · rw [if_pos hin, if_pos ⟨hwidth, hin⟩, perform_of_fits ⟨hwidth, hin⟩]
    · have hmisfit : ¬ w.Fits bs.length := fun hfits => hin hfits.2
      rw [if_neg hin, if_neg hmisfit, perform_of_not_fits hmisfit]
  cases w with
  | u16 offset x => exact hput (Bytes.length_u16 x)
  | u32 offset x => exact hput (Bytes.length_u32 x)
  | u64 offset x => exact hput (Bytes.length_u64 x)
  | bytes offset src => exact hput rfl
  | field offset name src width =>
    have hcounted : src.length = width.toNat ∨ width.toNat * 8 < 2 ^ 64 := by
      by_cases hwidth : src.length = width.toNat
      · exact .inl hwidth
      · exact .inr (Nat.lt_of_not_le fun hlarge => hw ⟨hwidth, hlarge⟩)
    rw [inPlace, Machine.exactWidth_eq hcounted, Bytes.exactWidth, refusal]
    by_cases hwidth : src.length = width.toNat
    · rw [if_pos hwidth, if_pos hwidth]
      exact hput hwidth
    · have hmisfit : ¬ (field offset name src width).Fits bs.length := fun hfits => hwidth hfits.1
      rw [if_neg hwidth, if_neg hwidth, if_neg hmisfit, perform_of_not_fits hmisfit]
      rfl

/-- **A write that overflows is not refused.** -/
theorem inPlace_fault {w : BufferWrite} (hw : w.Overflows) (bs : Bytes) :
    w.inPlace.run.run bs = .error .overflow := by
  obtain ⟨hwidth, hlarge⟩ := hw
  cases w with
  | u16 offset x => exact absurd (Bytes.length_u16 x) hwidth
  | u32 offset x => exact absurd (Bytes.length_u32 x) hwidth
  | u64 offset x => exact absurd (Bytes.length_u64 x) hwidth
  | bytes offset src => exact absurd rfl hwidth
  | field offset name src width =>
    have hfault : (Machine.exactWidth name src width.toNat).run = .error .overflow :=
      Machine.exactWidth_fault hwidth hlarge
    rw [inPlace, Machine.InPlace.step, hfault]
    rfl

theorem not_fits_of_overflows {w : BufferWrite} (hw : w.Overflows) (size : Nat) : ¬ w.Fits size :=
  fun hfits => hw.1 hfits.1

/-- No write changes the length. -/
@[simp] theorem length_perform (bs : Bytes) (w : BufferWrite) : (w.perform bs).length = bs.length := by
  rw [perform]
  split
  · next hfits => exact Bytes.length_overlay hfits.2
  · rfl

/-- **After a write a byte is the one that it puts there**, or else the one that was there. -/
theorem getElem?_perform (bs : Bytes) (w : BufferWrite) (p : Nat) :
    (w.perform bs)[p]? = (w.put? bs.length p).or bs[p]? := by
  by_cases hfits : w.Fits bs.length
  · rw [perform_of_fits hfits, Bytes.getElem?_overlay hfits.2, put?, if_pos hfits, byteAt?]
    by_cases hbefore : w.offset ≤ p
    · rw [if_pos hbefore]
      by_cases hbehind : p < w.offset + w.source.length
      · rw [if_pos ⟨hbefore, hbehind⟩, List.getElem?_eq_getElem (by omega), Option.some_or]
      · have habsent : w.source[p - w.offset]? = none := List.getElem?_eq_none (by omega)
        rw [if_neg fun h => hbehind h.2, habsent, Option.none_or]
    · rw [if_neg hbefore, if_neg fun h => hbefore h.1, Option.none_or]
  · rw [perform_of_not_fits hfits, put?, if_neg hfits, Option.none_or]

/-- A write puts nothing into a range that is apart from its own. -/
theorem put?_of_apart {v w : BufferWrite} (h : v.Apart w) (size : Nat) {k : Nat}
    (hk : k < w.source.length) : v.put? size (w.offset + k) = none := by
  rw [put?]
  split
  · rw [byteAt?]
    split
    · next hle =>
      refine List.getElem?_eq_none ?_
      obtain hfront | hbehind := h <;> omega
    · rfl
  · rfl

/-- A write that fits puts its source into its range. -/
theorem put?_self {w : BufferWrite} {size : Nat} (h : w.Fits size) (k : Nat) :
    w.put? size (w.offset + k) = w.source[k]? := by
  rw [put?, if_pos h, byteAt?, if_pos (Nat.le_add_right _ _), Nat.add_sub_cancel_left]

/-- A write is read back from a buffer that has its source in its range. -/
theorem readBack_of_slice? {bs : Bytes} (hbs : bs.length < 2 ^ 64) {w : BufferWrite}
    (h : bs.slice? w.offset w.source.length = .ok w.source) : w.ReadBack bs := by
  cases w with
  | u16 offset x =>
    have hslice : bs.slice? offset.toNat 2 = .ok (Bytes.u16 x) := h
    rw [ReadBack, Machine.readU16_eq hbs, Bytes.readU16, hslice, ok_bind, Bytes.ofNat_toNat_u16]
    rfl
  | u32 offset x =>
    have hslice : bs.slice? offset.toNat 4 = .ok (Bytes.u32 x) := h
    rw [ReadBack, Machine.readU32_eq hbs, Bytes.readU32, hslice, ok_bind, Bytes.ofNat_toNat_u32]
    rfl
  | u64 offset x =>
    have hslice : bs.slice? offset.toNat 8 = .ok (Bytes.u64 x) := h
    rw [ReadBack, Machine.readU64_eq hbs, Bytes.readU64, hslice, ok_bind, Bytes.ofNat_toNat_u64]
    rfl
  | bytes offset src => exact (Machine.slice_eq hbs).trans (congrArg settled h)
  | field offset name src width => exact (Machine.slice_eq hbs).trans (congrArg settled h)

end BufferWrite

/-! ### Runs of writes -/

namespace Bytes

/-- The buffer after a run of writes, of which those that do not fit change nothing. -/
def writeAll (bs : Bytes) (ws : List BufferWrite) : Bytes := ws.foldl BufferWrite.perform bs

/-- **The byte that was put at a position last**, by the writes of a run that can be done. -/
def lastPut? (size : Nat) (ws : List BufferWrite) (p : Nat) : Option UInt8 :=
  ws.reverse.findSome? (BufferWrite.put? size p)

theorem writeAll_append (bs : Bytes) (ws vs : List BufferWrite) :
    bs.writeAll (ws ++ vs) = (bs.writeAll ws).writeAll vs := List.foldl_append

/-- Of two runs in a row, the first one counts where the second one puts nothing. -/
theorem lastPut?_append (size : Nat) (ws vs : List BufferWrite) (p : Nat) :
    lastPut? size (ws ++ vs) p = (lastPut? size vs p).or (lastPut? size ws p) := by
  rw [lastPut?, List.reverse_append, List.findSome?_append]
  rfl

@[simp] theorem lastPut?_singleton (size : Nat) (w : BufferWrite) (p : Nat) :
    lastPut? size [w] p = w.put? size p := List.findSome?_singleton

/-- **No run changes the length.** -/
@[simp] theorem length_writeAll (bs : Bytes) (ws : List BufferWrite) :
    (bs.writeAll ws).length = bs.length := by
  induction ws generalizing bs with
  | nil => rfl
  | cons w ws ih => exact (ih _).trans (w.length_perform bs)

/-- **After a run a byte is the one that was put there last**, or else the one from before the run. -/
theorem getElem?_writeAll (bs : Bytes) (ws : List BufferWrite) (p : Nat) :
    (bs.writeAll ws)[p]? = (lastPut? bs.length ws p).or bs[p]? := by
  -- The write that counts first is the last one, so runs grow at their end.
  induction ws using List.reverseRec with
  | nil => rfl
  | append_singleton ws w ih =>
    calc (bs.writeAll (ws ++ [w]))[p]?
      _ = (w.perform (bs.writeAll ws))[p]? := by
        rw [writeAll_append]
        rfl
      _ = (w.put? bs.length p).or (bs.writeAll ws)[p]? := by
        rw [BufferWrite.getElem?_perform, length_writeAll]
      _ = (w.put? bs.length p).or ((lastPut? bs.length ws p).or bs[p]?) := by rw [ih]
      _ = (lastPut? bs.length (ws ++ [w]) p).or bs[p]? := by
        rw [lastPut?_append, lastPut?_singleton, Option.or_assoc]

/-- In the range of a write its source is put last, if no later write reaches into the range. -/
theorem lastPut?_of_apart {w : BufferWrite} {size : Nat} (hfits : w.Fits size) (ws : List BufferWrite)
    {vs : List BufferWrite} (hapart : ∀ v ∈ vs, v.Apart w) {k : Nat} (hk : k < w.source.length) :
    lastPut? size (ws ++ w :: vs) (w.offset + k) = w.source[k]? := by
  have hlater : lastPut? size vs (w.offset + k) = none := by
    rw [lastPut?, List.findSome?_eq_none_iff]
    intro v hv
    exact BufferWrite.put?_of_apart (hapart v (List.mem_reverse.1 hv)) size hk
  have hsplit : ws ++ w :: vs = ws ++ [w] ++ vs := by simp
  rw [hsplit, lastPut?_append, hlater, Option.none_or, lastPut?_append, lastPut?_singleton,
    BufferWrite.put?_self hfits, List.getElem?_eq_getElem hk, Option.some_or]

/-- **A write is read back** after any run in which no later write reaches into its range. -/
theorem readBack_writeAll {bs : Bytes} (h : bs.length < 2 ^ 64) {w : BufferWrite} (hfits : w.Fits bs.length)
    (ws : List BufferWrite) {vs : List BufferWrite} (hapart : ∀ v ∈ vs, v.Apart w) :
    w.ReadBack (bs.writeAll (ws ++ w :: vs)) := by
  refine BufferWrite.readBack_of_slice? (by rwa [length_writeAll]) ?_
  have hroom : w.offset + w.source.length ≤ (bs.writeAll (ws ++ w :: vs)).length := by
    rw [length_writeAll]
    exact hfits.2
  rw [slice?_of_le hroom]
  refine congrArg Except.ok (slice_eq_of_getElem? hroom fun k hk => ?_)
  rw [getElem?_writeAll, lastPut?_of_apart hfits ws hapart hk, List.getElem?_eq_getElem hk, Option.some_or]

/-! ### Reading -/

/-- **The big-endian number of `n` bytes**: each byte with its place value, the first one with the largest. -/
def numberAt (bs : Bytes) (offset n : Nat) : Nat :=
  ∑ k ∈ Finset.range n, (bs.getD (offset + k) 0).toNat * 256 ^ (n - 1 - k)

/-- **The value of a byte string** is the sum of its bytes, each with its place value. -/
theorem toNat_eq_sum (bs : Bytes) :
    toNat bs = ∑ k ∈ Finset.range bs.length, (bs.getD k 0).toNat * 256 ^ (bs.length - 1 - k) := by
  induction bs with
  | nil => rfl
  | cons b bs ih =>
    have hfirst : toNat (b :: bs) = b.toNat * 256 ^ bs.length + toNat bs := by
      have hfront := toNat_append [b] bs
      have hb : toNat [b] = b.toNat := by simp [toNat]
      rwa [hb] at hfront
    rw [hfirst, ih, List.length_cons, Finset.sum_range_succ', Nat.add_comm]
    refine congrArg₂ (· + ·) (Finset.sum_congr rfl fun k hk => ?_) rfl
    -- The byte with number `k` of the rest has the place value that it had in the rest.
    have hplace : bs.length + 1 - 1 - (k + 1) = bs.length - 1 - k := by omega
    rw [hplace, List.getD_cons_succ]

/-- The number at an offset is the value of the bytes there. -/
theorem numberAt_eq {bs : Bytes} {offset n : Nat} (h : offset + n ≤ bs.length) :
    bs.numberAt offset n = toNat (bs.slice offset n) := by
  rw [toNat_eq_sum, length_slice_of_le h, numberAt]
  refine Finset.sum_congr rfl fun k hk => ?_
  rw [List.getD_eq_getElem?_getD, List.getD_eq_getElem?_getD, getElem?_slice (Finset.mem_range.1 hk)]

/-- **Words of `n` bytes are read from a buffer**: where there is room for one, its value is the number of
the bytes there, and where there is none, the read is refused. It does not fault. -/
structure ReadsWords {α : Type} (bs : Bytes) (n : Nat) (read : Bytes → Nat → Machine.Step AccessError α)
    (value : α → Nat) : Prop where
  inside : ∀ offset, offset + n ≤ bs.length →
    ∃ x, read bs offset = settled (.ok x) ∧ value x = bs.numberAt offset n
  outside : ∀ offset, bs.length < offset + n →
    read bs offset = settled (.error (.shortBuffer offset n bs.length))

/-- A word is read by taking the value of its bytes, which every type of words can hold. -/
theorem readsWords {α : Type} {bs : Bytes} {n : Nat} {read : Bytes → Nat → Machine.Step AccessError α}
    {value : α → Nat} {ofNat : Nat → α} (hvalue : ∀ k < 256 ^ n, value (ofNat k) = k)
    (hread : ∀ offset, read bs offset = settled (do return ofNat (toNat (← bs.slice? offset n)))) :
    bs.ReadsWords n read value where
  inside offset h := by
    refine ⟨ofNat (toNat (bs.slice offset n)), ?_, ?_⟩
    · rw [hread, slice?_of_le h]
      rfl
    · rw [hvalue _ (toNat_slice_lt bs offset n), numberAt_eq h]
  outside offset h := by
    rw [hread, slice?_of_lt h]
    rfl

/-- **Everything that can be read from a buffer**: words of each width, and its parts. -/
structure Readable (bs : Bytes) : Prop where
  u8 : bs.ReadsWords 1 Machine.readU8 UInt8.toNat
  u16 : bs.ReadsWords 2 Machine.readU16 UInt16.toNat
  u32 : bs.ReadsWords 4 Machine.readU32 UInt32.toNat
  u64 : bs.ReadsWords 8 Machine.readU64 UInt64.toNat
  part_inside : ∀ offset len, offset + len ≤ bs.length → ∃ part,
    Machine.slice bs offset len = settled (.ok part) ∧ part.length = len ∧ ∀ k < len, part[k]? = bs[offset + k]?
  part_outside : ∀ offset len, bs.length < offset + len →
    Machine.slice bs offset len = settled (.error (.shortBuffer offset len bs.length))

/-- A buffer is readable if its length is a word. -/
theorem readable {bs : Bytes} (h : bs.length < 2 ^ 64) : bs.Readable where
  u8 := readsWords (fun _ => UInt8.toNat_ofNat_of_lt) fun _ => Machine.readU8_eq h
  u16 := readsWords (fun _ => UInt16.toNat_ofNat_of_lt) fun _ => Machine.readU16_eq h
  u32 := readsWords (fun _ => UInt32.toNat_ofNat_of_lt) fun _ => Machine.readU32_eq h
  u64 := readsWords (fun _ => UInt64.toNat_ofNat_of_lt) fun _ => Machine.readU64_eq h
  part_inside offset len hin := by
    refine ⟨bs.slice offset len, ?_, length_slice_of_le hin, fun _ => getElem?_slice⟩
    rw [Machine.slice_eq h, slice?_of_le hin]
  part_outside offset len hout := by rw [Machine.slice_eq h, slice?_of_lt hout]

end Bytes

/-! ### Runs that go through -/

namespace Machine

/-- **A run of writes.** A write that is refused leaves the buffer as it is, and the run goes on; a fault ends
the run. -/
def writeAll (bs : Bytes) (ws : List BufferWrite) : Run Bytes :=
  ws.foldlM (fun bs w => do return (← w.inPlace.run.run bs).2) bs

theorem writeAll_cons (bs : Bytes) (w : BufferWrite) (ws : List BufferWrite) :
    writeAll bs (w :: ws) = (do writeAll (← w.inPlace.run.run bs).2 ws) := by
  rw [writeAll, List.foldlM_cons]
  cases w.inPlace.run.run bs <;> rfl

/-- **A run without overflow goes through**, and leaves what its writes leave one after the other. -/
theorem writeAll_eq {bs : Bytes} (h : bs.length < 2 ^ 64) {ws : List BufferWrite}
    (hws : ∀ w ∈ ws, ¬ w.Overflows) : writeAll bs ws = .ok (bs.writeAll ws) := by
  induction ws generalizing bs with
  | nil => rfl
  | cons w ws ih =>
    obtain ⟨hw, hrest⟩ := List.forall_mem_cons.1 hws
    rw [writeAll_cons, BufferWrite.inPlace_eq h hw, ok_bind]
    exact ih (by rwa [BufferWrite.length_perform]) hrest

/-- **A run with an overflow ends there.** The writes before it do not matter. -/
theorem writeAll_fault {bs : Bytes} (h : bs.length < 2 ^ 64) {ws : List BufferWrite}
    (hws : ∃ w ∈ ws, w.Overflows) : writeAll bs ws = .error .overflow := by
  induction ws generalizing bs with
  | nil =>
    obtain ⟨w, hw, -⟩ := hws
    cases hw
  | cons w ws ih =>
    rw [writeAll_cons]
    by_cases hw : w.Overflows
    · rw [BufferWrite.inPlace_fault hw]
      rfl
    · have hrest : ∃ v ∈ ws, v.Overflows := by
        obtain ⟨v, hv, hoverflow⟩ := hws
        obtain rfl | hv := List.mem_cons.1 hv
        · exact absurd hoverflow hw
        · exact ⟨v, hv, hoverflow⟩
      rw [BufferWrite.inPlace_eq h hw, ok_bind]
      exact ih (by rwa [BufferWrite.length_perform]) hrest

/-- A run that goes through has no overflow. -/
theorem of_writeAll {bs after : Bytes} (h : bs.length < 2 ^ 64) {ws : List BufferWrite}
    (hafter : writeAll bs ws = .ok after) : after = bs.writeAll ws := by
  by_cases hws : ∃ w ∈ ws, w.Overflows
  · cases hafter.symm.trans (writeAll_fault h hws)
  · have hdone := writeAll_eq h fun w hw hoverflow => hws ⟨w, hw, hoverflow⟩
    cases hafter.symm.trans hdone
    rfl

end Machine

/-! ### Buffers as memories -/

namespace Bytes

/-- **A buffer that behaves like a memory of bytes**, after every run of writes that goes through. -/
structure ActsAsMemory (bs : Bytes) : Prop where
  /-- A run goes through unless it has a write that overflows, which ends it. -/
  goes_through : ∀ ws, (∃ after, Machine.writeAll bs ws = .ok after) ↔ ∀ w ∈ ws, ¬ w.Overflows
  ends : ∀ ws, (∃ w ∈ ws, w.Overflows) → Machine.writeAll bs ws = .error .overflow
  /-- No run changes the length. -/
  length : ∀ ws after, Machine.writeAll bs ws = .ok after → after.length = bs.length
  /-- A write is done exactly if its source has its width and its range ends within the buffer. -/
  accepted : ∀ ws after, Machine.writeAll bs ws = .ok after → ∀ w : BufferWrite,
    (∃ next, w.inPlace.run.run after = .ok (.ok (), next)) ↔ w.Fits bs.length
  /-- A write that is not done is refused for its width or for its range, and changes nothing, or it
  overflows. -/
  refused : ∀ ws after, Machine.writeAll bs ws = .ok after → ∀ w : BufferWrite, ¬ w.Fits bs.length →
    w.inPlace.run.run after
      = if w.Overflows then .error .overflow else .ok (.error (w.refusal bs.length), after)
  /-- A byte is the one that was put there last, or else the one from before the run. -/
  last_put : ∀ ws after, Machine.writeAll bs ws = .ok after →
    ∀ p, after[p]? = (lastPut? bs.length ws p).or bs[p]?
  /-- Words and parts are read where there is room for them, and nowhere else. -/
  readable : ∀ ws after, Machine.writeAll bs ws = .ok after → after.Readable
  /-- What a write put into its range is read there, until another write reaches into the range. -/
  read_back : ∀ ws (w : BufferWrite) vs after, Machine.writeAll bs (ws ++ w :: vs) = .ok after →
    w.Fits bs.length → (∀ v ∈ vs, v.Apart w) → w.ReadBack after

/-- **A buffer is a memory of bytes**, if its length is a word, except that a field of a wrong width may
overflow where it should be refused. -/
theorem actsAsMemory_unless_overflow {bs : Bytes} (h : bs.length < 2 ^ 64) : bs.ActsAsMemory where
  goes_through ws := by
    refine ⟨fun ⟨after, hafter⟩ w hw hoverflow => ?_, fun hws => ⟨_, Machine.writeAll_eq h hws⟩⟩
    cases hafter.symm.trans (Machine.writeAll_fault h ⟨w, hw, hoverflow⟩)
  ends ws := Machine.writeAll_fault h
  length ws after hafter := by rw [Machine.of_writeAll h hafter, length_writeAll]
  accepted ws after hafter w := by
    have hlength : after.length = bs.length := by rw [Machine.of_writeAll h hafter, length_writeAll]
    by_cases hw : w.Overflows
    · rw [BufferWrite.inPlace_fault hw]
      exact iff_of_false (fun ⟨_, hnext⟩ => nomatch hnext) (BufferWrite.not_fits_of_overflows hw _)
    · rw [BufferWrite.inPlace_eq (by rwa [hlength]) hw, hlength]
      by_cases hfits : w.Fits bs.length
      · rw [if_pos hfits]
        exact iff_of_true ⟨_, rfl⟩ hfits
      · rw [if_neg hfits]
        exact iff_of_false (fun ⟨_, hnext⟩ => nomatch hnext) hfits
  refused ws after hafter w hmisfit := by
    have hlength : after.length = bs.length := by rw [Machine.of_writeAll h hafter, length_writeAll]
    by_cases hw : w.Overflows
    · rw [if_pos hw, BufferWrite.inPlace_fault hw]
    · rw [if_neg hw, BufferWrite.inPlace_eq (by rwa [hlength]) hw, hlength, if_neg hmisfit,
        BufferWrite.perform_of_not_fits (by rwa [hlength])]
  last_put ws after hafter p := by rw [Machine.of_writeAll h hafter, getElem?_writeAll]
  readable ws after hafter := Bytes.readable (by rwa [Machine.of_writeAll h hafter, length_writeAll])
  read_back ws w vs after hafter hfits hapart := by
    rw [Machine.of_writeAll h hafter]
    exact readBack_writeAll h hfits ws hapart

/-- A run with a word, bytes at the last address, a field of another width, and a byte over the word. The
second and the third are refused, and the word keeps its first byte. -/
theorem actsAsMemory_fourBytes :
    let bs : Bytes := [1, 2, 3, 4]
    let ws : List BufferWrite :=
      [.u16 2 0xaabb, .bytes 0xffffffffffffffff [5, 6], .field 0 "tag" [7] 2, .bytes 3 [8]]
    bs.length < 2 ^ 64 ∧ ∃ after, Machine.writeAll bs ws = .ok after ∧
      after[0]? = some 1 ∧ after[2]? = some 0xaa ∧ after[3]? = some 8 ∧
      (BufferWrite.inPlace (.u32 1 9)).run.run after = .ok (.error (.shortBuffer 1 4 4), after) ∧
      BufferWrite.ReadBack after (.bytes 3 [8]) := by
  intro bs ws
  have h : ActsAsMemory bs := actsAsMemory_unless_overflow (by decide)
  obtain ⟨after, hafter⟩ := (h.goes_through ws).2 (by decide)
  refine ⟨by decide, after, hafter, (h.last_put ws after hafter 0).trans (by decide),
    (h.last_put ws after hafter 2).trans (by decide), (h.last_put ws after hafter 3).trans (by decide),
    (h.refused ws after hafter (.u32 1 9) (by decide)).trans (if_neg (by decide)), ?_⟩
  exact h.read_back [.u16 2 0xaabb, .bytes 0xffffffffffffffff [5, 6], .field 0 "tag" [7] 2]
    (.bytes 3 [8]) [] after hafter (by decide) fun v hv => absurd hv List.not_mem_nil

/-- A byte does not have the width of a field of `2 ^ 61` bytes. It is not refused for that, and the run ends:
the width is counted in bits before anything is said about it. -/
theorem overflowing_field_not_refused :
    let w : BufferWrite := .field 0 "f" [1] 0x2000000000000000
    ¬ w.Fits 4 ∧ w.inPlace.run.run [0, 0, 0, 0] = .error .overflow ∧
      ∀ e after, w.inPlace.run.run [0, 0, 0, 0] ≠ .ok (.error e, after) := by
  intro w
  have hfault : w.inPlace.run.run [0, 0, 0, 0] = .error .overflow := BufferWrite.inPlace_fault (by decide) _
  refine ⟨by decide, hfault, fun e after h => ?_⟩
  rw [hfault] at h
  cases h

end Bytes

end FlashImage

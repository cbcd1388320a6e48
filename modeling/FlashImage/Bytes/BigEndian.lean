/-!
# Byte strings and big-endian numbers

Everything in a flash image is a string of bytes, and every number in it is stored most significant
byte first. This file fixes the type of byte strings and the two directions of that positional code:

* `Bytes.toNat` reads a whole string as one number in base 256;
* `Bytes.ofNat w n` writes the `w` lowest digits of `n`.

They undo each other on strings of a fixed length (`ofNat_toNat`, `toNat_ofNat`), which is the one
arithmetic fact behind every fixed-width field.

## Parts

* the code itself and its laws;
* `Bytes.slice`, the part of a string at an offset, and how neighbouring parts join;
* words of 16, 32 and 64 bits, read at an offset and written out.
-/

namespace FlashImage

/-- **A byte string**: the contents of a file, of a section or of a field. -/
abbrev Bytes := List UInt8

namespace Bytes

/-- **Positional value.** The number whose digits in base 256 are `bs`, most significant first. -/
def toNat (bs : Bytes) : Nat :=
  bs.foldl (fun n b => n * 256 + b.toNat) 0

/-- **Positional form.** The `width` lowest digits of `n` in base 256, most significant first. -/
def ofNat : (width n : Nat) → Bytes
  | 0, _ => []
  | width + 1, n => ofNat width (n / 256) ++ [UInt8.ofNat n]

@[simp] theorem toNat_nil : toNat [] = 0 := rfl

@[simp] theorem toNat_concat (bs : Bytes) (b : UInt8) :
    toNat (bs ++ [b]) = toNat bs * 256 + b.toNat := by
  simp [toNat]

@[simp] theorem length_ofNat (width n : Nat) : (ofNat width n).length = width := by
  induction width generalizing n with
  | zero => rfl
  | succ width ih => simp [ofNat, ih]

/-- Reading what was written gives the number back, cut to the width. -/
theorem toNat_ofNat (width n : Nat) : toNat (ofNat width n) = n % Nat.pow 256 width := by
  induction width generalizing n with
  | zero => simp [ofNat, Nat.mod_one]
  | succ width ih =>
    have byte : (UInt8.ofNat n).toNat = n % 256 := by simp
    show toNat (ofNat (width + 1) n) = n % (Nat.pow 256 width * 256)
    rw [ofNat, toNat_concat, ih, byte, Nat.mul_comm (Nat.pow 256 width) 256, Nat.mod_mul]
    omega

/-- Every string is the written form of its own value. -/
theorem ofNat_toNat (bs : Bytes) : ofNat bs.length (toNat bs) = bs := by
  induction h : bs.length generalizing bs with
  | zero => simp [List.eq_nil_of_length_eq_zero h, ofNat]
  | succ n ih =>
    obtain ⟨init, b, rfl⟩ : ∃ init b, bs = init ++ [b] :=
      ⟨bs.dropLast, bs.getLast (List.ne_nil_of_length_eq_add_one h),
        (List.dropLast_concat_getLast _).symm⟩
    have hb := b.toNat_lt
    have hlen : init.length = n := by simpa using h
    have hdiv : (toNat init * 256 + b.toNat) / 256 = toNat init := by omega
    rw [ofNat, toNat_concat, hdiv, ih init hlen]
    congr 2
    apply UInt8.toNat_inj.1
    rw [UInt8.toNat_ofNat']
    omega

/-- A string of `n` bytes stands for a number below `256 ^ n`. -/
theorem toNat_lt (bs : Bytes) : toNat bs < Nat.pow 256 bs.length := by
  have h := toNat_ofNat bs.length (toNat bs)
  rw [ofNat_toNat] at h
  rw [h]
  exact Nat.mod_lt _ (Nat.pow_pos (by decide))

/-! ### Parts of a string -/

/-- **The part at an offset**: `len` bytes from `offset` on, or as many of them as there are. -/
def slice (bs : Bytes) (offset len : Nat) : Bytes :=
  (bs.drop offset).take len

@[simp] theorem length_slice (bs : Bytes) (offset len : Nat) :
    (slice bs offset len).length = min len (bs.length - offset) := by
  simp [slice]

/-- A part and everything after it make up everything from the part on. -/
theorem slice_append_drop (bs : Bytes) (offset len : Nat) :
    slice bs offset len ++ bs.drop (offset + len) = bs.drop offset := by
  rw [slice, ← List.drop_drop, List.take_append_drop]

/-- Two neighbouring parts join to one. -/
theorem slice_append_slice (bs : Bytes) (offset len more : Nat) :
    slice bs offset len ++ slice bs (offset + len) more = slice bs offset (len + more) := by
  rw [slice, slice, slice, List.take_add, List.drop_drop]

/-! ### Words -/

/-- Two bytes, most significant first. -/
def u16 (x : UInt16) : Bytes := ofNat 2 x.toNat

/-- Four bytes, most significant first. -/
def u32 (x : UInt32) : Bytes := ofNat 4 x.toNat

/-- Eight bytes, most significant first. -/
def u64 (x : UInt64) : Bytes := ofNat 8 x.toNat

/-- The 16-bit word at an offset. -/
def u16At (bs : Bytes) (offset : Nat) : UInt16 := UInt16.ofNat (toNat (slice bs offset 2))

/-- The 32-bit word at an offset. -/
def u32At (bs : Bytes) (offset : Nat) : UInt32 := UInt32.ofNat (toNat (slice bs offset 4))

/-- The 64-bit word at an offset. -/
def u64At (bs : Bytes) (offset : Nat) : UInt64 := UInt64.ofNat (toNat (slice bs offset 8))

@[simp] theorem length_u16 (x : UInt16) : (u16 x).length = 2 := length_ofNat _ _

@[simp] theorem length_u32 (x : UInt32) : (u32 x).length = 4 := length_ofNat _ _

@[simp] theorem length_u64 (x : UInt64) : (u64 x).length = 8 := length_ofNat _ _

/-- **Dwords in a row**, each four bytes. -/
def ofDwords (dwords : List UInt32) : Bytes := dwords.flatMap u32

/-- **The whole dwords of a string**, in order; up to three left-over bytes at the end are not one. -/
def toDwords : Bytes → List UInt32
  | a :: b :: c :: d :: rest => UInt32.ofNat (toNat [a, b, c, d]) :: toDwords rest
  | _ => []

end Bytes

end FlashImage

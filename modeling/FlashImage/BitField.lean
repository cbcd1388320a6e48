import FlashImage.Bytes.Access

/-!
# Fields packed into dwords

Most structures on the flash pack several fields into one dword. A record of such structures is kept
as its raw dwords, and a `BitField` is a view onto the bits `lsb..=msb` of one of them: reading it
shifts those bits down, writing it replaces exactly those bits. What no field covers is never touched,
so reserved bits survive every edit.

## Parts

* `mask`, `bits`, `setBits` — ranges of bits of one dword;
* `BitField` — a range of bits of one dword of a record;
* `coveredMasks` and `reservedBits` — the bits that some field covers, and what is left of a record
  without them.
-/

namespace FlashImage

/-! ### Ranges of bits -/

/-- The dword whose bits `lsb..=msb` are set. -/
def mask (msb lsb : Nat) : UInt32 :=
  UInt32.ofNat ((1 <<< (msb + 1 - lsb) - 1) <<< lsb)

/-- The number in bits `lsb..=msb` of a dword. -/
def bits (word : UInt32) (msb lsb : Nat) : UInt32 :=
  (word &&& mask msb lsb) >>> UInt32.ofNat lsb

/-- A dword with bits `lsb..=msb` replaced by the low bits of `value`. -/
def setBits (word : UInt32) (msb lsb : Nat) (value : UInt32) : UInt32 :=
  (word &&& ~~~(mask msb lsb)) ||| ((value <<< UInt32.ofNat lsb) &&& mask msb lsb)

/-- **A field**: bits `lsb..=msb` of dword number `dword` of a record. -/
structure BitField where
  name : String
  dword : Nat
  msb : Nat
  lsb : Nat
  lsb_le_msb : lsb ≤ msb := by decide
  msb_lt : msb < 32 := by decide
  deriving DecidableEq

namespace BitField

/-- The number of bits of a field. -/
def width (f : BitField) : Nat := f.msb - f.lsb + 1

/-- The bits of its dword that a field covers. -/
def mask (f : BitField) : UInt32 := FlashImage.mask f.msb f.lsb

/-- **Reading a field.** A record too short to hold its dword reads as zero. -/
def get (f : BitField) (dwords : List UInt32) : UInt32 :=
  match dwords[f.dword]? with
  | some word => bits word f.msb f.lsb
  | none => 0

/-- Whether any bit of a field is set. -/
def isSet (f : BitField) (dwords : List UInt32) : Bool := f.get dwords ≠ 0

/-- A record with a field replaced by the low bits of `value`. -/
def replace (f : BitField) (dwords : List UInt32) (value : UInt32) : List UInt32 :=
  dwords.modify f.dword fun word => setBits word f.msb f.lsb value

@[simp] theorem length_replace (f : BitField) (dwords : List UInt32) (value : UInt32) :
    (f.replace dwords value).length = dwords.length := by
  simp [replace]

/-- The largest value a field can hold. -/
def limit (f : BitField) : UInt32 := f.mask >>> UInt32.ofNat f.lsb

/-- **Writing a field.** A value wider than the field is refused, and so is a record too short to hold
the field's dword. -/
def set (f : BitField) (dwords : List UInt32) (value : UInt32) : Except AccessError (List UInt32) :=
  if f.limit < value then .error (.fieldOverflow f.name value.toNat f.width)
  else if f.dword < dwords.length then .ok (f.replace dwords value)
  else .error (.shortBuffer (f.dword * 4) 4 (dwords.length * 4))

/-- Writing a field keeps the number of dwords. -/
theorem length_set {f : BitField} {dwords dwords' : List UInt32} {value : UInt32}
    (h : f.set dwords value = .ok dwords') : dwords'.length = dwords.length := by
  unfold set at h
  split at h
  · cases h
  · split at h
    · cases h
      exact length_replace f dwords value
    · cases h

end BitField

/-! ### Covered and reserved bits -/

/-- The bits of dword number `i` that some field covers. -/
def coveredMask (fields : List BitField) (i : Nat) : UInt32 :=
  (fields.filter (·.dword = i)).foldl (fun m f => m ||| f.mask) 0

/-- **Covered bits**, for each of the first `n` dwords. -/
def coveredMasks (fields : List BitField) (n : Nat) : List UInt32 :=
  (List.range n).map (coveredMask fields)

/-- **Reserved bits**: a record with all bits cleared that some field covers. -/
def reservedBits (fields : List BitField) (dwords : List UInt32) : List UInt32 :=
  dwords.mapIdx fun i word => word &&& ~~~(coveredMask fields i)

@[simp] theorem length_reservedBits (fields : List BitField) (dwords : List UInt32) :
    (reservedBits fields dwords).length = dwords.length := by
  simp [reservedBits]

end FlashImage

import FlashImage.Bytes.BigEndian

/-!
# The two CRCs

Both checks are cyclic redundancy checks of 16 bits over the same polynomial, with the most
significant bit of each byte first. They differ in what surrounds the register:

* the *software* CRC covers whole dwords, so the input is padded with zero bytes; the register starts
  at a value that stands for all ones pushed through sixteen zero bits, and the result is inverted;
* the *hardware* CRC takes the input as it is, starts at all ones and inverts nothing.

One step of the register is linear: with no input bit it is a shift that folds the bit shifted out
back in, and an input bit counts as if it had been the bit shifted out.
-/

namespace FlashImage.Crc

/-- **The polynomial** of both checks, without its leading term. -/
def polynomial : UInt16 := 0x100b

/-- The register after a zero bit has gone in. -/
def shift (register : UInt16) : UInt16 :=
  if register &&& 0x8000 = 0 then register <<< 1 else (register <<< 1) ^^^ polynomial

/-- The register after a byte has gone in, most significant bit first. -/
def feed (register : UInt16) (b : UInt8) : UInt16 :=
  let r := register ^^^ (b.toUInt16 <<< 8)
  shift (shift (shift (shift (shift (shift (shift (shift r)))))))

/-- **The register after a whole input.** -/
def run (register : UInt16) (data : Bytes) : UInt16 := data.foldl feed register

@[simp] theorem run_nil (register : UInt16) : run register [] = register := rfl

@[simp] theorem run_cons (register : UInt16) (b : UInt8) (data : Bytes) :
    run register (b :: data) = run (feed register b) data := rfl

/-- Feeding two inputs one after the other is feeding their concatenation. -/
theorem run_append (register : UInt16) (data more : Bytes) :
    run register (data ++ more) = run (run register data) more := by
  simp [run]

/-- The number of zero bytes that fill an input up to whole dwords. -/
def padding (data : Bytes) : Nat := (4 - data.length % 4) % 4

/-- **The software CRC**, as tables of contents and section payloads carry it. -/
def software (data : Bytes) : UInt16 :=
  ~~~(run (run 0xf6aa data) (List.replicate (padding data) 0))

/-- **The hardware CRC**, as the hardware pointers carry it. -/
def hardware (data : Bytes) : UInt16 := run 0xffff data

end FlashImage.Crc

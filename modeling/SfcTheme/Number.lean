set_option autoImplicit false

namespace SfcTheme

/-- The size `coefficient * 2 ^ exponent`. -/
structure Binary where
  coefficient : Nat
  exponent : Int
  deriving DecidableEq, Repr

inductive Number where
  | nan
  | infinite (negative : Bool)
  | finite (negative : Bool) (size : Binary)
  deriving DecidableEq, Repr

/-- The smallest coefficient of fifty-three bits, which is also the number of fractions. -/
def Binary.leadingBit : Nat := 0x10000000000000

def Binary.leastExponent : Int := -1074

/-- The lowest exponent stands for sizes without a leading bit, the highest for what is not finite. -/
def Number.ofBits (bits : UInt64) : Number :=
  let n := bits.toNat
  let negative : Bool := 0x8000000000000000 ≤ n
  let exponent := n / Binary.leadingBit % 0x800
  let fraction := n % Binary.leadingBit
  if exponent = 0x7FF then if fraction = 0 then .infinite negative else .nan
  else if exponent = 0 then .finite negative ⟨fraction, Binary.leastExponent⟩
  else
    .finite negative
      ⟨Binary.leadingBit + fraction, Binary.leastExponent + Int.ofNat exponent - 1⟩

example : Number.ofBits 0x3FF0000000000000 = .finite false ⟨0x10000000000000, -52⟩ := by decide
example : Number.ofBits 0x8000000000000001 = .finite true ⟨1, -1074⟩ := by decide

end SfcTheme

import Mathlib.Algebra.Ring.Nat
import Mathlib.Tactic.Common

/-!
# Numbers of 32 bits in network byte order

`be32` writes a number most significant byte first, `ofBe32` reads it back.
-/

namespace Lib

/-- The four bytes of `n`, the most significant first. -/
def be32 (n : Nat) : List UInt8 :=
  [UInt8.ofNat (n / 2 ^ 24), UInt8.ofNat (n / 2 ^ 16), UInt8.ofNat (n / 2 ^ 8), UInt8.ofNat n]

def ofBe32 : List UInt8 → Nat
  | [a, b, c, d] => a.toNat * 2 ^ 24 + b.toNat * 2 ^ 16 + c.toNat * 2 ^ 8 + d.toNat
  | _ => 0

theorem ofBe32_be32 {n : Nat} (h : n < 2 ^ 32) : ofBe32 (be32 n) = n := by
  simp only [be32, ofBe32, UInt8.toNat_ofNat']
  omega

end Lib

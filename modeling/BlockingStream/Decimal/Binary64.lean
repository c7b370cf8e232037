/-!
This module contains the binary floating point numbers of 64 bits as exact values, and the rounding of a
decimal number to them.
-/

namespace BlockingStream.Decimal

/--
A binary floating point number of 64 bits. A finite one is `m * 2 ^ e`, negated if it is negative, with
`m < 2 ^ 53` and `-1074 ≤ e`; where `m` is less than `2 ^ 52`, `e` is `-1074`.
-/
inductive Binary64 where
  | nan
  | infinite (negative : Bool)
  | finite (negative : Bool) (m : Nat) (e : Int)
  deriving DecidableEq, Repr, Inhabited

def roundHalfEven (num den : Nat) : Nat :=
  let q := num / den
  let twice := 2 * (num % den)
  if twice < den then q
  else if twice = den then q + q % 2
  else q + 1

def power (base : Nat) (e : Int) : Nat :=
  -- a negative exponent belongs to the other side of a fraction
  Nat.pow base e.toNat

def floorLog2 (num den : Nat) : Int :=
  let k : Int := (num.log2 : Int) - (den.log2 : Int)
  let below := num * power 2 (-k) < den * power 2 k
  if below then k - 1 else k

namespace Binary64

def ofFraction (negative : Bool) (num den : Nat) : Binary64 :=
  let e := max (floorLog2 num den - 52) (-1074)
  let m := roundHalfEven (num * power 2 (-e)) (den * power 2 e)
  let (m, e) := if m = power 2 53 then (power 2 52, e + 1) else (m, e)
  if 971 < e then .infinite negative else .finite negative m e

/--
The number nearest to `m * 10 ^ e`. Exponents that are far out of range are decided without computing
the power.
-/
def ofDecimal (negative : Bool) (m : Nat) (e : Int) : Binary64 :=
  let size := (Nat.toDigits 10 m).length + e
  if m = 0 || size < -400 then .finite negative 0 (-1074)
  else if 400 < size then .infinite negative
  else ofFraction negative (m * power 10 e) (power 10 (-e))

end Binary64

end BlockingStream.Decimal

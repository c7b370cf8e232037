import BlockingStream.Decimal.Binary64

/-!
This module contains the shortest decimal text of a binary floating point number: the fewest digits that
still read back as the same number, and of these the nearest.
-/

namespace BlockingStream.Decimal

structure Fraction where
  num : Nat
  den : Nat
  deriving DecidableEq, Repr

namespace Fraction

def ofBinary (m : Nat) (e : Int) : Fraction := ⟨m * power 2 e, power 2 (-e)⟩

def lt (a b : Fraction) : Bool := a.num * b.den < b.num * a.den

def exponent (a : Fraction) : Int :=
  if a.den ≤ a.num then (Nat.toDigits 10 (a.num / a.den)).length
  else
    match (List.range 400).find? fun (k : Nat) => a.den ≤ a.num * power 10 (k + 1) with
    | some k => -k
    | none => 0

end Fraction

def bounds (m : Nat) (e : Int) : Fraction × Fraction :=
  -- the lower neighbour of a power of two is nearer than its upper one
  let low :=
    if m = power 2 52 ∧ -1074 < e then Fraction.ofBinary (4 * m - 1) (e - 2)
    else Fraction.ofBinary (2 * m - 1) (e - 1)
  (low, Fraction.ofBinary (2 * m + 1) (e - 1))

def scaled (q : Nat) (e : Int) : Fraction := ⟨q * power 10 e, power 10 (-e)⟩

def readsBack (m : Nat) (e : Int) (a : Fraction) : Bool :=
  -- the bounds themselves do so if `m` is even
  let (low, high) := bounds m e
  if m % 2 = 0 then !a.lt low && !high.lt a else low.lt a && a.lt high

def nearestOn (m : Nat) (e unit : Int) : Option Nat :=
  -- the upper neighbour is taken if both are equally near
  let v := Fraction.ofBinary m e
  let num := v.num * power 10 (-unit)
  let den := v.den * power 10 unit
  let q := num / den
  let down := readsBack m e (scaled q unit)
  let up := readsBack m e (scaled (q + 1) unit)
  if up && (!down || den ≤ 2 * (num % den)) then some (q + 1)
  else if down then some q
  else none

def shortest (m : Nat) (e : Int) : Nat × Int :=
  let p := (Fraction.ofBinary m e).exponent
  let grid := fun (n : Nat) =>
    let unit := p - (n + 1 : Nat)
    (nearestOn m e unit).map fun q => (q, unit)
  ((List.range 17).findSome? grid).getD (0, 0)

def positional (q : Nat) (e : Int) : String :=
  let digits := Nat.toDigits 10 q
  let text :=
    if 0 ≤ e then digits ++ List.replicate e.toNat '0' ++ ['.', '0']
    else
      let places := (-e).toNat
      let padded := List.replicate (places + 1 - digits.length) '0' ++ digits
      let whole := padded.length - places
      padded.take whole ++ ['.'] ++ padded.drop whole
  String.ofList text

def trimZeros : Nat → Nat → Int → Nat × Int
  | 0, q, e => (q, e)
  | fuel + 1, q, e => if q ≠ 0 ∧ q % 10 = 0 then trimZeros fuel (q / 10) (e + 1) else (q, e)

/--
The text of a number: its shortest digits, always with a point and never with an exponent.
-/
def Binary64.text : Binary64 → String
  | nan => "NaN"
  | infinite negative => if negative then "-inf" else "inf"
  | finite negative m e =>
    let (q, unit) := if m = 0 then (0, 0) else shortest m e
    let (q, unit) := trimZeros 17 q unit
    (if negative then "-" else "") ++ positional q unit

end BlockingStream.Decimal

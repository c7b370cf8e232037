import BlockingStream.Toml.Value
import BlockingStream.Toml.Scan

/-!
This module contains the TOML numbers.
-/

namespace BlockingStream.Toml.Scan

def sign : List Char → Bool × List Char
  | '-' :: rest => (true, rest)
  | '+' :: rest => (false, rest)
  | cs => (false, cs)

def wholeDigits : Scan (List Nat)
  | '0' :: rest => some ([0], rest)
  | cs => digits 10 cs

def integer (negative : Bool) (n : Nat) : Option Value :=
  if negative then
    if n ≤ Nat.pow 2 63 then some (.integer (-n)) else none
  else if n < Nat.pow 2 63 then some (.integer n)
  else none

def basedInteger (base : Nat) : Scan Value := fun cs => do
  let (ds, rest) ← digits base cs
  some (← integer false (digitsValue base ds), rest)

def exponent : Scan (Option Int)
  | c :: cs =>
    if c = 'e' || c = 'E' then do
      let (negative, cs) := sign cs
      let (ds, rest) ← digits 10 cs
      let n : Int := digitsValue 10 ds
      some (some (if negative then -n else n), rest)
    else some (none, c :: cs)
  | [] => some (none, [])

def fraction : Scan (Option (List Nat))
  | '.' :: cs => do
    let (ds, rest) ← digits 10 cs
    some (some ds, rest)
  | cs => some (none, cs)

def checkedFloat (x : Decimal.Binary64) : Option Value :=
  -- only a number that is too small becomes infinite
  if x = .infinite false then none else some (.float x)

def decimal : Scan Value := fun cs => do
  let (negative, cs) := sign cs
  let (whole, cs) ← wholeDigits cs
  let (places, cs) ← fraction cs
  let (exp, cs) ← exponent cs
  match places, exp with
  | none, none => some (← integer negative (digitsValue 10 whole), cs)
  | _, _ =>
    let places := places.getD []
    let m := digitsValue 10 (whole ++ places)
    let e := exp.getD 0 - (places.length : Int)
    some (← checkedFloat (.ofDecimal negative m e), cs)

def special : Scan Value := fun cs =>
  match sign cs with
  | (negative, 'i' :: 'n' :: 'f' :: rest) => some (.float (.infinite negative), rest)
  | (_, 'n' :: 'a' :: 'n' :: rest) => some (.float .nan, rest)
  | _ => none

def number : Scan Value
  | '0' :: 'x' :: rest => basedInteger 16 rest
  | '0' :: 'o' :: rest => basedInteger 8 rest
  | '0' :: 'b' :: rest => basedInteger 2 rest
  | cs =>
    match special cs with
    | some found => some found
    | none => decimal cs

end BlockingStream.Toml.Scan

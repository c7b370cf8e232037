import BlockingStream.Toml.Value
import BlockingStream.Toml.Scan

/-!
This module contains the TOML dates and times. Only their form and their ranges matter here: no setting
is a date, so its value is not kept.
-/

namespace BlockingStream.Toml.Scan

def numberWithin (n lo hi : Nat) : Scan Nat := fun cs => do
  let (ds, rest) ← fixedDigits 10 n cs
  let v := digitsValue 10 ds
  if lo ≤ v && v ≤ hi then some (v, rest) else none

def char (c : Char) : Scan Unit
  | [] => none
  | d :: rest => if c = d then some ((), rest) else none

def daysOfMonth (year month : Nat) : Nat :=
  let leap := year % 4 = 0 ∧ (year % 100 ≠ 0 ∨ year % 400 = 0)
  if month = 2 then (if leap then 29 else 28)
  else if month ∈ [4, 6, 9, 11] then 30
  else 31

def date : Scan Unit := fun cs => do
  let (year, cs) ← numberWithin 4 0 9999 cs
  let (_, cs) ← char '-' cs
  let (month, cs) ← numberWithin 2 1 12 cs
  let (_, cs) ← char '-' cs
  let (_, cs) ← numberWithin 2 1 (daysOfMonth year month) cs
  some ((), cs)

def skipSecondFraction (cs : List Char) : List Char :=
  -- a point that no digit follows is left alone
  match cs with
  | '.' :: rest =>
    if (rest.head?.map Char.isDigit).getD false then rest.dropWhile Char.isDigit else cs
  | _ => cs

def time : Scan Unit := fun cs => do
  -- the second may be a leap second
  let (_, cs) ← numberWithin 2 0 23 cs
  let (_, cs) ← char ':' cs
  let (_, cs) ← numberWithin 2 0 59 cs
  let (_, cs) ← char ':' cs
  let (_, cs) ← numberWithin 2 0 60 cs
  some ((), skipSecondFraction cs)

def timeOffset : Scan Unit
  | c :: cs =>
    if c = 'Z' || c = 'z' then some ((), cs)
    else if c = '+' || c = '-' then do
      let (_, cs) ← numberWithin 2 0 23 cs
      let (_, cs) ← char ':' cs
      let (_, cs) ← numberWithin 2 0 59 cs
      some ((), cs)
    else none
  | [] => none

def timeAfterDate : Scan Unit
  | c :: cs =>
    if c = 'T' || c = 't' || c = ' ' then do
      let (_, cs) ← time cs
      some ((), ((timeOffset cs).map (·.2)).getD cs)
    else none
  | [] => none

def moment : Scan Value := fun cs =>
  match date cs with
  | some (_, cs) => some (.moment, ((timeAfterDate cs).map (·.2)).getD cs)
  | none => (time cs).map fun found => (.moment, found.2)

end BlockingStream.Toml.Scan

/-!
This module contains the scanning of TOML text: a scanner takes something off the front of the text and
leaves the rest.
-/

namespace BlockingStream.Toml

/--
A scanner finds something at the front of the text, or nothing.
-/
abbrev Scan (α : Type) := List Char → Option (α × List Char)

namespace Scan

def isSpace (c : Char) : Bool := c = ' ' || c = '\t'

def skipSpaces (cs : List Char) : List Char := cs.dropWhile isSpace

def lineBreak : Scan Unit
  | '\n' :: rest => some ((), rest)
  | '\r' :: '\n' :: rest => some ((), rest)
  | _ => none

def isPlain (c : Char) : Bool := c = '\t' || (' ' ≤ c && c ≠ '\x7f')

def skipComment : List Char → List Char
  | '#' :: rest => rest.dropWhile isPlain
  | cs => cs

def lineEnd : Scan Unit := fun cs =>
  match skipComment (skipSpaces cs) with
  | [] => some ((), [])
  | cs => lineBreak cs

def skipFiller (cs : List Char) : List Char :=
  go cs.length cs
where
  go : Nat → List Char → List Char
    | 0, cs => cs
    | fuel + 1, cs =>
      match skipSpaces cs with
      | '#' :: rest =>
        match lineBreak (rest.dropWhile isPlain) with
        | some (_, rest) => go fuel rest
        | none => '#' :: rest
      | cs =>
        match lineBreak cs with
        | some (_, rest) => go fuel rest
        | none => cs

def digit? (base : Nat) (c : Char) : Option Nat :=
  let d :=
    if c.isDigit then some (c.toNat - 48)
    else if 'a' ≤ c && c ≤ 'f' then some (c.toNat - 87)
    else if 'A' ≤ c && c ≤ 'F' then some (c.toNat - 55)
    else none
  d.filter (· < base)

def digitsValue (base : Nat) (digits : List Nat) : Nat :=
  digits.foldl (fun n d => n * base + d) 0

def fixedDigits (base : Nat) : Nat → Scan (List Nat)
  | 0, cs => some ([], cs)
  | _ + 1, [] => none
  | n + 1, c :: cs => do
    let d ← digit? base c
    let (ds, rest) ← fixedDigits base n cs
    some (d :: ds, rest)

def moreDigits (base : Nat) (found : List Nat) : List Char → Option (List Nat × List Char)
  -- a single underscore may stand between two digits; the digits found so far come in reverse
  | [] => some (found.reverse, [])
  | '_' :: c :: cs =>
    match digit? base c with
    | some d => moreDigits base (d :: found) cs
    | none => none
  | ['_'] => none
  | c :: cs =>
    match digit? base c with
    | some d => moreDigits base (d :: found) cs
    | none => some (found.reverse, c :: cs)

def digits (base : Nat) : Scan (List Nat)
  | [] => none
  | c :: cs => do moreDigits base [← digit? base c] cs

end Scan

end BlockingStream.Toml

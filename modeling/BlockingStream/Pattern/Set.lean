import BlockingStream.Pattern.Basic

/-!
This module contains the sets of characters in brackets. Reading a set tells how deep its parts lie inside
each other.
-/

namespace BlockingStream.Pattern

def rowDepth : List Nat → Nat
  -- a single one is not wrapped
  | [] => 0
  | [depth] => depth
  | depths => 1 + depths.foldl max 0

def classNames : List String :=
  ["alnum", "alpha", "ascii", "blank", "cntrl", "digit", "graph", "lower", "print", "punct", "space",
    "upper", "word", "xdigit"]

def className (cs : List Char) : Option (List Char) :=
  match cs.dropWhile (· ≠ ':') with
  | ':' :: ']' :: rest =>
    if classNames.contains (String.ofList (cs.takeWhile (· ≠ ':'))) then some rest else none
  | _ => none

def asciiClass : List Char → Option (Bool × List Char)
  | ':' :: '^' :: rest => (className rest).map (true, ·)
  | ':' :: rest => (className rest).map (false, ·)
  | _ => none

def admitsClass (m : Mode) (negated : Bool) : Bool := if m.unicode then !m.anyCase else !negated

def hyphens (m : Mode) : Nat → Nat → List Char → Nat × List Char
  | 0, n, cs => (n, cs)
  | fuel + 1, n, cs =>
    match m.skip cs with
    | '-' :: rest => hyphens m fuel (n + 1) rest
    | cs => (n, cs)

def setFront (m : Mode) (cs : List Char) : Option (List Nat × List Char) := do
  -- a closing bracket right at the front counts as a member, and only a set of characters can be negated
  let (negated, cs) :=
    match m.skip cs with
    | '^' :: rest => (true, rest)
    | cs => (false, cs)
  let (n, cs) := hyphens m cs.length 0 cs
  let (n, cs) :=
    match n, cs with
    | 0, ']' :: rest => (1, rest)
    | n, cs => (n, cs)
  if (negated && !m.unicode) || (n ≠ 0 && m.unicode && m.anyCase) then none
  else some (List.replicate n 0, cs)

def member (m : Mode) : List Char → Option (Atom × List Char)
  | [] => none
  | '\\' :: rest => escape m rest
  | c :: rest => some (.literal c false, rest)

def peek (m : Mode) (cs : List Char) : Option Char :=
  -- the beginning of a comment does not count here, but its text does
  if m.spaced then
    match cs.dropWhile Text.isBlankChar with
    | '#' :: rest => (rest.dropWhile Text.isBlankChar).head?
    | cs => cs.head?
  else cs.head?

def memberOrRange (m : Mode) (cs : List Char) : Option (List Char) := do
  -- a hyphen in front of a closing bracket or of another hyphen makes no range
  let (low, rest) ← member m cs
  if !low.admittedInSet m then none
  else
    match m.skip rest with
    | '-' :: behind =>
      if peek m behind = some ']' || peek m behind = some '-' then some ('-' :: behind)
      else do
        let (high, rest) ← member m (m.skip behind)
        match low, high with
        | .literal a _, .literal b _ => if high.admittedInSet m && a ≤ b then some rest else none
        | _, _ => none
    | rest => some rest

def sideDepth (left : Option Nat) (members : List Nat) : Nat :=
  match left with
  | some depth => 1 + max depth (rowDepth members)
  | none => rowDepth members

def setRest (m : Mode) : Nat → Option Nat → List Nat → List Char → Option (Nat × List Char)
  -- the depths of the members so far come in reverse
  | 0, _, _, _ => none
  | fuel + 1, left, members, cs =>
    match m.skip cs with
    | [] => none
    | ']' :: rest => some (1 + sideDepth left members, rest)
    | '&' :: '&' :: rest | '-' :: '-' :: rest | '~' :: '~' :: rest =>
      setRest m fuel (some (sideDepth left members)) [] rest
    | '[' :: rest =>
      match asciiClass rest with
      | some (negated, rest) =>
        if admitsClass m negated then setRest m fuel left (0 :: members) rest else none
      | none => do
        let (front, rest) ← setFront m rest
        let (depth, rest) ← setRest m fuel none front rest
        setRest m fuel left (depth :: members) rest
    | cs => do setRest m fuel left (0 :: members) (← memberOrRange m cs)

def set (m : Mode) (cs : List Char) : Option (Nat × List Char) := do
  let (front, rest) ← setFront m cs
  setRest m (rest.length + 1) none front rest

end BlockingStream.Pattern

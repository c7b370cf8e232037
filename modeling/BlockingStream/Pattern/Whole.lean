import BlockingStream.Pattern.Set
import BlockingStream.Text.Alphanumeric

/-!
This module contains whole patterns: sequences with repetitions, alternatives and groups. The main
definition, `isPattern`, tells whether a text is one.
-/

namespace BlockingStream.Pattern

def groupName (cs : List Char) : Option (String × List Char) :=
  let name := cs.takeWhile (· ≠ '>')
  let goesOn (c : Char) : Bool := ['_', '.', '[', ']'].contains c || Text.isAlphanumeric c
  match name, cs.dropWhile (· ≠ '>') with
  | first :: more, '>' :: rest =>
    if (first = '_' || Text.isAlphabetic first) && more.all goesOn then some (String.ofList name, rest)
    else none
  | _, _ => none

inductive Opening where
  /-- It only sets the mode for the rest of the group that it stands in. -/
  | setting (m : Mode)
  | group (m : Mode)
  deriving Repr

def modeChange (m : Mode) : (on : Bool) → (seen : List Char) → List Char → Option (Opening × List Char)
  -- what was seen so far comes in reverse: nothing may come twice, and a hyphen is not the last
  | _, _, [] => none
  | on, seen, c :: rest =>
    if c = ':' then if seen.head? = some '-' then none else some (.group m, rest)
    else if c = ')' then
      if seen.isEmpty || seen.head? = some '-' then none else some (.setting m, rest)
    else if seen.contains c then none
    else if c = '-' then modeChange m false (c :: seen) rest
    else if settings.contains c then modeChange (m.switch on c) on (c :: seen) rest
    else none

def opening (m : Mode) (names : List String) : List Char → Option (Opening × List String × List Char)
  -- two groups cannot have the same name, and there is no looking ahead or behind
  | '?' :: 'P' :: '<' :: rest | '?' :: '<' :: rest => do
    let (name, rest) ← groupName rest
    if names.contains name then none else some (.group m, name :: names, rest)
  | '?' :: rest => (modeChange m true [] rest).map fun found => (found.1, names, found.2)
  | rest => some (.group m, names, rest)

/--
A part of a sequence: a setting, which cannot be repeated, or something with its depth.
-/
inductive Part where
  | setting
  | node (depth : Nat)
  deriving Repr

def Part.depth : Part → Nat
  | setting => 0
  | node depth => depth

def choiceDepth (others : List Nat) (parts : List Part) : Nat :=
  rowDepth (rowDepth (parts.map Part.depth) :: others)

def skipLazy : List Char → List Char
  | '?' :: rest => rest
  | cs => cs

/--
Reads alternatives up to the end of the text or to a closing parenthesis, which is left. The result is the
depth, the names of all groups so far, and the rest. A repetition with a count has no place here, because
the brace that would close it ends the condition that the pattern belongs to.
-/
def alternatives : Nat → Mode → List String → List Nat → List Part → List Char →
    Option (Nat × List String × List Char)
  | 0, _, _, _, _, _ => none
  | fuel + 1, m, names, others, parts, cs =>
    let next (part : Part) (rest : List Char) := alternatives fuel m names others (part :: parts) rest
    match m.skip cs with
    | [] => some (choiceDepth others parts, names, [])
    | ')' :: rest => some (choiceDepth others parts, names, ')' :: rest)
    | '|' :: rest =>
      alternatives fuel m names (rowDepth (parts.map Part.depth) :: others) [] rest
    | '(' :: rest => do
      match ← opening m names (m.skip rest) with
      | (.setting m, names, rest) => alternatives fuel m names others (.setting :: parts) rest
      | (.group inner, names, rest) =>
        match ← alternatives fuel inner names [] [] rest with
        | (depth, names, ')' :: rest) =>
          alternatives fuel m names others (.node (1 + depth) :: parts) rest
        | _ => none
    | '[' :: rest => do
      let (depth, rest) ← set m rest
      next (.node depth) rest
    | '\x7b' :: _ => none
    | '\\' :: rest => do
      let (atom, rest) ← escape m rest
      if atom.admitted m then next (.node 0) rest else none
    | c :: rest =>
      if c = '?' || c = '*' || c = '+' then
        match parts with
        | .node depth :: parts =>
          alternatives fuel m names others (.node (1 + depth) :: parts) (skipLazy rest)
        | _ => none
      else if c = '.' then if m.unicode then next (.node 0) rest else none
      else if c = '^' || c = '$' then next (.node 0) rest
      else if (Atom.literal c false).admitted m then next (.node 0) rest
      else none

def depthLimit : Nat := 250

def isPattern (cs : List Char) : Bool :=
  match alternatives (cs.length + 1) {} [] [] [] cs with
  | some (depth, _, []) => depth ≤ depthLimit
  | _ => false

end BlockingStream.Pattern

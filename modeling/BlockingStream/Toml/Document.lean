import BlockingStream.Toml.Nested

/-!
This module contains whole TOML documents: a sequence of statements that fill tables. A document is read
as a whole or not at all.
-/

namespace BlockingStream.Toml

/--
Where an entry of a document stands: the text from its key on, and the text from its value on.
-/
structure Mark where
  key : List Char
  value : List Char
  deriving Repr

/--
A document: its entries in the order in which they came up, and where each one stands.
-/
structure Document where
  entries : Entries := []
  marks : List (String × Mark) := []
  deriving Repr

/--
A line and a column of a text, both counted from 1.
-/
structure Position where
  line : Nat
  column : Nat
  deriving DecidableEq, Repr

def Position.ofRest (text rest : List Char) : Position :=
  let before := text.take (text.length - rest.length)
  { line := before.count '\n' + 1
    column := (before.reverse.takeWhile (· ≠ '\n')).length + 1 }

namespace Document

def mark (key : String) (m : Mark) (d : Document) : Document :=
  if (d.entries.lookup key).isSome then d else { d with marks := (key, m) :: d.marks }

def pairStatement (path : List String) (d : Document) (cs : List Char) :
    Option (Document × List Char) := do
  let (key, rest) ← Scan.key cs
  match rest with
  | '=' :: rest =>
    let rest := Scan.skipSpaces rest
    let (v, after) ← Scan.value (Scan.depthLimit - 1) rest
    let (_, after) ← Scan.lineEnd after
    let marked :=
      match path, key with
      | [], [single] => d.mark single ⟨cs, rest⟩
      | [], first :: _ => d.mark first ⟨cs, cs⟩
      | _, _ => d
    let entries ← d.entries.alter .byHeader (Entries.addPair .byKey key v) path .header
    some ({ marked with entries }, after)
  | _ => none

def headerStatement (growing : Bool) (start : List Char) (d : Document) (cs : List Char) :
    Option (Document × List String × List Char) := do
  -- this begins behind the opening brackets, and the text from the header on is `start`
  let cs := Scan.skipSpaces cs
  let (key, rest) ← Scan.key cs
  let rest ←
    match growing, rest with
    | false, ']' :: rest => some rest
    | true, ']' :: ']' :: rest => some rest
    | _, _ => none
  let (_, rest) ← Scan.lineEnd rest
  let last ← key.getLast?
  let path := key.dropLast
  let marks :=
    match key with
    | [single] =>
      if growing then (d.mark single ⟨cs, start⟩).marks else (single, ⟨cs, start⟩) :: d.marks
    | first :: _ => (d.mark first ⟨cs, cs⟩).marks
    | [] => d.marks
  let change := if growing then Entries.openItem last else Entries.openTable last
  let entries ← d.entries.alter .byHeader (fun _ => change) path .header
  some ({ entries, marks }, key, rest)

def statements : Nat → List String → Document → List Char → Except (List Char) Document
  -- the statements fill the table at `path`, until a header opens another one
  | 0, _, _, cs => .error cs
  | fuel + 1, path, d, cs =>
    let cs := Scan.skipSpaces cs
    match cs with
    | [] => .ok d
    | '[' :: '[' :: rest =>
      match headerStatement true cs d rest with
      | some (d, path, rest) => statements fuel path d rest
      | none => .error cs
    | '[' :: rest =>
      match headerStatement false cs d rest with
      | some (d, path, rest) => statements fuel path d rest
      | none => .error cs
    | cs =>
      match Scan.lineBreak cs, cs with
      | some (_, rest), _ => statements fuel path d rest
      | none, '#' :: _ =>
        match Scan.lineEnd cs with
        | some (_, rest) => statements fuel path d rest
        | none => .error cs
      | none, _ =>
        match pairStatement path d cs with
        | some (d, rest) => statements fuel path d rest
        | none => .error cs

/--
Reads a document. A byte order mark in front does not belong to it.
-/
def read (text : List Char) : Except (List Char) Document :=
  let body :=
    match text with
    | '\ufeff' :: rest => rest
    | text => text
  statements (body.length + 1) [] {} body

end Document

/--
What reads documents. A text that is no document is answered with the rest of it from its first fault on.
-/
abbrev Reader := String → Except (List Char) Document

def Document.reader : Reader := fun text => Document.read text.toList

end BlockingStream.Toml

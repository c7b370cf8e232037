import BlockingStream.Toml.Table
import BlockingStream.Toml.Quoted
import BlockingStream.Toml.Number
import BlockingStream.Toml.Moment

/-!
This module contains the TOML values in full, with arrays and tables inside each other down to a fixed
depth.
-/

namespace BlockingStream.Toml.Scan

def arrayItems (item : Scan Value) : Nat → List Value → Scan (List Value)
  -- a comma may follow the last item
  | 0, _, _ => none
  | fuel + 1, found, cs =>
    match skipFiller cs with
    | ']' :: rest => some (found.reverse, rest)
    | cs => do
      let (v, rest) ← item cs
      match skipFiller rest with
      | ',' :: rest => arrayItems item fuel (v :: found) rest
      | ']' :: rest => some ((v :: found).reverse, rest)
      | _ => none

def pair (value : Scan Value) : Scan (List String × Value) := fun cs => do
  -- blanks may stand around the value, line breaks may not
  let (k, rest) ← key cs
  match rest with
  | '=' :: rest =>
    let (v, rest) ← value (skipSpaces rest)
    some ((k, v), skipSpaces rest)
  | _ => none

def bracedPairs (value : Scan Value) : Nat → Entries → Scan Entries
  -- no comma may follow the last pair
  | 0, _, _ => none
  | fuel + 1, entries, cs => do
    let ((k, v), rest) ← pair value cs
    let entries ← entries.addPair .byInlineKey k v .inline
    match rest with
    | ',' :: rest => bracedPairs value fuel entries rest
    | '\x7d' :: rest => some (entries, rest)
    | _ => none

def scalar : Scan Value := fun cs =>
  match cs with
  | '\x22' :: _ | '\x27' :: _ => do
    let (s, rest) ← quotedString cs
    some (.string s, rest)
  | 't' :: 'r' :: 'u' :: 'e' :: rest => some (.boolean true, rest)
  | 'f' :: 'a' :: 'l' :: 's' :: 'e' :: rest => some (.boolean false, rest)
  | _ =>
    match moment cs with
    | some found => some found
    | none => number cs

/--
A value in which no more than `depth` arrays and tables lie inside each other.
-/
def value (depth : Nat) : Scan Value := fun cs =>
  match depth, cs with
  | 0, '[' :: _ => none
  | 0, '\x7b' :: _ => none
  | depth + 1, '[' :: rest => do
    let (items, rest) ← arrayItems (value depth) (rest.length + 1) [] rest
    some (.array false items, rest)
  | depth + 1, '\x7b' :: rest =>
    match skipSpaces rest with
    | '\x7d' :: rest => some (.table .inline [], rest)
    | _ => do
      let (entries, rest) ← bracedPairs (value depth) (rest.length + 1) [] rest
      some (.table .inline entries, rest)
  | _, cs => scalar cs

end BlockingStream.Toml.Scan

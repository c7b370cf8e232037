import BlockingStream.Toml.Scan

/-!
This module contains the four kinds of TOML strings and the keys.
-/

namespace BlockingStream.Toml.Scan

def codePoint (n : Nat) : Scan Char := fun cs => do
  let (ds, rest) ← fixedDigits 16 n cs
  let code := digitsValue 16 ds
  if code.isValidChar then some (Char.ofNat code, rest) else none

def escape : Scan Char
  | 'b' :: rest => some ('\x08', rest)
  | 't' :: rest => some ('\t', rest)
  | 'n' :: rest => some ('\n', rest)
  | 'f' :: rest => some ('\x0c', rest)
  | 'r' :: rest => some ('\r', rest)
  | '\x22' :: rest => some ('\x22', rest)
  | '\\' :: rest => some ('\\', rest)
  | 'u' :: rest => codePoint 4 rest
  | 'U' :: rest => codePoint 8 rest
  | _ => none

def basicBody : Nat → List Char → Scan String
  -- what was found so far comes in reverse
  | 0, _, _ => none
  | _ + 1, _, [] => none
  | fuel + 1, found, c :: cs =>
    if c = '\x22' then some (String.ofList found.reverse, cs)
    else if c = '\\' then do
      let (e, rest) ← escape cs
      basicBody fuel (e :: found) rest
    else if isPlain c then basicBody fuel (c :: found) cs
    else none

def literalBody (found : List Char) : Scan String
  | [] => none
  | c :: cs =>
    if c = '\x27' then some (String.ofList found.reverse, cs)
    else if isPlain c then literalBody (c :: found) cs
    else none

def closingQuotes (quote : Char) (found : List Char) (cs : List Char) : String × List Char :=
  -- up to two more quotes still belong to the string
  let extra := (cs.takeWhile (· = quote)).length
  let n := min extra 2
  (String.ofList (List.replicate n quote ++ found).reverse, cs.drop n)

def continuation (cs : List Char) : Option (List Char) := do
  -- the line break takes all blanks and breaks that follow with it
  let (_, rest) ← lineBreak (skipSpaces cs)
  some (go rest.length rest)
where
  go : Nat → List Char → List Char
    | 0, cs => cs
    | fuel + 1, cs =>
      match lineBreak (skipSpaces cs) with
      | some (_, rest) => go fuel rest
      | none => skipSpaces cs

def linesBody (quote : Char) (escapes : Bool) : Nat → List Char → Scan String
  | 0, _, _ => none
  | fuel + 1, found, cs =>
    match cs with
    | [] => none
    | c :: rest =>
      if c = quote && rest.take 2 == [quote, quote] then
        some (closingQuotes quote found (rest.drop 2))
      else if c = '\\' && escapes then
        match continuation rest with
        | some rest => linesBody quote escapes fuel found rest
        | none => do
          let (e, rest) ← escape rest
          linesBody quote escapes fuel (e :: found) rest
      else if isPlain c then linesBody quote escapes fuel (c :: found) rest
      else do
        let (_, rest) ← lineBreak cs
        linesBody quote escapes fuel ('\n' :: found) rest

def skipFirstBreak (cs : List Char) : List Char :=
  match lineBreak cs with
  | some (_, rest) => rest
  | none => cs

def quotedString : Scan String
  | '\x22' :: '\x22' :: '\x22' :: rest =>
    linesBody '\x22' true (rest.length + 1) [] (skipFirstBreak rest)
  | '\x22' :: rest => basicBody (rest.length + 1) [] rest
  | '\x27' :: '\x27' :: '\x27' :: rest =>
    linesBody '\x27' false (rest.length + 1) [] (skipFirstBreak rest)
  | '\x27' :: rest => literalBody [] rest
  | _ => none

def isBare (c : Char) : Bool := c.isAlphanum || c = '_' || c = '-'

def simpleKey : Scan String
  | '\x22' :: rest => basicBody (rest.length + 1) [] rest
  | '\x27' :: rest => literalBody [] rest
  | cs =>
    let bare := cs.takeWhile isBare
    if bare.isEmpty then none else some (String.ofList bare, cs.dropWhile isBare)

def keyParts : Nat → Scan (List String)
  | 0, _ => none
  | fuel + 1, cs => do
    let (part, rest) ← simpleKey (skipSpaces cs)
    match skipSpaces rest with
    | '.' :: rest =>
      let (parts, rest) ← keyParts fuel rest
      some (part :: parts, rest)
    | rest => some ([part], rest)

def depthLimit : Nat := 80

def key : Scan (List String) := keyParts (depthLimit - 1)

end BlockingStream.Toml.Scan

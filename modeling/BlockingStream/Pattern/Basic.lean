import BlockingStream.Text.Blank

/-!
This module contains the parts of regular expressions that stand for one character or one position, and
the modes that decide which of them are admitted.

What a pattern matches is of no interest here, since nothing is ever matched; a text only has to be a
pattern. Without the tables that letter case and character classes beyond ASCII need, parts that depend on
them are not admitted.
-/

namespace BlockingStream.Pattern

structure Mode where
  /-- Blanks and comments between the parts do not count. -/
  spaced : Bool := false
  /-- The pattern is about characters, and not about bytes. -/
  unicode : Bool := true
  anyCase : Bool := false
  deriving DecidableEq, Repr

def settings : List Char := ['i', 'm', 's', 'U', 'u', 'R', 'x']

def Mode.switch (m : Mode) (on : Bool) (setting : Char) : Mode :=
  if setting = 'i' then { m with anyCase := on }
  else if setting = 'u' then { m with unicode := on }
  else if setting = 'x' then { m with spaced := on }
  else m

def skipBlanks : (comment : Bool) → List Char → List Char
  -- a comment, once begun, goes on to the end of its line
  | _, [] => []
  | true, c :: cs => skipBlanks (c ≠ '\n') cs
  | false, c :: cs =>
    if Text.isBlankChar c then skipBlanks false cs
    else if c = '#' then skipBlanks true cs
    else c :: cs

def Mode.skip (m : Mode) (cs : List Char) : List Char := if m.spaced then skipBlanks false cs else cs

/--
A part that stands for one character or one position.
-/
inductive Atom where
  /-- The character itself. A byte is one that was given by two digits. -/
  | literal (c : Char) (byte : Bool)
  /-- A digit, a blank or a letter of a word, or anything but that. -/
  | named (negated : Bool)
  | wordBoundary
  | position
  deriving DecidableEq, Repr

namespace Atom

def admitsNamed (m : Mode) (negated : Bool) : Bool := !m.unicode && !negated

def admitted (m : Mode) : Atom → Bool
  | literal c byte => if m.unicode then !m.anyCase else !(byte && 0x7F < c.toNat)
  | named negated => admitsNamed m negated
  | wordBoundary => !m.unicode
  | position => true

def admittedInSet (m : Mode) : Atom → Bool
  -- positions cannot be members of a set, and members of a set of bytes are ASCII
  | literal c _ => if m.unicode then !m.anyCase else c.toNat ≤ 0x7F
  | named negated => admitsNamed m negated
  | wordBoundary | position => false

end Atom

def hexDigit? (c : Char) : Option Nat :=
  if c.isDigit then some (c.toNat - 48)
  else if 'a' ≤ c && c ≤ 'f' then some (c.toNat - 87)
  else if 'A' ≤ c && c ≤ 'F' then some (c.toNat - 55)
  else none

def codePoint (m : Mode) : (n value : Nat) → List Char → Option (Char × List Char)
  | 0, value, cs => if value.isValidChar then some (Char.ofNat value, cs) else none
  | n + 1, value, cs =>
    match m.skip cs with
    | [] => none
    | c :: rest => do codePoint m n (value * 16 + (← hexDigit? c)) rest

def controls : List (Char × Char) :=
  [('a', '\x07'), ('t', '\t'), ('n', '\n'), ('v', '\x0b'), ('f', '\x0c'), ('r', '\r')]

def escape (m : Mode) : List Char → Option (Atom × List Char)
  -- punctuation stands for itself; other letters and digits than these have no meaning
  | [] => none
  | c :: rest =>
    let coded (n : Nat) := (codePoint m n 0 rest).map fun found => (Atom.literal found.1 (n == 2), found.2)
    if c = 'x' then coded 2
    else if c = 'u' then coded 4
    else if c = 'U' then coded 8
    else if ['d', 's', 'w'].contains c then some (.named false, rest)
    else if ['D', 'S', 'W'].contains c then some (.named true, rest)
    else if ['b', 'B', '<', '>'].contains c then some (.wordBoundary, rest)
    else if ['A', 'z'].contains c then some (.position, rest)
    else
      match controls.lookup c with
      | some control => some (.literal control false, rest)
      | none => if c.isAlphanum || 0x7F < c.toNat then none else some (.literal c false, rest)

end BlockingStream.Pattern

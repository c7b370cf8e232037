/-!
This module contains the cutting of a text at places that are counted in bytes of its encoding (UTF-8). A
cut within a character is not possible.
-/

namespace BlockingStream.Text

def before? : List Char → Nat → Option (List Char)
  | _, 0 => some []
  | [], _ + 1 => none
  | c :: cs, n + 1 =>
    if c.utf8Size ≤ n + 1 then (before? cs (n + 1 - c.utf8Size)).map (c :: ·) else none

def from? : List Char → Nat → Option (List Char)
  | cs, 0 => some cs
  | [], _ + 1 => none
  | c :: cs, n + 1 => if c.utf8Size ≤ n + 1 then from? cs (n + 1 - c.utf8Size) else none

def between? (cs : List Char) (start stop : Nat) : Option (List Char) := do
  before? (← from? cs start) (stop - start)

end BlockingStream.Text

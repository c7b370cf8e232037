/-!
This module contains sets of characters that are given as ranges of code points.
-/

namespace BlockingStream.Text

/--
A set of code points: inclusive ranges in ascending order.
-/
abbrev Ranges := List (Nat × Nat)

def Ranges.has : Ranges → Nat → Bool
  -- ranges that begin behind the code point are not looked at
  | [], _ => false
  | (first, last) :: rest, n => first ≤ n && (n ≤ last || has rest n)

end BlockingStream.Text

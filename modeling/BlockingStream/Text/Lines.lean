/-!
This module contains the lines of a text.
-/

namespace BlockingStream.Text

def withoutReturn (cs : List Char) : List Char :=
  if cs.getLast? = some '\r' then cs.dropLast else cs

def pieces : List Char → List (List Char)
  | [] => [[]]
  | c :: cs =>
    if c = '\n' then [] :: pieces cs
    else
      match pieces cs with
      | piece :: rest => (c :: piece) :: rest
      | [] => [[c]]

/--
The lines of a text that is written with a line break behind it.
-/
def lines (s : String) : List String :=
  (pieces s.toList).map fun piece => String.ofList (withoutReturn piece)

end BlockingStream.Text

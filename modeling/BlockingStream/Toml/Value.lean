import BlockingStream.Decimal.Shortest

/-!
This module contains the values that a TOML document can hold.
-/

namespace BlockingStream.Toml

/--
How a table came about, which decides what may still be added to it.
-/
inductive Origin where
  /-- Between braces. Nothing can be added. -/
  | inline
  | header
  /-- On the way to the table of a longer header. -/
  | implied
  | dotted
  deriving DecidableEq, Repr

/--
A value. An array is either written between brackets or grows with each header in double brackets.
-/
inductive Value where
  | string (s : String)
  | integer (i : Int)
  | float (x : Decimal.Binary64)
  | boolean (b : Bool)
  | moment
  | array (growing : Bool) (items : List Value)
  | table (origin : Origin) (entries : List (String × Value))
  deriving Repr, Inhabited

end BlockingStream.Toml

import BlockingStream.Text.Blank

/-!
This module contains the settings of a connection and the values that they must have.
-/

namespace BlockingStream

structure Config where
  label : String := "conn"
  /-- The number of bytes that the input buffer has room for at first. -/
  inboundCapacity : Nat := 65536
  /-- The name of the thread that serves the deadlines. -/
  timerThreadName : String := "spark-sync-timer"
  deriving DecidableEq, Repr, Inhabited

namespace Config

inductive Field where
  | label
  | inboundCapacity
  | timerThreadName
  deriving DecidableEq, Repr

def Field.name : Field → String
  | label => "label"
  | inboundCapacity => "inbound_capacity"
  | timerThreadName => "timer_thread_name"

def Field.all : List Field := [.label, .inboundCapacity, .timerThreadName]

def Field.ofName? (name : String) : Option Field := Field.all.find? (·.name = name)

def Field.complaint : Field → String
  | label | timerThreadName => "must not be empty"
  | inboundCapacity => "must be greater than zero"

/--
The setting has a usable value: names are not blank, and there is room for at least one byte.
-/
def accepts (c : Config) : Field → Bool
  | .label => !Text.isBlank c.label
  | .inboundCapacity => c.inboundCapacity ≠ 0
  | .timerThreadName => !Text.isBlank c.timerThreadName

def invalidField? (c : Config) : Option Field := Field.all.find? (!c.accepts ·)

theorem invalidField?_eq_none_iff (c : Config) :
    c.invalidField? = none ↔ ∀ field, c.accepts field = true := by
  constructor
  . intro h field
    have accepted := List.find?_eq_none.1 h field (by cases field <;> decide)
    simpa using accepted
  . intro h
    simp [invalidField?, List.find?_eq_none, h]

end Config

end BlockingStream

import BlockingStream.Config.Basic
import BlockingStream.Timer.Service

/-!
This module contains the start of a timer service from the settings of a connection.
-/

namespace BlockingStream

inductive ServiceStart (α : Type) where
  | started (service : Timer.Service α)
  | failed (reason : String)
  /-- The name cannot be given to a thread, which stops the program. -/
  | panicked

/--
What the system answers to the wish for another thread: it is created, or there is a reason why not.
-/
abbrev ThreadSupply := Except String Unit

namespace Config

def isThreadName (name : String) : Bool := !name.toList.contains '\x00'

/--
Starts a timer service of its own for a group of connections. The settings are taken as they are.
-/
def startTimers (c : Config) (supply : ThreadSupply) (α : Type) : ServiceStart α :=
  if isThreadName c.timerThreadName then
    match supply with
    | .ok () => .started {}
    | .error reason => .failed reason
  else .panicked

end Config

end BlockingStream

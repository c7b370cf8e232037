import BlockingStream.Log.Filter

/-!
This module contains the process-wide subscriber that receives all log events. It can be installed once.
-/

namespace BlockingStream.Log

inductive Subscriber where
  | silent
  | lines (filter : Filter)
  deriving Repr

inductive InstallError where
  | alreadyInstalled
  deriving DecidableEq, Repr

def InstallError.message : InstallError → String
  | alreadyInstalled => "a global tracing subscriber is already installed"

inductive Installation where
  | installed (s : Subscriber)
  | refused (e : InstallError)
  /-- The setting of the environment has stopped the program. -/
  | stopped
  deriving Repr

namespace Subscriber

/--
Installs the subscriber that writes lines, filtered as the environment asks for, unless there is one
already.
-/
def install (current : Option Subscriber) (setting : Option String) : Installation :=
  match current with
  | some _ => .refused .alreadyInstalled
  | none =>
    match Filter.ofSetting setting with
    | some filter => .installed (.lines filter)
    | none => .stopped

def output (s : Subscriber) (events : List Event) : List String :=
  match s with
  | silent => []
  | lines filter => (events.filter filter.shows).map Event.text

end Subscriber

end BlockingStream.Log

import BlockingStream.Error
import BlockingStream.Time
import BlockingStream.Text.Quoted

/-!
This module contains what a connection tells about itself: log events as data, and the text of an
event. Writing them somewhere is left to whoever runs the connection.
-/

namespace BlockingStream.Log

inductive Level where
  | error
  | warn
  | info
  | debug
  | trace
  deriving DecidableEq, Repr, Inhabited

def Level.name : Level → String
  | error => "ERROR"
  | warn => "WARN"
  | info => "INFO"
  | debug => "DEBUG"
  | trace => "TRACE"

def Level.verbosity : Level → Nat
  | error => 1
  | warn => 2
  | info => 3
  | debug => 4
  | trace => 5

inductive Value where
  | text (s : String)
  | count (n : Nat)
  | outcome (e : Option StreamError)
  | deadline (at? : Option Instant)
  deriving DecidableEq, Repr

def errorText : StreamError → String
  | .endOfStream => "EndOfStream"
  | .engine code => "Engine(EngineErrorCode(" ++ Text.quoted code.name ++ "))"
  | .destroyed => "Destroyed"
  | .closed => "Closed"
  | .deadlineExceeded => "DeadlineExceeded"

def Value.render : Value → String
  -- a reading of the clock means nothing outside the process, so only the fact that there is a deadline is told
  | text s => s
  | count n => toString n
  | outcome none => "None"
  | outcome (some e) => "Some(" ++ errorText e ++ ")"
  | deadline none => "None"
  | deadline (some _) => "Some(Instant)"

structure Event where
  level : Level
  target : String
  message : String
  fields : List (String × Value)
  deriving DecidableEq, Repr

namespace Event

def field? (e : Event) (name : String) : Option Value := e.fields.lookup name

/--
The text of the event: level, target, message and the fields. It takes one line, unless a value brings line
breaks with it.
-/
def text (e : Event) : String :=
  e.level.name ++ " " ++ e.target ++ ": " ++ e.message ++
    String.join (e.fields.map fun f => " " ++ f.1 ++ "=" ++ f.2.render)

end Event

def libraryTarget : String := "spark_transport_sync"

def callTarget : String := libraryTarget ++ "::conn"

def upcallTarget : String := libraryTarget ++ "::notify"

def engineTarget : String := libraryTarget ++ "::state"

end BlockingStream.Log

/-!
This module contains the ways in which a blocking transfer can end: the error codes an engine
reports, the five errors a caller sees, their texts, and the kind of I/O error each one becomes.
-/

namespace BlockingStream

/--
The symbolic name an engine gives to a failure. Every name is kept verbatim, the empty one included.
-/
structure EngineCode where
  name : String
  deriving DecidableEq, Repr, Inhabited

inductive IoKind where
  | unexpectedEof
  | connectionReset
  | connectionRefused
  | connectionAborted
  | notConnected
  | timedOut
  | writeZero
  | other
  deriving DecidableEq, Repr, Inhabited

def EngineCode.ioKind (c : EngineCode) : IoKind :=
  if c.name = "ECONNRESET" then .connectionReset
  else if c.name = "ECONNREFUSED" then .connectionRefused
  else if c.name = "ETIMEDOUT" then .timedOut
  else .other

/--
Why a transfer stopped, from the caller's point of view.
-/
inductive StreamError where
  /-- The peer has finished sending and everything it sent has been read. -/
  | endOfStream
  /-- The engine reported a failure. It stays for the rest of the connection's life. -/
  | engine (code : EngineCode)
  | destroyed
  | closed
  | deadlineExceeded
  deriving DecidableEq, Repr, Inhabited

namespace StreamError

def code : StreamError → String
  | endOfStream => "spark.transport.sync.eof"
  | engine _ => "spark.transport.sync.engine_error"
  | destroyed => "spark.transport.sync.destroyed"
  | closed => "spark.transport.sync.closed"
  | deadlineExceeded => "spark.transport.sync.deadline_exceeded"

def message : StreamError → String
  | endOfStream => "end of stream"
  | engine code => "engine error: " ++ code.name
  | destroyed => "connection destroyed by engine"
  | closed => "connection closed"
  | deadlineExceeded => "i/o deadline exceeded"

def isTimeout : StreamError → Bool
  -- this is the only error that a later deadline can lift
  | deadlineExceeded => true
  | _ => false

def isTerminal (e : StreamError) : Bool := !e.isTimeout

def ioKind : StreamError → IoKind
  | endOfStream => .unexpectedEof
  | engine code => code.ioKind
  | destroyed => .connectionAborted
  | closed => .notConnected
  | deadlineExceeded => .timedOut

/--
The precedence of an error: of several that hold at once, the one with the greatest rank is
reported.
-/
def rank : StreamError → Nat
  | endOfStream => 4
  | engine _ => 3
  | destroyed => 2
  | closed => 1
  | deadlineExceeded => 0

theorem isTerminal_iff_rank_pos (e : StreamError) : e.isTerminal = true ↔ 0 < e.rank := by
  cases e <;> simp [isTerminal, isTimeout, rank]

end StreamError

/--
What one blocking transfer achieved: the number of bytes it moved and, possibly at the same time,
the error that ended it.
-/
structure Transfer where
  bytes : Nat
  error : Option StreamError
  deriving DecidableEq, Repr

namespace Transfer

def isErr (t : Transfer) : Bool := t.error.isSome

def toExcept (t : Transfer) : Except StreamError Nat :=
  -- an error hides the bytes that were moved along with it
  match t.error with
  | some e => .error e
  | none => .ok t.bytes

end Transfer

end BlockingStream

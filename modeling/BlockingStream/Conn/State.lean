import BlockingStream.Error
import BlockingStream.Time
import BlockingStream.Engine.Basic

/-!
This module contains the state of a connection, which is what its lock protects, and the two orders of
precedence that are read off it: the phase, for monitoring, and the error that a transfer reports.

The facts about a connection (connected, end of input, engine failure, destroyed, closed) are
independent of each other and never taken back. Only deadlines can be lifted.
-/

namespace BlockingStream

def maxCount : Nat := UInt64.size - 1

def countUp (total n : Nat) : Nat := min (total + n) maxCount

theorem countUp_le_maxCount (total n : Nat) : countUp total n ≤ maxCount := Nat.min_le_right ..

theorem le_countUp {total : Nat} (h : total ≤ maxCount) (n : Nat) : total ≤ countUp total n :=
  Nat.le_min.2 ⟨Nat.le_add_right .., h⟩

theorem countUp_zero {total : Nat} (h : total ≤ maxCount) : countUp total 0 = total := by
  simp only [countUp]
  omega

theorem countUp_countUp (total m n : Nat) : countUp (countUp total m) n = countUp total (m + n) := by
  simp only [countUp]
  omega

inductive Phase where
  | connecting
  | connected
  | eofPending
  | errored
  | destroyed
  | closed
  deriving DecidableEq, Repr, Inhabited

namespace Phase

def name : Phase → String
  | connecting => "Connecting"
  | connected => "Connected"
  | eofPending => "EofPending"
  | errored => "Errored"
  | destroyed => "Destroyed"
  | closed => "Closed"

def isTerminal : Phase → Bool
  | errored | destroyed | closed => true
  | connecting | connected | eofPending => false

def rank : Phase → Nat
  | connecting => 0
  | connected => 1
  | eofPending => 2
  | closed => 3
  | destroyed => 4
  | errored => 5

end Phase

structure Conn where
  connected : Bool := false
  eof : Bool := false
  destroyed : Bool := false
  closed : Bool := false
  /-- The first failure that the engine reported. -/
  failure : Option EngineCode := none
  readDeadline : Option Instant := none
  writeDeadline : Option Instant := none
  inbound : Bytes := []
  bytesRead : Nat := 0
  bytesWritten : Nat := 0
  /-- The last addresses that the engine told. -/
  peer : Option Address := none
  localAddr : Option Address := none
  /-- The connection still holds its engine. -/
  attached : Bool := true
  deriving DecidableEq, Repr

namespace Conn

variable {σ : Type}

def init (E : Engine σ) (s : σ) : Conn × σ :=
  let (peer, s) := E.peerAddr s
  let (localAddr, s) := E.localAddr s
  ({ peer, localAddr }, s)

/--
The phase shows the fact that weighs most.
-/
def phase (c : Conn) : Phase :=
  if c.failure.isSome then .errored
  else if c.destroyed then .destroyed
  else if c.closed then .closed
  else if c.eof then .eofPending
  else if c.connected then .connected
  else .connecting

def commonError (c : Conn) (deadline : Option Instant) (now : Instant) : Option StreamError :=
  match c.failure with
  | some code => some (.engine code)
  | none =>
    if c.destroyed then some .destroyed
    else if c.closed then some .closed
    else if deadlinePassed deadline now then some .deadlineExceeded
    else none

/--
The error that a write reports. The end of the peer's data does not concern it.
-/
def writeError (c : Conn) (now : Instant) : Option StreamError :=
  c.commonError c.writeDeadline now

/--
The error that a read reports. The end of the peer's data counts once nothing is left to read, and then
before all else.
-/
def readError (c : Conn) (now : Instant) : Option StreamError :=
  if c.eof && c.inbound.isEmpty then some .endOfStream
  else c.commonError c.readDeadline now

def mayHint (c : Conn) : Bool :=
  c.failure.isNone && !c.destroyed && !c.closed && c.attached

end Conn

end BlockingStream

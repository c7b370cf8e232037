import BlockingStream.Session.Basic

/-!
This module contains what a session shows after each command.
-/

namespace BlockingStream

/--
What can be seen of an engine from outside at a glance: the bytes, closes and hints that a metered engine
has counted, or the calls that a scripted engine got since the last look.
-/
inductive EngineGlance where
  | metered (written closes drains : Nat)
  | scripted (calls : List EngineCall)
  deriving Repr

inductive EngineReport where
  | metered (m : Metered)
  | scripted (written : Bytes)
  deriving Repr

structure ConnGlance where
  phase : Phase
  buffered : Nat
  bytesRead : Nat
  bytesWritten : Nat
  deriving Repr

structure Snapshot where
  timers : Nat
  engine : EngineGlance
  conn : Option ConnGlance
  deriving Repr

inductive Reply where
  /-- The call sleeps. Its result comes with a later command. -/
  | blocked
  /-- The command would disturb a call that sleeps, and was not carried out. -/
  | busy
  | dropped
  | answer (a : Answer)
  | task (r : TaskResult)
  | text (s : String)
  | engine (r : EngineReport)
  deriving Repr

/--
What a session shows after a command: the answer, the calls that were taken up again and came to their end,
in the order in which they were started, and what can be seen of the connection. The events are those of the
command itself.
-/
structure Report where
  reply : Reply
  woke : List Finished
  snapshot : Snapshot
  events : List Log.Event
  deriving Repr

def Connection.glance {σ : Type} (c : Connection σ) : Option ConnGlance :=
  let conn := c.monitor.conn
  if c.handle then some ⟨conn.phase, conn.inbound.length, conn.bytesRead, conn.bytesWritten⟩ else none

namespace Session

def engineGlance (c : Connection Carrier) (seat : Seat) : EngineGlance :=
  match c.monitor.engine with
  | (.inl m, _) => .metered m.written.length m.closes m.drains
  | (.inr _, calls) =>
    let fresh := calls.drop seat.shown
    .scripted (if seat.hints then fresh else fresh.filter (· ≠ .readDrained))

def engineReport (c : Connection Carrier) : EngineReport :=
  match c.monitor.engine with
  | (.inl m, _) => .metered m
  | (.inr _, calls) => .scripted (EngineCall.stream calls)

def look? (s : Session) (i : Nat) : Option (Snapshot × Session) := do
  let c ← s.connection? i
  let seat ← s.seats[i]?
  let seats := s.seats.set i { seat with shown := c.monitor.engine.2.length }
  some (⟨s.own.service.pending, engineGlance c seat, c.glance⟩, { s with seats })

/--
Ends a command on connection `i`: the finished jobs are handed out, the one that the command itself has
started as its answer, and the connection is looked at.
-/
def conclude (own : Option Nat) (i : Nat) (reply : Reply) (events : List Log.Event) (s : Session) :
    Option (Report × Session) := do
  let (mine, others) := s.finished.partition fun f => some f.id == own
  let woke := others.mergeSort fun a b => a.id ≤ b.id
  let (reply, events) :=
    match mine with
    | f :: _ => (.task f.result, events ++ f.events)
    | [] => (reply, events)
  let (snapshot, s) ← s.look? i
  some (⟨reply, woke, snapshot, events⟩, { s with finished := [] })

end Session

end BlockingStream

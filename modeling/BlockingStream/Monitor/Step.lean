import BlockingStream.Monitor.Round

/-!
This module contains the steps of a monitor: everything that can happen to one connection, each thing
done while the lock is held unless said otherwise. Any interleaving of such steps is a run of the
connection.
-/

namespace BlockingStream

inductive Upcall where
  | connected
  | data (bytes : Bytes)
  | eof
  | writable
  | error (code : EngineCode)
  | destroyed
  deriving DecidableEq, Repr

inductive Scope where
  | both
  | one (direction : Direction)
  deriving DecidableEq, Repr

inductive Request where
  | close
  | setDeadline (scope : Scope) (deadline : Option Instant)
  | remoteAddr
  | localAddr
  | stats
  | phase
  | buffered
  deriving DecidableEq, Repr

inductive Action where
  /-- A new thread enters a blocking call. It needs no lock for that. -/
  | enter (id : Nat) (call : Call)
  | run (id : Nat)
  /-- A sleeper wakes up for no reason. It needs no lock for that. -/
  | stir (id : Nat)
  | request (r : Request)
  | upcall (u : Upcall)
  /-- A timer entry of this connection fires. -/
  | alarm
  /-- Room appears inside the engine. It happens without the lock. -/
  | grant (n : Nat)
  deriving DecidableEq, Repr

inductive Answer where
  | done
  | address (addr : Option Address)
  | stats (bytesRead bytesWritten : Nat)
  | phase (p : Phase)
  | buffered (n : Nat)
  /-- The engine has broken its contract, and the text says how. -/
  | fatal (message : String)
  deriving DecidableEq, Repr

structure Step (σ : Type) where
  monitor : Monitor σ
  answer : Answer := .done
  events : List Log.Event := []
  alarms : List AlarmRequest := []

namespace Monitor

variable {σ : Type}

def enter (id : Nat) (call : Call) (m : Monitor σ) : Option (Step σ) :=
  match m.thread? id with
  | some _ => none
  | none => some { monitor := { m with threads := m.threads ++ [Thread.enter id call] } }

def run (E : Engine σ) (now : Instant) (id : Nat) (m : Monitor σ) : Option (Step σ) :=
  match m.thread? id with
  | some t =>
    if m.mayRun t then
      let r := m.round E now t
      some
        { monitor := { m with conn := r.conn, engine := r.engine }.setThread r.thread
          events := r.events }
    else none
  | none => none

def stir (id : Nat) (m : Monitor σ) : Option (Step σ) :=
  match m.thread? id with
  | some t => if t.isAsleep then some { monitor := m.setThread t.signal } else none
  | none => none

/--
Closes the connection. Only the first close cancels the alarms, tells and wakes anybody.
-/
def close (E : Engine σ) (m : Monitor σ) : Step σ :=
  let (first, conn, engine) := m.conn.close E m.engine
  if first then
    { monitor := { m with conn, engine }.broadcast
      events := [m.event .debug Log.callTarget "connection closed" []]
      alarms := [⟨.reading, none⟩, ⟨.writing, none⟩] }
  else { monitor := { m with conn, engine } }

def setDeadline (scope : Scope) (deadline : Option Instant) (m : Monitor σ) : Step σ :=
  -- this is possible after the close as well
  let (conn, message, alarms) : Conn × String × List AlarmRequest :=
    match scope with
    | .both =>
      ({ m.conn with readDeadline := deadline, writeDeadline := deadline },
        "read/write deadline updated", [⟨.reading, deadline⟩, ⟨.writing, deadline⟩])
    | .one .reading =>
      ({ m.conn with readDeadline := deadline }, "read deadline updated", [⟨.reading, deadline⟩])
    | .one .writing =>
      ({ m.conn with writeDeadline := deadline }, "write deadline updated", [⟨.writing, deadline⟩])
  { monitor := { m with conn }.broadcast
    events := [m.event .debug Log.callTarget message [("deadline", .deadline deadline)]]
    alarms }

def request (E : Engine σ) (m : Monitor σ) : Request → Step σ
  | .close => m.close E
  | .setDeadline scope deadline => m.setDeadline scope deadline
  | .remoteAddr =>
    let (addr, conn, engine) := m.conn.remoteAddr E m.engine
    { monitor := { m with conn, engine }, answer := .address addr }
  | .localAddr =>
    let (addr, conn, engine) := m.conn.ownAddr E m.engine
    { monitor := { m with conn, engine }, answer := .address addr }
  | .stats => { monitor := m, answer := .stats m.conn.bytesRead m.conn.bytesWritten }
  | .phase => { monitor := m, answer := .phase m.conn.phase }
  | .buffered => { monitor := m, answer := .buffered m.conn.inbound.length }

def absorb (m : Monitor σ) (conn : Conn) (events : List Log.Event) : Step σ :=
  { monitor := { m with conn }.broadcast, events }

def receive (data : Bytes) (m : Monitor σ) : Step σ :=
  -- data that comes too late is kept like any other
  let conn := m.conn.receive data
  let late := m.event .warn Log.upcallTarget "engine delivered data after eof, destroy or close"
    [("bytes", .count data.length)]
  let arrived := m.event .trace Log.upcallTarget "engine delivered data"
    [("bytes", .count data.length), ("buffered", .count conn.inbound.length)]
  m.absorb conn (if m.conn.isLate then [late, arrived] else [arrived])

def fail (code : EngineCode) (m : Monitor σ) : Step σ :=
  match m.conn.fail code with
  | .ok conn =>
    m.absorb conn
      [m.event .debug Log.upcallTarget "engine error latched" [("code", .text code.name)]]
  | .error first =>
    -- the engine has broken its contract, which changes nothing and wakes nobody
    { monitor := m
      answer := .fatal ("multiple engine errors on connection `" ++ m.label ++ "`: got " ++ code.name ++
        ", have " ++ first.name)
      events := [m.event .error Log.upcallTarget "engine reported a second error"
        [("code", .text code.name), ("existing", .text first.name)]] }

def upcall (m : Monitor σ) : Upcall → Step σ
  | .connected =>
    m.absorb { m.conn with connected := true }
      [m.event .debug Log.upcallTarget "engine reported connected" []]
  | .data bytes => m.receive bytes
  | .eof =>
    m.absorb { m.conn with eof := true } [m.event .debug Log.upcallTarget "engine reported eof" []]
  | .writable => m.absorb m.conn [m.event .trace Log.upcallTarget "engine reported writable" []]
  | .error code => m.fail code
  | .destroyed =>
    m.absorb m.conn.destroy [m.event .debug Log.upcallTarget "engine destroyed socket" []]

def locked (m : Monitor σ) (s : Step σ) : Option (Step σ) :=
  if m.lockFree then some s else none

def alarm (m : Monitor σ) : Option (Step σ) :=
  -- whether this is the last entry that was scheduled does not matter, since whoever is woken looks at the
  -- deadline again
  m.locked { monitor := m.broadcast }

def step (E : Engine σ) (now : Instant) (m : Monitor σ) : Action → Option (Step σ)
  | .enter id call => m.enter id call
  | .run id => m.run E now id
  | .stir id => m.stir id
  | .request r => m.locked (m.request E r)
  | .upcall u => m.locked (m.upcall u)
  | .alarm => m.alarm
  | .grant n => some { monitor := { m with engine := E.grant n m.engine } }

end Monitor

end BlockingStream

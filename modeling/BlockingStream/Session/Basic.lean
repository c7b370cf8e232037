import BlockingStream.Host.Step
import BlockingStream.Io.Task
import BlockingStream.Engine.Metered
import BlockingStream.Engine.Scripted

/-!
This module contains sessions: connections that are driven by commands, one after the other, where each
command is followed through until nothing more happens. Calls that block stay behind and are taken up
again when a later command lets them go on.

A session fixes one order of events among those that are possible. Threads that can go on do so in the
order in which they were started, each one as far as it can, and timer entries fire after that.
-/

namespace BlockingStream

/--
The engines of a session: metered and scripted ones, with all calls on them written down.
-/
abbrev Carrier := (Metered ⊕ Scripted) × List EngineCall

def carrier : Engine Carrier := (Metered.engine.sum Scripted.engine).recorded

/--
The timer service of a connection: the one of the session, or the one that all connections of the process
share unless they are given another.
-/
inductive Home where
  | session
  | process
  deriving DecidableEq, Repr

/--
What a session keeps for each connection besides the connection itself: where to find it, and what was seen
of it.
-/
structure Seat where
  home : Home
  place : Nat
  /-- The engine makes use of hints that all input was read. -/
  hints : Bool := true
  /-- The number of engine calls that were shown already. -/
  shown : Nat := 0
  notifier : Bool := true
  deriving Repr

/--
A thread of a session that is inside a blocking call: the number of the command that started it, the
connection it is on, what it is up to, the number of its current call, and what it has told so far.
-/
structure Job where
  id : Nat
  conn : Nat
  task : Task
  call : Nat
  events : List Log.Event := []
  deriving Repr

def Job.shown (job : Job) : List Log.Event :=
  -- the reads of a read to the end are of no fixed size
  match job.task with
  | .readToEnd _ => []
  | _ => job.events

structure Finished where
  id : Nat
  result : TaskResult
  events : List Log.Event
  deriving Repr

/--
A session: a host for each home, the seats, the jobs that are under way in the order in which they were
started, and those that have come to their end since the last report.
-/
structure Session where
  own : Host Carrier := {}
  common : Host Carrier := {}
  seats : List Seat := []
  jobs : List Job := []
  finished : List Finished := []
  deriving Repr

namespace Session

def host (s : Session) : Home → Host Carrier
  | .session => s.own
  | .process => s.common

def setHost (s : Session) (home : Home) (h : Host Carrier) : Session :=
  match home with
  | .session => { s with own := h }
  | .process => { s with common := h }

def connection? (s : Session) (i : Nat) : Option (Connection Carrier) := do
  let seat ← s.seats[i]?
  (s.host seat.home).connections[seat.place]?

def hostStep? (s : Session) (i : Nat) (action : Nat → HostAction) :
    Option (HostStep Carrier × Session) := do
  let seat ← s.seats[i]?
  let r ← (s.host seat.home).step carrier (action seat.place)
  some (r, s.setHost seat.home r.host)

def act? (s : Session) (i : Nat) (a : Action) : Option (HostStep Carrier × Session) :=
  s.hostStep? i fun place => .act place a

def setJob (s : Session) (job : Job) : Session :=
  { s with jobs := s.jobs.map fun j => if j.id = job.id then job else j }

def finishJob (s : Session) (job : Job) (result : TaskResult) : Session :=
  { s with
    jobs := s.jobs.filter (·.id ≠ job.id)
    finished := s.finished ++ [⟨job.id, result, job.shown⟩] }

def follow (s : Session) (job : Job) (outcome : Outcome) : Session :=
  match job.task.resume outcome with
  | .inr result => s.finishJob job result
  | .inl task =>
    match task.next with
    | .done result => s.finishJob job result
    | .call c =>
      let call := ((s.connection? job.conn).map (·.monitor.freshId)).getD 0
      match s.act? job.conn (.enter call c) with
      | some (_, s) => s.setJob { job with task, call }
      | none => s.finishJob job (.returned outcome)

def round? (s : Session) (job : Job) : Option Session := do
  let (r, s) ← s.act? job.conn (.run job.call)
  let job := { job with events := job.events ++ r.events }
  let t ← (← s.connection? job.conn).monitor.thread? job.call
  match t.outcome? with
  | some outcome => some (s.follow job outcome)
  | none => some (s.setJob job)

def work? (s : Session) (home : Home) : Option Session :=
  (s.host home).work.map fun r => s.setHost home r.host

/--
The next thing that happens by itself: a round of the first job that can make one, or else a step of a
timer worker.
-/
def next? (s : Session) : Option Session :=
  s.jobs.findSome? s.round? <|> s.work? .session <|> s.work? .process

def settle : Nat → Session → Session
  | 0, s => s
  | fuel + 1, s =>
    match s.next? with
    | some s => settle fuel s
    | none => s

def bytesToMove (h : Host Carrier) : Nat :=
  let ofCalls (m : Monitor Carrier) := m.threads.foldl (fun n t => n + t.rest.length) 0
  h.connections.foldl (fun n c => n + c.monitor.conn.inbound.length + ofCalls c.monitor) 0

def patience (s : Session) : Nat :=
  -- after each broadcast a job makes at most one round for each byte that it still has to move, and a few more;
  -- and a worker brings about at most one broadcast for each entry
  let pending := s.own.service.pending + s.common.service.pending
  let bytes := bytesToMove s.own + bytesToMove s.common
  (pending + 4) * (4 * (bytes + s.jobs.length) + 16)

def rest (s : Session) : Session := s.settle s.patience

end Session

end BlockingStream

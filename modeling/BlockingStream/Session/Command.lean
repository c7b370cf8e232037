import BlockingStream.Session.Report

/-!
This module contains the commands of a session.
-/

namespace BlockingStream

inductive Timing where
  | never
  /-- So many milliseconds from now, or before now if negative. -/
  | after (ms : Int)
  /-- Shortly after now, within the command. -/
  | soon
  deriving DecidableEq, Repr

inductive Deed where
  | task (t : Task)
  | request (r : Request)
  | setDeadline (scope : Scope) (timing : Timing)
  | drop
  | label
  | render
  | flush
  | upcall (u : Upcall)
  | renderNotifier
  | renewNotifier
  | dropNotifier
  | grant (n : Nat)
  | engine
  | renderTimers
  deriving DecidableEq, Repr

/--
A command on a connection. A forced command is carried out although it may disturb a call that sleeps.
-/
structure Command where
  conn : Nat := 0
  deed : Deed
  force : Bool := false
  deriving Repr

namespace Task

def reads : Task → Bool
  | .call (.readInto _) | .ioRead _ | .readToEnd _ | .readExact _ _ => true
  | .call .awaitConnect | .call (.write _) | .ioWrite _ | .writeAll _ => false

def writes : Task → Bool
  | .call (.write _) | .ioWrite _ | .writeAll _ => true
  | .call .awaitConnect | .call (.readInto _) | .ioRead _ | .readToEnd _ | .readExact _ _ => false

end Task

namespace Deed

def needsHandle : Deed → Bool
  | .task _ | .request _ | .setDeadline _ _ | .drop | .label | .render | .flush | .renewNotifier => true
  | .upcall _ | .renderNotifier | .dropNotifier | .grant _ | .engine | .renderTimers => false

def needsNotifier : Deed → Bool
  | .upcall _ | .renderNotifier | .renewNotifier | .dropNotifier => true
  | .task _ | .request _ | .setDeadline _ _ | .drop | .label | .render | .flush | .grant _ | .engine
  | .renderTimers => false

end Deed

namespace Session

def soonDelay : Nat := 5

def anyJob (s : Session) (i : Nat) (p : Task → Bool) : Bool :=
  s.jobs.any fun j => j.conn == i && p j.task

def isScripted (c : Connection Carrier) : Bool := c.monitor.engine.1.isRight

def disturbs (s : Session) (i : Nat) (c : Connection Carrier) (force : Bool) : Deed → Bool
  -- a second reader or writer would compete with the one that sleeps, and how often a sleeping writer looks again
  -- would depend on chance
  | .task t =>
    !force && ((t.reads && s.anyJob i Task.reads) || (t.writes && s.anyJob i Task.writes))
  | .drop => s.anyJob i fun _ => true
  | .setDeadline scope timing =>
    !force && s.anyJob i Task.writes &&
      match timing with
      | .soon => true
      | .after ms => ms ≤ 0 && scope == .one .reading && isScripted c
      | .never => false
  | _ => false

/--
Carries out a step of the host of connection `i`, if it is possible, and follows the session until it is at
rest.
-/
def carryOut (i : Nat) (action : Nat → HostAction) (s : Session) : Session × Answer × List Log.Event :=
  match s.hostStep? i action with
  | some (r, s) => (s.rest, r.answer, r.events)
  | none => (s, .done, [])

def start (id i : Nat) (c : Connection Carrier) (task : Task) (s : Session) : Session :=
  let job : Job := { id, conn := i, task, call := c.monitor.freshId }
  match task.next with
  | .done result => s.finishJob job result
  | .call call =>
    let (s, _) := { s with jobs := s.jobs ++ [job] }.carryOut i fun place =>
      .act place (.enter job.call call)
    s

def sleep (ms : Nat) (s : Session) : Session :=
  let later (h : Host Carrier) : Host Carrier := { h with clock := h.clock + ms }
  { s with own := later s.own, common := later s.common }.rest

def setDeadline (i : Nat) (scope : Scope) (timing : Timing) (s : Session) :
    Session × Answer × List Log.Event :=
  let now := s.own.clock
  let set (deadline : Option Instant) :=
    s.carryOut i fun place => .act place (.request (.setDeadline scope deadline))
  match timing with
  | .never => set none
  | .after ms => set (some (now + ms))
  | .soon =>
    let (s, answer, events) := set (some (now + soonDelay))
    (s.sleep soonDelay, answer, events)

def dropNotifier (i : Nat) (seat : Seat) (s : Session) : Session × Answer × List Log.Event :=
  let seats := s.seats.set i { seat with notifier := false }
  { s with seats }.carryOut i .dropNotifier

def perform (id i : Nat) (c : Connection Carrier) (seat : Seat) (s : Session) (deed : Deed) :
    Session × Reply × List Log.Event :=
  let answered (r : Session × Answer × List Log.Event) : Session × Reply × List Log.Event :=
    (r.1, .answer r.2.1, r.2.2)
  let act (a : Action) := answered (s.carryOut i fun place => .act place a)
  match deed with
  | .task t => (s.start id i c t, .blocked, [])
  | .request r => act (.request r)
  | .setDeadline scope timing => answered (s.setDeadline i scope timing)
  | .drop => answered (s.carryOut i .drop)
  | .label => (s, .text c.monitor.label, [])
  | .render => (s, .text c.monitor.render, [])
  | .flush => (s, .answer .done, [])
  | .upcall u => act (.upcall u)
  | .renderNotifier => (s, .text c.monitor.renderNotifier, [])
  | .renewNotifier => (s, .answer .done, [])
  | .dropNotifier => answered (s.dropNotifier i seat)
  | .grant n => act (.grant n)
  | .engine => (s, .engine (engineReport c), [])
  | .renderTimers => (s, .text s.own.service.render, [])

def ownJob (id : Nat) : Deed → Option Nat
  | .task _ => some id
  | _ => none

def exec (id : Nat) (command : Command) (s : Session) : Option (Report × Session) := do
  let i := command.conn
  let deed := command.deed
  let c ← s.connection? i
  let seat ← s.seats[i]?
  if (deed.needsHandle && !c.handle) || (deed.needsNotifier && !seat.notifier) then
    s.conclude none i .dropped []
  else if s.disturbs i c command.force deed then
    s.conclude none i .busy []
  else
    let (s, reply, events) := s.perform id i c seat deed
    s.conclude (ownJob id deed) i reply events

end Session

end BlockingStream

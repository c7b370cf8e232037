import BlockingStream.Host.Basic

/-!
This module contains the steps of a host: the steps of its connections, the owners that come and go, the
timer worker, and the clock. Any interleaving of such steps is a run of the host.

Whatever a connection does while it holds its lock is one step, the changes to the timer queue included.
The worker could look at the queue between two of these changes, but that would only decide whether an entry
that is about to be cancelled still fires, and a firing does no more than make sleepers look again.
-/

namespace BlockingStream

/--
A step of a host. Connections are named by their place.
-/
inductive HostAction where
  /-- A step of a connection, other than the firing of a timer entry. -/
  | act (i : Nat) (a : Action)
  | drop (i : Nat)
  /-- The engine gets a notifier: from the handle, or as a copy of another one. -/
  | addNotifier (i : Nat)
  | dropNotifier (i : Nat)
  | work
  /-- The timer worker wakes up for no reason. -/
  | stirWorker
  | wait (ms : Nat)
  deriving DecidableEq, Repr

structure HostStep (σ : Type) where
  host : Host σ
  answer : Answer := .done
  events : List Log.Event := []

namespace Host

variable {σ : Type}

def openConnection (E : Engine σ) (label : String) (s : σ) (h : Host σ) : HostStep σ :=
  let monitor := Monitor.init E label s
  { host := { h with connections := h.connections ++ [{ monitor, notifiers := 1 }] }
    events := [monitor.event .debug Log.callTarget "connection opened" []] }

def replace (h : Host σ) (i : Nat) (cs : Connection σ × Timer.Service Nat) : Host σ :=
  { h with connections := h.connections.set i cs.1, service := cs.2 }

def apply (h : Host σ) (i : Nat) (c : Connection σ) (s : Step σ) : HostStep σ :=
  { host := h.replace i ({ c with monitor := s.monitor }.resetAll i s.alarms h.service)
    answer := s.answer
    events := s.events }

/--
The step is not the firing of a timer entry, which only the worker can bring about, and whoever takes it
still has what it needs: the application its handle, the engine a notifier.
-/
def permits (c : Connection σ) : Action → Bool
  | .enter _ _ | .request _ => c.handle
  | .upcall _ => 0 < c.notifiers
  | .run _ | .stir _ | .grant _ => true
  | .alarm => false

def act (E : Engine σ) (i : Nat) (a : Action) (h : Host σ) : Option (HostStep σ) := do
  let c ← h.connections[i]?
  if permits c a then
    let s ← c.monitor.step E h.clock a
    some (h.apply i c s)
  else none

/--
The application drops the handle of connection `i`, which closes the connection. It cannot do so while one
of its threads is inside a call.
-/
def drop (E : Engine σ) (i : Nat) (h : Host σ) : Option (HostStep σ) := do
  let c ← h.connections[i]?
  if c.handle && !c.monitor.busy then
    let s := c.monitor.close E
    let (closed, service) :=
      { c with monitor := s.monitor, handle := false }.resetAll i s.alarms h.service
    some { host := h.replace i (closed.releaseUnowned i service), events := s.events }
  else none

def addNotifier (i : Nat) (h : Host σ) : Option (HostStep σ) := do
  let c ← h.connections[i]?
  if c.alive then
    some { host := h.replace i ({ c with notifiers := c.notifiers + 1 }, h.service) }
  else none

def dropNotifier (i : Nat) (h : Host σ) : Option (HostStep σ) := do
  let c ← h.connections[i]?
  if 0 < c.notifiers then
    let c := { c with notifiers := c.notifiers - 1 }
    some { host := h.replace i (c.releaseUnowned i h.service) }
  else none

/--
A timer entry of connection `i` fires: if somebody still owns the connection, all its sleepers are
signalled. Nothing is done for a connection that is gone.
-/
def fire (i : Nat) (h : Host σ) : Option (Host σ) :=
  match h.connections[i]? with
  | some c =>
    if c.alive then do
      let s ← c.monitor.alarm
      some { h with connections := h.connections.set i { c with monitor := s.monitor } }
    else some h
  | none => some h

/--
A step of the timer worker, if it can make one now. To fire an entry it needs the lock of the connection.
-/
def work (h : Host σ) : Option (HostStep σ) := do
  let (fired, service) ← h.service.step h.clock
  match fired with
  | none => some { host := { h with service } }
  | some entry =>
    let h ← h.fire entry.2
    some { host := { h with service } }

def stirWorker (h : Host σ) : Option (HostStep σ) :=
  match h.service.worker with
  | .asleep _ => some { host := { h with service := h.service.notify } }
  | _ => none

def step (E : Engine σ) (h : Host σ) : HostAction → Option (HostStep σ)
  | .act i a => h.act E i a
  | .drop i => h.drop E i
  | .addNotifier i => h.addNotifier i
  | .dropNotifier i => h.dropNotifier i
  | .work => h.work
  | .stirWorker => h.stirWorker
  | .wait ms => some { host := { h with clock := h.clock + ms } }

end Host

end BlockingStream

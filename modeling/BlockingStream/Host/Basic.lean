import BlockingStream.Monitor.Step
import BlockingStream.Timer.Service

/-!
This module contains a host of connections: any number of monitors that share one timer service and one
clock.

Each connection has an alarm per direction. An alarm remembers the key of the last entry it scheduled,
also after that entry has fired. A connection is owned by its handle and by the notifiers through which
the engine reports; when the last owner is gone, so are the alarms.
-/

namespace BlockingStream

structure Connection (σ : Type) where
  monitor : Monitor σ
  readKey : Option Timer.Key := none
  writeKey : Option Timer.Key := none
  handle : Bool := true
  notifiers : Nat := 0
  deriving Repr

namespace Connection

variable {σ : Type}

def alive (c : Connection σ) : Bool := c.handle || 0 < c.notifiers

def key (c : Connection σ) : Direction → Option Timer.Key
  | .reading => c.readKey
  | .writing => c.writeKey

def setKey (c : Connection σ) (direction : Direction) (key : Option Timer.Key) : Connection σ :=
  match direction with
  | .reading => { c with readKey := key }
  | .writing => { c with writeKey := key }

/--
Resets an alarm of connection `i`: the old entry is cancelled, and the new one, if there is one,
scheduled.
-/
def reset (i : Nat) (request : AlarmRequest) (c : Connection σ) (service : Timer.Service Nat) :
    Connection σ × Timer.Service Nat :=
  let service :=
    match c.key request.direction with
    | some key => service.cancel key
    | none => service
  match request.deadline with
  | some deadline =>
    let (key, service) := service.schedule deadline i
    (c.setKey request.direction (some key), service)
  | none => (c.setKey request.direction none, service)

def resetAll (i : Nat) (requests : List AlarmRequest) (c : Connection σ)
    (service : Timer.Service Nat) : Connection σ × Timer.Service Nat :=
  requests.foldl (fun (c, service) request => c.reset i request service) (c, service)

def releaseUnowned (i : Nat) (c : Connection σ) (service : Timer.Service Nat) :
    Connection σ × Timer.Service Nat :=
  if c.alive then (c, service) else c.resetAll i [⟨.reading, none⟩, ⟨.writing, none⟩] service

end Connection

/--
A host of connections. Connections are known by their place in the list, which is also what a timer entry
carries.
-/
structure Host (σ : Type) where
  connections : List (Connection σ) := []
  service : Timer.Service Nat := {}
  clock : Instant := 0
  deriving Repr

end BlockingStream

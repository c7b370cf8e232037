import BlockingStream.Host.Step

/-!
This module contains a bridge between two connections. Each end hands its writes and its close over to one
queue, and a carrier thread takes them off the queue and reports them to the ends.
-/

namespace BlockingStream

inductive Side where
  | dialer
  | acceptor
  deriving DecidableEq, Repr

namespace Side

def other : Side → Side
  | dialer => acceptor
  | acceptor => dialer

@[simp]
theorem other_other (s : Side) : s.other.other = s := by cases s <;> rfl

def index : Side → Nat
  | dialer => 0
  | acceptor => 1

def socket : Side → UInt16
  | dialer => 40001
  | acceptor => 40002

def name : Side → String
  | dialer => "dialer"
  | acceptor => "acceptor"

end Side

inductive Packet where
  | data (sender : Side) (bytes : Bytes)
  | close (sender : Side)
  deriving DecidableEq, Repr

def Packet.reports : Packet → List (Side × Upcall)
  -- a close ends the input of the other end before the closing end is destroyed
  | data sender bytes => [(sender.other, .data bytes)]
  | close sender => [(sender.other, .eof), (sender, .destroyed)]

/--
The engine of an end: what it was given and is not yet in the queue.
-/
structure Outlet where
  side : Side
  outgoing : List Packet := []
  deriving DecidableEq, Repr

namespace Outlet

def engine : Engine Outlet where
  write data o := (data.length, { o with outgoing := o.outgoing ++ [.data o.side data] })
  close o := { o with outgoing := o.outgoing ++ [.close o.side] }
  peerAddr o := (some (.loopback o.side.other.socket), o)
  localAddr o := (some (.loopback o.side.socket), o)
  readDrained o := o

end Outlet

/--
The bridge: its two connections, the queue, and what the carrier thread has taken off the queue but not
yet reported.
-/
structure Bridge where
  host : Host Outlet := {}
  queue : List Packet := []
  reports : List (Side × Upcall) := []
  deriving Repr

namespace Bridge

def outgoing (connections : List (Connection Outlet)) : List Packet :=
  connections.flatMap (·.monitor.engine.outgoing)

def emptied (c : Connection Outlet) : Connection Outlet :=
  { c with monitor := { c.monitor with engine := { c.monitor.engine with outgoing := [] } } }

def gather (b : Bridge) : Bridge :=
  -- only one of them can hold something, because this is done after every step of an end
  { b with
    queue := b.queue ++ outgoing b.host.connections
    host := { b.host with connections := b.host.connections.map emptied } }

/--
Opens both connections. The carrier thread starts with the report that they are made.
-/
def init (label : Side → String) : Bridge × List Log.Event :=
  let h : Host Outlet := {}
  let d := h.openConnection Outlet.engine (label .dialer) { side := .dialer }
  let a := d.host.openConnection Outlet.engine (label .acceptor) { side := .acceptor }
  ({ host := a.host, reports := [(.dialer, .connected), (.acceptor, .connected)] },
    d.events ++ a.events)

inductive Move where
  /-- Something happens on the host that is not a report. -/
  | host (a : HostAction)
  | take
  | report
  deriving DecidableEq, Repr

def isReport : HostAction → Bool
  | .act _ (.upcall _) => true
  | _ => false

def step (b : Bridge) : Move → Option (Bridge × List Log.Event)
  | .host a =>
    if isReport a then none
    else do
      let r ← b.host.step Outlet.engine a
      some ({ b with host := r.host }.gather, r.events)
  | .take =>
    match b.reports, b.queue with
    | [], packet :: queue => some ({ b with queue, reports := packet.reports }, [])
    | _, _ => none
  | .report =>
    match b.reports with
    | (side, upcall) :: reports => do
      let r ← b.host.act Outlet.engine side.index (.upcall upcall)
      some ({ b with host := r.host, reports }.gather, r.events)
    | [] => none

end Bridge

end BlockingStream

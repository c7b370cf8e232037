import BlockingStream.Timer.Queue

/-!
This module contains the timer service: a queue of deadlines and the worker that serves it.

The worker looks at the queue under the queue's lock and takes everything that is due. It then fires
what it took, one entry after the other, without that lock, and looks again. When nothing is due it
sleeps until the first entry falls due. It is woken before that only by an entry that comes in front of
all others, or by the end of the service; a cancelled entry does not wake it.
-/

namespace BlockingStream.Timer

inductive Worker (α : Type) where
  | awake
  | firing (batch : List (Key × α))
  /-- It sleeps, for ever or until an instant, and nobody has notified it. -/
  | asleep (wakeAt : Option Instant)
  | stopped
  deriving Repr

structure Service (α : Type) where
  queue : Queue α := {}
  shutdown : Bool := false
  worker : Worker α := .awake
  deriving Repr

namespace Service

variable {α : Type}

def notify (s : Service α) : Service α :=
  match s.worker with
  | .asleep _ => { s with worker := .awake }
  | _ => s

def becomesHead (deadline : Instant) (s : Service α) : Bool :=
  match s.queue.head with
  | none => true
  | some head => deadline < head

/--
Schedules an entry, and wakes the worker if the entry comes in front of all others.
-/
def schedule (deadline : Instant) (a : α) (s : Service α) : Key × Service α :=
  let (key, queue) := s.queue.schedule deadline a
  let scheduled := { s with queue }
  (key, if s.becomesHead deadline then scheduled.notify else scheduled)

/--
Cancels an entry. An entry that the worker has taken already is not called back.
-/
def cancel (key : Key) (s : Service α) : Service α :=
  { s with queue := s.queue.cancel key }

def stop (s : Service α) : Service α :=
  { s with shutdown := true, queue := { s.queue with entries := [] } }.notify

def pending (s : Service α) : Nat := s.queue.pending

def render (s : Service α) : String :=
  "TimerService \x7b pending: " ++ toString s.pending ++ " \x7d"

def scan (now : Instant) (s : Service α) : Service α :=
  if s.shutdown then { s with worker := .stopped }
  else
    match s.queue.popDue now with
    | ([], queue) => { s with queue, worker := .asleep queue.head }
    | (batch, queue) => { s with queue, worker := .firing batch }

def sleepIsOver (now : Instant) : Option Instant → Bool
  | none => false
  | some wakeAt => wakeAt ≤ now

/--
One step of the worker, if it can make one now, and the entry that fires in it.
-/
def step (now : Instant) (s : Service α) : Option (Option (Key × α) × Service α) :=
  match s.worker with
  | .awake => some (none, s.scan now)
  | .firing (entry :: batch) => some (some entry, { s with worker := .firing batch })
  | .firing [] => some (none, { s with worker := .awake })
  | .asleep wakeAt =>
    if sleepIsOver now wakeAt then some (none, { s with worker := .awake }) else none
  | .stopped => none

end Service

end BlockingStream.Timer

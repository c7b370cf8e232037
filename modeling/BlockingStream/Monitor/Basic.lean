import BlockingStream.Conn.Attempt
import BlockingStream.Log.Event

/-!
This module contains the monitor of a connection: its state behind a lock, the engine that is called
under this lock, and the threads that are inside a blocking call.

A blocking call is a sequence of rounds. In each round the thread holds the lock, looks at the state and
then either returns, or goes to sleep and releases the lock in one step, or, after the engine took a part
of what it was offered, keeps the lock for its next round. A broadcast signals every sleeper, and every
signalled thread starts its next round as soon as it gets the lock.
-/

namespace BlockingStream

inductive Call where
  | awaitConnect
  /-- A read into a buffer, with what lies in the buffer before. -/
  | readInto (buffer : Bytes)
  | write (data : Bytes)
  deriving DecidableEq, Repr

def Call.read (len : Nat) : Call := .readInto (List.replicate len 0)

inductive Outcome where
  | connect (result : Except StreamError Unit)
  | read (delivery : Conn.Delivery)
  | write (transfer : Transfer)
  deriving Repr

inductive Status where
  /-- It wants the lock for its next round. -/
  | ready
  /-- It keeps the lock between two rounds. -/
  | holding
  /-- It sleeps, and no broadcast has signalled it since. -/
  | asleep
  | returned (outcome : Outcome)
  deriving Repr

/--
A thread inside a blocking call. A read works on the buffer of its caller. A write keeps track of how much the
engine has taken, and of the rest. A thread that makes several calls counts as a new one, with another number, in
each of them.
-/
structure Thread where
  id : Nat
  call : Call
  buffer : Bytes := []
  taken : Nat := 0
  rest : Bytes := []
  status : Status := .ready
  deriving Repr

namespace Thread

def enter (id : Nat) (call : Call) : Thread :=
  match call with
  | .awaitConnect => { id, call }
  | .readInto buffer => { id, call, buffer }
  | .write data => { id, call, rest := data }

def isHolding (t : Thread) : Bool :=
  match t.status with
  | .holding => true
  | _ => false

def isReady (t : Thread) : Bool :=
  match t.status with
  | .ready => true
  | _ => false

def isAsleep (t : Thread) : Bool :=
  match t.status with
  | .asleep => true
  | _ => false

def outcome? (t : Thread) : Option Outcome :=
  match t.status with
  | .returned outcome => some outcome
  | _ => none

def signal (t : Thread) : Thread :=
  match t.status with
  | .asleep => { t with status := .ready }
  | _ => t

@[simp]
theorem id_signal (t : Thread) : t.signal.id = t.id := by
  unfold signal
  split <;> rfl

@[simp]
theorem isAsleep_signal (t : Thread) : t.signal.isAsleep = false := by
  cases h : t.status <;> simp [signal, isAsleep, h]

@[simp]
theorem isHolding_signal (t : Thread) : t.signal.isHolding = t.isHolding := by
  cases h : t.status <;> simp [signal, isHolding, h]

@[simp]
theorem outcome?_signal (t : Thread) : t.signal.outcome? = t.outcome? := by
  cases h : t.status <;> simp [signal, outcome?, h]

end Thread

structure Monitor (σ : Type) where
  label : String
  conn : Conn
  engine : σ
  threads : List Thread := []
  deriving Repr

inductive Direction where
  | reading
  | writing
  deriving DecidableEq, Repr

/--
What a monitor wants from the timer service: an alarm at a new deadline in place of the old one, or none.
-/
structure AlarmRequest where
  direction : Direction
  deadline : Option Instant
  deriving DecidableEq, Repr

namespace Monitor

variable {σ : Type}

def init (E : Engine σ) (label : String) (s : σ) : Monitor σ :=
  let (conn, engine) := Conn.init E s
  { label, conn, engine }

def event (m : Monitor σ) (level : Log.Level) (target message : String)
    (fields : List (String × Log.Value)) : Log.Event :=
  { level, target, message, fields := ("conn", .text m.label) :: fields }

def thread? (m : Monitor σ) (id : Nat) : Option Thread := m.threads.find? (·.id == id)

def freshId (m : Monitor σ) : Nat := m.threads.foldl (fun n t => max n (t.id + 1)) 0

def setThread (m : Monitor σ) (t : Thread) : Monitor σ :=
  { m with threads := m.threads.map fun u => if u.id = t.id then t else u }

def lockFree (m : Monitor σ) : Bool := m.threads.all (!·.isHolding)

def busy (m : Monitor σ) : Bool := m.threads.any (·.outcome?.isNone)

def broadcast (m : Monitor σ) : Monitor σ := { m with threads := m.threads.map Thread.signal }

theorem isAsleep_of_mem_broadcast {m : Monitor σ} {t : Thread} (h : t ∈ m.broadcast.threads) :
    t.isAsleep = false := by
  obtain ⟨u, _, rfl⟩ := List.mem_map.1 h
  exact u.isAsleep_signal

@[simp]
theorem lockFree_broadcast (m : Monitor σ) : m.broadcast.lockFree = m.lockFree := by
  simp [lockFree, broadcast, Function.comp_def]

def render (m : Monitor σ) : String :=
  "Conn \x7b label: " ++ Text.quoted m.label ++ ", phase: " ++ m.conn.phase.name ++ " \x7d"

def renderNotifier (m : Monitor σ) : String :=
  "ConnNotifier \x7b label: " ++ Text.quoted m.label ++ " \x7d"

end Monitor

end BlockingStream

import BlockingStream.Monitor.Basic

/-!
This module contains the rounds of the blocking calls: what a thread does while it holds the lock.
-/

namespace BlockingStream

structure Round (σ : Type) where
  thread : Thread
  conn : Conn
  engine : σ
  events : List Log.Event := []

namespace Monitor

variable {σ : Type}

def connectRound (m : Monitor σ) (t : Thread) : Round σ :=
  let status :=
    match m.conn.connectResult with
    | some result => .returned (.connect result)
    | none => .asleep
  { thread := { t with status }, conn := m.conn, engine := m.engine }

/--
A round of a read. It fills the buffer as far as it can, and returns if it has bytes or an error to report, or if
the buffer has no room at all.
-/
def readRound (E : Engine σ) (now : Instant) (m : Monitor σ) (t : Thread) (len : Nat) : Round σ :=
  let (delivery, conn, engine) := m.conn.read E len now m.engine
  let t := { t with buffer := delivery.fill t.buffer }
  if !delivery.data.isEmpty || len == 0 || delivery.error.isSome then
    { thread := { t with status := .returned (.read delivery) }
      conn, engine
      events := [m.event .trace Log.callTarget "read"
        [("bytes", .count delivery.data.length), ("total", .count conn.bytesRead),
          ("error", .outcome delivery.error)]] }
  else { thread := { t with status := .asleep }, conn, engine }

def finishWrite (m : Monitor σ) (t : Thread) (error : Option StreamError) (engine : σ)
    (events : List Log.Event) : Round σ :=
  -- whatever was handed over is counted now, and not before
  let conn := m.conn.recordWritten t.taken
  { thread := { t with status := .returned (.write ⟨t.taken, error⟩) }
    conn, engine
    events := events ++ [m.event .trace Log.callTarget "write"
      [("bytes", .count t.taken), ("total", .count conn.bytesWritten), ("error", .outcome error)]] }

def offerEvents : Conn.Offer → List Log.Event
  -- only an engine that claims too much is worth telling
  | .overclaimed reply offered =>
    [{ level := .warn, target := Log.engineTarget
       message := "engine accepted more bytes than offered; clamping"
       fields := [("accepted", .count reply), ("offered", .count offered)] }]
  | .refused _ | .taken _ => []

/--
A round of a write. A write of nothing only asks for the error. Otherwise the rest is offered to the
engine: the thread returns when an error stands in the way or nothing is left, sleeps when the engine took
nothing, and keeps the lock when the engine took a part.
-/
def writeRound (E : Engine σ) (now : Instant) (m : Monitor σ) (t : Thread) : Round σ :=
  if t.rest.isEmpty then m.finishWrite t (m.conn.writeError now) m.engine []
  else
    let (offer, engine) := m.conn.offer E t.rest now m.engine
    let events := offerEvents offer
    let t := { t with taken := t.taken + offer.count, rest := t.rest.drop offer.count }
    match offer.error? with
    | some e => m.finishWrite t (some e) engine events
    | none =>
      if t.rest.isEmpty then m.finishWrite t none engine events
      else if offer.count = 0 then
        { thread := { t with status := .asleep }, conn := m.conn, engine, events }
      else { thread := { t with status := .holding }, conn := m.conn, engine, events }

def round (E : Engine σ) (now : Instant) (m : Monitor σ) (t : Thread) : Round σ :=
  match t.call with
  | .awaitConnect => m.connectRound t
  | .readInto buffer => m.readRound E now t buffer.length
  | .write _ => m.writeRound E now t

/--
The thread can make a round now: it keeps the lock, or wants it while nobody keeps it.
-/
def mayRun (m : Monitor σ) (t : Thread) : Bool :=
  t.isHolding || (t.isReady && m.lockFree)

end Monitor

end BlockingStream

import BlockingStream.Conn.State

/-!
This module contains the single attempts: what one look at the state yields for a read, for a write and
for the wait for the connection to be made. None of them waits; an attempt that yields nothing is
repeated by the caller after the state has changed.
-/

namespace BlockingStream.Conn

variable {σ : Type}

/--
What a read attempt yields: the bytes it moved to the front of the caller's buffer, and the error it
reports.
-/
structure Delivery where
  data : Bytes
  error : Option StreamError
  deriving DecidableEq, Repr

/--
The caller's buffer after the delivery. What lies behind the delivered bytes stays as it was.
-/
def Delivery.fill (d : Delivery) (buffer : Bytes) : Bytes :=
  d.data ++ buffer.drop d.data.length

def hintDrained (E : Engine σ) (moved : Bytes) (c : Conn) (s : σ) : σ :=
  if !moved.isEmpty && c.inbound.isEmpty && c.mayHint then E.readDrained s else s

def read (E : Engine σ) (len : Nat) (now : Instant) (c : Conn) (s : σ) : Delivery × Conn × σ :=
  let moved := c.inbound.take len
  let c := { c with
    inbound := c.inbound.drop len
    bytesRead := countUp c.bytesRead moved.length }
  -- the error is chosen last, so that the last bytes and the end of the stream can come together
  (⟨moved, c.readError now⟩, c, c.hintDrained E moved s)

theorem read_append (E : Engine σ) (len : Nat) (now : Instant) (c : Conn) (s : σ) :
    (c.read E len now s).1.data ++ (c.read E len now s).2.1.inbound = c.inbound :=
  List.take_append_drop ..

theorem length_read_data (E : Engine σ) (len : Nat) (now : Instant) (c : Conn) (s : σ) :
    (c.read E len now s).1.data.length = min len c.inbound.length :=
  List.length_take ..

inductive Offer where
  /-- An error stands in the way, and the engine was not asked. -/
  | refused (e : StreamError)
  | taken (n : Nat)
  /-- The engine claims to have taken more than it was offered, which counts as all of it. -/
  | overclaimed (reply : Nat) (offered : Nat)
  deriving DecidableEq, Repr

def Offer.count : Offer → Nat
  | refused _ => 0
  | taken n => n
  | overclaimed _ offered => offered

def Offer.error? : Offer → Option StreamError
  | refused e => some e
  | taken _ | overclaimed _ _ => none

def offer (E : Engine σ) (data : Bytes) (now : Instant) (c : Conn) (s : σ) : Offer × σ :=
  match c.writeError now with
  | some e => (.refused e, s)
  | none =>
    if data.isEmpty then (.taken 0, s)
    else if c.attached then
      let (reply, s) := E.write data s
      if data.length < reply then (.overclaimed reply data.length, s) else (.taken reply, s)
    else (.refused .destroyed, s)

theorem count_offer_le (E : Engine σ) (data : Bytes) (now : Instant) (c : Conn) (s : σ) :
    (c.offer E data now s).1.count ≤ data.length := by
  unfold offer
  split
  . simp [Offer.count]
  . split
    . simp [Offer.count]
    . split
      . dsimp only
        split
        . exact Nat.le_refl _
        . simp only [Offer.count]
          omega
      . simp [Offer.count]

/--
The end of the wait for the connection to be made, or nothing if it is not decided yet. A connection that
was made once counts as made even if it was closed or destroyed since.
-/
def connectResult (c : Conn) : Option (Except StreamError Unit) :=
  match c.failure with
  | some code => some (.error (.engine code))
  | none =>
    if c.connected then some (.ok ())
    else
      match c.phase with
      | .destroyed => some (.error .destroyed)
      | .closed => some (.error .closed)
      | _ => none

/--
Closes the connection. The first close asks the engine to close, unless the engine is already gone, and
lets go of it; every later one does nothing. Tells whether this was the first.
-/
def close (E : Engine σ) (c : Conn) (s : σ) : Bool × Conn × σ :=
  if c.closed then (false, c, s)
  else if c.destroyed then (true, { c with closed := true }, s)
  else if c.attached then (true, { c with closed := true, attached := false }, E.close s)
  else (true, { c with closed := true }, s)

theorem close_of_closed (E : Engine σ) {c : Conn} (h : c.closed = true) (s : σ) :
    c.close E s = (false, c, s) := by
  simp [close, h]

theorem closed_close (E : Engine σ) (c : Conn) (s : σ) : (c.close E s).2.1.closed = true := by
  unfold close
  repeat' split
  all_goals simp_all

def destroy (c : Conn) : Conn := { c with destroyed := true, attached := false }

def receive (data : Bytes) (c : Conn) : Conn := { c with inbound := c.inbound ++ data }

def isLate (c : Conn) : Bool := c.eof || c.destroyed || c.closed

def fail (code : EngineCode) (c : Conn) : Except EngineCode Conn :=
  -- a second failure is refused and answered with the first
  match c.failure with
  | some first => .error first
  | none => .ok { c with failure := some code }

def recordWritten (n : Nat) (c : Conn) : Conn :=
  { c with bytesWritten := countUp c.bytesWritten n }

def remoteAddr (E : Engine σ) (c : Conn) (s : σ) : Option Address × Conn × σ :=
  -- without an engine to ask, the address is the last one that was told
  if c.attached then
    let (addr, s) := E.peerAddr s
    let c := { c with peer := addr <|> c.peer }
    (c.peer, c, s)
  else (c.peer, c, s)

def ownAddr (E : Engine σ) (c : Conn) (s : σ) : Option Address × Conn × σ :=
  if c.attached then
    let (addr, s) := E.localAddr s
    let c := { c with localAddr := addr <|> c.localAddr }
    (c.localAddr, c, s)
  else (c.localAddr, c, s)

end BlockingStream.Conn

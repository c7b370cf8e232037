import BlockingStream.Address

/-!
This module contains the interface between a connection and the transport engine that carries it.

An engine is a family of non-blocking functions on a state of its own. A connection calls them only
while it holds its lock, so they never run at the same time.
-/

namespace BlockingStream

abbrev Bytes := List UInt8

structure Engine (σ : Type) where
  /--
  Takes bytes from the front of what is offered and tells how many it took. Zero means that there is
  no room now.
  -/
  write : Bytes → σ → Nat × σ
  close : σ → σ
  peerAddr : σ → Option Address × σ
  localAddr : σ → Option Address × σ
  /-- Hears that all bytes that arrived so far have been read. -/
  readDrained : σ → σ
  /--
  Room for more bytes appears inside the engine. This is not a call of the connection: it happens
  without the connection's lock, at any time.
  -/
  grant : Nat → σ → σ := fun _ s => s

inductive EngineCall where
  | write (offered : Bytes) (reply : Nat)
  | close
  | peerAddr
  | localAddr
  | readDrained
  deriving DecidableEq, Repr

def EngineCall.handedOver : EngineCall → Bytes
  -- an engine cannot take more than it was offered, whatever it claims
  | .write offered reply => offered.take reply
  | _ => []

def EngineCall.stream (calls : List EngineCall) : Bytes := calls.flatMap handedOver

@[simp]
theorem EngineCall.stream_append (calls more : List EngineCall) :
    stream (calls ++ more) = stream calls ++ stream more :=
  List.flatMap_append

namespace Engine

variable {σ τ : Type}

/--
The same engine, with the calls made on it written down in order.
-/
def recorded (E : Engine σ) : Engine (σ × List EngineCall) where
  write data s :=
    let (n, inner) := E.write data s.1
    (n, inner, s.2 ++ [.write data n])
  close s := (E.close s.1, s.2 ++ [.close])
  peerAddr s :=
    let (addr, inner) := E.peerAddr s.1
    (addr, inner, s.2 ++ [.peerAddr])
  localAddr s :=
    let (addr, inner) := E.localAddr s.1
    (addr, inner, s.2 ++ [.localAddr])
  readDrained s := (E.readDrained s.1, s.2 ++ [.readDrained])
  grant n s := (E.grant n s.1, s.2)

section

variable (E : Engine σ) (s : σ × List EngineCall)

@[simp]
theorem recorded_write_calls (data : Bytes) :
    (E.recorded.write data s).2.2 = s.2 ++ [.write data (E.write data s.1).1] := rfl

@[simp]
theorem recorded_close_calls : (E.recorded.close s).2 = s.2 ++ [.close] := rfl

@[simp]
theorem recorded_peerAddr_calls : (E.recorded.peerAddr s).2.2 = s.2 ++ [.peerAddr] := rfl

@[simp]
theorem recorded_localAddr_calls : (E.recorded.localAddr s).2.2 = s.2 ++ [.localAddr] := rfl

@[simp]
theorem recorded_readDrained_calls : (E.recorded.readDrained s).2 = s.2 ++ [.readDrained] := rfl

@[simp]
theorem recorded_grant_calls (n : Nat) : (E.recorded.grant n s).2 = s.2 := rfl

end

/--
Two engines as one: each state is served by the engine it belongs to.
-/
def sum (E : Engine σ) (F : Engine τ) : Engine (σ ⊕ τ) where
  write data
    | .inl s => let (n, s) := E.write data s; (n, .inl s)
    | .inr t => let (n, t) := F.write data t; (n, .inr t)
  close
    | .inl s => .inl (E.close s)
    | .inr t => .inr (F.close t)
  peerAddr
    | .inl s => let (addr, s) := E.peerAddr s; (addr, .inl s)
    | .inr t => let (addr, t) := F.peerAddr t; (addr, .inr t)
  localAddr
    | .inl s => let (addr, s) := E.localAddr s; (addr, .inl s)
    | .inr t => let (addr, t) := F.localAddr t; (addr, .inr t)
  readDrained
    | .inl s => .inl (E.readDrained s)
    | .inr t => .inr (F.readDrained t)
  grant n
    | .inl s => .inl (E.grant n s)
    | .inr t => .inr (F.grant n t)

end Engine

end BlockingStream

import BlockingStream.Monitor.Basic

/-!
This module contains the view of a connection as a plain byte stream, where a call yields either a count
of bytes or one I/O error.

The view hides the error of a transfer that moved bytes; it shows again in the next call. The end of the
peer's data becomes a read of nothing.
-/

namespace BlockingStream

/--
An I/O error: its kind, its text, and the error of the stream that it stands for, if it stands for one.
-/
structure IoError where
  kind : IoKind
  message : String
  source : Option StreamError
  deriving DecidableEq, Repr

def StreamError.toIoError (e : StreamError) : IoError := ⟨e.ioKind, e.message, some e⟩

namespace IoError

def failedToFill : IoError := ⟨.unexpectedEof, "failed to fill whole buffer", none⟩

def failedToWrite : IoError := ⟨.writeZero, "failed to write whole buffer", none⟩

end IoError

/--
A read as I/O: bytes first, then the end as a read of nothing, then errors.
-/
def Conn.Delivery.toIo (d : Conn.Delivery) : Except IoError Bytes :=
  if !d.data.isEmpty then .ok d.data
  else
    match d.error with
    | none | some .endOfStream => .ok []
    | some e => .error e.toIoError

def Transfer.writeToIo (t : Transfer) : Except IoError Nat :=
  if t.bytes ≠ 0 then .ok t.bytes
  else
    match t.error with
    | some e => .error e.toIoError
    | none => .ok 0

end BlockingStream

import BlockingStream.Engine.Basic

/-!
This module contains an engine that answers from lists that were written down beforehand.
-/

namespace BlockingStream

/--
The answers that are still to be given. After the last reply to a write, everything or nothing is
taken; the last address of a list is given for ever.
-/
structure Scripted where
  replies : List Nat := []
  thenAll : Bool := true
  peers : List (Option Address) := []
  locals : List (Option Address) := []
  deriving DecidableEq, Repr

namespace Scripted

def nextAddr : List (Option Address) → Option Address × List (Option Address)
  | [] => (none, [])
  | [last] => (last, [last])
  | addr :: rest => (addr, rest)

/--
The scripted engine. It does nothing on being closed and ignores hints.
-/
def engine : Engine Scripted where
  write data s :=
    match s.replies with
    | n :: rest => (n, { s with replies := rest })
    | [] => (if s.thenAll then data.length else 0, s)
  close s := s
  peerAddr s :=
    let (addr, rest) := nextAddr s.peers
    (addr, { s with peers := rest })
  localAddr s :=
    let (addr, rest) := nextAddr s.locals
    (addr, { s with locals := rest })
  readDrained s := s

end Scripted

end BlockingStream

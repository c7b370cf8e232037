import BlockingStream.Io.Adapter

/-!
This module contains what an application thread may want from a connection: one blocking call, one call
through the byte stream view, or one of the loops over such calls that read to the end, fill a buffer or
write a whole buffer.
-/

namespace BlockingStream

/--
What an application thread is up to. The loops carry what they have read so far or what is left to write. A
read to the end may take many calls, so what it has read is kept with the last byte in front.
-/
inductive Task where
  | call (c : Call)
  | ioRead (len : Nat)
  | ioWrite (data : Bytes)
  | readToEnd (backwards : Bytes)
  | readExact (missing : Nat) (sofar : Bytes)
  | writeAll (rest : Bytes)
  deriving DecidableEq, Repr

inductive TaskResult where
  | returned (outcome : Outcome)
  | read (result : Except IoError Bytes)
  | written (result : Except IoError Nat)
  | readToEnd (data : Bytes) (error : Option IoError)
  | readExact (result : Except IoError Bytes)
  | writtenAll (result : Except IoError Unit)
  deriving Repr

namespace Task

def chunk : Nat := 8192

inductive Next where
  | call (c : Call)
  | done (r : TaskResult)

def next : Task → Next
  | .call c => .call c
  | .ioRead len => .call (.read len)
  | .ioWrite data => .call (.write data)
  | .readToEnd _ => .call (.read chunk)
  | .readExact 0 sofar => .done (.readExact (.ok sofar))
  | .readExact missing _ => .call (.read missing)
  | .writeAll [] => .done (.writtenAll (.ok ()))
  | .writeAll rest => .call (.write rest)

/--
A task after its call has returned: either it is done, or it goes on as another task.
-/
def resume (t : Task) (outcome : Outcome) : Task ⊕ TaskResult :=
  match t, outcome with
  | .ioRead _, .read d => .inr (.read d.toIo)
  | .ioWrite _, .write w => .inr (.written w.writeToIo)
  | .readToEnd backwards, .read d =>
    match d.toIo with
    | .ok [] => .inr (.readToEnd backwards.reverse none)
    | .ok data => .inl (.readToEnd (data.reverseAux backwards))
    | .error e => .inr (.readToEnd backwards.reverse (some e))
  | .readExact missing sofar, .read d =>
    match d.toIo with
    | .ok [] => .inr (.readExact (.error .failedToFill))
    | .ok data => .inl (.readExact (missing - data.length) (sofar ++ data))
    | .error e => .inr (.readExact (.error e))
  | .writeAll rest, .write w =>
    match w.writeToIo with
    | .ok 0 => .inr (.writtenAll (.error .failedToWrite))
    | .ok n => .inl (.writeAll (rest.drop n))
    | .error e => .inr (.writtenAll (.error e))
  | _, outcome => .inr (.returned outcome)

end Task

end BlockingStream

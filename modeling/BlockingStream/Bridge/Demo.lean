import BlockingStream.Bridge.Basic
import BlockingStream.Config.Decode
import BlockingStream.Log.Subscriber
import BlockingStream.Timer.Thread

/-!
This module contains the demonstration program: over a bridge, one end sends a message, the other end sends
it back, and both close. One order of events stands for all, since the events do not depend on it.
-/

namespace BlockingStream.Demo

def message : Bytes := "hello from a blocking connection".toUTF8.toList

def target : String := "sync_conn_demo"

def inform (text : String) (fields : List (String × String)) : Log.Event :=
  { level := .info, target, message := text, fields := fields.map fun f => (f.1, .text f.2) }

/--
Why a run did not come to its end.
-/
inductive Failure where
  | stream (e : StreamError)
  /-- A step was not possible. This does not happen. -/
  | stuck
  deriving Repr

abbrev Run := StateT (Bridge × List Log.Event) (Except Failure)

namespace Run

def tell (events : List Log.Event) : Run Unit :=
  modify fun s => (s.1, s.2 ++ events)

def move (m : Bridge.Move) : Run Unit := do
  match (← get).1.step m with
  | some (b, events) => modify fun s => (b, s.2 ++ events)
  | none => throw .stuck

def connection (side : Side) : Run (Connection Outlet) := do
  match (← get).1.host.connections[side.index]? with
  | some c => pure c
  | none => throw .stuck

def act (side : Side) (a : Action) : Run Unit := move (.host (.act side.index a))

def carry : Nat → Run Unit
  | 0 => pure ()
  | fuel + 1 => do
    let b := (← get).1
    match b.step .report with
    | some _ => move .report; carry fuel
    | none =>
      match b.step .take with
      | some _ => move .take; carry fuel
      | none => pure ()

def call (side : Side) (c : Call) : Run Outcome := do
  let id := (← connection side).monitor.freshId
  act side (.enter id c)
  act side (.run id)
  match ((← connection side).monitor.thread? id).bind (·.outcome?) with
  | some outcome => pure outcome
  | none => throw .stuck

def read (side : Side) (len : Nat) : Run Conn.Delivery := do
  match ← call side (.read len) with
  | .read d => pure d
  | _ => throw .stuck

def write (side : Side) (data : Bytes) : Run Unit := do
  match ← call side (.write data) with
  | .write t =>
    match t.toExcept with
    | .ok _ => pure ()
    | .error e => throw (.stream e)
  | _ => throw .stuck

def awaitConnect (side : Side) : Run Unit := do
  match ← call side .awaitConnect with
  | .connect (.ok ()) => pure ()
  | .connect (.error e) => throw (.stream e)
  | _ => throw .stuck

def echo (side : Side) : Run (Nat × Bool) := do
  let d ← read side 256
  if !d.data.isEmpty then write side d.data
  match d.error with
  | none => pure (d.data.length, false)
  | some .endOfStream =>
    act side (.request .close)
    pure (d.data.length, true)
  | some e => throw (.stream e)

def readAll (side : Side) : Nat → Nat → Bytes → Run Bytes
  | 0, _, sofar => pure sofar
  | fuel + 1, missing, sofar => do
    if missing = 0 then pure sofar
    else
      let d ← read side missing
      match d.error with
      | some e => throw (.stream e)
      | none => readAll side fuel (missing - d.data.length) (sofar ++ d.data)

def addressText : Option Address → String
  | some a => "Some(" ++ a.text ++ ")"
  | none => "None"

def statsText (c : Conn) : String :=
  "ConnStats \x7b bytes_read: " ++ toString c.bytesRead ++ ", bytes_written: " ++
    toString c.bytesWritten ++ " \x7d"

def patience : Int := 5000

def all : Run Unit := do
  carry 8
  awaitConnect .dialer
  awaitConnect .acceptor
  act .dialer (.request .localAddr)
  act .dialer (.request .remoteAddr)
  let c := (← connection .dialer).monitor.conn
  tell [inform "dialer connected"
    [("local", addressText c.localAddr), ("remote", addressText c.peer)]]
  write .dialer message
  carry 8
  let (echoed, _) ← echo .acceptor
  let deadline := (← get).1.host.clock + patience
  act .dialer (.request (.setDeadline (.one .reading) (some deadline)))
  carry 8
  let reply ← readAll .dialer message.length message.length []
  let text := (String.fromUTF8? ⟨reply.toArray⟩).getD ""
  tell [inform "echo received" [("reply", text)]]
  act .dialer (.request .close)
  carry 8
  let (rest, _) ← echo .acceptor
  carry 8
  let c := (← connection .dialer).monitor.conn
  tell [inform "demo finished"
    [("echoed", toString (echoed + rest)), ("stats", statsText c)]]
  move (.host (.drop Side.dialer.index))
  move (.host (.drop Side.acceptor.index))

end Run

inductive Source where
  | none
  | missing
  | content (bytes : Bytes)
  deriving Repr

/--
What the program shows: the texts that it writes, each of which ends its line, and the first line of what
goes to the error output.
-/
structure Result where
  exitCode : UInt32
  stdout : List String
  stderr : Option String
  deriving Repr

def stopped : Result :=
  -- the report of a broken rule of the system begins with an empty line
  ⟨101, [], some ""⟩

def failed (stdout : List String) (causes : List String) : Result :=
  ⟨1, stdout, some ("阻塞连接演示失败: " ++ ": ".intercalate causes)⟩

def settings (path : String) (source : Source) : Except (List String) Config :=
  let unread (why : String) := .error ["读取配置文件 `" ++ path ++ "` 失败", why]
  match source with
  | .none => .ok {}
  | .missing => unread "No such file or directory (os error 2)"
  | .content bytes =>
    match String.fromUTF8? ⟨bytes.toArray⟩ with
    | .none => unread "stream did not contain valid UTF-8"
    | some text =>
      match Config.ofText text with
      | .ok c => .ok c
      | .error e => .error ["解析配置文件 `" ++ path ++ "` 失败", e.headline text]

def withSettings (c : Config) (subscriber : Log.Subscriber) : Result :=
  match c.startTimers (.ok ()) Nat with
  | .panicked => stopped
  | .failed reason => failed [] ["failed to start timer service: " ++ reason]
  | .started _ =>
    let (bridge, opened) := Bridge.init fun side => c.label ++ "-" ++ side.name
    match Run.all.run (bridge, opened) with
    | .ok (_, _, events) => ⟨0, subscriber.output events, .none⟩
    | .error (.stream e) => failed [] [e.message]
    | .error .stuck => failed [] []

/--
Runs the program: `setting` is what the environment says about the log, and `path` is how the user has
called the file. The subscriber for the events is installed first, and is the only one there is.
-/
def run (setting : Option String) (path : String) (source : Source) : Result :=
  match Log.Filter.ofSetting setting with
  | .none => stopped
  | some filter =>
    match settings path source with
    | .ok c => withSettings c (.lines filter)
    | .error causes => failed [] causes

end BlockingStream.Demo

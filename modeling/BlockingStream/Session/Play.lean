import BlockingStream.Config.Decode
import BlockingStream.Session.Command

/-!
This module contains whole sessions: connections are built from blueprints, commands carried out, and at the
end everything is closed and dropped.
-/

namespace BlockingStream

inductive Settings where
  /-- The document is read, and its settings are checked. -/
  | document (text : String)
  /-- The record is taken as it is. -/
  | record (c : Config)
  deriving Repr

/--
How a connection is to be built. A plain one ignores all settings and uses the timer service of the
process.
-/
structure Blueprint where
  engine : Metered ⊕ Scripted := .inl {}
  hints : Bool := true
  plain : Bool := false
  settings : Settings := .record {}
  label : Option String := none
  capacity : Option Nat := none
  deriving Repr

namespace Blueprint

def config (b : Blueprint) : Except ConfigError Config :=
  -- replacements are not checked
  if b.plain then .ok {}
  else do
    let c ←
      match b.settings with
      | .document text => Config.ofText text
      | .record c => .ok c
    .ok { c with
      label := b.label.getD c.label
      inboundCapacity := b.capacity.getD c.inboundCapacity }

def home (b : Blueprint) (processWide : Bool) : Home :=
  if b.plain && !processWide then .process else .session

end Blueprint

/--
All that a session shows: each connection with its label as it is opened, the commands, the end of each
connection, and the number of timer entries that are left after all.
-/
structure Transcript where
  opened : List (String × Report)
  steps : List Report
  ended : List (Report × EngineReport)
  left : Nat

namespace Session

def openConnection (b : Blueprint) (home : Home) (label : String) (s : Session) :
    Option ((String × Report) × Session) := do
  let h := s.host home
  let r := h.openConnection carrier label (b.engine, [])
  let seat : Seat := { home, place := h.connections.length, hints := b.hints }
  let s := s.setHost home r.host
  let (report, s) ← { s with seats := s.seats ++ [seat] }.conclude none s.seats.length
    (.answer .done) r.events
  some ((label, report), s)

def finish (i : Nat) (s : Session) : Option ((Report × EngineReport) × Session) := do
  -- a connection that the application has dropped is left as it is
  let (s, answer, events) := s.carryOut i fun place => .act place (.request .close)
  let (report, s) ← s.conclude none i (.answer answer) events
  let c ← s.connection? i
  some ((report, engineReport c), s)

def release (s : Session) : Nat :=
  let places := List.range s.seats.length
  let each (s : Session) (action : Nat → HostAction) : Session :=
    places.foldl (fun s i => (s.carryOut i action).1) s
  (each (each s .drop) .dropNotifier).own.service.pending

def collect {α β : Type} (f : α → Session → Option (β × Session)) :
    List α → Session → Option (List β × Session)
  | [], s => some ([], s)
  | a :: rest, s => do
    let (b, s) ← f a s
    let (bs, s) ← collect f rest s
    some (b :: bs, s)

def play (processWide : Bool) (connections : List (Blueprint × String)) (commands : List Command) :
    Option Transcript := do
  let opening := fun (b, label) => openConnection b (b.home processWide) label
  let (opened, s) ← collect opening connections {}
  let numbered := (List.range commands.length).zip commands
  let (steps, s) ← collect (fun (id, command) => exec id command) numbered s
  let (ended, s) ← collect finish (List.range connections.length) s
  some { opened, steps, ended, left := s.release }

/--
Plays a session. It does not begin if the settings of a connection are refused.
-/
def ofBlueprints (processWide : Bool) (blueprints : List Blueprint) (commands : List Command) :
    Except ConfigError (Option Transcript) := do
  let configs ← blueprints.mapM Blueprint.config
  .ok (play processWide (blueprints.zip (configs.map (·.label))) commands)

end Session

end BlockingStream

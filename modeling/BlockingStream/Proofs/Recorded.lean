import BlockingStream.Proofs.Run

/-!
This module contains the proof that writing down the calls on an engine changes nothing: each run of a
connection is a recorded run of which the calls are left out. What holds in all recorded runs, and speaks of the
calls in them, therefore tells something about each run.
-/

namespace BlockingStream

variable {σ : Type}

def Monitor.forget (m : Monitor (σ × List EngineCall)) : Monitor σ where
  label := m.label
  conn := m.conn
  engine := m.engine.1
  threads := m.threads

def Round.forget (r : Round (σ × List EngineCall)) : Round σ where
  thread := r.thread
  conn := r.conn
  engine := r.engine.1
  events := r.events

def Step.forget (s : Step (σ × List EngineCall)) : Step σ where
  monitor := s.monitor.forget
  answer := s.answer
  events := s.events
  alarms := s.alarms

def Moment.forget (x : Moment (σ × List EngineCall)) : Moment σ where
  before := x.before.forget
  now := x.now
  action := x.action
  step := x.step.forget

namespace Conn

variable (E : Engine σ) (c : Conn) (now : Instant) (s : σ × List EngineCall)

theorem read_recorded (len : Nat)
    : let r := c.read E.recorded len now s
      c.read E len now s.1 = (r.1, r.2.1, r.2.2.1) := by
  simp only [read, hintDrained]
  split <;> rfl

theorem offer_recorded (data : Bytes)
    : let r := c.offer E.recorded data now s
      c.offer E data now s.1 = (r.1, r.2.1) := by
  dsimp only
  unfold offer
  split
  . rfl
  . split
    . rfl
    . split
      . dsimp only [Engine.recorded]
        by_cases hover : data.length < (E.write data s.1).1
        . simp only [hover, if_true]
        . simp only [hover, if_false]
      . rfl

theorem close_recorded
    : let r := c.close E.recorded s
      c.close E s.1 = (r.1, r.2.1, r.2.2.1) := by
  dsimp only
  unfold close
  repeat' split
  all_goals rfl

theorem remoteAddr_recorded
    : let r := c.remoteAddr E.recorded s
      c.remoteAddr E s.1 = (r.1, r.2.1, r.2.2.1) := by
  dsimp only
  unfold remoteAddr
  split <;> rfl

theorem ownAddr_recorded
    : let r := c.ownAddr E.recorded s
      c.ownAddr E s.1 = (r.1, r.2.1, r.2.2.1) := by
  dsimp only
  unfold ownAddr
  split <;> rfl

end Conn

namespace Monitor

variable {E : Engine σ} {label : String} {s : σ} {trace : List (Moment σ)} {m : Monitor σ}

theorem forget_init (E : Engine σ) (label : String) (s : σ)
    : (init E.recorded label (s, [])).forget = init E label s := by
  simp only [init, forget, Conn.init]
  rfl

theorem thread?_forget (m : Monitor (σ × List EngineCall)) (id : Nat)
    : m.forget.thread? id = m.thread? id :=
  rfl

theorem mayRun_forget (m : Monitor (σ × List EngineCall)) (t : Thread)
    : m.forget.mayRun t = m.mayRun t :=
  rfl

theorem map_forget_locked (m : Monitor (σ × List EngineCall)) (s : Step (σ × List EngineCall))
    : (m.locked s).map Step.forget = m.forget.locked s.forget := by
  unfold locked
  change _ = if m.lockFree then _ else _
  split <;> rfl

theorem forget_round (E : Engine σ) (now : Instant) (m : Monitor (σ × List EngineCall)) (t : Thread)
    : (m.round E.recorded now t).forget = m.forget.round E now t := by
  unfold round
  cases t.call with
  | awaitConnect => rfl
  | readInto buffer =>
    have hread := m.conn.read_recorded E now m.engine buffer.length
    simp only [readRound, forget, hread]
    split <;> rfl
  | write data =>
    have hoffer := m.conn.offer_recorded E now m.engine t.rest
    simp only [writeRound, forget, hoffer]
    repeat' split
    all_goals rfl

theorem forget_request (E : Engine σ) (m : Monitor (σ × List EngineCall)) (r : Request)
    : (m.request E.recorded r).forget = m.forget.request E r := by
  cases r with
  | close =>
    have hclose := m.conn.close_recorded E m.engine
    simp only [request, close, forget, hclose]
    split <;> rfl
  | setDeadline scope deadline =>
    cases scope with
    | both => rfl
    | one direction => cases direction <;> rfl
  | remoteAddr =>
    have haddr := m.conn.remoteAddr_recorded E m.engine
    simp only [request, forget, haddr]
    rfl
  | localAddr =>
    have haddr := m.conn.ownAddr_recorded E m.engine
    simp only [request, forget, haddr]
    rfl
  | stats => rfl
  | phase => rfl
  | buffered => rfl

theorem forget_upcall (m : Monitor (σ × List EngineCall)) (u : Upcall)
    : (m.upcall u).forget = m.forget.upcall u := by
  cases u with
  | error code =>
    simp only [upcall, fail, forget]
    split <;> rfl
  | _ => rfl

theorem map_forget_step (E : Engine σ) (now : Instant) (m : Monitor (σ × List EngineCall)) (a : Action)
    : (m.step E.recorded now a).map Step.forget = m.forget.step E now a := by
  cases a with
  | enter id call =>
    simp only [step, enter, thread?_forget]
    cases m.thread? id <;> rfl
  | run id =>
    simp only [step, run, thread?_forget]
    cases m.thread? id with
    | none => rfl
    | some t =>
      simp only [mayRun_forget, ← forget_round]
      split <;> rfl
  | stir id =>
    simp only [step, stir, thread?_forget]
    cases m.thread? id with
    | none => rfl
    | some t =>
      dsimp only
      split <;> rfl
  | request r =>
    simp only [step]
    rw [map_forget_locked, forget_request]
  | upcall u =>
    simp only [step]
    rw [map_forget_locked, forget_upcall]
  | alarm => exact map_forget_locked m _
  | grant n => rfl

/--
Each run is a recorded run without the calls.
-/
theorem Run.recorded (run : Run E (init E label s) trace m)
    : ∃ trace' m', RecordedRun E label s trace' m' ∧ trace'.map Moment.forget = trace ∧ m'.forget = m := by
  induction run with
  | nil => exact ⟨[], _, Run.nil, rfl, forget_init E label s⟩
  | @snoc trace m now a s' _ h ih =>
    obtain ⟨trace', m', hrun, rfl, rfl⟩ := ih
    rw [← map_forget_step] at h
    obtain ⟨s'', hstep, rfl⟩ := Option.map_eq_some_iff.1 h
    refine ⟨_, _, Run.snoc hrun hstep, ?_, rfl⟩
    rw [List.map_append]
    rfl

end Monitor

end BlockingStream

import BlockingStream.Proofs.Handle

/-!
This module contains the proof that a connection which has let go of its engine does not depend on it any more:
whatever it does, it would do over an engine that is never called.
-/

namespace BlockingStream

def Engine.absent : Engine Unit where
  write _ s := (0, s)
  close s := s
  peerAddr s := (none, s)
  localAddr s := (none, s)
  readDrained s := s

variable {σ : Type}

/--
The same state, without the engine.
-/
def Monitor.outside (m : Monitor σ) : Monitor Unit where
  label := m.label
  conn := m.conn
  engine := ()
  threads := m.threads

def Round.outside (r : Round σ) : Round Unit where
  thread := r.thread
  conn := r.conn
  engine := ()
  events := r.events

def Step.outside (s : Step σ) : Step Unit where
  monitor := s.monitor.outside
  answer := s.answer
  events := s.events
  alarms := s.alarms

def Moment.outside (x : Moment σ) : Moment Unit where
  before := x.before.outside
  now := x.now
  action := x.action
  step := x.step.outside

attribute [ext] Monitor

namespace Conn

variable (E : Engine σ) (c : Conn) (now : Instant) (s : σ)

theorem read_absent (len : Nat)
    : let r := c.read E len now s
      c.read Engine.absent len now () = (r.1, r.2.1, ()) :=
  rfl

theorem offer_absent (h : c.attached = false) (data : Bytes)
    : c.offer Engine.absent data now () = ((c.offer E data now s).1, ()) := by
  unfold offer
  rw [h]
  split
  . rfl
  . split <;> rfl

theorem close_absent (h : c.attached = false)
    : let r := c.close E s
      c.close Engine.absent () = (r.1, r.2.1, ()) := by
  dsimp only
  unfold close
  rw [h]
  repeat' split
  all_goals rfl

end Conn

namespace Monitor

variable {E : Engine σ} {m : Monitor σ} {now : Instant} {a : Action} {s : Step σ}

theorem map_outside_locked (m : Monitor σ) (s : Step σ)
    : (m.locked s).map Step.outside = m.outside.locked s.outside := by
  unfold locked
  change _ = if m.lockFree then _ else _
  split <;> rfl

theorem outside_round (h : m.conn.attached = false) (t : Thread)
    : (m.round E now t).outside = m.outside.round Engine.absent now t := by
  unfold round
  cases t.call with
  | awaitConnect => rfl
  | readInto buffer =>
    simp only [readRound, outside, Conn.read_absent E m.conn now m.engine]
    split <;> rfl
  | write data =>
    simp only [writeRound, outside, Conn.offer_absent E m.conn now m.engine h]
    repeat' split
    all_goals rfl

theorem outside_request (h : m.conn.attached = false) (r : Request)
    : (m.request E r).outside = m.outside.request Engine.absent r := by
  cases r with
  | close =>
    simp only [request, close, outside, Conn.close_absent E m.conn m.engine h]
    split <;> rfl
  | setDeadline scope deadline =>
    cases scope with
    | both => rfl
    | one direction => cases direction <;> rfl
  | remoteAddr => simp [request, Conn.remoteAddr, outside, Step.outside, h]
  | localAddr => simp [request, Conn.ownAddr, outside, Step.outside, h]
  | stats => rfl
  | phase => rfl
  | buffered => rfl

theorem outside_upcall (m : Monitor σ) (u : Upcall) : (m.upcall u).outside = m.outside.upcall u := by
  cases u with
  | error code =>
    simp only [upcall, fail, outside]
    split <;> rfl
  | _ => rfl

theorem thread?_outside (m : Monitor σ) (id : Nat) : m.outside.thread? id = m.thread? id := rfl

theorem map_outside_step (h : m.conn.attached = false) (E : Engine σ) (now : Instant) (a : Action)
    : (m.step E now a).map Step.outside = m.outside.step Engine.absent now a := by
  cases a with
  | enter id call =>
    simp only [step, enter, thread?_outside]
    cases m.thread? id <;> rfl
  | run id =>
    simp only [step, run, thread?_outside]
    cases m.thread? id with
    | none => rfl
    | some t =>
      have hmay : m.outside.mayRun t = m.mayRun t := rfl
      simp only [hmay, ← outside_round (E := E) h]
      split <;> rfl
  | stir id =>
    simp only [step, stir, thread?_outside]
    cases m.thread? id with
    | none => rfl
    | some t =>
      dsimp only
      split <;> rfl
  | request r =>
    simp only [step]
    rw [map_outside_locked, outside_request h]
  | upcall u =>
    simp only [step]
    rw [map_outside_locked, outside_upcall]
  | alarm => exact map_outside_locked m _
  | grant n => rfl

theorem detached_of_step (hholds : m.conn.HoldsEngine) (h : m.conn.attached = false)
    (hs : m.step E now a = some s)
    : s.monitor.conn.attached = false := by
  rw [← Bool.not_eq_true] at h ⊢
  intro hattached
  obtain ⟨hdestroyed, hclosed⟩ := (holdsEngine_of_step hholds hs).1 hattached
  have hfollows := follows_of_step hs
  apply h
  apply hholds.2
  rw [← Bool.not_eq_true] at hdestroyed hclosed
  rw [hfollows.destroyed] at hdestroyed
  rw [hfollows.closed] at hclosed
  rw [← Bool.not_eq_true, ← Bool.not_eq_true]
  exact ⟨fun hold => hdestroyed (Or.inl hold), fun hold => hclosed (Or.inl hold)⟩

theorem map_outside_replay (moves : List (Instant × Action)) (hholds : m.conn.HoldsEngine)
    (h : m.conn.attached = false)
    : (m.replay E moves).map (fun r => (r.1.map Moment.outside, r.2.outside)) =
        m.outside.replay Engine.absent moves := by
  induction moves generalizing m with
  | nil => rfl
  | cons move moves ih =>
    obtain ⟨now, a⟩ := move
    unfold replay
    rw [← map_outside_step h E now a]
    cases hs : m.step E now a with
    | none => rfl
    | some s =>
      dsimp only [Option.map_some]
      have hrest := ih (holdsEngine_of_step hholds hs) (detached_of_step hholds h hs)
      have hmonitor : s.outside.monitor = s.monitor.outside := rfl
      rw [hmonitor, ← hrest]
      cases s.monitor.replay E moves <;> rfl

theorem map_outside_replay_congr {m' : Monitor σ} (hholds : m.conn.HoldsEngine) (houtside : m'.outside = m.outside)
    (hengine : m.conn.attached = true → m'.engine = m.engine) (moves : List (Instant × Action))
    : (m'.replay E moves).map (fun r => (r.1.map Moment.outside, r.2.outside)) =
        (m.replay E moves).map (fun r => (r.1.map Moment.outside, r.2.outside)) := by
  have hlabel : m'.outside.label = m.outside.label := by rw [houtside]
  have hconn : m'.outside.conn = m.outside.conn := by rw [houtside]
  have hthreads : m'.outside.threads = m.outside.threads := by rw [houtside]
  change m'.conn = m.conn at hconn
  cases hattached : m.conn.attached with
  | true =>
    have hsame : m' = m := Monitor.ext hlabel hconn (hengine hattached) hthreads
    rw [hsame]
  | false =>
    have hattached' : m'.conn.attached = false := by rw [hconn, hattached]
    have hholds' : m'.conn.HoldsEngine := by
      rw [hconn]
      exact hholds
    rw [map_outside_replay moves hholds hattached, map_outside_replay moves hholds' hattached', houtside]

end Monitor

end BlockingStream

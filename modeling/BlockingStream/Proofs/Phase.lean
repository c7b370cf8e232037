import BlockingStream.Proofs.Handle
import BlockingStream.Proofs.Inbound

/-!
This module contains the progress of a connection: no step takes back a fact, so that its phase, the failure it
keeps and its counters only ever move forward. The phase ranks the facts in the same way as the error of a write
does.
-/

namespace BlockingStream

namespace Conn

variable {c c' c'' : Conn} {a : Action} {now : Instant} {deadline : Option Instant} {code : EngineCode}

/--
Every fact that holds before holds after, and the failure is the same.
-/
structure Advances (c c' : Conn) : Prop where
  connected : c.connected = true → c'.connected = true
  eof : c.eof = true → c'.eof = true
  destroyed : c.destroyed = true → c'.destroyed = true
  closed : c.closed = true → c'.closed = true
  failure (code : EngineCode) : c.failure = some code → c'.failure = some code

theorem Advances.refl (c : Conn) : Advances c c :=
  ⟨id, id, id, id, fun _ => id⟩

theorem Advances.trans (h : Advances c c') (h' : Advances c' c'') : Advances c c'' where
  connected hc := h'.connected (h.connected hc)
  eof hc := h'.eof (h.eof hc)
  destroyed hc := h'.destroyed (h.destroyed hc)
  closed hc := h'.closed (h.closed hc)
  failure code hc := h'.failure code (h.failure code hc)

theorem Follows.advances (h : Follows a c c') : Advances c c' where
  connected hc := h.connected.2 (Or.inl hc)
  eof hc := h.eof.2 (Or.inl hc)
  destroyed hc := h.destroyed.2 (Or.inl hc)
  closed hc := h.closed.2 (Or.inl hc)
  failure code hc := by
    rw [h.failure, hc]
    rfl

theorem le_rank_phase (c : Conn)
    : (c.connected = true → 1 ≤ c.phase.rank) ∧ (c.eof = true → 2 ≤ c.phase.rank) ∧
      (c.closed = true → 3 ≤ c.phase.rank) ∧ (c.destroyed = true → 4 ≤ c.phase.rank) ∧
      (c.failure.isSome = true → 5 ≤ c.phase.rank) := by
  unfold phase
  repeat' split
  all_goals simp_all [Phase.rank]

theorem Advances.rank_phase_le (h : Advances c c') : c.phase.rank ≤ c'.phase.rank := by
  obtain ⟨connected, eof, closed, destroyed, failure⟩ := c'.le_rank_phase
  -- the fact that weighs most before is still there
  rw [phase.eq_def c]
  split
  . next hfailure =>
    obtain ⟨code, hcode⟩ := Option.isSome_iff_exists.1 hfailure
    apply failure
    rw [h.failure code hcode]
    rfl
  . split
    . next hdestroyed => exact destroyed (h.destroyed hdestroyed)
    . split
      . next hclosed => exact closed (h.closed hclosed)
      . split
        . next heof => exact eof (h.eof heof)
        . split
          . next hconnected => exact connected (h.connected hconnected)
          . exact Nat.zero_le _

theorem commonError_eq_engine_iff : c.commonError deadline now = some (.engine code) ↔ c.failure = some code := by
  unfold commonError
  cases c.failure <;> cases c.destroyed <;> cases c.closed <;> cases deadlinePassed deadline now <;> simp

theorem phase_eq_errored_iff : c.phase = .errored ↔ ∃ code, c.commonError deadline now = some (.engine code) := by
  simp only [commonError_eq_engine_iff, ← Option.isSome_iff_exists]
  unfold phase
  repeat' split
  all_goals simp_all

theorem phase_eq_destroyed_iff : c.phase = .destroyed ↔ c.commonError deadline now = some .destroyed := by
  unfold phase commonError
  repeat' split
  all_goals simp_all

theorem phase_eq_closed_iff : c.phase = .closed ↔ c.commonError deadline now = some .closed := by
  unfold phase commonError
  repeat' split
  all_goals simp_all

theorem commonError_of_not_terminal (h : c.phase.isTerminal = false)
    : c.commonError deadline now = none ∨ c.commonError deadline now = some .deadlineExceeded := by
  unfold phase at h
  unfold commonError
  repeat' split
  all_goals simp_all [Phase.isTerminal]

end Conn

namespace Monitor

variable {σ : Type} {E : Engine σ} {start m : Monitor σ} {trace : List (Moment σ)} {now : Instant} {a : Action}
  {s : Step σ} {id : Nat} {label : String} {engine : σ}

theorem Run.advances (run : Run E start trace m) : start.conn.Advances m.conn := by
  induction run with
  | nil => exact .refl _
  | snoc _ h ih => exact ih.trans (follows_of_step h).advances

theorem written_of_step (hmax : m.conn.bytesWritten ≤ maxCount) (h : m.step E now a = some s)
    : ∃ n, s.monitor.conn.bytesWritten = countUp m.conn.bytesWritten n := by
  have hsame : m.conn.bytesWritten = countUp m.conn.bytesWritten 0 := (countUp_zero hmax).symm
  cases a with
  | enter id call =>
    obtain ⟨_, rfl⟩ := of_enter_eq_some h
    exact ⟨0, hsame⟩
  | run id =>
    obtain ⟨t, _, _, rfl⟩ := of_run_eq_some h
    change ∃ n, (m.round E now t).conn.bytesWritten = _
    cases hcall : t.call with
    | awaitConnect =>
      rw [round_of_connect hcall]
      exact ⟨0, hsame⟩
    | readInto buffer =>
      rw [round_of_read hcall, (readRound_cases E now m t buffer.length).1]
      exact ⟨0, hsame⟩
    | write data =>
      rw [round_of_write hcall]
      rcases conn_writeRound E now m t with hconn | ⟨n, hconn⟩
      . rw [hconn]
        exact ⟨0, hsame⟩
      . rw [hconn]
        exact ⟨n, rfl⟩
  | stir id =>
    obtain ⟨_, _, _, rfl⟩ := of_stir_eq_some h
    exact ⟨0, hsame⟩
  | request r =>
    obtain ⟨_, rfl⟩ := of_locked_eq_some h
    exact ⟨0, (counters_request E m r).2.2.trans hsame⟩
  | upcall u =>
    obtain ⟨_, rfl⟩ := of_locked_eq_some h
    exact ⟨0, (counters_upcall m u).2.2.trans hsame⟩
  | alarm =>
    obtain ⟨_, rfl⟩ := of_locked_eq_some h
    exact ⟨0, hsame⟩
  | grant n =>
    cases h
    exact ⟨0, hsame⟩

def Counted (m : Monitor σ) : Prop := m.conn.bytesRead ≤ maxCount ∧ m.conn.bytesWritten ≤ maxCount

theorem counters_of_step (hcounted : m.Counted) (h : m.step E now a = some s)
    : s.monitor.Counted ∧ m.conn.bytesRead ≤ s.monitor.conn.bytesRead ∧
      m.conn.bytesWritten ≤ s.monitor.conn.bytesWritten := by
  have hread := (step_conserves hcounted.1 h).2
  obtain ⟨n, hwritten⟩ := written_of_step hcounted.2 h
  unfold Counted
  rw [hread, hwritten]
  refine ⟨⟨?_, ?_⟩, ?_, ?_⟩
  . apply countUp_le_maxCount
  . apply countUp_le_maxCount
  . apply le_countUp hcounted.1
  . apply le_countUp hcounted.2

theorem Run.counted (run : Run E (init E label engine) trace m) : m.Counted :=
  run.invariant ⟨Nat.zero_le _, Nat.zero_le _⟩ fun hcounted h => (counters_of_step hcounted h).1

theorem lockFree_append (hfree : m.lockFree = true) {t : Thread} (ht : t.isHolding = false)
    : lockFree { m with threads := m.threads ++ [t] } = true := by
  unfold lockFree at *
  dsimp only
  rw [List.all_append, hfree]
  simp [ht]

theorem replay_write_nothing (E : Engine σ) (now : Instant) (hid : m.thread? id = none) (hfree : m.lockFree = true)
    : ∃ more m' t, m.replay E [(now, .enter id (.write [])), (now, .run id)] = some (more, m') ∧
        m'.thread? id = some t ∧ t.outcome? = some (.write ⟨0, m.conn.writeError now⟩) := by
  have henter : m.step E now (.enter id (.write [])) =
      some { monitor := { m with threads := m.threads ++ [Thread.enter id (.write [])] } } := by
    simp [step, enter, hid]
  have hthread : thread? { m with threads := m.threads ++ [Thread.enter id (.write [])] } id =
      some (Thread.enter id (.write [])) := by
    simp [thread?_append, hid]
  have hmay : mayRun { m with threads := m.threads ++ [Thread.enter id (.write [])] }
      (Thread.enter id (.write [])) = true := by
    rw [mayRun, lockFree_append hfree rfl]
    rfl
  obtain ⟨s, hs, ht, _⟩ := step_of_mayRun E now hthread hmay
  have hreplay : ∃ more, m.replay E [(now, .enter id (.write [])), (now, .run id)] = some (more, s.monitor) := by
    simp [replay, henter, hs]
  obtain ⟨more, hmore⟩ := hreplay
  exact ⟨more, s.monitor, _, hmore, ht, rfl⟩

/--
No step lowers the phase, changes or loses the failure, or lowers a counter. At any time the phase is errored,
destroyed or closed exactly if a write reports so, and in each other phase only a deadline can stop a write. An
attempt to write finds the same error for all data, and a write of nothing returns it at once.
-/
theorem Run.phase_advances (run : Run E (init E label engine) trace m)
    : (∀ x ∈ trace,
        x.before.conn.phase.rank ≤ x.after.conn.phase.rank ∧
        (∀ code, x.before.conn.failure = some code → x.after.conn.failure = some code) ∧
        x.before.conn.bytesRead ≤ x.after.conn.bytesRead ∧
        x.before.conn.bytesWritten ≤ x.after.conn.bytesWritten) ∧
      ∀ now,
        (m.conn.phase = .errored ↔ ∃ code, m.conn.writeError now = some (.engine code)) ∧
        (∀ code, m.conn.writeError now = some (.engine code) ↔ m.conn.failure = some code) ∧
        (m.conn.phase = .destroyed ↔ m.conn.writeError now = some .destroyed) ∧
        (m.conn.phase = .closed ↔ m.conn.writeError now = some .closed) ∧
        (m.conn.phase.isTerminal = false →
          m.conn.writeError now = none ∨ m.conn.writeError now = some .deadlineExceeded) ∧
        (∀ data s, (m.conn.offer E data now s).1.error? = m.conn.writeError now) ∧
        ∀ id, m.thread? id = none → m.lockFree = true →
          ∃ more m' t, m.replay E [(now, .enter id (.write [])), (now, .run id)] = some (more, m') ∧
            m'.thread? id = some t ∧ t.outcome? = some (.write ⟨0, m.conn.writeError now⟩) := by
  constructor
  . intro x hx
    obtain ⟨before, after, rfl⟩ := List.append_of_mem hx
    obtain ⟨hbefore, h, _⟩ := run.of_split
    have hadvances := (follows_of_step h).advances
    exact ⟨hadvances.rank_phase_le, hadvances.failure, (counters_of_step hbefore.counted h).2⟩
  . intro now
    refine ⟨?_, ?_, ?_, ?_, ?_, ?_, ?_⟩
    . exact Conn.phase_eq_errored_iff
    . intro code
      exact Conn.commonError_eq_engine_iff
    . exact Conn.phase_eq_destroyed_iff
    . exact Conn.phase_eq_closed_iff
    . exact Conn.commonError_of_not_terminal
    . intro data s
      exact run.holdsEngine.error?_offer E data now s
    . intro id hid hfree
      exact replay_write_nothing E now hid hfree

/--
The connection is closed, destroyed and fails twice, of which the second failure is refused. A writer that was
asleep returns, and both deadlines have passed.
-/
theorem errored_phase_advances
    : ∃ trace m, Run Metered.engine (init Metered.engine "a" { credit := some 0 }) trace m ∧
        (∀ x ∈ trace, x.before.conn.phase.rank ≤ x.after.conn.phase.rank) ∧
        m.conn.failure = some ⟨"ECONNRESET"⟩ ∧
        (m.conn.writeError 9 = some (.engine ⟨"ECONNRESET"⟩) ↔ m.conn.failure = some ⟨"ECONNRESET"⟩) ∧
        ∃ more m' t,
          m.replay Metered.engine [(9, .enter 1 (.write [])), (9, .run 1)] = some (more, m') ∧
          m'.thread? 1 = some t ∧ t.outcome? = some (.write ⟨0, m.conn.writeError 9⟩) := by
  have run : Run Metered.engine (init Metered.engine "a" { credit := some 0 }) _ _ := Run.of_replay
    [(0, .upcall .connected), (0, .enter 0 (.write [7])), (0, .run 0), (1, .upcall .eof),
      (2, .request (.setDeadline .both (some 5))), (3, .request .close), (4, .upcall .destroyed),
      (5, .upcall (.error ⟨"ECONNRESET"⟩)), (6, .upcall (.error ⟨"EPIPE"⟩)), (7, .run 0)] rfl
  obtain ⟨hsteps, hagree⟩ := Run.phase_advances run
  obtain ⟨_, hengine, _, _, _, _, hnothing⟩ := hagree 9
  exact ⟨_, _, run, fun x hx => (hsteps x hx).1, rfl, hengine ⟨"ECONNRESET"⟩, hnothing 1 rfl rfl⟩

end Monitor

end BlockingStream

import BlockingStream.Proofs.History
import BlockingStream.Proofs.Inbound
import BlockingStream.Proofs.Lifetime
import BlockingStream.Engine.Metered

/-!
This module contains the proof that the past of a connection decides what a read reports: the bytes are those
that fit from the input that is left, and the error is the one that weighs most of all that has happened. The
call returns with its first attempt that comes to anything, and sleeps after the others.
-/

namespace BlockingStream

namespace Monitor

variable {σ : Type} {E : Engine σ} {start m : Monitor σ} {trace : List (Moment σ)} {t : Thread} {now : Instant}
  {s : Step σ} {id : Nat} {buffer : Bytes}

theorem readRound_idle (hcall : t.call = .readInto buffer) (h : (m.round E now t).thread.outcome? = none)
    : buffer.length ≠ 0 ∧ (m.conn.read E buffer.length now m.engine).1 = ⟨[], none⟩ := by
  rw [round_of_read hcall, (readRound_cases E now m t buffer.length).2.2] at h
  dsimp only at h
  split at h
  . next hidle =>
    refine ⟨hidle.2.1, ?_⟩
    rw [← hidle.1, ← hidle.2.2]
  . contradiction

theorem Run.idle_so_far (run : Run E start trace m) (ht : m.thread? id = some t) (hcall : t.call = .readInto buffer)
    (hunderway : t.outcome? = none)
    : ∀ x ∈ trace, x.action = .run id →
        buffer.length ≠ 0 ∧ (x.before.conn.read E buffer.length x.now x.before.engine).1 = ⟨[], none⟩ := by
  induction run generalizing t with
  | nil =>
    intro x hx
    contradiction
  | snoc run h ih =>
    intro x hx hran
    rcases of_thread?_step h ht with ⟨rfl, u, hu, hmay, rfl, _⟩ | ⟨hother, hnone, _⟩ | ⟨hother, u, hu, hstays⟩
    . rw [call_round] at hcall
      rcases List.mem_append.1 hx with hx | hx
      . exact ih hu hcall (outcome?_of_mayRun hmay) x hx hran
      . rw [List.mem_singleton.1 hx]
        exact readRound_idle hcall hunderway
    . -- it has just entered, and made no attempt yet
      rcases List.mem_append.1 hx with hx | hx
      . exact absurd hran (run.not_ran hnone x hx)
      . rw [List.mem_singleton.1 hx] at hran
        exact absurd hran hother
    . rcases List.mem_append.1 hx with hx | hx
      . exact ih hu (hstays.call.symm.trans hcall) (hstays.outcome?.symm.trans hunderway) x hx hran
      . rw [List.mem_singleton.1 hx] at hran
        exact absurd hran hother

theorem step_read (E : Engine σ) (now : Instant) (ht : m.thread? id = some t) (hcall : t.call = .readInto buffer)
    (hmay : m.mayRun t = true)
    : let r := m.conn.read E buffer.length now m.engine
      ∃ s, m.step E now (.run id) = some s ∧ s.monitor.conn = r.2.1 ∧
        s.monitor.thread? id = some
          { t with
            buffer := r.1.fill t.buffer
            status :=
              if r.1.data = [] ∧ buffer.length ≠ 0 ∧ r.1.error = none then .asleep else .returned (.read r.1) } := by
  obtain ⟨hconn, _, hthread⟩ := readRound_cases E now m t buffer.length
  rw [← round_of_read hcall] at hconn hthread
  obtain ⟨s, hs, ht', hconn', _⟩ := step_of_mayRun E now ht hmay
  refine ⟨s, hs, ?_⟩
  rw [hconn', ht', hconn, hthread]
  exact ⟨rfl, rfl⟩

/--
An attempt to read takes what fits of the input that is left, and reports what weighs most of all that has
happened so far, where the end of the stream counts only if the attempt leaves nothing to read. A call whose attempts
have all come to nothing returns with what this one yields, and sleeps if that is nothing either.
-/
theorem Run.read_determined {label : String} {engine : σ} (run : Run E (init E label engine) trace m)
    (buffer : Bytes) (now : Instant)
    : let r := m.conn.read E buffer.length now m.engine
      r.1.data = m.conn.inbound.take buffer.length ∧
      r.1.data.length = min buffer.length m.conn.inbound.length ∧
      r.2.1.inbound = m.conn.inbound.drop buffer.length ∧
      r.1.error = (history trace).readError (m.conn.inbound.length - buffer.length) now ∧
      ∀ id t, m.thread? id = some t → t.call = .readInto buffer → m.mayRun t = true →
        (∀ x ∈ trace, x.action = .run id →
          buffer.length ≠ 0 ∧ (x.before.conn.read E buffer.length x.now x.before.engine).1 = ⟨[], none⟩) ∧
        ∃ s, m.step E now (.run id) = some s ∧ s.monitor.conn = r.2.1 ∧
          s.monitor.thread? id = some
            { t with
              buffer := r.1.fill buffer
              status :=
                if r.1.data = [] ∧ buffer.length ≠ 0 ∧ r.1.error = none then .asleep
                else .returned (.read r.1) } := by
  intro r
  have hleft : r.2.1.inbound = m.conn.inbound.drop buffer.length := rfl
  have hreflects := run.reflects.congr (Conn.calm_read E buffer.length now m.conn m.engine)
  have herror : r.1.error = (history trace).readError r.2.1.inbound.length now := hreflects.readError now
  rw [hleft, List.length_drop] at herror
  refine ⟨rfl, Conn.length_read_data E buffer.length now m.conn m.engine, hleft, herror, ?_⟩
  intro id t ht hcall hmay
  refine ⟨run.idle_so_far ht hcall (outcome?_of_mayRun hmay), ?_⟩
  have hstep := step_read E now ht hcall hmay
  rw [run.untouched ht hcall (outcome?_of_mayRun hmay)] at hstep
  exact hstep

/--
Two readers have slept once. Since then the engine has failed twice, the connection was closed and destroyed, its
deadline has passed, and the stream has ended. The reader that leaves a byte behind reports the first failure, and
the other one, which gets all that is left, the end of the stream.
-/
theorem last_bytes_determined
    : ∃ trace m t u, Run Metered.engine (init Metered.engine "a" {}) trace m ∧
        m.thread? 0 = some t ∧ t.call = .readInto [9, 9] ∧ m.mayRun t = true ∧
        m.thread? 1 = some u ∧ u.call = .readInto [9, 9, 9, 9] ∧ m.mayRun u = true ∧
        (∃ s, m.step Metered.engine 5 (.run 0) = some s ∧ s.monitor.conn.inbound = [3] ∧
          s.monitor.thread? 0 = some
            { t with
              buffer := [1, 2], status := .returned (.read ⟨[1, 2], some (.engine ⟨"ETIMEDOUT"⟩)⟩) }) ∧
        ∃ s, m.step Metered.engine 5 (.run 1) = some s ∧ s.monitor.conn.inbound = [] ∧
          s.monitor.thread? 1 = some
            { u with buffer := [1, 2, 3, 9], status := .returned (.read ⟨[1, 2, 3], some .endOfStream⟩) } := by
  have run : Run Metered.engine (init Metered.engine "a" {}) _ _ := Run.of_replay
    [(0, .enter 0 (.readInto [9, 9])), (0, .run 0), (0, .enter 1 (.readInto [9, 9, 9, 9])), (0, .run 1),
      (1, .request .close), (1, .upcall (.error ⟨"ETIMEDOUT"⟩)), (2, .upcall (.error ⟨"ECONNRESET"⟩)),
      (2, .upcall .destroyed), (3, .upcall .eof), (3, .request (.setDeadline .both (some 9))),
      (4, .request (.setDeadline (.one .reading) (some 5))), (4, .upcall (.data [1, 2, 3]))] rfl
  have part := Run.read_determined run [9, 9] 5
  have all := Run.read_determined run [9, 9, 9, 9] 5
  obtain ⟨_, s, hs, hconn, ht⟩ := part.2.2.2.2 0 _ rfl rfl rfl
  obtain ⟨_, s', hs', hconn', ht'⟩ := all.2.2.2.2 1 _ rfl rfl rfl
  exact ⟨_, _, _, _, run, rfl, rfl, rfl, rfl, rfl, rfl, ⟨s, hs, by rw [hconn]; rfl, ht⟩,
    s', hs', by rw [hconn']; rfl, ht'⟩

end Monitor

end BlockingStream

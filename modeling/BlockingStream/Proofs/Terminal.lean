import BlockingStream.Proofs.Phase
import BlockingStream.Proofs.Wakeup
import BlockingStream.Proofs.WriteOutcome

/-!
This module contains what a terminal error means for all that comes after it. A write that fails with one spells
the end of all writing. A read that fails with one does so for later reads only as far as the error is not the end
of the stream, which input that arrives late takes back until it is read as well.
-/

namespace BlockingStream

/--
The error ends a write for good, and weighs as much as another one at least.
-/
structure StreamError.Supersedes (e' e : StreamError) : Prop where
  terminal : e'.isTerminal = true
  ne_endOfStream : e' ≠ .endOfStream
  rank_le : e.rank ≤ e'.rank

namespace Conn

variable {c c' : Conn} {deadline : Option Instant} {now : Instant} {e : StreamError}

def lastingError (c : Conn) : Option StreamError := c.commonError none 0

theorem commonError_eq (c : Conn) (deadline : Option Instant) (now : Instant)
    : c.commonError deadline now =
      c.lastingError.or (if deadlinePassed deadline now then some .deadlineExceeded else none) := by
  unfold lastingError commonError
  cases c.failure <;> cases c.destroyed <;> cases c.closed <;> simp

theorem commonError_of_lastingError (h : c.lastingError = some e) : c.commonError deadline now = some e := by
  rw [commonError_eq, h]
  rfl

theorem lastingError_of_commonError (h : c.commonError deadline now = some e) (hterminal : e.isTerminal = true)
    : c.lastingError = some e := by
  rw [commonError_eq] at h
  cases hlasting : c.lastingError with
  | some e' =>
    rw [hlasting] at h
    exact h
  | none =>
    -- only a deadline is left, and that is not terminal
    rw [hlasting, Option.none_or] at h
    split at h
    . cases h
      contradiction
    . contradiction

theorem lastingError_cases (c : Conn)
    : (∃ e, c.lastingError = some e ∧ e.Supersedes e ∧ c.phase.rank = e.rank + 2) ∨
      (c.lastingError = none ∧ c.phase.rank ≤ 2) := by
  unfold lastingError commonError phase
  cases c.failure with
  | some code => exact Or.inl ⟨_, rfl, ⟨rfl, by simp, Nat.le_refl _⟩, rfl⟩
  | none =>
    cases c.destroyed with
    | true => exact Or.inl ⟨_, rfl, ⟨rfl, by simp, Nat.le_refl _⟩, rfl⟩
    | false =>
      cases c.closed with
      | true => exact Or.inl ⟨_, rfl, ⟨rfl, by simp, Nat.le_refl _⟩, rfl⟩
      | false =>
        right
        refine ⟨rfl, ?_⟩
        cases c.eof <;> cases c.connected <;> decide

theorem lastingError_eq_none_iff
    : c.lastingError = none ↔ c.failure = none ∧ c.destroyed = false ∧ c.closed = false := by
  simp [lastingError, commonError_eq_none_iff]

theorem Advances.lastingError (h : Advances c c') (he : c.lastingError = some e)
    : ∃ e', c'.lastingError = some e' ∧ e'.Supersedes e := by
  have hrank := h.rank_phase_le
  rcases c.lastingError_cases with ⟨e₀, he₀, hself₀, hphase⟩ | ⟨hnone, _⟩
  . rw [he] at he₀
    cases he₀
    rcases c'.lastingError_cases with ⟨e', he', hself, hphase'⟩ | ⟨_, hphase'⟩
    . exact ⟨e', he', hself.terminal, hself.ne_endOfStream, by omega⟩
    . have := e.isTerminal_iff_rank_pos.1 hself₀.terminal
      omega
  . rw [he] at hnone
    contradiction

theorem rank_lt_of_commonError (h : c.commonError deadline now = some e) : e.rank < StreamError.endOfStream.rank := by
  unfold commonError at h
  repeat' split at h
  all_goals cases h
  all_goals simp [StreamError.rank]

theorem readError_cases (c : Conn) (now : Instant)
    : (c.eof = true ∧ c.inbound = [] ∧ c.readError now = some .endOfStream) ∨
      (¬ (c.eof = true ∧ c.inbound = []) ∧ c.readError now = c.commonError c.readDeadline now) := by
  by_cases h : c.eof = true ∧ c.inbound = []
  . left
    refine ⟨h.1, h.2, ?_⟩
    simp [readError, h.1, h.2]
  . right
    refine ⟨h, ?_⟩
    simp only [readError, Bool.and_eq_true, List.isEmpty_iff, h, if_false]

theorem Advances.readError_iff {now' : Instant} (h : Advances c c') (he : c.readError now = some e)
    (hterminal : e.isTerminal = true)
    : (∃ e', c'.readError now' = some e' ∧ e.rank ≤ e'.rank) ↔ (e = .endOfStream → c'.inbound = []) := by
  rcases c.readError_cases now with ⟨heof, _, hend⟩ | ⟨_, hcommon⟩
  . rw [hend] at he
    cases he
    rw [eq_self, true_implies]
    rcases c'.readError_cases now' with ⟨_, hread', hend'⟩ | ⟨hmore, hcommon'⟩
    . exact iff_of_true ⟨_, hend', Nat.le_refl _⟩ hread'
    . -- no other error weighs as much
      refine iff_of_false ?_ fun hread' => hmore ⟨h.eof heof, hread'⟩
      rintro ⟨e', he', hrank⟩
      rw [hcommon'] at he'
      have := rank_lt_of_commonError he'
      omega
  . rw [hcommon] at he
    have hrank := rank_lt_of_commonError he
    have hne : e ≠ .endOfStream := by
      rintro rfl
      omega
    refine iff_of_true ?_ fun heq => absurd heq hne
    rcases c'.readError_cases now' with ⟨_, _, hend'⟩ | ⟨_, hcommon'⟩
    . exact ⟨_, hend', Nat.le_of_lt hrank⟩
    . obtain ⟨e', he', hsupersedes⟩ := h.lastingError (lastingError_of_commonError he hterminal)
      rw [hcommon', commonError_of_lastingError he']
      exact ⟨e', rfl, hsupersedes.rank_le⟩

end Conn

/--
What an attempt to read yields, whether or not the call returns with it.
-/
def Moment.attempt? {σ : Type} (E : Engine σ) (x : Moment σ) : Option Conn.Delivery :=
  match x.call? with
  | some (.readInto buffer) => some (x.before.conn.read E buffer.length x.now x.before.engine).1
  | _ => none

namespace Monitor

section

variable {σ : Type} {E : Engine σ} {start m : Monitor σ} {before mid after trace : List (Moment σ)} {x y : Moment σ}
  {d d' : Conn.Delivery} {e : StreamError} {label : String} {engine : σ}

theorem attempt_of_step (h : x.before.step E x.now x.action = some x.step) (hx : x.attempt? E = some d)
    : d.error = x.after.conn.readError x.now ∧ x.payload = [] ∧
        (d.error ≠ none → x.outcome? = some (.read d)) := by
  unfold Moment.attempt? at hx
  split at hx
  . next buffer hcall =>
    cases hx
    obtain ⟨id, t, hran, ht, hread⟩ := Moment.of_call?_eq_some hcall
    obtain ⟨m, now, a, s⟩ := x
    dsimp only at hran h ht ⊢
    subst hran
    refine ⟨?_, rfl, ?_⟩
    . rw [Moment.after, (read_run ht hread h).1]
      rfl
    . intro herror
      rw [outcome?_run ht h, round_of_read hread, (readRound_cases E now m t buffer.length).2.2]
      dsimp only
      rw [if_neg fun hidle => herror hidle.2.2]
      rfl
  . contradiction

/--
A read that comes after a terminal error of an earlier one reports the same error or one that weighs more, unless
that was the end of the stream: then it does so exactly if it leaves nothing to read of all that has arrived since.
-/
theorem Run.read_error_sticks_iff (run : Run E (init E label engine) (before ++ x :: (mid ++ y :: after)) m)
    (hx : x.attempt? E = some d) (hy : y.attempt? E = some d') (he : d.error = some e) (hterminal : e.isTerminal = true)
    : x.outcome? = some (.read d) ∧
      ((∃ e', d'.error = some e' ∧ e.rank ≤ e'.rank) ↔
        (e = .endOfStream → delivered (mid ++ [y]) = arrived mid)) := by
  obtain ⟨hbefore, h, hrest⟩ := run.of_split
  obtain ⟨hmid, h', _⟩ := hrest.of_split
  obtain ⟨herror, _, hreturns⟩ := attempt_of_step h hx
  obtain ⟨herror', hpayload, _⟩ := attempt_of_step h' hy
  have hsince : Run E x.after (mid ++ [y]) y.after := hmid.snoc h'
  rw [he] at herror
  refine ⟨hreturns (by simp [he]), ?_⟩
  rw [herror', hsince.advances.readError_iff herror.symm hterminal]
  apply forall_congr'
  rintro rfl
  -- nothing was left to read at the first error
  have hread : x.after.conn.inbound = [] := by
    rcases x.after.conn.readError_cases x.now with ⟨_, hread, _⟩ | ⟨_, hcommon⟩
    . exact hread
    . rw [hcommon] at herror
      exact absurd (Conn.rank_lt_of_commonError herror.symm) (Nat.lt_irrefl _)
  have hconserves := (hsince.conserves_since (hbefore.snoc h).counted.1).1
  rw [hread, List.nil_append, arrived_snoc, hpayload, List.append_nil] at hconserves
  rw [← hconserves, List.self_eq_append_right]

/--
The end of the stream was reported, but a byte that arrives after that is read without any error.
-/
theorem late_input_lifts_endOfStream
    : ∃ before x mid y m, Run Metered.engine (init Metered.engine "a" {}) (before ++ x :: (mid ++ [y])) m ∧
        x.attempt? Metered.engine = some ⟨[], some .endOfStream⟩ ∧ StreamError.endOfStream.isTerminal = true ∧
        y.attempt? Metered.engine = some ⟨[1], none⟩ := by
  have run : Run Metered.engine (init Metered.engine "a" {}) ([_, _] ++ _ :: ([_, _] ++ [_])) _ := Run.of_replay
    [(0, .upcall .eof), (0, .enter 0 (.read 1)), (0, .run 0), (0, .upcall (.data [1, 2])), (0, .enter 1 (.read 1)),
      (0, .run 1)] rfl
  exact ⟨_, _, _, _, _, run, rfl, rfl, rfl⟩

/--
A late byte is read together with the end of the stream, which is reported again although the connection has been
closed.
-/
theorem endOfStream_sticks
    : ∃ before x mid y m, Run Metered.engine (init Metered.engine "a" {}) (before ++ x :: (mid ++ [y])) m ∧
        x.outcome? = some (.read ⟨[7], some .endOfStream⟩) ∧ delivered (mid ++ [y]) = arrived mid ∧
        ∃ d', y.attempt? Metered.engine = some d' ∧ d'.data = [8] ∧
          ∃ e', d'.error = some e' ∧ StreamError.endOfStream.rank ≤ e'.rank := by
  have run : Run Metered.engine (init Metered.engine "a" {}) ([_, _, _] ++ _ :: ([_, _, _] ++ [_])) _ := Run.of_replay
    [(0, .upcall (.data [7])), (0, .upcall .eof), (0, .enter 0 (.read 1)), (0, .run 0), (1, .upcall (.data [8])),
      (2, .request .close), (3, .enter 1 (.read 4)), (3, .run 1)] rfl
  obtain ⟨hreturned, hiff⟩ := Run.read_error_sticks_iff run rfl rfl rfl rfl
  exact ⟨_, _, _, _, _, run, hreturned, rfl, _, rfl, rfl, hiff.2 fun _ => rfl⟩

end

section

variable {σ : Type} {E : Engine σ} {start m : Monitor σ} {trace : List (Moment σ)} {t : Thread} {now : Instant}
  {a : Action} {s : Step σ} {id : Nat} {data : Bytes} {e : StreamError} {label : String} {engine : σ}

theorem Run.lastingError (run : Run E start trace m) (he : start.conn.lastingError = some e)
    : ∃ e', m.conn.lastingError = some e' ∧ e'.Supersedes e :=
  run.advances.lastingError he

theorem Run.awake_of_lastingError (run : Run E (init E label engine) trace m) (he : m.conn.lastingError = some e)
    (ht : t ∈ m.threads)
    : t.isAsleep = false := by
  rw [← Bool.not_eq_true]
  intro hasleep
  obtain ⟨hfailure, hdestroyed, hclosed, _⟩ := run.blocks (by simp [init]) t ht hasleep
  rw [Conn.lastingError_eq_none_iff.2 ⟨hfailure, hdestroyed, hclosed⟩] at he
  contradiction

theorem writeRound_of_lastingError (E : Engine σ) (now : Instant) (he : m.conn.lastingError = some e)
    : m.writeRound E now t = m.finishWrite t (some e) m.engine [] := by
  have herror : m.conn.writeError now = some e := Conn.commonError_of_lastingError he
  rcases writeRound_cases E now m t with ⟨error, _, rfl | ⟨hnone, _⟩, hround⟩ | ⟨_, hnone, _⟩
  . rw [hround, herror]
  . rw [herror] at hnone
    contradiction
  . rw [herror] at hnone
    contradiction

theorem outcome?_of_lastingError (he : m.conn.lastingError = some e) (h : m.step E now (.run id) = some s)
    (ht : m.thread? id = some t) (hcall : t.call = .write data)
    : (Moment.mk m now (.run id) s).outcome? = some (.write ⟨t.taken, some e⟩) := by
  rw [outcome?_run ht h, round_of_write hcall, writeRound_of_lastingError E now he]
  rfl

theorem lastingError_of_outcome? {k : Nat} (hholds : m.conn.HoldsEngine) (h : m.step E now (.run id) = some s)
    (ht : m.thread? id = some t) (hcall : t.call = .write data)
    (houtcome : (Moment.mk m now (.run id) s).outcome? = some (.write ⟨k, some e⟩)) (hterminal : e.isTerminal = true)
    : m.conn.lastingError = some e := by
  rw [outcome?_run ht h, round_of_write hcall] at houtcome
  rcases writeRound_cases E now m t with ⟨error, _, horigin, hround⟩ | ⟨_, _, _, hround⟩
  . rw [hround] at houtcome
    cases houtcome
    rcases horigin with herror | ⟨hnone, hattached, _⟩
    . exact Conn.lastingError_of_commonError herror.symm hterminal
    . -- an engine that is gone has left its mark
      rw [hholds.attached_of_writeError hnone] at hattached
      contradiction
  . -- whoever hands over all of it has no error to return
    rw [hround] at houtcome
    dsimp only at houtcome
    split at houtcome
    . cases houtcome
    . split at houtcome <;> contradiction

theorem completed_le_of_step (hdistinct : (m.threads.map Thread.id).Nodup) (h : m.step E now a = some s)
    : m.completed ≤ s.monitor.completed := by
  unfold completed
  cases a with
  | enter id call =>
    obtain ⟨_, rfl⟩ := of_enter_eq_some h
    rw [total_append]
    apply Nat.le_add_right
  | run id =>
    obtain ⟨t, ht, hmay, rfl⟩ := of_run_eq_some h
    have hzero := Thread.completed_of_outcome?_eq_none (outcome?_of_mayRun hmay)
    have hid : (m.round E now t).thread.id = t.id := id_round
    have hsum := total_setThread (m := { m with conn := (m.round E now t).conn, engine := (m.round E now t).engine })
      Thread.completed hdistinct (of_thread? ht).1 hid
    rw [hzero, Nat.add_zero] at hsum
    rw [hsum]
    apply Nat.le_add_right
  | stir id =>
    obtain ⟨t, ht, _, rfl⟩ := of_stir_eq_some h
    have hsum := total_setThread Thread.completed hdistinct (of_thread? ht).1 t.id_signal
    rw [Thread.completed_signal] at hsum
    exact Nat.le_of_eq (Nat.add_right_cancel hsum).symm
  | request r =>
    obtain ⟨_, rfl⟩ := of_locked_eq_some h
    have hsame : (m.request E r).monitor.total Thread.completed = m.total Thread.completed := by
      rcases monitor_request E m r with ⟨conn, engine, hm⟩ | ⟨conn, engine, _, hm⟩
      . rw [hm]
        exact total_broadcast Thread.completed_signal
      . rw [hm]
        rfl
    exact Nat.le_of_eq hsame.symm
  | upcall u =>
    obtain ⟨_, rfl⟩ := of_locked_eq_some h
    have hsame : (m.upcall u).monitor.total Thread.completed = m.total Thread.completed := by
      rcases monitor_upcall m u with ⟨conn, hm⟩ | hm
      . rw [hm]
        exact total_broadcast Thread.completed_signal
      . rw [hm]
    exact Nat.le_of_eq hsame.symm
  | alarm =>
    obtain ⟨_, rfl⟩ := of_locked_eq_some h
    exact Nat.le_of_eq (total_broadcast Thread.completed_signal).symm
  | grant n =>
    cases h
    apply Nat.le_refl

end

variable {σ : Type} {E : Engine σ} {start m : Monitor (σ × List EngineCall)}
  {before after trace : List (Moment (σ × List EngineCall))} {x : Moment (σ × List EngineCall)} {t : Thread}
  {now : Instant} {a : Action} {s : Step (σ × List EngineCall)} {id : Nat} {data : Bytes} {e : StreamError}
  {label : String} {engine : σ}

theorem Run.not_offered (run : Run E.recorded start trace m) (he : start.conn.lastingError = some e) (hx : x ∈ trace)
    (offered : Bytes) (reply : Nat)
    : .write offered reply ∉ x.calls := by
  intro hcall
  obtain ⟨before, after, rfl⟩ := List.append_of_mem hx
  obtain ⟨hbefore, h, _⟩ := run.of_split
  obtain ⟨e', he', _⟩ := hbefore.lastingError he
  obtain ⟨_, _, _, hnone⟩ := admits_of_mem_calls h hcall
  rw [Conn.writeError, Conn.commonError_of_lastingError he'] at hnone
  contradiction

theorem stream_eq_nil {calls : List EngineCall} (h : ∀ offered reply, .write offered reply ∉ calls)
    : EngineCall.stream calls = [] := by
  rw [EngineCall.stream, List.flatMap_eq_nil_iff]
  intro call hcall
  cases call with
  | write offered reply => exact absurd hcall (h offered reply)
  | _ => rfl

theorem handedBy_eq_zero (id : Nat) (h : ∀ x ∈ trace, ∀ offered reply, .write offered reply ∉ x.calls)
    : handedBy id trace = 0 := by
  have hstream : EngineCall.stream (callsBy id trace) = [] := by
    apply stream_eq_nil
    intro offered reply hcall
    obtain ⟨x, hx, hcall⟩ := List.mem_flatMap.1 hcall
    split at hcall
    . exact h x hx offered reply hcall
    . contradiction
  rw [handedBy, hstream]
  rfl

theorem Run.outbound_eq (run : Run E.recorded start trace m)
    (h : ∀ x ∈ trace, ∀ offered reply, .write offered reply ∉ x.calls)
    : m.outbound = start.outbound := by
  induction run with
  | nil => rfl
  | snoc _ hstep ih =>
    rw [← ih fun x hx => h x (List.mem_append_left _ hx)]
    have hnothing := stream_eq_nil (h _ (List.mem_append_right _ (List.mem_singleton_self _)))
    rw [outbound, engine_of_step hstep, EngineCall.stream_append, hnothing, List.append_nil]
    rfl

theorem Run.completed_le (run : Run E.recorded start trace m) (hstart : start.Balanced)
    : start.completed ≤ m.completed := by
  induction run with
  | nil => apply Nat.le_refl
  | snoc run h ih =>
    have hbalanced := run.invariant hstart Balanced.step
    exact Nat.le_trans ih (completed_le_of_step hbalanced.distinct h)

theorem Run.written_eq (run : Run E.recorded start trace m) (hstart : start.Balanced)
    (h : ∀ x ∈ trace, ∀ offered reply, .write offered reply ∉ x.calls)
    : m.underway ≤ start.underway ∧
      m.conn.bytesWritten = countUp start.conn.bytesWritten (start.underway - m.underway) := by
  -- without offers, only writes that were under way before can still be counted
  have hbalanced := run.invariant hstart Balanced.step
  have hbefore := hstart.completed_add_underway
  have hafter := hbalanced.completed_add_underway
  have hcompleted := run.completed_le hstart
  rw [run.outbound_eq h] at hafter
  have hsum : start.completed + (start.underway - m.underway) = m.completed := by omega
  refine ⟨by omega, ?_⟩
  rw [hbalanced.written, hstart.written, countUp_countUp, hsum]

theorem RecordedRun.exists_of_wrote {w : Transfer} (run : RecordedRun E label engine (before ++ x :: after) m)
    (hx : x.outcome? = some (.write w))
    : ∃ id t data, x.action = .run id ∧ x.before.thread? id = some t ∧ t.call = .write data := by
  obtain ⟨hbefore, h, _⟩ := Run.of_split run
  have hbalanced := RecordedRun.balanced (hbefore.snoc h)
  unfold Moment.outcome? at hx
  split at hx
  . next id hran =>
    rw [hran] at h
    obtain ⟨t, ht, _, _⟩ := of_run_eq_some h
    obtain ⟨t', ht', hcall'⟩ := call_of_step h ht
    rw [Moment.after, ht', Option.bind_some] at hx
    have haccounted := hbalanced.accounted t' (of_thread? ht').1
    refine ⟨id, t, ?_⟩
    cases hcall : t.call with
    | write data => exact ⟨data, hran, ht, rfl⟩
    | _ =>
      -- the other calls do not return what a write returns
      rw [hcall] at hcall'
      rw [Thread.Accounted, hcall'] at haccounted
      exact absurd hx (haccounted.2 w)
  . contradiction

theorem RecordedRun.returns_of_lastingError (run : RecordedRun E label engine (before ++ trace) m)
    (hsince : Run E.recorded start trace m) (he : start.conn.lastingError = some e)
    (h : m.step E.recorded now (.run id) = some s) (ht : m.thread? id = some t) (hcall : t.call = .write data)
    : ∃ e', (Moment.mk m now (.run id) s).outcome? = some (.write ⟨handedBy id before, some e'⟩) ∧
        e'.Supersedes e := by
  obtain ⟨e', he', hsupersedes⟩ := hsince.lastingError he
  have hnothing := handedBy_eq_zero id fun x hx => hsince.not_offered he hx
  have htaken := run.taken_eq ht hcall
  rw [handedBy_append, hnothing, Nat.add_zero] at htaken
  refine ⟨e', ?_, hsupersedes⟩
  rw [outcome?_of_lastingError he' h ht hcall, htaken]

/--
Once a write has returned a terminal error, all writing has come to an end. Each attempt to write after that
returns with an error that supersedes it, and with what the call had handed over before, which is nothing if it
has only started since. Nobody who is in a write sleeps, the engine is offered nothing more, and all that is still
counted as written was handed over before.
-/
theorem RecordedRun.write_errors_stick {k : Nat} (run : RecordedRun E label engine (before ++ x :: after) m)
    (hx : x.outcome? = some (.write ⟨k, some e⟩)) (hterminal : e.isTerminal = true)
    : (∀ y ∈ after, ∀ id data, y.action = .run id → y.call? = some (.write data) →
        ∃ e', y.outcome? = some (.write ⟨handedBy id before, some e'⟩) ∧ e'.Supersedes e) ∧
      (∀ id t data, m.thread? id = some t → t.call = .write data → t.outcome? = none →
        t.isAsleep = false ∧
        (m.mayRun t = true → ∀ now, ∃ s e', m.step E.recorded now (.run id) = some s ∧
          (Moment.mk m now (.run id) s).outcome? = some (.write ⟨handedBy id before, some e'⟩) ∧
          e'.Supersedes e)) ∧
      (∀ id call, .enter id call ∈ history after → handedBy id before = 0) ∧
      (∀ y ∈ after, ∀ offered reply, .write offered reply ∉ y.calls) ∧
      m.underway ≤ x.after.underway ∧
      m.conn.bytesWritten = countUp x.after.conn.bytesWritten (x.after.underway - m.underway) := by
  obtain ⟨hbefore, h, hafter⟩ := Run.of_split run
  obtain ⟨id, t, data, hran, ht, hcall⟩ := run.exists_of_wrote hx
  have he : x.before.conn.lastingError = some e := by
    obtain ⟨m', now, a, s⟩ := x
    dsimp only at hran h ht
    subst hran
    exact lastingError_of_outcome? (Run.holdsEngine hbefore) h ht hcall hx hterminal
  have hsince := Run.cons h hafter
  have hnone : ∀ y ∈ after, ∀ offered reply, .write offered reply ∉ y.calls :=
    fun y hy => hsince.not_offered he (List.mem_cons_of_mem x hy)
  -- what happened up to a later moment, as a whole and since the error
  have hsplit : ∀ y ∈ after, ∃ mid, RecordedRun E label engine (before ++ x :: mid) y.before ∧
      Run E.recorded x.before (x :: mid) y.before ∧ y.before.step E.recorded y.now y.action = some y.step := by
    intro y hy
    obtain ⟨mid, rest, rfl⟩ := List.append_of_mem hy
    unfold RecordedRun at run
    rw [← List.cons_append, ← List.append_assoc] at run
    rw [← List.cons_append] at hsince
    exact ⟨mid, run.of_split.1, hsince.of_split.1, run.of_split.2.1⟩
  refine ⟨?_, ?_, ?_, hnone, ?_⟩
  . intro y hy id data hran hwrite
    obtain ⟨mid, hrun, hsince, hstep⟩ := hsplit y hy
    obtain ⟨_, t, hran', ht, hcall⟩ := Moment.of_call?_eq_some hwrite
    rw [hran] at hran'
    cases hran'
    obtain ⟨m', now, a, s⟩ := y
    dsimp only at hran
    subst hran
    exact RecordedRun.returns_of_lastingError hrun hsince he hstep ht hcall
  . intro id t data ht hcall hunderway
    obtain ⟨e', he', _⟩ := hsince.lastingError he
    refine ⟨Run.awake_of_lastingError run he' (of_thread? ht).1, ?_⟩
    intro hmay now
    obtain ⟨s, hs, _⟩ := step_of_mayRun E.recorded now ht hmay
    obtain ⟨e', houtcome, hsupersedes⟩ := run.returns_of_lastingError hsince he hs ht hcall
    exact ⟨s, e', hs, houtcome, hsupersedes⟩
  . intro id call henter
    obtain ⟨y, hy, haction⟩ := List.mem_map.1 henter
    obtain ⟨mid, hrun, _, hstep⟩ := hsplit y hy
    rw [haction] at hstep
    have hnever := Run.not_ran hrun (of_enter_eq_some hstep).1
    rw [handedBy, callsBy_eq_nil fun z hz => hnever z (List.mem_append_left _ hz)]
    rfl
  . exact hafter.written_eq (RecordedRun.balanced (hbefore.snoc h)) hnone

/--
A write of nothing finds the connection closed while another writer sleeps with one of its two bytes handed over.
Then the engine fails, and all deadlines are lifted. The sleeper returns with the failure and its one byte, and so
does a third writer with none.
-/
theorem closed_write_errors_stick
    : ∃ before x after m, RecordedRun Scripted.engine "a" { replies := [1, 0] } (before ++ x :: after) m ∧
        x.outcome? = some (.write ⟨0, some .closed⟩) ∧ handedBy 0 before = 1 ∧ handedBy 2 before = 0 ∧
        (∀ y ∈ after, ∀ id data, y.action = .run id → y.call? = some (.write data) →
          ∃ e', y.outcome? = some (.write ⟨handedBy id before, some e'⟩) ∧ e'.Supersedes .closed) ∧
        x.after.underway = 1 ∧ m.underway = 0 ∧
        m.conn.bytesWritten = countUp x.after.conn.bytesWritten (x.after.underway - m.underway) := by
  have run : RecordedRun Scripted.engine "a" { replies := [1, 0] } ([_, _, _, _, _] ++ _ :: _) _ := Run.of_replay
    [(0, .enter 0 (.write [7, 8])), (0, .run 0), (0, .run 0), (1, .request .close), (1, .enter 1 (.write [])),
      (2, .run 1), (3, .upcall (.error ⟨"ECONNRESET"⟩)), (3, .request (.setDeadline .both none)),
      (4, .enter 2 (.write [9])), (5, .run 0), (5, .run 2)] rfl
  have stick := RecordedRun.write_errors_stick run rfl rfl
  have hnothing := stick.2.2.1 2 (.write [9]) (by simp [history])
  exact ⟨_, _, _, _, run, rfl, rfl, hnothing, stick.1, rfl, rfl, stick.2.2.2.2.2⟩

end Monitor

end BlockingStream

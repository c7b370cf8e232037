import BlockingStream.Engine.Scripted
import BlockingStream.Proofs.Stage
import BlockingStream.Proofs.WriteOutcome

/-!
This module contains the proof that writing all of some data through the view as a plain byte stream is exact: the
engine accepts all of it, or a part from its front, and then there is an error that says why.

A write that comes to its end after a part hides the error, and the rest is offered again, however the connection has
changed meanwhile. So each call takes over where the one before has stopped.
-/

namespace BlockingStream

theorem History.ne_endOfStream_of_writeError {h : History} {now : Instant} {e : StreamError}
    (he : h.writeError now = some e)
    : e ≠ .endOfStream := by
  rintro rfl
  unfold writeError commonError at he
  repeat' split at he
  all_goals simp at he

theorem StreamError.ioKind_ne_writeZero (e : StreamError) : e.ioKind ≠ .writeZero := by
  cases e with
  | engine code =>
    simp only [ioKind, EngineCode.ioKind]
    repeat' split
    all_goals simp
  | _ => simp [ioKind]

namespace Moment

variable {σ : Type}

/--
What a write returned in this step, in the view as a plain byte stream.
-/
def plainWrite? (x : Moment σ) : Option (Except IoError Nat) :=
  match x.outcome? with
  | some (.write w) => some w.writeToIo
  | _ => none

end Moment

namespace Stage

variable {σ : Type}

def Wrote (data : Bytes) (k : Nat) : Stage → Prop
  | .between task | .inside task _ => task = .writeAll (data.drop k) ∧ k < data.length
  | .finished result =>
    result = .writtenAll (.ok ()) ∧ k = data.length ∨
      ∃ e : StreamError, result = .writtenAll (.error e.toIoError) ∧ e ≠ .endOfStream ∧ k < data.length

/--
What the call of a task that is under way has handed over.
-/
def pending (m : Monitor σ) : Stage → Bytes
  | .inside _ id => m.accepted id
  | .between _ | .finished _ => []

theorem pending_eq_nil {stage : Stage} (m : Monitor σ) (h : ∀ task id, stage ≠ .inside task id)
    : stage.pending m = [] := by
  cases stage with
  | inside task id => exact absurd rfl (h task id)
  | _ => rfl

end Stage

namespace Task

variable {data : Bytes} {k n : Nat} {error : Option StreamError}

theorem wrote_reach (hk : k ≤ data.length) : (reach (.writeAll (data.drop k))).Wrote data k := by
  cases hrest : data.drop k with
  | nil =>
    rw [List.drop_eq_nil_iff] at hrest
    exact Or.inl ⟨rfl, by omega⟩
  | cons b rest =>
    have hlen := congrArg List.length hrest
    rw [List.length_drop, List.length_cons] at hlen
    refine ⟨?_, by omega⟩
    rw [hrest]

theorem wrote_follow (hk : k < data.length) (hn : k + n ≤ data.length)
    (herror : n = 0 → ∃ e, error = some e ∧ e ≠ .endOfStream)
    : (follow (.writeAll (data.drop k)) (.write ⟨n, error⟩)).Wrote data (k + n) := by
  cases n with
  | zero =>
    obtain ⟨e, rfl, hne⟩ := herror rfl
    exact Or.inr ⟨e, rfl, hne, hk⟩
  | succ n =>
    have hreach := wrote_reach hn
    rw [← List.drop_drop] at hreach
    exact hreach

end Task

namespace Monitor

variable {σ : Type} {E : Engine σ} {start m : Monitor (σ × List EngineCall)}
  {before trace : List (Moment (σ × List EngineCall))} {x : Moment (σ × List EngineCall)} {stage : Stage}
  {id k : Nat} {t : Thread} {now : Instant} {a : Action} {s : Step (σ × List EngineCall)} {data : Bytes}
  {outcome : Outcome} {label : String} {engine : σ}

theorem unwritten_of_step (h : m.step E.recorded now a = some s)
    (hother : ∀ data, (Moment.mk m now a s).call? ≠ some (.write data))
    : s.monitor.outbound = m.outbound ∧ s.monitor.conn.bytesWritten = m.conn.bytesWritten := by
  cases a with
  | enter id call =>
    obtain ⟨_, rfl⟩ := of_enter_eq_some h
    exact ⟨rfl, rfl⟩
  | run id =>
    obtain ⟨t, ht, _, rfl⟩ := of_run_eq_some h
    change EngineCall.stream (m.round E.recorded now t).engine.2 = m.outbound ∧
      (m.round E.recorded now t).conn.bytesWritten = _
    cases hcall : t.call with
    | awaitConnect =>
      rw [round_of_connect hcall]
      exact ⟨rfl, rfl⟩
    | readInto buffer =>
      obtain ⟨hconn, hengine, _⟩ := readRound_cases E.recorded now m t buffer.length
      rw [round_of_read hcall, hconn, hengine]
      exact ⟨stream_read E buffer.length now m.conn m.engine, rfl⟩
    | write data =>
      refine absurd ?_ (hother data)
      simp [Moment.call?, ht, hcall]
  | stir id =>
    obtain ⟨_, _, _, rfl⟩ := of_stir_eq_some h
    exact ⟨rfl, rfl⟩
  | request r =>
    obtain ⟨_, rfl⟩ := of_locked_eq_some h
    exact ⟨outbound_request E m r, (counters_request E.recorded m r).2.2⟩
  | upcall u =>
    obtain ⟨_, rfl⟩ := of_locked_eq_some h
    refine ⟨?_, (counters_upcall m u).2.2⟩
    rw [outbound, engine_upcall]
    rfl
  | alarm =>
    obtain ⟨_, rfl⟩ := of_locked_eq_some h
    exact ⟨rfl, rfl⟩
  | grant n =>
    cases h
    exact ⟨rfl, rfl⟩

theorem Balanced.round_of_step (hbalanced : m.Balanced) (h : m.step E.recorded now (.run id) = some s)
    : ∃ t chunk, s.monitor.thread? id = some t ∧ s.monitor.outbound = m.outbound ++ chunk ∧
        s.monitor.accepted id = m.accepted id ++ chunk ∧
        s.monitor.conn.bytesWritten = countUp m.conn.bytesWritten t.completed := by
  obtain ⟨u, hu, hmay, _⟩ := of_run_eq_some h
  obtain ⟨s', hs', ht, hconn, hengine⟩ := step_of_mayRun E.recorded now hu hmay
  rw [h] at hs'
  cases hs'
  have hmax : m.conn.bytesWritten ≤ maxCount := by
    rw [hbalanced.written]
    apply countUp_le_maxCount
  obtain ⟨chunk, hstream, _, haccepted, hwritten⟩ := chunk_round E now (hbalanced.accounted u (of_thread? hu).1) hmax
  refine ⟨_, chunk, ht, ?_, ?_, ?_⟩
  . rw [outbound, hengine, hstream]
  . rw [accepted, accepted, ht, hu]
    exact haccepted
  . rw [hconn, hwritten]

theorem accepted_of_step (h : m.step E.recorded now a = some s) (ht : m.thread? id = some t) (hother : a ≠ .run id)
    : s.monitor.accepted id = m.accepted id := by
  rcases thread?_of_step h id with ⟨hran, _⟩ | ⟨_, hnone, _⟩ | ⟨_, hsame | hsignal⟩
  . exact absurd hran hother
  . rw [ht] at hnone
    contradiction
  . rw [accepted, accepted, hsame]
  . rw [accepted, accepted, hsignal, ht]
    exact t.accepted_signal

theorem RecordedRun.of_wrote (run : RecordedRun E label engine trace m) (ht : m.thread? id = some t)
    (hcall : t.call = .write data) (hdata : data ≠ []) (houtcome : t.outcome? = some outcome)
    : ∃ n error, outcome = .write ⟨n, error⟩ ∧ n ≤ data.length ∧ (n = 0 → ∃ e, error = some e ∧ e ≠ .endOfStream) ∧
        m.accepted id = data.take n ∧ t.completed = n := by
  have hparts : ∃ n error, outcome = .write ⟨n, error⟩ ∧ n ≤ data.length ∧
      (n = 0 → ∃ e, error = some e ∧ e ≠ .endOfStream) := by
    obtain ⟨_, _, _, _, _, _, ⟨rfl, _, _⟩ | ⟨e, rfl, hlt, he⟩⟩ := run.outcome_cases ht hcall hdata houtcome
    . exact ⟨_, _, rfl, Nat.le_refl _, fun hzero => absurd (List.eq_nil_of_length_eq_zero hzero) hdata⟩
    . exact ⟨_, _, rfl, Nat.le_of_lt hlt, fun _ => ⟨e, rfl, History.ne_endOfStream_of_writeError he⟩⟩
  obtain ⟨n, error, rfl, hle, herror⟩ := hparts
  refine ⟨n, error, rfl, hle, herror, ?_, ?_⟩
  . simp [accepted, ht, Thread.accepted, Thread.progress, hcall, houtcome]
  . simp [Thread.completed, houtcome]

theorem RecordedRun.accepted_underway (run : RecordedRun E label engine trace m)
    (hserves : m.Serves .writing (.inside (.writeAll data) id))
    : ∃ n < data.length, m.accepted id = data.take n := by
  obtain ⟨t, ht, hunderway, hasks⟩ := hserves.underway rfl
  obtain ⟨hcall, hdata⟩ := Task.asks_writeAll hasks
  obtain ⟨_, hrest⟩ := run.rest_eq ht hcall
  have hleft := Run.rest_ne_nil run ht hcall hdata hunderway
  rw [hrest, ne_eq, List.drop_eq_nil_iff] at hleft
  refine ⟨t.taken, by omega, ?_⟩
  simp [accepted, ht, Thread.accepted, Thread.progress, hcall, hunderway]

/--
What a write of all has done to a connection since it was started.
-/
structure Written (data : Bytes) (start : Monitor (σ × List EngineCall)) (stage : Stage) (k : Nat)
    (m : Monitor (σ × List EngineCall)) : Prop where
  wrote : stage.Wrote data k
  counted : m.conn.bytesWritten = countUp start.conn.bytesWritten k
  outbound : m.outbound = start.outbound ++ data.take k ++ stage.pending m

theorem Written.round (hwritten : Written data start (.inside (.writeAll (data.drop k)) id) k m)
    (hserves : m.Serves .writing (.inside (.writeAll (data.drop k)) id)) (run : RecordedRun E label engine trace m)
    (h : m.step E.recorded now (.run id) = some s)
    : ∃ k', Written data start (Stage.advance ⟨m, now, .run id, s⟩ (.inside (.writeAll (data.drop k)) id)) k'
        s.monitor := by
  obtain ⟨u, hu, _, hasks⟩ := hserves.underway rfl
  obtain ⟨hcall, hrest⟩ := Task.asks_writeAll hasks
  obtain ⟨t, chunk, ht, houtbound, haccepted, hcounted⟩ := run.balanced.round_of_step h
  obtain ⟨u', hu', hcall'⟩ := call_of_step h hu
  rw [ht] at hu'
  cases hu'
  have hsum : s.monitor.outbound = start.outbound ++ data.take k ++ s.monitor.accepted id := by
    rw [houtbound, hwritten.outbound, haccepted, ← List.append_assoc]
    rfl
  rw [hwritten.counted, countUp_countUp] at hcounted
  have hreturned : (Moment.mk m now (.run id) s).outcome? = t.outcome? := by
    simp [Moment.outcome?, Moment.after, ht]
  cases houtcome : t.outcome? with
  | none =>
    rw [Thread.completed_of_outcome?_eq_none houtcome] at hcounted
    rw [Stage.advance_underway fun _ => hreturned.trans houtcome]
    exact ⟨k, hwritten.wrote, hcounted, hsum⟩
  | some outcome =>
    obtain ⟨n, error, rfl, hle, herror, haccepted, hcompleted⟩ :=
      RecordedRun.of_wrote (Run.snoc run h) ht (hcall'.trans hcall) hrest houtcome
    rw [List.length_drop] at hle
    rw [Stage.advance_returned rfl (hreturned.trans houtcome)]
    refine ⟨k + n, Task.wrote_follow hwritten.wrote.2 (by have := hwritten.wrote.2; omega) herror, ?_, ?_⟩
    . rw [hcounted, hcompleted]
    . rw [hsum, haccepted, Stage.pending_eq_nil _ fun task' id' => Task.follow_ne_inside _ task' _ id',
        List.append_nil, List.append_assoc, ← List.take_add]

theorem Written.step (hwritten : Written data start stage k m) (hserves : m.Serves .writing stage)
    (run : RecordedRun E label engine trace m) (h : m.step E.recorded now a = some s)
    : ∃ k', Written data start (stage.advance ⟨m, now, a, s⟩) k' s.monitor := by
  by_cases hown : ∃ task id, stage = .inside task id ∧ a = .run id
  . obtain ⟨task, id, rfl, rfl⟩ := hown
    obtain rfl : task = .writeAll (data.drop k) := hwritten.wrote.1
    exact hwritten.round hserves run h
  . -- nobody else writes
    have hother : ∀ data, (Moment.mk m now a s).call? ≠ some (.write data) := by
      intro data hcall
      obtain ⟨id, t, rfl, ht, hwrite⟩ := Moment.of_call?_eq_some hcall
      obtain ⟨u, hu, hmay, _⟩ := of_run_eq_some h
      obtain rfl : t = u := Option.some.inj (ht.symm.trans hu)
      obtain ⟨task, rfl⟩ := hserves.alone ht (congrArg Call.direction? hwrite) (outcome?_of_mayRun hmay)
      exact hown ⟨task, id, rfl, rfl⟩
    obtain ⟨houtbound, hcounted⟩ := unwritten_of_step h hother
    have hkept := hwritten.outbound
    rcases Stage.advance_cases ⟨m, now, a, s⟩ stage with ⟨task, id, call, rfl, hentered, _, hadvance⟩ |
      ⟨task, id, _, rfl, hran, _, _⟩ | hadvance
    . -- its call has just begun
      dsimp only at hentered
      subst hentered
      obtain ⟨hnone, rfl⟩ := of_enter_eq_some h
      have hnothing : accepted { m with threads := m.threads ++ [Thread.enter id call] } id = [] := by
        simp [accepted, thread?_append, hnone]
      rw [hadvance]
      refine ⟨k, hwritten.wrote, hwritten.counted, houtbound.trans (hkept.trans ?_)⟩
      exact congrArg (start.outbound ++ data.take k ++ ·) hnothing.symm
    . exact absurd ⟨task, id, rfl, hran⟩ hown
    . rw [hadvance]
      refine ⟨k, hwritten.wrote, hcounted.trans hwritten.counted, houtbound.trans (hkept.trans ?_)⟩
      cases stage with
      | inside task id =>
        obtain ⟨t, ht, _⟩ := hserves.underway rfl
        have haccepted := accepted_of_step h ht fun hran => hown ⟨task, id, rfl, hran⟩
        exact congrArg (start.outbound ++ data.take k ++ ·) haccepted.symm
      | _ => rfl

theorem RecordedRun.written (run : RecordedRun E label engine before start) (since : Run E.recorded start trace m)
    (hidle : start.IdleIn .writing) (halone : (Task.writeAll data).AloneIn .writing trace)
    : ∃ k, Written data start ((Task.writeAll data).stage trace) k m := by
  induction since with
  | nil =>
    refine ⟨0, Task.wrote_reach (Nat.zero_le _), ?_, ?_⟩
    . rw [countUp_zero]
      rw [run.balanced.written]
      apply countUp_le_maxCount
    . change start.outbound = start.outbound ++ data.take 0 ++ (Task.reach (.writeAll data)).pending start
      rw [Stage.pending_eq_nil start (Task.reach_ne_inside (.writeAll data)), List.take_zero, List.append_nil,
        List.append_nil]
  | snoc since h ih =>
    obtain ⟨k, hwritten⟩ := ih halone.of_append
    rw [Task.stage_snoc]
    exact hwritten.step (since.serves hidle halone.of_append) (Run.append run since) h

theorem RecordedRun.plainWrite?_ne (run : RecordedRun E label engine trace m) (hx : x ∈ trace)
    (hcall : x.call? = some (.write data)) (hdata : data ≠ [])
    : x.plainWrite? ≠ some (.ok 0) := by
  obtain ⟨before, after, rfl⟩ := List.append_of_mem hx
  obtain ⟨hbefore, h, _⟩ := Run.of_split run
  intro hzero
  unfold Moment.plainWrite? at hzero
  split at hzero
  . next w houtcome =>
    obtain ⟨id, u, hran, hu, hwrite⟩ := Moment.of_call?_eq_some hcall
    obtain ⟨t, ht, houtcome⟩ := of_outcome?_eq_some hran houtcome
    obtain ⟨u', hu', hcall'⟩ := call_of_step h hu
    rw [Moment.after, hu'] at ht
    cases ht
    obtain ⟨n, error, hw, _, herror, _⟩ :=
      RecordedRun.of_wrote (Run.snoc hbefore h) hu' (hcall'.trans hwrite) hdata houtcome
    cases hw
    cases n with
    | zero =>
      obtain ⟨e, rfl, _⟩ := herror rfl
      simp [Transfer.writeToIo] at hzero
    | succ n => simp [Transfer.writeToIo] at hzero
  . contradiction

/--
A write of all that nobody interferes with hands over the data from its front. It is done if and only if the engine has
accepted all of it. If it ends with an error, the engine has accepted less, and the error is one of the connection.
-/
theorem RecordedRun.write_all_exact (run : RecordedRun E label engine before start)
    (since : Run E.recorded start trace m) (hidle : start.IdleIn .writing)
    (halone : (Task.writeAll data).AloneIn .writing trace)
    : (∀ x ∈ before ++ trace, ∀ offered, x.call? = some (.write offered) → offered ≠ [] →
        x.plainWrite? ≠ some (.ok 0)) ∧
      ∃ k ≤ data.length, m.outbound = start.outbound ++ data.take k ∧
        ((Task.writeAll data).stage trace = .finished (.writtenAll (.ok ())) ↔ k = data.length) ∧
        ∀ result, (Task.writeAll data).stage trace = .finished result →
          m.conn.bytesWritten = min (start.conn.bytesWritten + k) maxCount ∧
          (result = .writtenAll (.ok ()) ∨
            ∃ error e, result = .writtenAll (.error error) ∧ error.source = some e ∧ e ≠ .endOfStream ∧
              error.kind ≠ .writeZero ∧ k < data.length) := by
  refine ⟨?_, ?_⟩
  . intro x hx offered
    exact RecordedRun.plainWrite?_ne (Run.append run since) hx
  . obtain ⟨k, hwritten⟩ := run.written since hidle halone
    have hserves := since.serves hidle halone
    obtain ⟨hwrote, hcounted, houtbound⟩ := hwritten
    generalize (Task.writeAll data).stage trace = stage at hwrote hserves houtbound
    cases stage with
    | between task =>
      rw [Stage.pending, List.append_nil] at houtbound
      exact ⟨k, Nat.le_of_lt hwrote.2, houtbound, iff_of_false Stage.noConfusion (Nat.ne_of_lt hwrote.2),
        fun _ hfinished => Stage.noConfusion hfinished⟩
    | inside task id =>
      obtain rfl : task = .writeAll (data.drop k) := hwrote.1
      obtain ⟨n, hn, haccepted⟩ := RecordedRun.accepted_underway (Run.append run since) hserves
      rw [List.length_drop] at hn
      rw [Stage.pending, haccepted, List.append_assoc, ← List.take_add] at houtbound
      exact ⟨k + n, by omega, houtbound, iff_of_false Stage.noConfusion (by omega),
        fun _ hfinished => Stage.noConfusion hfinished⟩
    | finished result =>
      rw [Stage.pending, List.append_nil] at houtbound
      rcases hwrote with ⟨rfl, hall⟩ | ⟨e, rfl, hne, hlt⟩
      . refine ⟨k, Nat.le_of_eq hall, houtbound, iff_of_true rfl hall, ?_⟩
        rintro result ⟨⟩
        exact ⟨hcounted, Or.inl rfl⟩
      . refine ⟨k, Nat.le_of_lt hlt, houtbound, iff_of_false (by simp) (Nat.ne_of_lt hlt), ?_⟩
        rintro result ⟨⟩
        exact ⟨hcounted, Or.inr ⟨e.toIoError, e, rfl, rfl, hne, e.ioKind_ne_writeZero, hlt⟩⟩

/--
The first call of a write of all hides a deadline behind its one byte, and the deadline is lifted. The second call goes
on and hides a failure of the engine behind two more bytes, which the third call then finds.
-/
theorem hidden_errors_write_all_exact
    : ∃ trace m, RecordedRun Scripted.engine "a" { replies := [1, 0, 2, 0] } trace m ∧
        (Task.writeAll [1, 2, 3, 4]).AloneIn .writing trace ∧
        trace.filterMap Moment.plainWrite? =
          [.ok 1, .ok 2, .error (StreamError.engine ⟨"ECONNRESET"⟩).toIoError] ∧
        (Task.writeAll [1, 2, 3, 4]).stage trace =
          .finished (.writtenAll (.error (StreamError.engine ⟨"ECONNRESET"⟩).toIoError)) ∧
        m.conn.bytesWritten = 3 ∧
        ∃ k < 4, m.outbound = [1, 2, 3, 4].take k ∧ m.conn.bytesWritten = min (0 + k) maxCount := by
  have run : RecordedRun Scripted.engine "a" { replies := [1, 0, 2, 0] } _ _ := Run.of_replay
    [(0, .enter 0 (.write [1, 2, 3, 4])), (0, .run 0), (0, .run 0),
      (1, .request (.setDeadline (.one .writing) (some 5))), (5, .run 0), (6, .request (.setDeadline .both none)),
      (7, .enter 1 (.write [2, 3, 4])), (7, .run 1), (7, .run 1), (8, .upcall (.error ⟨"ECONNRESET"⟩)), (9, .run 1),
      (9, .enter 2 (.write [4])), (9, .run 2)] rfl
  obtain ⟨_, k, _, houtbound, _, hresult⟩ :=
    RecordedRun.write_all_exact Run.nil run (by intro t ht; contradiction)
      (show (Task.writeAll [1, 2, 3, 4]).AloneIn .writing _ from rfl)
  obtain ⟨hcounted, hok | ⟨_, _, _, _, _, _, hlt⟩⟩ :=
    hresult (.writtenAll (.error (StreamError.engine ⟨"ECONNRESET"⟩).toIoError)) rfl
  . simp at hok
  . exact ⟨_, _, run, rfl, by decide +kernel, rfl, rfl, k, hlt, houtbound, hcounted⟩

end Monitor

end BlockingStream

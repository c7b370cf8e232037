import BlockingStream.Proofs.Run
import BlockingStream.Proofs.Step
import BlockingStream.Engine.Metered

/-!
This module contains the proof that no wakeup is lost: whatever the threads, the engine and the timers do,
nobody sleeps while there is something that its call would return.

The sleepers of a state are those of the state before, as long as nothing happened that they wait for, and the
thread that has just found nothing to return. Any other step wakes all of them.
-/

namespace BlockingStream

def EngineCall.reply? : EngineCall → Option Nat
  | .write _ reply => some reply
  | _ => none

namespace Monitor

variable {σ : Type} {E : Engine σ} {start m : Monitor σ} {trace : List (Moment σ)} {t : Thread}

/--
The replies of the engine to what a thread has offered, in order.
-/
def repliesTo (id : Nat) (trace : List (Moment (σ × List EngineCall))) : List Nat :=
  trace.flatMap fun x => if x.action = .run id then x.calls.filterMap EngineCall.reply? else []

theorem repliesTo_snoc (id : Nat) (trace : List (Moment (σ × List EngineCall)))
    (x : Moment (σ × List EngineCall))
    : repliesTo id (trace ++ [x]) =
      repliesTo id trace ++ if x.action = .run id then x.calls.filterMap EngineCall.reply? else [] := by
  simp [repliesTo]

theorem Run.blocks (run : Run E start trace m) (hstart : ∀ u ∈ start.threads, u.isAsleep = false)
    : ∀ u ∈ m.threads, u.isAsleep = true → m.conn.Blocks u.call := by
  induction run with
  | nil =>
    intro u hu hasleep
    rw [hstart u hu] at hasleep
    contradiction
  | snoc _ h ih =>
    intro u hu hasleep
    -- whoever sleeps now slept before, or has just found nothing to return
    obtain ⟨calm, hslept | ⟨_, t₀, ht₀, rfl, _⟩⟩ := asleep_of_step h hu hasleep
    . apply calm.blocks
      exact ih u hslept.1 hasleep
    . apply calm.blocks
      rw [call_round]
      exact (blocks_of_round_asleep hasleep).1

theorem engine_round_asleep {m : Monitor (σ × List EngineCall)} {data : Bytes} {now : Instant}
    (hcall : t.call = .write data) (h : (m.round E.recorded now t).thread.isAsleep = true)
    : (m.round E.recorded now t).engine.2 = m.engine.2 ++ [.write t.rest 0] := by
  rw [round_of_write hcall] at h ⊢
  rw [Thread.isAsleep_iff] at h
  rcases writeRound_cases E.recorded now m t with ⟨_, _, _, hround⟩ | ⟨hrest, _, _, hround⟩
  . rw [hround] at h
    simp [finishWrite] at h
  . have hlen : 0 < t.rest.length := List.length_pos_iff.2 hrest
    rw [hround] at h ⊢
    dsimp only at h ⊢
    split at h
    . simp [finishWrite] at h
    . next hpart =>
      simp only [hpart, if_false]
      split at h
      . next hzero =>
        have hreply : (E.recorded.write t.rest m.engine).1 = 0 := by omega
        rw [Engine.recorded_write_calls]
        change (E.write t.rest m.engine.1).1 = 0 at hreply
        rw [hreply]
      . simp at h

theorem RecordedRun.getLast?_repliesTo {label : String} {s : σ} {m : Monitor (σ × List EngineCall)}
    {trace : List (Moment (σ × List EngineCall))} (run : RecordedRun E label s trace m)
    : ∀ u ∈ m.threads, u.isAsleep = true → ∀ data, u.call = .write data →
        (repliesTo u.id trace).getLast? = some 0 := by
  induction run with
  | nil =>
    intro u hu
    simp [init] at hu
  | snoc _ h ih =>
    intro u hu hasleep data hcall
    rw [repliesTo_snoc]
    obtain ⟨_, ⟨hslept, hother⟩ | ⟨hown, t₀, ht₀, hround, hengine⟩⟩ := asleep_of_step h hu hasleep
    . -- nobody else offers anything for it
      simp only [hother, if_false, List.append_nil]
      exact ih u hslept hasleep data hcall
    . rw [hround] at hasleep hcall
      rw [call_round] at hcall
      have hcalls := engine_round_asleep hcall hasleep
      simp [hown, Moment.calls, Moment.after, hengine, hcalls, EngineCall.reply?]

/--
A thread that sleeps has nothing to return: a reader finds no input and no end of it, the engine has refused
what a writer offered last, the connection that a third one waits for is not made, and nothing has ended the
connection.
-/
theorem RecordedRun.nothing_to_return {label : String} {s : σ} {m : Monitor (σ × List EngineCall)}
    {trace : List (Moment (σ × List EngineCall))} (run : RecordedRun E label s trace m)
    (ht : t ∈ m.threads) (hasleep : t.isAsleep = true)
    : m.conn.failure = none ∧ m.conn.destroyed = false ∧ m.conn.closed = false ∧
      match t.call with
      | .awaitConnect => m.conn.connected = false
      | .readInto _ => m.conn.inbound = [] ∧ m.conn.eof = false
      | .write _ => (repliesTo t.id trace).getLast? = some 0 := by
  have hblocks := Run.blocks run (by simp [init]) t ht hasleep
  have hreply := run.getLast?_repliesTo t ht hasleep
  obtain ⟨hfailure, hdestroyed, hclosed, hcall⟩ := hblocks
  refine ⟨hfailure, hdestroyed, hclosed, ?_⟩
  cases h : t.call with
  | awaitConnect =>
    rw [h] at hcall
    exact hcall
  | readInto buffer =>
    rw [h] at hcall
    exact hcall
  | write data => exact hreply data h

/--
Three threads sleep. The engine has taken one of two bytes, was woken for nothing, and has refused the other
one twice.
-/
theorem sleeping_writer_has_nothing_to_return
    : ∃ trace m t, RecordedRun Metered.engine "a" { credit := some 1 } trace m ∧ t ∈ m.threads ∧
        t.isAsleep = true ∧ t.call = .write [7, 8] ∧ m.conn.failure = none ∧
        m.conn.destroyed = false ∧ m.conn.closed = false ∧ (repliesTo t.id trace).getLast? = some 0 := by
  have run : RecordedRun Metered.engine "a" { credit := some 1 } _ _ := Run.of_replay
    [(0, .enter 0 .awaitConnect), (0, .enter 1 (.read 4)), (0, .enter 2 (.write [7, 8])), (1, .run 2),
      (1, .run 2), (2, .upcall .writable), (3, .run 2), (3, .run 1), (3, .run 0)] rfl
  exact ⟨_, _, _, run, List.mem_of_getElem? (i := 2) rfl, rfl, rfl,
    RecordedRun.nothing_to_return run (List.mem_of_getElem? (i := 2) rfl) rfl⟩

end Monitor

end BlockingStream

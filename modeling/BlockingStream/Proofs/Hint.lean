import Mathlib.Data.List.TakeWhile
import BlockingStream.Proofs.Phase
import BlockingStream.Proofs.PlainInput

/-!
This module contains the proof that the hints to the engine are exact: as long as nothing has ended the
connection, the engine hears of each read that takes the last of the input, once, and of nothing else.
-/

namespace BlockingStream

/--
After such an action the engine gets no more hints.
-/
def Action.silences : Action → Bool
  | .upcall (.error _) | .upcall .destroyed | .request .close => true
  | _ => false

theorem History.not_silenced_iff {h : History}
    : (∀ a ∈ h, a.silences = false) ↔
      (∀ code, .upcall (.error code) ∉ h) ∧ .upcall .destroyed ∉ h ∧ .request .close ∉ h := by
  constructor
  . intro hall
    refine ⟨?_, ?_, ?_⟩
    . intro code hmem
      have := hall _ hmem
      contradiction
    . intro hmem
      have := hall _ hmem
      contradiction
    . intro hmem
      have := hall _ hmem
      contradiction
  . rintro ⟨hfailure, hdestroyed, hclosed⟩ a ha
    unfold Action.silences
    split
    . next code => exact absurd ha (hfailure code)
    . exact absurd ha hdestroyed
    . exact absurd ha hclosed
    . rfl

namespace Moment

variable {σ : Type}

/--
There was input before the step, and there is none after it.
-/
def empties (x : Moment σ) : Bool := !x.before.conn.inbound.isEmpty && x.after.conn.inbound.isEmpty

/--
Bytes arrive in this step.
-/
def fills (x : Moment σ) : Bool := !x.payload.isEmpty

end Moment

namespace Conn

variable {σ : Type} {c : Conn} {h : History}

theorem HoldsEngine.mayHint_iff (hholds : c.HoldsEngine)
    : c.mayHint = true ↔ c.failure = none ∧ c.destroyed = false ∧ c.closed = false := by
  simp only [mayHint, Bool.and_eq_true, Option.isNone_iff_eq_none, Bool.not_eq_true', and_assoc]
  constructor
  . rintro ⟨hfailure, hdestroyed, hclosed, _⟩
    exact ⟨hfailure, hdestroyed, hclosed⟩
  . rintro ⟨hfailure, hdestroyed, hclosed⟩
    exact ⟨hfailure, hdestroyed, hclosed, hholds.2 ⟨hdestroyed, hclosed⟩⟩

theorem Reflects.not_silenced_iff (hc : c.Reflects h)
    : (∀ a ∈ h, a.silences = false) ↔ c.failure = none ∧ c.destroyed = false ∧ c.closed = false := by
  rw [History.not_silenced_iff, ← History.firstFailure_eq_none_iff, ← hc.failure, ← hc.destroyed, ← hc.closed,
    Bool.not_eq_true, Bool.not_eq_true]

theorem calls_hintDrained (E : Engine σ) (moved : Bytes) (c : Conn) (s : σ × List EngineCall)
    : (c.hintDrained E.recorded moved s).2 =
      s.2 ++ if (!moved.isEmpty && c.inbound.isEmpty && c.mayHint) = true then [.readDrained] else [] := by
  unfold hintDrained
  cases !moved.isEmpty && c.inbound.isEmpty && c.mayHint with
  | true => rfl
  | false => exact (List.append_nil s.2).symm

theorem calls_read_eq (E : Engine σ) (len : Nat) (now : Instant) (c : Conn) (s : σ × List EngineCall)
    : (c.read E.recorded len now s).2.2.2 =
      s.2 ++ if (!c.inbound.isEmpty && (c.inbound.drop len).isEmpty && c.mayHint) = true then [.readDrained]
        else [] := by
  have hmoved : (!(c.inbound.take len).isEmpty && (c.inbound.drop len).isEmpty) =
      (!c.inbound.isEmpty && (c.inbound.drop len).isEmpty) := by
    cases c.inbound <;> cases len <;> simp
  simp only [read, calls_hintDrained, hmoved]
  rfl

end Conn

namespace Monitor

variable {σ : Type} {E : Engine σ} {m : Monitor (σ × List EngineCall)} {t : Thread} {now : Instant} {a : Action}
  {id : Nat} {buffer : Bytes} {s : Step (σ × List EngineCall)}

theorem calls_of_read (ht : m.thread? id = some t) (hcall : t.call = .readInto buffer)
    (h : m.step E.recorded now (.run id) = some s)
    : let x : Moment (σ × List EngineCall) := ⟨m, now, .run id, s⟩
      x.calls = if (x.empties && m.conn.mayHint) = true then [.readDrained] else [] := by
  have hconn := (read_run ht hcall h).1
  have hengine : s.monitor.engine = (m.conn.read E.recorded buffer.length now m.engine).2.2 := by
    obtain ⟨t', ht', _, rfl⟩ := of_run_eq_some h
    rw [ht] at ht'
    cases ht'
    rw [round_of_read hcall]
    exact (readRound_cases E.recorded now m t buffer.length).2.1
  have hcalls := engine_of_step h
  rw [hengine, Conn.calls_read_eq] at hcalls
  dsimp only
  rw [← List.append_cancel_left hcalls, Moment.empties, Moment.after, hconn]
  rfl

theorem readDrained_not_mem_calls (ht : m.thread? id = some t) (hcall : ∀ buffer, t.call ≠ .readInto buffer)
    (h : m.step E.recorded now (.run id) = some s)
    : .readDrained ∉ (Moment.mk m now (.run id) s).calls := by
  -- no other thread than a reader has anything to do with the hints
  have hcalls := engine_of_step h
  have hengine : s.monitor.engine = (m.round E.recorded now t).engine := by
    obtain ⟨t', ht', _, rfl⟩ := of_run_eq_some h
    rw [ht] at ht'
    cases ht'
    rfl
  have hnothing : s.monitor.engine = m.engine → (Moment.mk m now (.run id) s).calls = [] := by
    intro hsame
    rw [hsame] at hcalls
    exact List.self_eq_append_right.1 hcalls
  cases hkind : t.call with
  | awaitConnect =>
    rw [round_of_connect hkind] at hengine
    rw [hnothing hengine]
    exact List.not_mem_nil
  | readInto buffer => exact absurd hkind (hcall buffer)
  | write data =>
    rw [round_of_write hkind] at hengine
    rcases writeRound_cases E.recorded now m t with ⟨_, _, _, hround⟩ | ⟨_, _, _, hround⟩
    . rw [hround] at hengine
      rw [hnothing hengine]
      exact List.not_mem_nil
    . have hwrite : s.monitor.engine.2 = m.engine.2 ++ [.write t.rest (E.write t.rest m.engine.1).1] := by
        rw [hengine, hround]
        dsimp only
        split <;> rfl
      rw [hwrite] at hcalls
      rw [← List.append_cancel_left hcalls]
      simp

theorem empties_iff {σ : Type} {E : Engine σ} {x : Moment σ} (hcounted : x.before.Counted)
    (h : x.before.step E x.now x.action = some x.step)
    : x.empties = true ↔ ∃ d, x.delivery? = some d ∧ d.data ≠ [] ∧ x.after.conn.inbound = [] := by
  have hconserves : (x.delivery?.map (·.data)).getD [] ++ x.after.conn.inbound =
      x.before.conn.inbound ++ x.payload :=
    (step_conserves hcounted.1 h).1
  have hempties : x.empties = true ↔ x.before.conn.inbound ≠ [] ∧ x.after.conn.inbound = [] := by
    simp [Moment.empties]
  rw [hempties]
  constructor
  . rintro ⟨hbefore, hafter⟩
    rw [hafter, List.append_nil] at hconserves
    cases hdelivery : x.delivery? with
    | none =>
      rw [hdelivery] at hconserves
      exact absurd (List.append_eq_nil_iff.1 hconserves.symm).1 hbefore
    | some d =>
      refine ⟨d, rfl, ?_, hafter⟩
      rw [hdelivery] at hconserves
      intro hnothing
      exact hbefore (List.append_eq_nil_iff.1 (hconserves.symm.trans hnothing)).1
  . rintro ⟨d, hdelivery, hdata, hafter⟩
    refine ⟨?_, hafter⟩
    obtain ⟨buffer, hcall, _⟩ := of_delivery?_eq_some h hdelivery
    obtain ⟨id, _, hran, _⟩ := Moment.of_call?_eq_some hcall
    have hpayload : x.payload = [] := by simp [Moment.payload, hran]
    rw [hdelivery, hafter, hpayload, List.append_nil, List.append_nil] at hconserves
    rw [← hconserves]
    exact hdata

theorem empties_of_silences {σ : Type} {E : Engine σ} {m : Monitor σ} {s : Step σ} (hcounted : m.Counted)
    (h : m.step E now a = some s) (hsilences : a.silences = true)
    : (Moment.mk m now a s).empties = false := by
  rw [← Bool.not_eq_true, empties_iff hcounted h]
  rintro ⟨d, hdelivery, _⟩
  obtain ⟨buffer, hcall, _⟩ := of_delivery?_eq_some h hdelivery
  obtain ⟨id, _, rfl, _⟩ := Moment.of_call?_eq_some hcall
  contradiction

theorem readDrained_mem_calls_iff {x : Moment (σ × List EngineCall)} (hholds : x.before.conn.HoldsEngine)
    (hcounted : x.before.Counted) (h : x.before.step E.recorded x.now x.action = some x.step)
    : .readDrained ∈ x.calls ↔
      x.empties = true ∧ x.before.conn.failure = none ∧ x.before.conn.destroyed = false ∧
        x.before.conn.closed = false := by
  rw [← hholds.mayHint_iff]
  by_cases hread : ∃ buffer, x.call? = some (.readInto buffer)
  . obtain ⟨buffer, hcall⟩ := hread
    obtain ⟨id, t, hran, ht, hread⟩ := Moment.of_call?_eq_some hcall
    obtain ⟨m, now, a, s⟩ := x
    dsimp only at hran ht h ⊢
    subst hran
    rw [calls_of_read ht hread h]
    simp
  . -- whoever is no reader takes nothing from the input
    apply iff_of_false
    . intro hcall
      obtain ⟨_, ⟨id, hran⟩, _⟩ := admits_of_mem_calls h hcall
      obtain ⟨m, now, a, s⟩ := x
      dsimp only at hran h
      subst hran
      obtain ⟨t, ht, _, _⟩ := of_run_eq_some h
      refine readDrained_not_mem_calls ht ?_ h hcall
      intro buffer hlen
      exact hread ⟨buffer, by simp [Moment.call?, ht, hlen]⟩
    . rintro ⟨hempties, _⟩
      obtain ⟨d, hdelivery, _⟩ := (empties_iff hcounted h).1 hempties
      obtain ⟨buffer, hcall, _⟩ := of_delivery?_eq_some h hdelivery
      exact hread ⟨buffer, hcall⟩

theorem count_calls_le {x : Moment (σ × List EngineCall)} (h : x.before.step E.recorded x.now x.action = some x.step)
    (call : EngineCall)
    : x.calls.count call ≤ 1 := by
  obtain ⟨call?, hcalls, _⟩ := calls_of_step h
  have hcalls : x.calls = call?.toList := calls_eq call? hcalls
  rw [hcalls]
  cases call? with
  | none => exact Nat.zero_le 1
  | some call' => exact List.count_le_length

theorem Run.countP_empties_le {σ : Type} {E : Engine σ} {m : Monitor σ} {label : String} {engine : σ}
    {trace : List (Moment σ)} (run : Run E (init E label engine) trace m)
    : trace.countP Moment.empties + (if m.conn.inbound = [] then 0 else 1) ≤ trace.countP Moment.fills := by
  induction run with
  | nil => exact Nat.le_refl 0
  | @snoc trace m now a s run h ih =>
    have hconserves := (step_conserves (Run.counted run).1 h).1
    rw [List.countP_append, List.countP_append, List.countP_singleton, List.countP_singleton]
    by_cases hbefore : m.conn.inbound = []
    . have hempties : (Moment.mk m now a s).empties = false := by simp [Moment.empties, hbefore]
      rw [if_pos hbefore] at ih
      rw [hempties]
      by_cases hafter : s.monitor.conn.inbound = []
      . rw [if_pos hafter]
        simp only [Bool.false_eq_true, if_false]
        omega
      . have hfills : (Moment.mk m now a s).fills = true := by
          rw [hbefore, List.nil_append] at hconserves
          simp only [Moment.fills, Bool.not_eq_true', ← Bool.not_eq_true, List.isEmpty_iff]
          intro hnothing
          rw [hnothing] at hconserves
          exact hafter (List.append_eq_nil_iff.1 hconserves).2
        rw [if_neg hafter, hfills]
        simp only [Bool.false_eq_true, if_false, if_true]
        omega
    . rw [if_neg hbefore] at ih
      by_cases hafter : s.monitor.conn.inbound = []
      . rw [if_pos hafter]
        split <;> split <;> omega
      . have hempties : (Moment.mk m now a s).empties = false := by simp [Moment.empties, Moment.after, hafter]
        rw [if_neg hafter, hempties]
        simp only [Bool.false_eq_true, if_false]
        omega

variable {label : String} {engine : σ} {trace : List (Moment (σ × List EngineCall))}

theorem RecordedRun.count_readDrained_of_step {x : Moment (σ × List EngineCall)}
    (run : RecordedRun E label engine trace x.before)
    (h : x.before.step E.recorded x.now x.action = some x.step)
    : x.calls.count .readDrained =
      if x.empties = true ∧ ∀ y ∈ trace, y.action.silences = false then 1 else 0 := by
  have hsilenced := (Run.reflects run).not_silenced_iff
  rw [history, List.forall_mem_map] at hsilenced
  have hhint := readDrained_mem_calls_iff (Run.holdsEngine run) (Run.counted run) h
  rw [← hsilenced] at hhint
  split
  . next hcond =>
    have hpos := List.one_le_count_iff.2 (hhint.2 hcond)
    have hle := count_calls_le h .readDrained
    omega
  . next hcond =>
    rw [List.count_eq_zero, hhint]
    exact hcond

theorem RecordedRun.count_readDrained (run : RecordedRun E label engine trace m)
    : m.engine.2.count .readDrained = (trace.takeWhile fun x => !x.action.silences).countP Moment.empties := by
  induction run with
  | nil => rfl
  | @snoc trace m now a s run h ih =>
    have hcount := RecordedRun.count_readDrained_of_step (x := ⟨m, now, a, s⟩) run h
    rw [engine_of_step h, List.count_append, ih, hcount]
    by_cases hup : ∀ y ∈ trace, y.action.silences = false
    . have hall : ∀ y ∈ trace, (!y.action.silences) = true := by simpa using hup
      rw [List.takeWhile_append_of_pos hall, List.takeWhile_eq_self_iff.2 hall, List.countP_append]
      congr 1
      cases hsilences : a.silences with
      | true =>
        -- the input is left alone by the step that ends the connection
        have hempties : (Moment.mk m now a s).empties = false := empties_of_silences (Run.counted run) h hsilences
        simp [hempties, hsilences]
      | false => simp [hsilences, List.countP_singleton, and_iff_left hup]
    . have hlen : (trace.takeWhile fun y => !y.action.silences).length ≠ trace.length := by
        intro hlen
        have hself := (List.takeWhile_prefix (l := trace) fun y => !y.action.silences).eq_of_length hlen
        apply hup
        simpa using List.takeWhile_eq_self_iff.1 hself
      rw [List.takeWhile_append, if_neg hlen, if_neg fun hcond => hup hcond.2, Nat.add_zero]

/--
The engine hears that all input was read just when a read has moved the last of it, and nothing has ended the
connection so far: neither the end of the stream nor a deadline holds the hint back. So there are as many hints as
steps that left nothing of the input before the connection was ended, and never more than there were arrivals.
-/
theorem RecordedRun.hints_exact (run : RecordedRun E label engine trace m)
    : (∀ before x after, trace = before ++ x :: after →
        x.calls.count .readDrained ≤ 1 ∧
        (.readDrained ∈ x.calls ↔
          (∃ buffer d, x.call? = some (.readInto buffer) ∧ x.delivery? = some d ∧ d.data ≠ [] ∧
              x.after.conn.inbound = []) ∧
            (∀ code, .upcall (.error code) ∉ history before) ∧ .upcall .destroyed ∉ history before ∧
              .request .close ∉ history before)) ∧
      m.engine.2.count .readDrained = (trace.takeWhile fun x => !x.action.silences).countP Moment.empties ∧
      m.engine.2.count .readDrained ≤ trace.countP Moment.fills := by
  have hcount := run.count_readDrained
  refine ⟨?_, hcount, ?_⟩
  . rintro before x after rfl
    obtain ⟨hrun, h, _⟩ := Run.of_split run
    refine ⟨count_calls_le h .readDrained, ?_⟩
    have hempties := empties_iff (Run.counted hrun) h
    rw [readDrained_mem_calls_iff (Run.holdsEngine hrun) (Run.counted hrun) h,
      ← (Run.reflects hrun).not_silenced_iff, History.not_silenced_iff, hempties]
    apply and_congr_left'
    constructor
    . rintro ⟨d, hdelivery, hdata, hafter⟩
      obtain ⟨buffer, hcall, _⟩ := of_delivery?_eq_some h hdelivery
      exact ⟨buffer, d, hcall, hdelivery, hdata, hafter⟩
    . rintro ⟨_, d, _, hdelivery⟩
      exact ⟨d, hdelivery⟩
  . calc m.engine.2.count .readDrained
      _ = (trace.takeWhile fun x => !x.action.silences).countP Moment.empties := hcount
      _ ≤ trace.countP Moment.empties := (List.takeWhile_sublist _).countP_le
      _ ≤ trace.countP Moment.fills := Nat.le_of_add_right_le (Run.countP_empties_le run)

/--
Two readers share the first bytes, a third one wakes up for no reason and finds nothing, and gets late data after the
end of the stream and of its deadline. Then the engine fails, and what is read after that brings no hint.
-/
theorem late_hints_exact
    : ∃ trace m, RecordedRun Scripted.engine "a" {} trace m ∧
        m.engine.2 = [.peerAddr, .localAddr, .readDrained, .readDrained] ∧
        m.engine.2.count .readDrained = (trace.takeWhile fun x => !x.action.silences).countP Moment.empties ∧
        trace.countP Moment.empties = 3 ∧ m.engine.2.count .readDrained ≤ trace.countP Moment.fills ∧
        trace.countP Moment.fills = 3 := by
  have run : RecordedRun Scripted.engine "a" {} _ _ := Run.of_replay
    [(0, .upcall (.data [1, 2])), (0, .enter 0 (.read 1)), (0, .run 0), (0, .upcall (.data [])),
      (1, .enter 1 (.read 4)), (1, .run 1), (1, .enter 2 (.read 4)), (1, .run 2), (2, .stir 2), (2, .run 2),
      (3, .upcall .eof), (3, .request (.setDeadline (.one .reading) (some 2))), (4, .upcall (.data [3])), (4, .run 2),
      (5, .upcall (.error ⟨"ECONNRESET"⟩)), (6, .upcall (.data [4, 5])), (6, .enter 3 (.read 2)), (6, .run 3)] rfl
  have hints := RecordedRun.hints_exact run
  exact ⟨_, _, run, rfl, hints.2.1, rfl, hints.2.2, rfl⟩

end Monitor

end BlockingStream

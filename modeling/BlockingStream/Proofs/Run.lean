import BlockingStream.Monitor.Step

/-!
This module contains the runs of a connection: finite sequences of steps, in any order and at any readings
of the clock. A run is told by its moments, so that statements about a run can speak of all that happened
in it and not only of the state at its end.

Dropping the handle of a connection is its close, after which only the engine and the calls that are still
under way take steps.
-/

namespace BlockingStream

/--
One step of a run: the state it was taken in, the reading of the clock, what was done and what came of it.
-/
structure Moment (σ : Type) where
  before : Monitor σ
  now : Instant
  action : Action
  step : Step σ

namespace Moment

variable {σ : Type}

def after (x : Moment σ) : Monitor σ := x.step.monitor

/--
What a call returned in this step.
-/
def outcome? (x : Moment σ) : Option Outcome :=
  match x.action with
  | .run id => (x.after.thread? id).bind Thread.outcome?
  | _ => none

/--
The calls on the engine in this step, if they are written down.
-/
def calls (x : Moment (σ × List EngineCall)) : List EngineCall :=
  x.after.engine.2.drop x.before.engine.2.length

end Moment

namespace Monitor

variable {σ : Type} {E : Engine σ} {start m : Monitor σ} {trace : List (Moment σ)}

/--
The runs from a state, with their moments and the state at their end.
-/
inductive Run (E : Engine σ) (start : Monitor σ) : List (Moment σ) → Monitor σ → Prop where
  | nil : Run E start [] start
  | snoc {trace : List (Moment σ)} {m : Monitor σ} {now : Instant} {a : Action} {s : Step σ} :
      Run E start trace m → m.step E now a = some s → Run E start (trace ++ [⟨m, now, a, s⟩]) s.monitor

/--
The runs of a new connection over an engine whose calls are written down.
-/
def RecordedRun (E : Engine σ) (label : String) (s : σ) (trace : List (Moment (σ × List EngineCall)))
    (m : Monitor (σ × List EngineCall)) : Prop :=
  Run E.recorded (init E.recorded label (s, [])) trace m

theorem Run.invariant {P : Monitor σ → Prop} (run : Run E start trace m) (hstart : P start)
    (hstep : ∀ {m now a s}, P m → m.step E now a = some s → P s.monitor)
    : P m := by
  induction run with
  | nil => exact hstart
  | snoc _ h ih => exact hstep ih h

theorem Run.of_snoc {x : Moment σ} (run : Run E start (trace ++ [x]) m)
    : Run E start trace x.before ∧ x.before.step E x.now x.action = some x.step ∧ m = x.after := by
  generalize htrace : trace ++ [x] = full at run
  cases run with
  | nil => simp at htrace
  | snoc run h =>
    obtain ⟨rfl, heq⟩ := List.append_inj' htrace rfl
    cases heq
    exact ⟨run, h, rfl⟩

theorem Run.of_append {before after : List (Moment σ)} (run : Run E start (before ++ after) m)
    : ∃ middle, Run E start before middle ∧ Run E middle after m := by
  generalize htrace : before ++ after = full at run
  induction run generalizing after with
  | nil =>
    obtain ⟨rfl, rfl⟩ := List.append_eq_nil_iff.1 htrace
    exact ⟨start, .nil, .nil⟩
  | snoc run h ih =>
    rcases List.eq_nil_or_concat after with rfl | ⟨rest, x, rfl⟩
    . rw [List.append_nil] at htrace
      rw [htrace]
      exact ⟨_, run.snoc h, .nil⟩
    . rw [List.concat_eq_append, ← List.append_assoc] at htrace
      obtain ⟨htrace, hx⟩ := List.append_inj' htrace rfl
      obtain ⟨middle, hbefore, hafter⟩ := ih htrace
      rw [List.concat_eq_append, hx]
      exact ⟨middle, hbefore, hafter.snoc h⟩

theorem Run.of_split {before after : List (Moment σ)} {x : Moment σ}
    (run : Run E start (before ++ x :: after) m)
    : Run E start before x.before ∧ x.before.step E x.now x.action = some x.step ∧ Run E x.after after m := by
  rw [List.append_cons] at run
  obtain ⟨middle, hbefore, hafter⟩ := run.of_append
  obtain ⟨run, h, rfl⟩ := hbefore.of_snoc
  exact ⟨run, h, hafter⟩

theorem Run.append {middle : Monitor σ} {more : List (Moment σ)} (run : Run E start trace middle)
    (run' : Run E middle more m)
    : Run E start (trace ++ more) m := by
  induction run' with
  | nil =>
    rw [List.append_nil]
    exact run
  | snoc _ h ih =>
    rw [← List.append_assoc]
    exact ih.snoc h

theorem Run.cons {x : Moment σ} (h : x.before.step E x.now x.action = some x.step) (run : Run E x.after trace m)
    : Run E x.before (x :: trace) m :=
  (Run.nil.snoc h).append run

def replay (E : Engine σ) (m : Monitor σ) : List (Instant × Action) → Option (List (Moment σ) × Monitor σ)
  | [] => some ([], m)
  | (now, a) :: rest =>
    match m.step E now a with
    | some s =>
      match s.monitor.replay E rest with
      | some (trace, last) => some (⟨m, now, a, s⟩ :: trace, last)
      | none => none
    | none => none

theorem Run.replay_append {moves : List (Instant × Action)} {more : List (Moment σ)} {last : Monitor σ}
    (run : Run E start trace m) (h : m.replay E moves = some (more, last))
    : Run E start (trace ++ more) last := by
  induction moves generalizing trace m more with
  | nil =>
    cases h
    rw [List.append_nil]
    exact run
  | cons move moves ih =>
    obtain ⟨now, a⟩ := move
    unfold replay at h
    cases hs : m.step E now a with
    | none => simp [hs] at h
    | some s =>
      cases hr : s.monitor.replay E moves with
      | none => simp [hs, hr] at h
      | some r =>
        obtain ⟨rest, final⟩ := r
        simp only [hs, hr, Option.some.injEq, Prod.mk.injEq] at h
        rcases h with ⟨rfl, rfl⟩
        have := ih (run.snoc hs) hr
        rw [List.append_assoc] at this
        exact this

theorem Run.of_replay (moves : List (Instant × Action)) (h : start.replay E moves = some (trace, m))
    : Run E start trace m := by
  have := Run.nil.replay_append h
  rw [List.nil_append] at this
  exact this

end Monitor

end BlockingStream

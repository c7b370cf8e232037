import Mathlib.Data.List.Induction
import BlockingStream.Io.Task
import BlockingStream.Proofs.Attempt
import BlockingStream.Proofs.Inbound

/-!
This module contains the progress of an application thread in a task, as it is read off the moments of a run: the
thread enters a call that the task asks for, and goes on as the task says when this call returns.

If nobody else enters calls of its direction meanwhile, the call that is under way in this direction is the one of
the task.
-/

namespace BlockingStream

/--
Where a thread stands in a task: it is about to make a call, or inside the call with this number, or done.
-/
inductive Stage where
  | between (task : Task)
  | inside (task : Task) (id : Nat)
  | finished (result : TaskResult)

namespace Task

def asks (task : Task) (call : Call) : Bool :=
  match task, call with
  | .readToEnd _, .readInto buffer => buffer.length ≠ 0
  | task, call =>
    match task.next with
    | .call next => next = call
    | .done _ => false

def reach (task : Task) : Stage :=
  match task.next with
  | .call _ => .between task
  | .done result => .finished result

def follow (task : Task) (outcome : Outcome) : Stage :=
  match task.resume outcome with
  | .inl task => task.reach
  | .inr result => .finished result

variable {task : Task}

theorem asks_readToEnd {backwards : Bytes} {call : Call} (h : asks (.readToEnd backwards) call = true)
    : ∃ buffer, call = .readInto buffer ∧ buffer.length ≠ 0 := by
  cases call with
  | readInto buffer => exact ⟨buffer, rfl, of_decide_eq_true h⟩
  | _ => simp [asks, next, Call.read] at h

theorem asks_writeAll {rest : Bytes} {call : Call} (h : asks (.writeAll rest) call = true)
    : call = .write rest ∧ rest ≠ [] := by
  cases rest with
  | nil => simp [asks, next] at h
  | cons b rest =>
    simp only [asks, next, decide_eq_true_eq] at h
    exact ⟨h.symm, List.cons_ne_nil b rest⟩

theorem reach_ne_inside (task task' : Task) (id : Nat) : task.reach ≠ .inside task' id := by
  unfold reach
  split <;> exact Stage.noConfusion

theorem follow_ne_inside (task task' : Task) (outcome : Outcome) (id : Nat)
    : task.follow outcome ≠ .inside task' id := by
  unfold follow
  split
  . apply reach_ne_inside
  . exact Stage.noConfusion

end Task

namespace Stage

variable {σ : Type}

def advance (x : Moment σ) : Stage → Stage
  | .between task =>
    match x.action with
    | .enter id call => if task.asks call then .inside task id else .between task
    | _ => .between task
  | .inside task id =>
    if x.action = .run id then
      match x.outcome? with
      | some outcome => task.follow outcome
      | none => .inside task id
    else .inside task id
  | .finished result => .finished result

variable {x : Moment σ} {task : Task} {id : Nat}

theorem advance_enter {call : Call} (hx : x.action = .enter id call) (hasks : task.asks call = true)
    : advance x (.between task) = .inside task id := by
  simp only [advance, hx, hasks, if_true]

theorem advance_returned {outcome : Outcome} (hx : x.action = .run id) (houtcome : x.outcome? = some outcome)
    : advance x (.inside task id) = task.follow outcome := by
  simp only [advance, hx, houtcome, if_true]

theorem advance_underway (h : x.action = .run id → x.outcome? = none)
    : advance x (.inside task id) = .inside task id := by
  unfold advance
  dsimp only
  split
  . next hx => rw [h hx]
  . rfl

theorem advance_cases (x : Moment σ) (stage : Stage)
    : (∃ task id call, stage = .between task ∧ x.action = .enter id call ∧ task.asks call = true ∧
        stage.advance x = .inside task id) ∨
      (∃ task id outcome, stage = .inside task id ∧ x.action = .run id ∧ x.outcome? = some outcome ∧
        stage.advance x = task.follow outcome) ∨
      stage.advance x = stage := by
  cases stage with
  | between task =>
    by_cases h : ∃ id call, x.action = .enter id call ∧ task.asks call = true
    . obtain ⟨id, call, hx, hasks⟩ := h
      exact Or.inl ⟨task, id, call, rfl, hx, hasks, advance_enter hx hasks⟩
    . refine Or.inr (Or.inr ?_)
      simp only [advance]
      split
      . next id call hx => rw [if_neg fun hasks => h ⟨id, call, hx, hasks⟩]
      . rfl
  | inside task id =>
    by_cases h : ∃ outcome, x.action = .run id ∧ x.outcome? = some outcome
    . obtain ⟨outcome, hx, houtcome⟩ := h
      exact Or.inr (Or.inl ⟨task, id, outcome, rfl, hx, houtcome, advance_returned hx houtcome⟩)
    . refine Or.inr (Or.inr (advance_underway fun hx => ?_))
      exact Option.eq_none_iff_forall_ne_some.2 fun outcome houtcome => h ⟨outcome, hx, houtcome⟩
  | finished result => exact Or.inr (Or.inr rfl)

def admits (d : Direction) (a : Action) (stage : Stage) : Bool :=
  match a, stage with
  | .enter _ call, .between task => call.direction? ≠ some d || task.asks call
  | .enter _ call, _ => call.direction? ≠ some d
  | _, _ => true

theorem between_of_admits {stage : Stage} {d : Direction} {call : Call} (h : stage.admits d (.enter id call) = true)
    (hdirection : call.direction? = some d)
    : ∃ task, stage = .between task ∧ task.asks call = true := by
  cases stage with
  | between task =>
    refine ⟨task, rfl, ?_⟩
    simpa [admits, hdirection] using h
  | _ => simp [admits, hdirection] at h

/--
Where a thread stands after these moments.
-/
def after (trace : List (Moment σ)) (stage : Stage) : Stage := trace.foldl (fun stage x => stage.advance x) stage

theorem after_snoc (trace : List (Moment σ)) (x : Moment σ) (stage : Stage)
    : stage.after (trace ++ [x]) = (stage.after trace).advance x := by
  simp [after]

def aloneIn (d : Direction) : Stage → List (Moment σ) → Bool
  | _, [] => true
  | stage, x :: rest => stage.admits d x.action && (stage.advance x).aloneIn d rest

theorem aloneIn_append (d : Direction) (stage : Stage) (trace more : List (Moment σ))
    : stage.aloneIn d (trace ++ more) = (stage.aloneIn d trace && (stage.after trace).aloneIn d more) := by
  induction trace generalizing stage with
  | nil => rfl
  | cons x trace ih =>
    rw [List.cons_append, aloneIn, aloneIn, ih, Bool.and_assoc]
    rfl

end Stage

namespace Task

variable {σ : Type} {task : Task} {d : Direction} {trace more : List (Moment σ)} {x : Moment σ}

/--
Where a thread that starts with the task stands after these moments.
-/
def stage (task : Task) (trace : List (Moment σ)) : Stage := task.reach.after trace

theorem stage_snoc (task : Task) (trace : List (Moment σ)) (x : Moment σ)
    : task.stage (trace ++ [x]) = (task.stage trace).advance x :=
  task.reach.after_snoc trace x

/--
Whoever enters a call of this direction does so for the task, as long as it lasts.
-/
def AloneIn (d : Direction) (task : Task) (trace : List (Moment σ)) : Prop := task.reach.aloneIn d trace = true

theorem AloneIn.of_append (h : task.AloneIn d (trace ++ more)) : task.AloneIn d trace := by
  unfold AloneIn at h ⊢
  rw [Stage.aloneIn_append, Bool.and_eq_true] at h
  exact h.1

theorem AloneIn.of_snoc (h : task.AloneIn d (trace ++ [x])) : (task.stage trace).admits d x.action = true := by
  unfold AloneIn at h
  simp only [Stage.aloneIn_append, Stage.aloneIn, Bool.and_eq_true] at h
  exact h.2.1

theorem exists_of_finished {result : TaskResult} (h : task.stage trace = .finished result)
    (hreach : task.reach ≠ .finished result)
    : ∃ before x after task' id outcome, trace = before ++ x :: after ∧ task.stage before = .inside task' id ∧
        x.action = .run id ∧ x.outcome? = some outcome ∧ task'.follow outcome = .finished result := by
  induction trace using List.reverseRecOn with
  | nil => exact absurd h hreach
  | append_singleton trace x ih =>
    rw [stage_snoc] at h
    rcases Stage.advance_cases x (task.stage trace) with ⟨_, _, _, _, _, _, hadvance⟩ |
      ⟨task', id, outcome, hinside, hx, houtcome, hadvance⟩ | hadvance
    . rw [hadvance] at h
      contradiction
    . exact ⟨trace, x, [], task', id, outcome, rfl, hinside, hx, houtcome, hadvance.symm.trans h⟩
    . obtain ⟨before, y, after, task', id, outcome, rfl, hfinished⟩ := ih (hadvance.symm.trans h)
      exact ⟨before, y, after ++ [x], task', id, outcome, by simp, hfinished⟩

end Task

namespace Monitor

variable {σ : Type} {E : Engine σ} {start m : Monitor σ} {trace : List (Moment σ)} {d : Direction} {task : Task}
  {stage : Stage} {now : Instant} {a : Action} {s : Step σ}

/--
Nobody is inside a call of this direction.
-/
def IdleIn (d : Direction) (m : Monitor σ) : Prop :=
  ∀ t ∈ m.threads, t.call.direction? = some d → t.outcome? ≠ none

/--
The call that is under way in a direction is the one of the task.
-/
structure Serves (d : Direction) (stage : Stage) (m : Monitor σ) : Prop where
  alone {id : Nat} {t : Thread} : m.thread? id = some t → t.call.direction? = some d → t.outcome? = none →
    ∃ task, stage = .inside task id
  underway {task : Task} {id : Nat} : stage = .inside task id →
    ∃ t, m.thread? id = some t ∧ t.outcome? = none ∧ task.asks t.call = true

theorem IdleIn.serves (h : m.IdleIn d) (task : Task) : m.Serves d task.reach where
  alone ht hdirection houtcome := absurd houtcome (h _ (of_thread? ht).1 hdirection)
  underway heq := absurd heq (task.reach_ne_inside _ _)

theorem Serves.step (h : m.Serves d stage) (hs : m.step E now a = some s)
    (hadmits : stage.admits d a = true)
    : s.monitor.Serves d (stage.advance ⟨m, now, a, s⟩) where
  alone {id t} ht hdirection houtcome := by
    rcases of_thread?_step hs ht with ⟨rfl, u, hu, hmay, rfl, _⟩ | ⟨_, _, call, rfl, rfl⟩ |
      ⟨hother, u, hu, hstays⟩
    . -- it has made a round and goes on
      rw [call_round] at hdirection
      obtain ⟨task, rfl⟩ := h.alone hu hdirection (outcome?_of_mayRun hmay)
      exact ⟨task, Stage.advance_underway fun _ => (outcome?_run hu hs).trans houtcome⟩
    . rw [Thread.call_enter] at hdirection
      obtain ⟨task, rfl, hasks⟩ := Stage.between_of_admits hadmits hdirection
      exact ⟨task, Stage.advance_enter rfl hasks⟩
    . rw [hstays.call] at hdirection
      obtain ⟨task, rfl⟩ := h.alone hu hdirection (hstays.outcome?.symm.trans houtcome)
      exact ⟨task, Stage.advance_underway fun hran => absurd hran hother⟩
  underway {task id} heq := by
    rcases Stage.advance_cases ⟨m, now, a, s⟩ stage with ⟨_, _, call, _, ha, hasks, hadvance⟩ |
      ⟨task', _, outcome, _, _, _, hadvance⟩ | hadvance
    . rw [hadvance] at heq
      cases heq
      dsimp only at ha
      subst ha
      obtain ⟨hnone, rfl⟩ := of_enter_eq_some hs
      refine ⟨Thread.enter id call, ?_, by cases call <;> rfl, ?_⟩
      . simp [thread?_append, hnone]
      . rw [Thread.call_enter]
        exact hasks
    . rw [hadvance] at heq
      exact absurd heq (task'.follow_ne_inside _ _ _)
    . obtain ⟨t, ht, houtcome, hasks⟩ := h.underway (hadvance.symm.trans heq)
      rcases thread?_of_step hs id with ⟨rfl, u, hu, _, ht', _⟩ | ⟨_, hnone, _⟩ | ⟨_, hsame | hsignal⟩
      . rw [ht] at hu
        cases hu
        refine ⟨_, ht', ?_, ?_⟩
        . -- otherwise the task would have gone on
          rw [← outcome?_run ht hs, Option.eq_none_iff_forall_ne_some]
          intro outcome hreturned
          rw [hadvance.symm.trans heq, Stage.advance_returned rfl hreturned] at hadvance
          exact task.follow_ne_inside _ _ _ hadvance
        . rw [call_round]
          exact hasks
      . rw [ht] at hnone
        contradiction
      . exact ⟨t, hsame.trans ht, houtcome, hasks⟩
      . rw [ht] at hsignal
        refine ⟨t.signal, hsignal, t.outcome?_signal.trans houtcome, ?_⟩
        rw [Thread.call_signal]
        exact hasks

theorem Serves.of_outcome? {x : Moment σ} {call : Call} {outcome : Outcome} (h : x.before.Serves d stage)
    (hs : x.before.step E x.now x.action = some x.step) (hcall : x.call? = some call)
    (hdirection : call.direction? = some d) (houtcome : x.outcome? = some outcome)
    : ∃ task id, stage = .inside task id ∧ x.action = .run id ∧ stage.advance x = task.follow outcome := by
  obtain ⟨id, t, hran, ht, rfl⟩ := Moment.of_call?_eq_some hcall
  rw [hran] at hs
  obtain ⟨u, hu, hmay, _⟩ := of_run_eq_some hs
  rw [ht] at hu
  cases hu
  obtain ⟨task, rfl⟩ := h.alone ht hdirection (outcome?_of_mayRun hmay)
  exact ⟨task, id, rfl, hran, Stage.advance_returned hran houtcome⟩

theorem Serves.call? {x : Moment σ} {id : Nat} (h : x.before.Serves d (.inside task id)) (hran : x.action = .run id)
    : ∃ call, x.call? = some call ∧ task.asks call = true := by
  obtain ⟨t, ht, _, hasks⟩ := h.underway rfl
  exact ⟨t.call, by simp [Moment.call?, hran, ht], hasks⟩

theorem Run.serves (run : Run E start trace m) (hidle : start.IdleIn d) (halone : task.AloneIn d trace)
    : m.Serves d (task.stage trace) := by
  induction run with
  | nil => exact hidle.serves task
  | snoc _ h ih =>
    rw [Task.stage_snoc]
    exact (ih halone.of_append).step h halone.of_snoc

end Monitor

end BlockingStream

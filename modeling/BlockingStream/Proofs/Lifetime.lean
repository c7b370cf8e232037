import BlockingStream.Proofs.Run
import BlockingStream.Proofs.Step

/-!
This module contains the life of a thread in a run: it enters once, stays in its call, and makes its rounds
until it returns.
-/

namespace BlockingStream

namespace Monitor

variable {σ : Type} {E : Engine σ} {start m : Monitor σ} {trace : List (Moment σ)} {t : Thread} {id : Nat}
  {outcome : Outcome}

theorem Run.call_kept (run : Run E start trace m) (ht : start.thread? id = some t)
    : ∃ t', m.thread? id = some t' ∧ t'.call = t.call := by
  induction run with
  | nil => exact ⟨t, ht, rfl⟩
  | snoc _ h ih =>
    obtain ⟨u, hu, hcall⟩ := ih
    obtain ⟨t', ht', hcall'⟩ := call_of_step h hu
    exact ⟨t', ht', hcall'.trans hcall⟩

theorem Run.outcome_kept (run : Run E start trace m) (ht : start.thread? id = some t)
    (houtcome : t.outcome? = some outcome)
    : (∃ t', m.thread? id = some t' ∧ t'.outcome? = some outcome) ∧ ∀ x ∈ trace, x.action ≠ .run id := by
  induction run with
  | nil => exact ⟨⟨t, ht, houtcome⟩, by simp⟩
  | snoc _ h ih =>
    obtain ⟨⟨u, hu, houtcome'⟩, hidle⟩ := ih
    rcases thread?_of_step h id with ⟨_, v, hv, hmay, _⟩ | ⟨_, hnone, _⟩ | ⟨hother, hsame⟩
    . rw [hu] at hv
      cases hv
      rw [outcome?_of_mayRun hmay] at houtcome'
      contradiction
    . rw [hu] at hnone
      contradiction
    . rw [hu] at hsame
      constructor
      . rcases hsame with hsame | hsame
        . exact ⟨u, hsame, houtcome'⟩
        . exact ⟨u.signal, hsame, u.outcome?_signal.trans houtcome'⟩
      . intro x hx
        rcases List.mem_append.1 hx with hx | hx
        . exact hidle x hx
        . rw [List.mem_singleton.1 hx]
          exact hother

theorem Run.exists_of_ran {before after : List (Moment σ)} {x : Moment σ}
    (run : Run E start (before ++ x :: after) m) (hran : x.action = .run id)
    : ∃ u t, x.before.thread? id = some u ∧ x.before.mayRun u = true ∧ m.thread? id = some t ∧ t.call = u.call := by
  obtain ⟨_, h, hafter⟩ := run.of_split
  rw [hran] at h
  obtain ⟨u, hu, hmay, _⟩ := of_run_eq_some h
  obtain ⟨v, hv, hcall⟩ := call_of_step h hu
  obtain ⟨t, ht, hcall'⟩ := hafter.call_kept hv
  exact ⟨u, t, hu, hmay, ht, hcall'.trans hcall⟩

theorem Run.not_ran (run : Run E start trace m) (hnone : m.thread? id = none)
    : ∀ x ∈ trace, x.action ≠ .run id := by
  intro x hx hran
  obtain ⟨before, after, rfl⟩ := List.append_of_mem hx
  obtain ⟨_, t, _, _, ht, _⟩ := run.exists_of_ran hran
  rw [hnone] at ht
  contradiction

theorem of_outcome?_eq_some {x : Moment σ} (hran : x.action = .run id) (h : x.outcome? = some outcome)
    : ∃ t, x.after.thread? id = some t ∧ t.outcome? = some outcome := by
  unfold Moment.outcome? at h
  rw [hran] at h
  exact Option.bind_eq_some_iff.1 h

theorem Run.exists_of_returned {label : String} {engine : σ}
    (run : Run E (init E label engine) trace m) (ht : m.thread? id = some t) (houtcome : t.outcome? = some outcome)
    : ∃ before x after, trace = before ++ x :: after ∧ x.action = .run id ∧ x.outcome? = some outcome ∧
        ∀ y ∈ after, y.action ≠ .run id := by
  induction run generalizing t with
  | nil => contradiction
  | @snoc trace m now a s run h ih =>
    rcases of_thread?_step h ht with ⟨rfl, u, hu, hmay, rfl, _⟩ | ⟨_, _, call, _, rfl⟩ | ⟨hother, u, hu, hstays⟩
    . refine ⟨trace, _, [], rfl, rfl, ?_, by simp⟩
      change (s.monitor.thread? id).bind Thread.outcome? = some outcome
      rw [ht]
      exact houtcome
    . cases call <;> contradiction
    . obtain ⟨before, x, after, rfl, hran, houtcome', hidle⟩ := ih hu (hstays.outcome?.symm.trans houtcome)
      refine ⟨before, x, after ++ [⟨m, now, a, s⟩], by simp, hran, houtcome', ?_⟩
      intro y hy
      rcases List.mem_append.1 hy with hy | hy
      . exact hidle y hy
      . rw [List.mem_singleton.1 hy]
        exact hother

end Monitor

end BlockingStream

import BlockingStream.Proofs.Midway
import BlockingStream.Proofs.Run

/-!
This module contains the proof that a connection in a host does nothing that it could not do alone: its state is
always one that a run of the connection leads to. The worker, the other connections and the owners only choose
which of its steps are taken, and when.
-/

namespace BlockingStream

namespace Midway

variable {σ : Type} {E : Engine σ} {w w' : Midway σ} {n k i : Nat} {c c' : Connection σ}

def Solo (E : Engine σ) (h : Host σ) : Prop :=
  ∀ (i : Nat) (c : Connection σ), h.connections[i]? = some c →
    ∃ label s trace, Monitor.Run E (Monitor.init E label s) trace c.monitor

theorem Solo.replace {h : Host σ} (service : Timer.Service Nat) (solo : Solo E h)
    (hc : h.connections[i]? = some c)
    (hmonitor : c'.monitor = c.monitor ∨ ∃ now a s, c.monitor.step E now a = some s ∧ c'.monitor = s.monitor)
    : Solo E (h.replace i (c', service)) := by
  intro j c'' hj
  rcases Host.of_replace hj with ⟨rfl, rfl⟩ | ⟨_, hj⟩
  . obtain ⟨label, s, trace, run⟩ := solo j c hc
    rcases hmonitor with heq | ⟨now, a, s', hs, heq⟩
    . rw [heq]
      exact ⟨label, s, trace, run⟩
    . rw [heq]
      exact ⟨label, s, _, run.snoc hs⟩
  . exact solo j c'' hj

theorem Solo.work {r : HostStep σ} {h : Host σ} (solo : Solo E h) (hr : h.work = some r) : Solo E r.host := by
  rcases Host.of_work_eq_some hr with ⟨_, hhost⟩ | ⟨e, rest, _, hfires⟩ | ⟨_, hhost⟩
  . rw [hhost]
    exact solo
  . rcases hfires with ⟨c, hc, hfree, hhost⟩ | ⟨hhost, _⟩
    . rw [hhost]
      have hstep := Monitor.locked_of_lockFree hfree { monitor := c.monitor.broadcast }
      exact solo.replace _ hc (Or.inr ⟨h.clock, .alarm, _, hstep, rfl⟩)
    . rw [hhost]
      exact solo
  . rw [hhost]
    exact solo

theorem Solo.step (solo : Solo E w.host) (hs : Step E w k w') : Solo E w'.host := by
  cases hs with
  | opened label s =>
    intro i c hc
    rcases Host.of_openConnection hc with hold | ⟨_, rfl⟩
    . exact solo i c hold
    . exact ⟨label, s, [], .nil⟩
  | act hc _ _ hs => exact solo.replace _ hc (Or.inr ⟨_, _, _, hs, rfl⟩)
  | @drop i c dropped hc _ hbusy _ hdropped =>
    subst hdropped
    have hstep := Monitor.locked_of_lockFree (Monitor.lockFree_of_not_busy hbusy) (c.monitor.close E)
    exact solo.replace _ hc (Or.inr ⟨w.host.clock, .request .close, _, hstep, rfl⟩)
  | addNotifier hc _ => exact solo.replace _ hc (Or.inl rfl)
  | dropNotifier hc _ hdropped =>
    subst hdropped
    exact solo.replace _ hc (Or.inl rfl)
  | @disarm i c r rest hc _ =>
    obtain ⟨hmonitor, _, _⟩ := Connection.reset_frame i ⟨r.direction, none⟩ c w.host.service
    exact solo.replace _ hc (Or.inl hmonitor)
  | @reset i c r rest hc _ =>
    obtain ⟨hmonitor, _, _⟩ := Connection.reset_frame i r c w.host.service
    exact solo.replace _ hc (Or.inl hmonitor)
  | work _ hr => exact solo.work hr
  | stirWorker hr =>
    rw [Host.of_stirWorker_eq_some hr]
    exact solo
  | wait ms => exact solo

/--
A connection in a host is in a state that it can reach alone, whatever happens in between.
-/
theorem Run.solo (run : Run E n w) : Solo E w.host := by
  induction run with
  | start clock =>
    intro i c hc
    contradiction
  | step _ hs ih => exact ih.step hs

end Midway

end BlockingStream

import BlockingStream.Proofs.Backpressure
import BlockingStream.Proofs.History
import BlockingStream.Proofs.Lifetime
import BlockingStream.Proofs.Wakeup

/-!
This module contains the proof that the past of a connection decides how the wait for it to be made ends, and
whether it ends at all. Whoever sleeps in this wait is signalled by the very step that decides it.
-/

namespace BlockingStream

/--
The action may have a part in how the wait for the connection to be made ends.
-/
def Action.concernsConnecting : Action → Bool
  | .upcall .connected | .upcall (.error _) | .upcall .destroyed | .request .close => true
  | _ => false

namespace History

variable {h : History}

/--
How the wait for the connection to be made ends: with the first failure that the engine ever reported, or else well if
the connection was ever made, or else with the destruction of the engine's socket, or else with the close.
-/
def connectResult (h : History) : Option (Except StreamError Unit) :=
  match h.firstFailure with
  | some code => some (.error (.engine code))
  | none =>
    if .upcall .connected ∈ h then some (.ok ())
    else if .upcall .destroyed ∈ h then some (.error .destroyed)
    else if .request .close ∈ h then some (.error .closed)
    else none

theorem connectResult_filter (h : History)
    : connectResult (h.filter Action.concernsConnecting) = h.connectResult := by
  have hfailure : firstFailure (h.filter Action.concernsConnecting) = h.firstFailure := by
    apply findSome?_filter
    intro a ha
    unfold Action.failure?
    split
    . contradiction
    . rfl
  have hmem : ∀ a, a.concernsConnecting = true → (a ∈ h.filter Action.concernsConnecting ↔ a ∈ h) := by
    intro a ha
    rw [List.mem_filter, and_iff_left ha]
  simp only [connectResult, hfailure, hmem (.upcall .connected) rfl, hmem (.upcall .destroyed) rfl,
    hmem (.request .close) rfl]

end History

theorem Conn.Reflects.connectResult {c : Conn} {h : History} (hc : c.Reflects h)
    : c.connectResult = h.connectResult := by
  unfold Conn.connectResult History.connectResult
  rw [hc.failure]
  cases hfailure : h.firstFailure with
  | some code => rfl
  | none =>
    -- without a failure, the phase tells the destruction from the close before all else
    have hnone : c.failure.isSome = false := by rw [hc.failure, hfailure]; rfl
    simp only [Conn.phase, hnone, ← hc.connected, ← hc.destroyed, ← hc.closed, Bool.false_eq_true, if_false]
    cases c.connected <;> cases c.destroyed <;> cases c.closed <;> cases c.eof <;> rfl

namespace Monitor

variable {σ : Type} {E : Engine σ} {start m : Monitor σ} {trace before after : List (Moment σ)} {x : Moment σ}
  {t : Thread} {now : Instant} {a : Action} {s : Step σ} {id : Nat} {label : String} {engine : σ}

theorem step_connect (E : Engine σ) (now : Instant) (ht : m.thread? id = some t) (hcall : t.call = .awaitConnect)
    (hmay : m.mayRun t = true)
    : ∃ s, m.step E now (.run id) = some s ∧ s.monitor.conn = m.conn ∧ s.monitor.engine = m.engine ∧
        s.monitor.thread? id = some
          { t with
            status :=
              match m.conn.connectResult with
              | some result => .returned (.connect result)
              | none => .asleep } := by
  obtain ⟨s, hs, ht', hconn, hengine⟩ := step_of_mayRun E now ht hmay
  rw [round_of_connect hcall] at ht' hconn hengine
  exact ⟨s, hs, hconn, hengine, ht'⟩

theorem Run.undecided_so_far (run : Run E (init E label engine) (before ++ x :: after) m) (hran : x.action = .run id)
    (ht : m.thread? id = some t) (hcall : t.call = .awaitConnect) (hunderway : t.outcome? = none)
    : (history before).connectResult = none := by
  obtain ⟨u, v, hu, hmay, hv, hkept⟩ := run.exists_of_ran hran
  rw [ht] at hv
  cases hv
  obtain ⟨hbefore, h, hafter⟩ := run.of_split
  rw [← hbefore.reflects.connectResult]
  obtain ⟨s, hs, _, _, hu'⟩ := step_connect E x.now hu (hkept.symm.trans hcall) hmay
  rw [hran, hs] at h
  cases h
  cases hresult : x.before.conn.connectResult with
  | none => rfl
  | some result =>
    -- it would have returned in this attempt, and stayed so
    rw [hresult] at hu'
    obtain ⟨⟨v, hv, hreturned⟩, _⟩ := hafter.outcome_kept hu' rfl
    rw [ht] at hv
    cases hv
    rw [hunderway] at hreturned
    contradiction

theorem Run.undecided_of_asleep (run : Run E (init E label engine) trace m) (ht : m.thread? id = some t)
    (hcall : t.call = .awaitConnect) (hasleep : t.isAsleep = true)
    : (history trace).connectResult = none := by
  have hblocks := run.blocks (by simp [init]) t (of_thread? ht).1 hasleep
  rw [hcall] at hblocks
  rw [← run.reflects.connectResult]
  exact Conn.connectResult_eq_none_iff.2 hblocks

theorem Run.broadcasts_of_decided (run : Run E (init E label engine) trace m)
    (hopen : (history trace).connectResult = none)
    (hdecided : History.connectResult (history trace ++ [a]) ≠ none)
    : (Moment.mk m now a s).broadcasts = true := by
  rw [← run.reflects.connectResult] at hopen
  obtain ⟨hfailure, _, hclosed, _⟩ := Conn.connectResult_eq_none_iff.1 hopen
  have hconcerns : a.concernsConnecting = true := by
    rw [← Bool.not_eq_false]
    intro hother
    apply hdecided
    rw [← History.connectResult_filter, List.filter_append, List.filter_cons_of_neg (by simp [hother]), List.filter_nil,
      List.append_nil, History.connectResult_filter, ← run.reflects.connectResult]
    exact hopen
  unfold Action.concernsConnecting at hconcerns
  split at hconcerns
  . rfl
  . simp [Moment.broadcasts, hfailure]
  . rfl
  . simp [Moment.broadcasts, hclosed]
  . contradiction

theorem ready_of_broadcasts (h : m.step E now a = some s) (hx : (Moment.mk m now a s).broadcasts = true)
    (ht : m.thread? id = some t) (hasleep : t.isAsleep = true)
    : s.monitor.thread? id = some { t with status := .ready } := by
  obtain ⟨conn, engine, hm⟩ := monitor_of_broadcasts h hx
  have hthread := thread?_broadcast { m with conn, engine } id
  rw [hm, hthread]
  change (m.thread? id).map Thread.signal = _
  rw [ht, Option.map_some, Thread.signal, Thread.isAsleep_iff.1 hasleep]

/--
The wait for the connection to be made ends as all that has happened decides it, at whatever time, and by nothing but
failures, the making of the connection, its destruction and its close. An attempt before anything is decided sends the
thread to sleep; so did all attempts that it made earlier. What decides the wait is a broadcast, and every broadcast
makes the sleeper look again.
-/
theorem Run.connect_determined (run : Run E (init E label engine) trace m)
    : (history trace).connectResult = History.connectResult ((history trace).filter Action.concernsConnecting) ∧
      ∀ id t, m.thread? id = some t → t.call = .awaitConnect →
        (∀ now, m.mayRun t = true →
          (∀ before x after, trace = before ++ x :: after → x.action = .run id →
            (history before).connectResult = none) ∧
          ∃ s, m.step E now (.run id) = some s ∧ s.monitor.conn = m.conn ∧ s.monitor.engine = m.engine ∧
            s.monitor.thread? id = some
              { t with
                status :=
                  match (history trace).connectResult with
                  | some result => .returned (.connect result)
                  | none => .asleep }) ∧
        (t.isAsleep = true →
          (history trace).connectResult = none ∧
          ∀ now a s, m.step E now a = some s →
            (History.connectResult (history trace ++ [a]) ≠ none → (Moment.mk m now a s).broadcasts = true) ∧
            ((Moment.mk m now a s).broadcasts = true →
              s.monitor.thread? id = some { t with status := .ready })) := by
  refine ⟨(History.connectResult_filter _).symm, ?_⟩
  intro id t ht hcall
  constructor
  . intro now hmay
    constructor
    . rintro before x after rfl hran
      exact run.undecided_so_far hran ht hcall (outcome?_of_mayRun hmay)
    . rw [← run.reflects.connectResult]
      exact step_connect E now ht hcall hmay
  . intro hasleep
    have hopen := run.undecided_of_asleep ht hcall hasleep
    refine ⟨hopen, ?_⟩
    intro now a s h
    exact ⟨run.broadcasts_of_decided hopen, fun hx => ready_of_broadcasts h hx ht hasleep⟩

/--
The wait sleeps through the end of the input and a deadline that has passed. Then the connection is closed, made and
destroyed before the thread gets the lock, so that the wait ends well.
-/
theorem late_connect_determined
    : ∃ trace m t, Run Metered.engine (init Metered.engine "a" {}) trace m ∧ m.thread? 0 = some t ∧
        t.call = .awaitConnect ∧ m.mayRun t = true ∧ (history trace).connectResult = some (.ok ()) ∧
        History.connectResult ((history trace).take 6) = none ∧
        History.connectResult ((history trace).take 7) = some (.error .closed) ∧
        ∃ s, m.step Metered.engine 9 (.run 0) = some s ∧
          s.monitor.thread? 0 = some { t with status := .returned (.connect (.ok ())) } := by
  have run : Run Metered.engine (init Metered.engine "a" {}) _ _ := Run.of_replay
    [(0, .enter 0 .awaitConnect), (0, .run 0), (1, .upcall .eof), (1, .run 0),
      (2, .request (.setDeadline .both (some 1))), (2, .run 0), (3, .request .close), (3, .upcall .connected),
      (4, .upcall .destroyed)] rfl
  obtain ⟨_, determined⟩ := run.connect_determined
  obtain ⟨_, s, hs, _, _, ht⟩ := (determined 0 _ rfl rfl).1 9 rfl
  exact ⟨_, _, _, run, rfl, rfl, rfl, rfl, rfl, rfl, s, hs, ht⟩

end Monitor

end BlockingStream

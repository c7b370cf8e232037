import BlockingStream.Monitor.Step
import BlockingStream.Proofs.Round

/-!
This module contains what a single step does to the threads of a connection and to the facts they wait for. A
step that broadcasts leaves nobody asleep, and every other step leaves the facts alone.
-/

namespace BlockingStream

def Upcall.payload : Upcall → Bytes
  | .data bytes => bytes
  | _ => []

namespace Monitor

variable {σ : Type} {E : Engine σ} {m : Monitor σ} {t u : Thread} {now : Instant} {id : Nat} {s : Step σ}
  {a : Action}

theorem of_enter_eq_some {call : Call} (h : m.enter id call = some s)
    : m.thread? id = none ∧ s = { monitor := { m with threads := m.threads ++ [Thread.enter id call] } } := by
  unfold enter at h
  split at h
  . contradiction
  . next hnone =>
    cases h
    exact ⟨hnone, rfl⟩

theorem of_run_eq_some (h : m.run E now id = some s)
    : ∃ t, m.thread? id = some t ∧ m.mayRun t = true ∧
        s =
          { monitor := { m with
              conn := (m.round E now t).conn
              engine := (m.round E now t).engine }.setThread (m.round E now t).thread
            events := (m.round E now t).events } := by
  unfold run at h
  split at h
  . next t ht =>
    split at h
    . next hmay =>
      cases h
      exact ⟨t, ht, hmay, rfl⟩
    . contradiction
  . contradiction

theorem of_stir_eq_some (h : m.stir id = some s)
    : ∃ t, m.thread? id = some t ∧ t.isAsleep = true ∧ s = { monitor := m.setThread t.signal } := by
  unfold stir at h
  split at h
  . next t ht =>
    split at h
    . next hasleep =>
      cases h
      exact ⟨t, ht, hasleep, rfl⟩
    . contradiction
  . contradiction

theorem of_locked_eq_some {r : Step σ} (h : m.locked r = some s) : m.lockFree = true ∧ s = r := by
  unfold locked at h
  split at h
  . next hfree =>
    cases h
    exact ⟨hfree, rfl⟩
  . contradiction

theorem locked_of_lockFree (h : m.lockFree = true) (r : Step σ) : m.locked r = some r := by
  rw [locked, if_pos h]

theorem monitor_request (E : Engine σ) (m : Monitor σ) (r : Request)
    : (∃ conn engine, (m.request E r).monitor = { m with conn, engine }.broadcast) ∨
      (∃ conn engine, m.conn.Calm conn ∧ (m.request E r).monitor = { m with conn, engine }) := by
  cases r with
  | close =>
    by_cases hclosed : m.conn.closed = true
    . right
      refine ⟨m.conn, m.engine, Conn.Calm.refl m.conn, ?_⟩
      simp [request, close, Conn.close_of_closed E hclosed]
    . left
      rw [Bool.not_eq_true] at hclosed
      obtain ⟨attached, engine, hclose⟩ := Conn.close_of_open E hclosed m.engine
      refine ⟨{ m.conn with closed := true, attached }, engine, ?_⟩
      simp [request, close, hclose]
  | setDeadline scope deadline =>
    left
    cases scope with
    | both => exact ⟨_, _, rfl⟩
    | one direction => cases direction <;> exact ⟨_, _, rfl⟩
  | remoteAddr =>
    exact Or.inr ⟨_, _, Conn.calm_remoteAddr E m.conn m.engine, rfl⟩
  | localAddr =>
    exact Or.inr ⟨_, _, Conn.calm_ownAddr E m.conn m.engine, rfl⟩
  | stats => exact Or.inr ⟨m.conn, m.engine, Conn.Calm.refl m.conn, rfl⟩
  | phase => exact Or.inr ⟨m.conn, m.engine, Conn.Calm.refl m.conn, rfl⟩
  | buffered => exact Or.inr ⟨m.conn, m.engine, Conn.Calm.refl m.conn, rfl⟩

theorem monitor_upcall (m : Monitor σ) (u : Upcall)
    : (∃ conn, (m.upcall u).monitor = { m with conn }.broadcast) ∨ (m.upcall u).monitor = m := by
  cases u with
  | connected => exact Or.inl ⟨_, rfl⟩
  | data bytes => exact Or.inl ⟨_, rfl⟩
  | eof => exact Or.inl ⟨_, rfl⟩
  | writable => exact Or.inl ⟨_, rfl⟩
  | error code =>
    change (∃ conn, (m.fail code).monitor = _) ∨ (m.fail code).monitor = m
    unfold fail
    split
    . exact Or.inl ⟨_, rfl⟩
    . exact Or.inr rfl
  | destroyed => exact Or.inl ⟨_, rfl⟩

theorem counters_request (E : Engine σ) (m : Monitor σ) (r : Request)
    : (m.request E r).monitor.conn.inbound = m.conn.inbound ∧
      (m.request E r).monitor.conn.bytesRead = m.conn.bytesRead ∧
      (m.request E r).monitor.conn.bytesWritten = m.conn.bytesWritten := by
  cases r with
  | close =>
    simp only [request, close, Conn.close]
    repeat' split
    all_goals simp_all [broadcast]
  | setDeadline scope deadline =>
    cases scope with
    | both => exact ⟨rfl, rfl, rfl⟩
    | one direction => cases direction <;> exact ⟨rfl, rfl, rfl⟩
  | remoteAddr =>
    simp only [request, Conn.remoteAddr]
    split <;> exact ⟨rfl, rfl, rfl⟩
  | localAddr =>
    simp only [request, Conn.ownAddr]
    split <;> exact ⟨rfl, rfl, rfl⟩
  | stats => exact ⟨rfl, rfl, rfl⟩
  | phase => exact ⟨rfl, rfl, rfl⟩
  | buffered => exact ⟨rfl, rfl, rfl⟩

theorem counters_upcall (m : Monitor σ) (u : Upcall)
    : (m.upcall u).monitor.conn.inbound = m.conn.inbound ++ u.payload ∧
      (m.upcall u).monitor.conn.bytesRead = m.conn.bytesRead ∧
      (m.upcall u).monitor.conn.bytesWritten = m.conn.bytesWritten := by
  cases u with
  | data bytes => exact ⟨rfl, rfl, rfl⟩
  | error code =>
    have hpayload : (Upcall.error code).payload = [] := rfl
    change (m.fail code).monitor.conn.inbound = _ ∧ (m.fail code).monitor.conn.bytesRead = _ ∧
      (m.fail code).monitor.conn.bytesWritten = _
    rw [hpayload, List.append_nil]
    unfold fail Conn.fail
    cases m.conn.failure <;> exact ⟨rfl, rfl, rfl⟩
  | _ => simp [upcall, absorb, broadcast, Upcall.payload, Conn.destroy]

theorem asleep_of_step (h : m.step E now a = some s) (ht : t ∈ s.monitor.threads)
    (hasleep : t.isAsleep = true)
    : m.conn.Calm s.monitor.conn ∧
      (t ∈ m.threads ∧ a ≠ .run t.id ∨
        a = .run t.id ∧ ∃ t₀, m.thread? t.id = some t₀ ∧ t = (m.round E now t₀).thread ∧
          s.monitor.engine = (m.round E now t₀).engine) := by
  -- a step that broadcasts leaves nobody asleep, so that only the others are left
  have hbroadcast : ∀ {m' : Monitor σ}, s.monitor = m'.broadcast → False := by
    intro m' hm'
    rw [hm'] at ht
    rw [isAsleep_of_mem_broadcast ht] at hasleep
    contradiction
  cases a with
  | enter id call =>
    obtain ⟨_, rfl⟩ := of_enter_eq_some h
    refine ⟨Conn.Calm.refl m.conn, Or.inl ⟨?_, by simp⟩⟩
    rcases List.mem_append.1 ht with ht | ht
    . exact ht
    . rw [List.mem_singleton.1 ht, Thread.isAsleep_iff, Thread.status_enter] at hasleep
      contradiction
  | run id =>
    obtain ⟨t₀, ht₀, _, rfl⟩ := of_run_eq_some h
    have hid := (of_thread? ht₀).2
    refine ⟨calm_round E now m t₀, ?_⟩
    rcases mem_setThread ht with rfl | ⟨hmem, hne⟩
    . -- it has just gone to sleep
      right
      rw [id_round, hid]
      exact ⟨rfl, t₀, ht₀, rfl, rfl⟩
    . left
      refine ⟨hmem, ?_⟩
      intro heq
      injection heq with heq
      rw [id_round, hid] at hne
      exact hne heq.symm
  | stir id =>
    obtain ⟨t₀, _, _, rfl⟩ := of_stir_eq_some h
    refine ⟨Conn.Calm.refl m.conn, Or.inl ⟨?_, by simp⟩⟩
    rcases mem_setThread ht with rfl | ⟨hmem, _⟩
    . rw [Thread.isAsleep_signal] at hasleep
      contradiction
    . exact hmem
  | request r =>
    obtain ⟨_, rfl⟩ := of_locked_eq_some h
    rcases monitor_request E m r with ⟨conn, engine, hm⟩ | ⟨conn, engine, calm, hm⟩
    . exact (hbroadcast hm).elim
    . rw [hm] at ht ⊢
      exact ⟨calm, Or.inl ⟨ht, by simp⟩⟩
  | upcall u =>
    obtain ⟨_, rfl⟩ := of_locked_eq_some h
    rcases monitor_upcall m u with ⟨conn, hm⟩ | hm
    . exact (hbroadcast hm).elim
    . rw [hm] at ht ⊢
      exact ⟨Conn.Calm.refl m.conn, Or.inl ⟨ht, by simp⟩⟩
  | alarm =>
    obtain ⟨_, rfl⟩ := of_locked_eq_some h
    exact (hbroadcast rfl).elim
  | grant n =>
    cases h
    exact ⟨Conn.Calm.refl m.conn, Or.inl ⟨ht, by simp⟩⟩

theorem thread?_append (m : Monitor σ) (t : Thread) (id : Nat)
    : thread? { m with threads := m.threads ++ [t] } id =
      (m.thread? id).or (if t.id = id then some t else none) := by
  unfold thread?
  dsimp only
  rw [List.find?_append, List.find?_singleton]
  simp

/--
What a step does to one thread: it is its own round, or its entry, or the thread stays as it is, signalled at
most.
-/
theorem thread?_of_step (h : m.step E now a = some s) (id : Nat)
    : (a = .run id ∧ ∃ t, m.thread? id = some t ∧ m.mayRun t = true ∧
        s.monitor.thread? id = some (m.round E now t).thread ∧
        s.monitor.conn = (m.round E now t).conn ∧ s.monitor.engine = (m.round E now t).engine) ∨
      (a ≠ .run id ∧ m.thread? id = none ∧
        ∃ call, a = .enter id call ∧ s.monitor.thread? id = some (Thread.enter id call)) ∨
      a ≠ .run id ∧
        (s.monitor.thread? id = m.thread? id ∨ s.monitor.thread? id = (m.thread? id).map Thread.signal) := by
  cases a with
  | enter id' call =>
    obtain ⟨hnone, rfl⟩ := of_enter_eq_some h
    right
    rw [thread?_append, Thread.id_enter]
    by_cases hid : id' = id
    . subst hid
      left
      rw [hnone]
      exact ⟨by simp, rfl, call, rfl, by simp⟩
    . right
      refine ⟨by simp, Or.inl ?_⟩
      rw [if_neg hid]
      cases m.thread? id <;> rfl
  | run id' =>
    obtain ⟨t, ht, hmay, rfl⟩ := of_run_eq_some h
    have hself := (of_thread? ht).2
    by_cases hid : id' = id
    . subst hid
      left
      refine ⟨rfl, t, ht, hmay, ?_, rfl, rfl⟩
      have := thread?_setThread_self
        (m := { m with conn := (m.round E now t).conn, engine := (m.round E now t).engine })
        (t := (m.round E now t).thread) (u := t) (by rw [id_round, hself]; exact ht)
      rw [id_round, hself] at this
      exact this
    . right
      right
      refine ⟨by simp [hid], Or.inl ?_⟩
      apply thread?_setThread_of_ne
      rw [id_round, hself]
      exact fun heq => hid heq.symm
  | stir id' =>
    obtain ⟨t, ht, _, rfl⟩ := of_stir_eq_some h
    have hself := (of_thread? ht).2
    right
    right
    refine ⟨by simp, ?_⟩
    by_cases hid : id' = id
    . subst hid
      right
      rw [ht, ← hself, ← t.id_signal]
      apply thread?_setThread_self (u := t)
      rw [t.id_signal, hself]
      exact ht
    . left
      apply thread?_setThread_of_ne
      rw [t.id_signal, hself]
      exact fun heq => hid heq.symm
  | request r =>
    obtain ⟨_, rfl⟩ := of_locked_eq_some h
    right
    right
    refine ⟨by simp, ?_⟩
    rcases monitor_request E m r with ⟨conn, engine, hm⟩ | ⟨conn, engine, _, hm⟩
    . rw [hm]
      exact Or.inr (thread?_broadcast _ id)
    . rw [hm]
      exact Or.inl rfl
  | upcall u =>
    obtain ⟨_, rfl⟩ := of_locked_eq_some h
    right
    right
    refine ⟨by simp, ?_⟩
    rcases monitor_upcall m u with ⟨conn, hm⟩ | hm
    . rw [hm]
      exact Or.inr (thread?_broadcast _ id)
    . rw [hm]
      exact Or.inl rfl
  | alarm =>
    obtain ⟨_, rfl⟩ := of_locked_eq_some h
    exact Or.inr (Or.inr ⟨by simp, Or.inr (thread?_broadcast m id)⟩)
  | grant n =>
    cases h
    exact Or.inr (Or.inr ⟨by simp, Or.inl rfl⟩)

theorem step_of_mayRun (E : Engine σ) (now : Instant) (ht : m.thread? id = some t) (hmay : m.mayRun t = true)
    : ∃ s, m.step E now (.run id) = some s ∧ s.monitor.thread? id = some (m.round E now t).thread ∧
        s.monitor.conn = (m.round E now t).conn ∧ s.monitor.engine = (m.round E now t).engine := by
  have hstep : ∃ s, m.step E now (.run id) = some s := by
    simp [step, run, ht, hmay]
  obtain ⟨s, hs⟩ := hstep
  refine ⟨s, hs, ?_⟩
  rcases thread?_of_step hs id with ⟨_, u, hu, _, hafter⟩ | ⟨hother, _⟩ | ⟨hother, _⟩
  . rw [ht] at hu
    cases hu
    exact hafter
  . exact absurd rfl hother
  . exact absurd rfl hother

theorem of_thread?_step (h : m.step E now a = some s) (ht : s.monitor.thread? id = some t)
    : (a = .run id ∧ ∃ u, m.thread? id = some u ∧ m.mayRun u = true ∧ t = (m.round E now u).thread ∧
        s.monitor.conn = (m.round E now u).conn ∧ s.monitor.engine = (m.round E now u).engine) ∨
      (a ≠ .run id ∧ m.thread? id = none ∧ ∃ call, a = .enter id call ∧ t = Thread.enter id call) ∨
      a ≠ .run id ∧ ∃ u, m.thread? id = some u ∧ u.Stays t := by
  rcases thread?_of_step h id with ⟨ha, u, hu, hmay, ht', hconn⟩ | ⟨ha, hnone, call, hcall, ht'⟩ | ⟨ha, hsame⟩
  . rw [ht] at ht'
    cases ht'
    exact Or.inl ⟨ha, u, hu, hmay, rfl, hconn⟩
  . rw [ht] at ht'
    cases ht'
    exact Or.inr (Or.inl ⟨ha, hnone, call, hcall, rfl⟩)
  . right
    right
    refine ⟨ha, ?_⟩
    rw [ht] at hsame
    rcases hsame with hsame | hsame
    . exact ⟨t, hsame.symm, .refl t⟩
    . obtain ⟨u, hu, rfl⟩ := Option.map_eq_some_iff.1 hsame.symm
      exact ⟨u, hu, u.stays_signal⟩

theorem call_of_step (h : m.step E now a = some s) (ht : m.thread? id = some t)
    : ∃ t', s.monitor.thread? id = some t' ∧ t'.call = t.call := by
  rcases thread?_of_step h id with ⟨_, t₀, ht₀, _, ht', _⟩ | ⟨_, hnone, _⟩ | ⟨_, hsame | hsignal⟩
  . rw [ht] at ht₀
    cases ht₀
    exact ⟨_, ht', call_round⟩
  . rw [ht] at hnone
    contradiction
  . exact ⟨t, hsame.trans ht, rfl⟩
  . rw [ht] at hsignal
    exact ⟨t.signal, hsignal, t.call_signal⟩

theorem closed_of_step (h : m.step E now a = some s) (hclosed : m.conn.closed = true)
    : s.monitor.conn.closed = true := by
  cases a with
  | enter id call =>
    obtain ⟨_, rfl⟩ := of_enter_eq_some h
    exact hclosed
  | run id =>
    obtain ⟨t, _, _, rfl⟩ := of_run_eq_some h
    exact (calm_round E now m t).closed.trans hclosed
  | stir id =>
    obtain ⟨_, _, _, rfl⟩ := of_stir_eq_some h
    exact hclosed
  | request r =>
    obtain ⟨_, rfl⟩ := of_locked_eq_some h
    cases r with
    | close => simp [request, close, Conn.close_of_closed E hclosed, hclosed]
    | setDeadline scope deadline =>
      cases scope with
      | both => exact hclosed
      | one direction => cases direction <;> exact hclosed
    | remoteAddr => exact (Conn.calm_remoteAddr E m.conn m.engine).closed.trans hclosed
    | localAddr => exact (Conn.calm_ownAddr E m.conn m.engine).closed.trans hclosed
    | _ => exact hclosed
  | upcall u =>
    obtain ⟨_, rfl⟩ := of_locked_eq_some h
    cases u with
    | error code =>
      change (m.fail code).monitor.conn.closed = true
      unfold fail Conn.fail
      cases m.conn.failure <;> exact hclosed
    | _ => exact hclosed
  | alarm =>
    obtain ⟨_, rfl⟩ := of_locked_eq_some h
    exact hclosed
  | grant n =>
    cases h
    exact hclosed

/--
A step either leaves the deadlines and the alarms alone, or it wakes everybody. Then a deadline changes together
with its alarm, except that the close takes back alarms of deadlines that are kept.
-/
theorem alarms_of_step (h : m.step E now a = some s)
    : s.alarms = [] ∧ (∀ d, s.monitor.conn.deadline d = m.conn.deadline d) ∨
      (∃ r, a = .request r) ∧ (∀ t ∈ s.monitor.threads, t.isAsleep = false) ∧
        (∀ d, (∀ r ∈ s.alarms, r.direction ≠ d) → s.monitor.conn.deadline d = m.conn.deadline d) ∧
        (s.monitor.conn.closed = false → ∀ r ∈ s.alarms, r.deadline = s.monitor.conn.deadline r.direction) := by
  cases a with
  | enter id call =>
    obtain ⟨_, rfl⟩ := of_enter_eq_some h
    exact Or.inl ⟨rfl, fun _ => rfl⟩
  | run id =>
    obtain ⟨t, _, _, rfl⟩ := of_run_eq_some h
    exact Or.inl ⟨rfl, (calm_round E now m t).deadline⟩
  | stir id =>
    obtain ⟨_, _, _, rfl⟩ := of_stir_eq_some h
    exact Or.inl ⟨rfl, fun _ => rfl⟩
  | request r =>
    obtain ⟨_, rfl⟩ := of_locked_eq_some h
    cases r with
    | close =>
      by_cases hclosed : m.conn.closed = true
      . left
        simp [request, close, Conn.close_of_closed E hclosed]
      . right
        rw [Bool.not_eq_true] at hclosed
        obtain ⟨attached, engine, hclose⟩ := Conn.close_of_open E hclosed m.engine
        simp only [request, close, hclose, if_true]
        refine ⟨⟨_, rfl⟩, fun t ht => isAsleep_of_mem_broadcast ht, ?_, ?_⟩
        . -- both alarms are taken back, and the deadlines stay
          intro d _
          cases d <;> rfl
        . intro hopen
          contradiction
    | setDeadline scope deadline =>
      right
      refine ⟨⟨_, rfl⟩, fun t ht => isAsleep_of_mem_broadcast ht, ?_⟩
      cases scope with
      | both =>
        constructor
        . intro d hd
          cases d with
          | reading => exact absurd rfl (hd ⟨.reading, deadline⟩ (by simp [request, setDeadline]))
          | writing => exact absurd rfl (hd ⟨.writing, deadline⟩ (by simp [request, setDeadline]))
        . intro _ r hr
          simp only [request, setDeadline, List.mem_cons, List.not_mem_nil, or_false] at hr
          rcases hr with rfl | rfl <;> rfl
      | one direction =>
        constructor
        . intro d hd
          have := hd ⟨direction, deadline⟩ (by cases direction <;> simp [request, setDeadline])
          cases direction <;> cases d <;> first | rfl | exact absurd rfl this
        . intro _ r hr
          have : r = ⟨direction, deadline⟩ := by cases direction <;> exact List.mem_singleton.1 hr
          rw [this]
          cases direction <;> rfl
    | remoteAddr => exact Or.inl ⟨rfl, (Conn.calm_remoteAddr E m.conn m.engine).deadline⟩
    | localAddr => exact Or.inl ⟨rfl, (Conn.calm_ownAddr E m.conn m.engine).deadline⟩
    | _ => exact Or.inl ⟨rfl, fun _ => rfl⟩
  | upcall u =>
    obtain ⟨_, rfl⟩ := of_locked_eq_some h
    left
    cases u with
    | error code =>
      change (m.fail code).alarms = [] ∧ ∀ d, (m.fail code).monitor.conn.deadline d = _
      unfold fail Conn.fail
      cases m.conn.failure <;> exact ⟨rfl, fun d => by cases d <;> rfl⟩
    | _ => exact ⟨rfl, fun d => by cases d <;> rfl⟩
  | alarm =>
    obtain ⟨_, rfl⟩ := of_locked_eq_some h
    exact Or.inl ⟨rfl, fun _ => rfl⟩
  | grant n =>
    cases h
    exact Or.inl ⟨rfl, fun _ => rfl⟩

theorem alarms_close (E : Engine σ) (m : Monitor σ) : ∀ r ∈ (m.close E).alarms, r.deadline = none := by
  unfold close
  dsimp only
  split
  . simp
  . simp

theorem deadline_close (E : Engine σ) (m : Monitor σ) (d : Direction)
    : (m.close E).monitor.conn.deadline d = m.conn.deadline d := by
  rcases hclosed : m.conn.closed with _ | _
  . obtain ⟨attached, engine, hclose⟩ := Conn.close_of_open E hclosed m.engine
    unfold close
    rw [hclose]
    cases d <;> rfl
  . unfold close
    rw [Conn.close_of_closed E hclosed]
    rfl

theorem deadline_of_alarm {r : AlarmRequest} {due : Instant} (h : m.step E now a = some s) (hr : r ∈ s.alarms)
    (hdue : r.deadline = some due)
    : (∃ request, a = .request request) ∧ s.monitor.conn.deadline r.direction = some due := by
  rcases alarms_of_step h with ⟨hnone, _⟩ | ⟨⟨request, rfl⟩, _⟩
  . rw [hnone] at hr
    contradiction
  . refine ⟨⟨request, rfl⟩, ?_⟩
    obtain ⟨_, rfl⟩ := of_locked_eq_some h
    cases request with
    | close =>
      rw [alarms_close E m r hr] at hdue
      contradiction
    | setDeadline scope deadline =>
      cases scope with
      | both =>
        simp only [request, setDeadline, List.mem_cons, List.not_mem_nil, or_false] at hr
        rcases hr with rfl | rfl <;> exact hdue
      | one direction =>
        have hone : r = ⟨direction, deadline⟩ := by cases direction <;> exact List.mem_singleton.1 hr
        rw [hone] at hdue ⊢
        cases direction <;> exact hdue
    | _ => contradiction

theorem busy_of_step (h : m.step E now a = some s) (hidle : m.busy = false)
    (ha : ∀ id call, a ≠ .enter id call)
    : s.monitor.busy = false := by
  cases a with
  | enter id call => exact absurd rfl (ha id call)
  | run id =>
    obtain ⟨t, ht, hmay, _⟩ := of_run_eq_some h
    exact absurd (outcome?_of_mayRun hmay) (outcome?_of_not_busy hidle (of_thread? ht).1)
  | stir id =>
    obtain ⟨t, ht, hasleep, _⟩ := of_stir_eq_some h
    rw [isAsleep_of_not_busy hidle (of_thread? ht).1] at hasleep
    contradiction
  | request r =>
    obtain ⟨_, rfl⟩ := of_locked_eq_some h
    rcases monitor_request E m r with ⟨conn, engine, hm⟩ | ⟨conn, engine, _, hm⟩
    . rw [hm, busy_broadcast]
      exact hidle
    . rw [hm]
      exact hidle
  | upcall u =>
    obtain ⟨_, rfl⟩ := of_locked_eq_some h
    rcases monitor_upcall m u with ⟨conn, hm⟩ | hm
    . rw [hm, busy_broadcast]
      exact hidle
    . rw [hm]
      exact hidle
  | alarm =>
    obtain ⟨_, rfl⟩ := of_locked_eq_some h
    rw [busy_broadcast]
    exact hidle
  | grant n =>
    cases h
    exact hidle

theorem busy_close (E : Engine σ) (m : Monitor σ) : (m.close E).monitor.busy = m.busy := by
  rcases monitor_request E m .close with ⟨conn, engine, hm⟩ | ⟨conn, engine, _, hm⟩
  . change (m.close E).monitor = _ at hm
    rw [hm, busy_broadcast]
    rfl
  . change (m.close E).monitor = _ at hm
    rw [hm]
    rfl

theorem closed_close (E : Engine σ) (m : Monitor σ) : (m.close E).monitor.conn.closed = true := by
  have := Conn.closed_close E m.conn m.engine
  unfold close
  dsimp only
  split
  . exact this
  . exact this

end Monitor

end BlockingStream

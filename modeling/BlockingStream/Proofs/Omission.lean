import BlockingStream.Proofs.Move
import BlockingStream.Proofs.Phase

/-!
This module contains what becomes of a host when some of the threads are left out of its connections: every move
that these threads have no part in does the same without them. All that it takes is that none of them keeps a lock,
and that none of them is inside a call when the handle is dropped.
-/

namespace BlockingStream

variable {σ : Type}

namespace Action

/--
The thread that the action is about.
-/
def thread? : Action → Option Nat
  | .enter id _ | .run id | .stir id => some id
  | _ => none

/--
The action is about none of these threads.
-/
def spares (p : Nat → Bool) (a : Action) : Bool := a.thread?.all fun id => !p id

end Action

namespace Monitor

/--
The same state, without the threads whose numbers are given.
-/
def without (p : Nat → Bool) (m : Monitor σ) : Monitor σ :=
  { m with threads := m.threads.filter fun t => !p t.id }

end Monitor

def Step.without (p : Nat → Bool) (s : Step σ) : Step σ := { s with monitor := s.monitor.without p }

namespace Monitor

variable {E : Engine σ} {m : Monitor σ} {p : Nat → Bool} {t : Thread} {now : Instant} {a : Action} {s : Step σ}

theorem mem_without : t ∈ (m.without p).threads ↔ t ∈ m.threads ∧ p t.id = false := by
  simp [without]

theorem thread?_without {id : Nat} (hid : p id = false) : (m.without p).thread? id = m.thread? id := by
  unfold thread? without
  rw [List.find?_filter]
  congr
  funext t
  by_cases ht : t.id = id <;> simp [ht, hid]

theorem without_broadcast (m : Monitor σ) (p : Nat → Bool) : m.broadcast.without p = (m.without p).broadcast := by
  simp [without, broadcast, List.filter_map, Function.comp_def]

theorem without_setThread (m : Monitor σ) (p : Nat → Bool) (t : Thread)
    : (m.setThread t).without p = (m.without p).setThread t := by
  have hsame : ((fun u : Thread => !p u.id) ∘ fun u => if u.id = t.id then t else u) = fun u => !p u.id := by
    funext u
    by_cases hu : u.id = t.id <;> simp [hu]
  simp only [without, setThread, List.filter_map, hsame]

theorem setThread_of_absent (h : ∀ u ∈ m.threads, u.id ≠ t.id) : m.setThread t = m := by
  have hsame : (m.threads.map fun u => if u.id = t.id then t else u) = m.threads.map id := by
    apply List.map_congr_left
    intro u hu
    exact if_neg (h u hu)
  simp only [setThread, hsame, List.map_id]

theorem without_setThread_self (ht : p t.id = true) : (m.setThread t).without p = m.without p := by
  rw [without_setThread]
  apply setThread_of_absent
  intro u hu heq
  have hout := (mem_without.1 hu).2
  rw [heq, ht] at hout
  contradiction

theorem lockFree_without (hidle : ∀ t ∈ m.threads, p t.id = true → t.isHolding = false)
    : (m.without p).lockFree = m.lockFree := by
  rw [Bool.eq_iff_iff]
  simp only [lockFree, List.all_eq_true, mem_without, Bool.not_eq_true']
  constructor
  . intro hfree t ht
    cases hp : p t.id with
    | true => exact hidle t ht hp
    | false => exact hfree t ⟨ht, hp⟩
  . intro hfree t ht
    exact hfree t ht.1

theorem busy_without (hreturned : ∀ t ∈ m.threads, p t.id = true → t.outcome? ≠ none)
    : (m.without p).busy = m.busy := by
  rw [Bool.eq_iff_iff]
  simp only [busy, List.any_eq_true, mem_without, Option.isNone_iff_eq_none]
  constructor
  . rintro ⟨t, ⟨ht, _⟩, hbusy⟩
    exact ⟨t, ht, hbusy⟩
  . rintro ⟨t, ht, hbusy⟩
    refine ⟨t, ⟨ht, ?_⟩, hbusy⟩
    rw [← Bool.not_eq_true]
    exact fun hp => hreturned t ht hp hbusy

theorem close_without (E : Engine σ) (m : Monitor σ) (p : Nat → Bool)
    : (m.without p).close E = (m.close E).without p := by
  rcases hclose : m.conn.close E m.engine with ⟨first, conn, engine⟩
  have hsame : (m.without p).conn.close E (m.without p).engine = (first, conn, engine) := hclose
  simp only [close, Step.without, hclose, hsame]
  cases first with
  | true =>
    simp only [if_true, without_broadcast]
    rfl
  | false => rfl

theorem request_without (E : Engine σ) (m : Monitor σ) (p : Nat → Bool) (r : Request)
    : (m.without p).request E r = (m.request E r).without p := by
  cases r with
  | close => exact close_without E m p
  | setDeadline scope deadline =>
    unfold request setDeadline Step.without
    dsimp only
    rw [without_broadcast]
    cases scope with
    | both => rfl
    | one direction => cases direction <;> rfl
  | _ => rfl

theorem absorb_without (m : Monitor σ) (p : Nat → Bool) (conn : Conn) (events : List Log.Event)
    : (m.without p).absorb conn events = (m.absorb conn events).without p := by
  unfold absorb Step.without
  rw [without_broadcast]
  rfl

theorem upcall_without (m : Monitor σ) (p : Nat → Bool) (u : Upcall)
    : (m.without p).upcall u = (m.upcall u).without p := by
  cases u with
  | error code =>
    change (m.without p).fail code = (m.fail code).without p
    unfold fail
    have hconn : (m.without p).conn = m.conn := rfl
    simp only [hconn]
    cases m.conn.fail code with
    | ok conn => apply absorb_without
    | error first => rfl
  | _ => apply absorb_without

theorem locked_without (hidle : ∀ t ∈ m.threads, p t.id = true → t.isHolding = false) (s : Step σ)
    : (m.without p).locked (s.without p) = (m.locked s).map (Step.without p) := by
  unfold locked
  rw [lockFree_without hidle]
  split <;> rfl

/--
A step does the same without threads that it is not about, and is possible in the same states.
-/
theorem step_without (E : Engine σ) (now : Instant)
    (hidle : ∀ t ∈ m.threads, p t.id = true → t.isHolding = false) (ha : a.spares p = true)
    : (m.without p).step E now a = (m.step E now a).map (Step.without p) := by
  cases a with
  | enter id call =>
    have hid : p id = false := by simpa [Action.spares, Action.thread?] using ha
    simp only [step, enter, thread?_without hid]
    cases m.thread? id with
    | some t => rfl
    | none => simp [Step.without, without, hid]
  | run id =>
    have hid : p id = false := by simpa [Action.spares, Action.thread?] using ha
    simp only [step, run, thread?_without hid]
    cases ht : m.thread? id with
    | none => rfl
    | some t =>
      have hmay : (m.without p).mayRun t = m.mayRun t := by
        unfold mayRun
        rw [lockFree_without hidle]
      have hround : (m.without p).round E now t = m.round E now t := rfl
      simp only [hmay, hround]
      split
      . simp only [Option.map_some, Step.without, without_setThread]
        rfl
      . rfl
  | stir id =>
    have hid : p id = false := by simpa [Action.spares, Action.thread?] using ha
    simp only [step, stir, thread?_without hid]
    cases ht : m.thread? id with
    | none => rfl
    | some t =>
      dsimp only
      split
      . simp only [Option.map_some, Step.without, without_setThread]
      . rfl
  | request r =>
    simp only [step, request_without]
    exact locked_without hidle _
  | upcall u =>
    simp only [step, upcall_without]
    exact locked_without hidle _
  | alarm =>
    simp only [step, alarm, ← without_broadcast]
    exact locked_without hidle { monitor := m.broadcast }
  | grant n => rfl

theorem mem_of_step (h : m.step E now a = some s) (ht : t ∈ s.monitor.threads) (ha : a.thread? ≠ some t.id)
    : ∃ u ∈ m.threads, u.id = t.id ∧ (t = u ∨ t = u.signal) := by
  have hbroadcast : ∀ {m' : Monitor σ}, s.monitor = m'.broadcast → m'.threads = m.threads →
      ∃ u ∈ m.threads, u.id = t.id ∧ (t = u ∨ t = u.signal) := by
    intro m' hm' hthreads
    rw [hm', broadcast, hthreads] at ht
    obtain ⟨u, hu, rfl⟩ := List.mem_map.1 ht
    exact ⟨u, hu, u.id_signal.symm, Or.inr rfl⟩
  have hsame : ∀ {threads : List Thread}, t ∈ threads → threads = m.threads →
      ∃ u ∈ m.threads, u.id = t.id ∧ (t = u ∨ t = u.signal) :=
    fun ht hthreads => ⟨t, hthreads ▸ ht, rfl, Or.inl rfl⟩
  cases a with
  | enter id call =>
    obtain ⟨_, rfl⟩ := of_enter_eq_some h
    rcases List.mem_append.1 ht with ht | ht
    . exact ⟨t, ht, rfl, Or.inl rfl⟩
    . rw [List.mem_singleton.1 ht, Thread.id_enter] at ha
      exact absurd rfl ha
  | run id =>
    obtain ⟨u, hu, _, rfl⟩ := of_run_eq_some h
    rcases mem_setThread ht with rfl | ⟨ht, _⟩
    . rw [id_round, (of_thread? hu).2] at ha
      exact absurd rfl ha
    . exact ⟨t, ht, rfl, Or.inl rfl⟩
  | stir id =>
    obtain ⟨u, hu, _, rfl⟩ := of_stir_eq_some h
    rcases mem_setThread ht with rfl | ⟨ht, _⟩
    . rw [Thread.id_signal, (of_thread? hu).2] at ha
      exact absurd rfl ha
    . exact ⟨t, ht, rfl, Or.inl rfl⟩
  | request r =>
    obtain ⟨_, rfl⟩ := of_locked_eq_some h
    rcases monitor_request E m r with ⟨_, _, hm⟩ | ⟨_, _, _, hm⟩
    . exact hbroadcast hm rfl
    . rw [hm] at ht
      exact hsame ht rfl
  | upcall u =>
    obtain ⟨_, rfl⟩ := of_locked_eq_some h
    rcases monitor_upcall m u with ⟨_, hm⟩ | hm
    . exact hbroadcast hm rfl
    . rw [hm] at ht
      exact hsame ht rfl
  | alarm =>
    obtain ⟨_, rfl⟩ := of_locked_eq_some h
    exact hbroadcast rfl rfl
  | grant n =>
    cases h
    exact hsame ht rfl

end Monitor

namespace Connection

variable {E : Engine σ} {c : Connection σ} {p : Nat → Bool} {clock : Instant} {i : Nat} {owed : List AlarmRequest}
  {service : Timer.Service Nat} {move : OwnMove}

def without (p : Nat → Bool) (c : Connection σ) : Connection σ := { c with monitor := c.monitor.without p }

theorem reset_without (i : Nat) (r : AlarmRequest) (c : Connection σ) (p : Nat → Bool)
    (service : Timer.Service Nat)
    : (c.without p).reset i r service = ((c.reset i r service).1.without p, (c.reset i r service).2) := by
  unfold reset
  cases r.deadline <;> cases r.direction <;> rfl

theorem monitor_of_turn {t : Turn σ} (h : c.turn E clock i service owed move = some t)
    : t.connection.monitor = c.monitor ∨
      ∃ a s, (move = .act a ∨ a = .request .close) ∧ c.monitor.step E clock a = some s ∧
        t.connection.monitor = s.monitor := by
  cases move with
  | act a =>
    simp only [turn] at h
    split at h
    . split at h
      . next s hs =>
        cases h
        exact Or.inr ⟨a, s, Or.inl rfl, hs, rfl⟩
      . contradiction
    . contradiction
  | drop =>
    simp only [turn] at h
    split at h
    . next hmay =>
      rw [Bool.and_eq_true, Bool.and_eq_true, Bool.not_eq_true'] at hmay
      cases h
      have hfree := Monitor.lockFree_of_not_busy hmay.1.2
      exact Or.inr ⟨.request .close, _, Or.inr rfl, Monitor.locked_of_lockFree hfree _, rfl⟩
    . contradiction
  | addNotifier | dropNotifier =>
    simp only [turn] at h
    split at h
    . cases h
      exact Or.inl rfl
    . contradiction
  | disarm | reset =>
    simp only [turn] at h
    split at h
    . contradiction
    . cases h
      exact Or.inl (reset_frame i _ c service).1

end Connection

def Turn.without (p : Nat → Bool) (t : Turn σ) : Turn σ :=
  { t with step := t.step.map (Step.without p), connection := t.connection.without p }

def OwnMove.spares (p : Nat → Bool) : OwnMove → Bool
  | .act a => a.spares p
  | _ => true

theorem Connection.turn_without {E : Engine σ} {c : Connection σ} {p : Nat → Bool} {move : OwnMove} (clock : Instant)
    (i : Nat) (service : Timer.Service Nat) (owed : List AlarmRequest)
    (hidle : ∀ t ∈ c.monitor.threads, p t.id = true → t.isHolding = false) (hmove : move.spares p = true)
    (hdrop : move = .drop → (c.monitor.without p).busy = c.monitor.busy)
    : (c.without p).turn E clock i service owed move = (c.turn E clock i service owed move).map (Turn.without p) := by
  cases move with
  | act a =>
    have hpermits : Host.permits (c.without p) a = Host.permits c a := rfl
    have hstep : (c.without p).monitor.step E clock a = _ := Monitor.step_without E clock hidle hmove
    simp only [turn, hpermits, hstep]
    split
    . cases c.monitor.step E clock a <;> rfl
    . rfl
  | drop =>
    have hbusy : (c.without p).monitor.busy = c.monitor.busy := hdrop rfl
    have hclose : (c.without p).monitor.close E = _ := Monitor.close_without E c.monitor p
    have hhandle : (c.without p).handle = c.handle := rfl
    simp only [turn, hbusy, hclose, hhandle]
    split <;> rfl
  | addNotifier =>
    have halive : (c.without p).alive = c.alive := rfl
    simp only [turn, halive]
    split <;> rfl
  | dropNotifier =>
    have hnotifiers : (c.without p).notifiers = c.notifiers := rfl
    simp only [turn, hnotifiers]
    split <;> rfl
  | disarm | reset =>
    cases owed with
    | nil => rfl
    | cons r rest =>
      simp only [turn, reset_without]
      rfl

namespace Midway

variable {E : Engine σ} {w w' : Midway σ} {P : Nat → Nat → Bool} {k i : Nat} {move : Move σ}

/--
The same host, without the threads whose numbers are given for each connection.
-/
def without (P : Nat → Nat → Bool) (w : Midway σ) : Midway σ :=
  { w with host := { w.host with connections := w.host.connections.mapIdx fun i c => c.without (P i) } }

def Move.spares (P : Nat → Nat → Bool) : Move σ → Bool
  | .own i m => m.spares (P i)
  | _ => true

def Every (Q : Nat → Monitor σ → Prop) (w : Midway σ) : Prop :=
  ∀ i c, w.host.connections[i]? = some c → Q i c.monitor

theorem Every.replace {Q : Nat → Monitor σ → Prop} {h : Host σ} {c : Connection σ} (service : Timer.Service Nat)
    (every : Every Q { w with host := h }) (hc : Q i c.monitor)
    : Every Q { w with host := h.replace i (c, service) } := by
  intro j c' hj
  rcases Host.of_replace hj with ⟨rfl, rfl⟩ | ⟨_, hj⟩
  . exact hc
  . exact every j c' hj

theorem Every.perform {Q : Nat → Monitor σ → Prop} (allowed : Nat → Action → Prop) (every : w.Every Q)
    (hmove : w.perform E move = some (k, w')) (hown : ∀ i a, move = .own i (.act a) → allowed i a)
    (hquiet : ∀ i, allowed i (.request .close) ∧ allowed i .alarm)
    (hinit : ∀ i label s, Q i (Monitor.init E label s))
    (hstep : ∀ {i m now a s}, Q i m → m.step E now a = some s → allowed i a → Q i s.monitor)
    : w'.Every Q := by
  cases move with
  | opened label s =>
    cases hmove
    intro j c hc
    rcases Host.of_openConnection hc with hold | ⟨_, rfl⟩
    . exact every j c hold
    . exact hinit j label s
  | own i m =>
    unfold Midway.perform at hmove
    dsimp only at hmove
    split at hmove
    . next t ht =>
      cases hmove
      obtain ⟨c, hc, hturn⟩ := Option.bind_eq_some_iff.1 ht
      apply every.replace
      rcases Connection.monitor_of_turn hturn with hsame | ⟨a, s, ha, hs, hmonitor⟩
      . rw [hsame]
        exact every i c hc
      . rw [hmonitor]
        apply hstep (every i c hc) hs
        rcases ha with rfl | rfl
        . exact hown i a rfl
        . exact (hquiet i).1
    . contradiction
  | work =>
    unfold Midway.perform at hmove
    dsimp only at hmove
    split at hmove
    . split at hmove
      . next r hr =>
        cases hmove
        rcases Host.of_work_eq_some hr with ⟨_, hhost⟩ | ⟨e, rest, _, ⟨c, hc, hfree, hhost⟩ | ⟨hhost, _⟩⟩ | ⟨_, hhost⟩
        . rw [hhost]
          exact every
        . rw [hhost]
          apply every.replace
          have halarm : c.monitor.step E w.host.clock .alarm = some { monitor := c.monitor.broadcast } :=
            Monitor.locked_of_lockFree hfree _
          exact hstep (every e.2 c hc) halarm (hquiet e.2).2
        . rw [hhost]
          exact every
        . rw [hhost]
          exact every
      . contradiction
    . contradiction
  | stirWorker =>
    unfold Midway.perform at hmove
    dsimp only at hmove
    split at hmove
    . next r hr =>
      cases hmove
      rw [Host.of_stirWorker_eq_some hr]
      exact every
    . contradiction
  | wait ms =>
    cases hmove
    exact every

def Idle (P : Nat → Nat → Bool) (w : Midway σ) : Prop :=
  w.Every fun i m => ∀ t ∈ m.threads, P i t.id = true → t.isHolding = false

theorem connection_without (w : Midway σ) (P : Nat → Nat → Bool) (i : Nat)
    : (w.without P).host.connections[i]? = w.host.connections[i]?.map (·.without (P i)) :=
  List.getElem?_mapIdx ..

theorem turn?_without {m : OwnMove} (hidle : w.Idle P) (hm : m.spares (P i) = true)
    (hdrop : m = .drop → ∀ c, w.host.connections[i]? = some c → (c.monitor.without (P i)).busy = c.monitor.busy)
    : (w.without P).turn? E i m = (w.turn? E i m).map (Turn.without (P i)) := by
  unfold turn?
  rw [connection_without]
  cases hc : w.host.connections[i]? with
  | none => rfl
  | some c => exact Connection.turn_without _ _ _ _ (hidle i c hc) hm fun h => hdrop h c hc

theorem turned_without (w : Midway σ) (P : Nat → Nat → Bool) (i : Nat) (t : Turn σ)
    : (w.without P).turned i (t.without (P i)) = (w.turned i t).without P := by
  simp only [turned, owe, without, Host.replace, List.mapIdx_set]
  rfl

theorem mayWork_without (w : Midway σ) (P : Nat → Nat → Bool) : (w.without P).mayWork = w.mayWork := by
  unfold mayWork
  have hservice : (w.without P).host.service = w.host.service := rfl
  rw [hservice]
  cases w.host.service.worker with
  | firing batch =>
    cases batch with
    | nil => rfl
    | cons e rest =>
      simp only [connection_without]
      cases w.host.connections[e.2]? <;> rfl
  | _ => rfl

theorem fire_without (hidle : w.Idle P) (i : Nat)
    : (w.without P).host.fire i =
        (w.host.fire i).map fun h => { h with connections := h.connections.mapIdx fun i c => c.without (P i) } := by
  unfold Host.fire
  rw [connection_without]
  cases hc : w.host.connections[i]? with
  | none => rfl
  | some c =>
    have hlocked := Monitor.locked_without (p := P i) (hidle i c hc) { monitor := c.monitor.broadcast }
    have halarm : (c.without (P i)).monitor.alarm = c.monitor.alarm.map (Step.without (P i)) := by
      rw [← Monitor.alarm.eq_1] at hlocked
      unfold Monitor.alarm
      change (c.monitor.without (P i)).locked { monitor := (c.monitor.without (P i)).broadcast } = _
      rw [← Monitor.without_broadcast]
      exact hlocked
    have halive : (c.without (P i)).alive = c.alive := rfl
    simp only [Option.map_some, halive, halarm]
    split
    . cases c.monitor.alarm with
      | none => rfl
      | some s =>
        simp only [Option.map_some, Option.bind_eq_bind, Option.bind_some, List.mapIdx_set]
        rfl
    . rfl

theorem work_without (hidle : w.Idle P)
    : (w.without P).host.work = w.host.work.map fun r =>
        { r with host := { r.host with connections := r.host.connections.mapIdx fun i c => c.without (P i) } } := by
  unfold Host.work
  change (w.host.service.step w.host.clock).bind _ = ((w.host.service.step w.host.clock).bind _).map _
  cases w.host.service.step w.host.clock with
  | none => rfl
  | some r =>
    obtain ⟨fired, service⟩ := r
    cases fired with
    | none => rfl
    | some e =>
      simp only [Option.bind_some, fire_without hidle]
      cases w.host.fire e.2 <;> rfl

theorem perform_without (E : Engine σ) (hidle : w.Idle P) (hmove : move.spares P = true)
    (hdrop : ∀ i c, move = .own i .drop → w.host.connections[i]? = some c →
      (c.monitor.without (P i)).busy = c.monitor.busy)
    : (w.without P).perform E move = (w.perform E move).map fun r => (r.1, r.2.without P) := by
  cases move with
  | opened label s =>
    simp [perform, without, Host.openConnection, List.mapIdx_append, Connection.without, Monitor.without, Monitor.init]
  | own i m =>
    have hturn := turn?_without (E := E) (i := i) hidle hmove fun h c hc => hdrop i c (by rw [h]) hc
    simp only [perform, hturn]
    cases w.turn? E i m with
    | none => rfl
    | some t =>
      simp only [Option.map_some, turned_without]
      rfl
  | work =>
    simp only [perform, mayWork_without, work_without hidle]
    split
    . cases w.host.work <;> rfl
    . rfl
  | stirWorker =>
    have hservice : (w.without P).host.service = w.host.service := rfl
    simp only [perform, Host.stirWorker, hservice]
    cases w.host.service.worker <;> rfl
  | wait ms => rfl

/--
All calls of the threads have returned.
-/
def Settled (P : Nat → Nat → Bool) (w : Midway σ) : Prop :=
  w.Every fun i m => ∀ t ∈ m.threads, P i t.id = true → t.outcome? ≠ none

theorem Settled.idle (settled : w.Settled P) : w.Idle P := by
  intro i c hc t ht hp
  have hreturned := settled i c hc t ht hp
  unfold Thread.outcome? at hreturned
  unfold Thread.isHolding
  cases hstatus : t.status <;> simp_all

theorem Settled.perform (settled : w.Settled P) (hmove : w.perform E move = some (k, w'))
    (hspares : move.spares P = true)
    : w'.Settled P := by
  apply Every.perform (fun i a => a.spares (P i) = true) settled hmove
  . rintro i a rfl
    exact hspares
  . intro i
    exact ⟨rfl, rfl⟩
  . intro i label s t ht
    contradiction
  . intro i m now a s hm hs ha t ht hp
    have hother : a.thread? ≠ some t.id := by
      intro heq
      simp [Action.spares, heq, hp] at ha
    obtain ⟨u, hu, hid, rfl | rfl⟩ := Monitor.mem_of_step hs ht hother
    . exact hm t hu hp
    . rw [Thread.outcome?_signal]
      apply hm u hu
      rw [hid]
      exact hp

theorem Settled.perform_without (settled : w.Settled P) (E : Engine σ) (hspares : move.spares P = true)
    : (w.without P).perform E move = (w.perform E move).map fun r => (r.1, r.2.without P) :=
  Midway.perform_without E settled.idle hspares fun i c _ hc => Monitor.busy_without (settled i c hc)

namespace Event

def without (P : Nat → Nat → Bool) (x : Event σ) : Event σ := ⟨x.before.without P, x.move, x.after.without P⟩

end Event

theorem Settled.replay_without {moves : List (Move σ)} (settled : w.Settled P) (E : Engine σ)
    (hspares : ∀ move ∈ moves, move.spares P = true)
    : (w.without P).replay E moves =
        (w.replay E moves).map fun r => (r.1.map (Event.without P), r.2.1, r.2.2.without P) := by
  induction moves generalizing w with
  | nil => rfl
  | cons move rest ih =>
    rw [List.forall_mem_cons] at hspares
    simp only [replay, settled.perform_without E hspares.1]
    cases hmove : w.perform E move with
    | none => rfl
    | some r =>
      simp only [Option.map_some, ih (settled.perform hmove hspares.1) hspares.2]
      cases r.2.replay E rest <;> rfl

end Midway

end BlockingStream

import BlockingStream.Host.Step
import BlockingStream.Proofs.Step
import BlockingStream.Proofs.Timer

/-!
This module contains the runs of a host at the grain of its locks. Whoever resets an alarm keeps the lock of its
connection, but takes the lock of the timer queue anew for each change of the queue. In between, the worker, the
clock and the other connections go on.

A step of a host is one such sequence of smaller steps, the one in which nobody comes in between.
-/

namespace BlockingStream

def Action.needsLock : Action → Bool
  | .enter _ _ | .stir _ | .grant _ => false
  | .run _ | .request _ | .upcall _ | .alarm => true

def AlarmRequest.schedules (r : AlarmRequest) : Nat :=
  match r.deadline with
  | some _ => 1
  | none => 0

def AlarmRequest.schedulesAll : List AlarmRequest → Nat
  | [] => 0
  | r :: rest => r.schedules + schedulesAll rest

theorem AlarmRequest.schedulesAll_append (requests more : List AlarmRequest)
    : schedulesAll (requests ++ more) = schedulesAll requests + schedulesAll more := by
  induction requests with
  | nil => exact (Nat.zero_add _).symm
  | cons r rest ih =>
    rw [List.cons_append, schedulesAll, schedulesAll, ih]
    exact (Nat.add_assoc _ _ _).symm

namespace Connection

variable {σ : Type}

def releases (c : Connection σ) : List AlarmRequest :=
  if c.alive then [] else [⟨.reading, none⟩, ⟨.writing, none⟩]

theorem schedulesAll_releases (c : Connection σ) : AlarmRequest.schedulesAll c.releases = 0 := by
  unfold releases
  split <;> rfl

theorem releaseUnowned_eq (i : Nat) (c : Connection σ) (service : Timer.Service Nat)
    : c.releaseUnowned i service = c.resetAll i c.releases service := by
  unfold releaseUnowned releases
  split <;> rfl

@[simp]
theorem resetAll_nil (i : Nat) (c : Connection σ) (service : Timer.Service Nat)
    : c.resetAll i [] service = (c, service) :=
  rfl

@[simp]
theorem resetAll_cons (i : Nat) (r : AlarmRequest) (rest : List AlarmRequest) (c : Connection σ)
    (service : Timer.Service Nat)
    : c.resetAll i (r :: rest) service = (c.reset i r service).1.resetAll i rest (c.reset i r service).2 :=
  rfl

theorem resetAll_append (i : Nat) (requests more : List AlarmRequest) (c : Connection σ)
    (service : Timer.Service Nat)
    : c.resetAll i (requests ++ more) service =
      (c.resetAll i requests service).1.resetAll i more (c.resetAll i requests service).2 := by
  simp [resetAll, List.foldl_append]

theorem reset_frame (i : Nat) (r : AlarmRequest) (c : Connection σ) (service : Timer.Service Nat)
    : (c.reset i r service).1.monitor = c.monitor ∧ (c.reset i r service).1.handle = c.handle ∧
      (c.reset i r service).1.notifiers = c.notifiers := by
  unfold reset
  cases r.deadline <;> cases r.direction <;> exact ⟨rfl, rfl, rfl⟩

theorem resetAll_frame (i : Nat) (requests : List AlarmRequest) (c : Connection σ) (service : Timer.Service Nat)
    : (c.resetAll i requests service).1.monitor = c.monitor ∧
      (c.resetAll i requests service).1.handle = c.handle ∧
      (c.resetAll i requests service).1.notifiers = c.notifiers := by
  induction requests generalizing c service with
  | nil => exact ⟨rfl, rfl, rfl⟩
  | cons r rest ih =>
    obtain ⟨hmonitor, hhandle, hnotifiers⟩ := reset_frame i r c service
    rw [resetAll_cons, (ih _ _).1, (ih _ _).2.1, (ih _ _).2.2]
    exact ⟨hmonitor, hhandle, hnotifiers⟩

theorem releases_resetAll (i : Nat) (requests : List AlarmRequest) (c : Connection σ)
    (service : Timer.Service Nat)
    : (c.resetAll i requests service).1.releases = c.releases := by
  obtain ⟨_, hhandle, hnotifiers⟩ := resetAll_frame i requests c service
  unfold releases alive
  rw [hhandle, hnotifiers]

end Connection

/--
A host in which some connections still have alarms to reset before they give their lock back.
-/
structure Midway (σ : Type) where
  host : Host σ
  owed : Nat → List AlarmRequest := fun _ => []

namespace Midway

variable {σ : Type} {E : Engine σ} {w w' : Midway σ} {n k i : Nat} {c : Connection σ}

def owe (w : Midway σ) (i : Nat) (requests : List AlarmRequest) : Midway σ :=
  { w with owed := fun j => if j = i then requests else w.owed j }

def update (w : Midway σ) (i : Nat) (c : Connection σ) : Midway σ :=
  { w with host := w.host.replace i (c, w.host.service) }

/--
The smaller steps, with the number of entries that are scheduled in them.
-/
inductive Step (E : Engine σ) : Midway σ → Nat → Midway σ → Prop where
  | opened (w : Midway σ) (label : String) (s : σ) :
      Step E w 0 { w with host := (w.host.openConnection E label s).host }
  /-- A step of connection `i`. The alarms that it asks for are still to be reset. -/
  | act {w : Midway σ} {i : Nat} {c : Connection σ} {a : Action} {s : BlockingStream.Step σ} :
      w.host.connections[i]? = some c → Host.permits c a = true → (a.needsLock = true → w.owed i = []) →
      c.monitor.step E w.host.clock a = some s →
      Step E w 0 ((w.update i { c with monitor := s.monitor }).owe i (w.owed i ++ s.alarms))
  /-- The application drops its handle, and perhaps the connection with it. -/
  | drop {w : Midway σ} {i : Nat} {c dropped : Connection σ} :
      w.host.connections[i]? = some c → c.handle = true → c.monitor.busy = false → w.owed i = [] →
      dropped = { c with monitor := (c.monitor.close E).monitor, handle := false } →
      Step E w 0 ((w.update i dropped).owe i ((c.monitor.close E).alarms ++ dropped.releases))
  | addNotifier {w : Midway σ} {i : Nat} {c : Connection σ} :
      w.host.connections[i]? = some c → c.alive = true →
      Step E w 0 (w.update i { c with notifiers := c.notifiers + 1 })
  | dropNotifier {w : Midway σ} {i : Nat} {c dropped : Connection σ} :
      w.host.connections[i]? = some c → 0 < c.notifiers →
      dropped = { c with notifiers := c.notifiers - 1 } →
      Step E w 0 ((w.update i dropped).owe i (w.owed i ++ dropped.releases))
  /-- The old entry of an alarm is cancelled, for the new one to be scheduled later. -/
  | disarm {w : Midway σ} {i : Nat} {c : Connection σ} {r : AlarmRequest} {rest : List AlarmRequest} :
      w.host.connections[i]? = some c → w.owed i = r :: rest →
      Step E w 0 { w with host := w.host.replace i (c.reset i ⟨r.direction, none⟩ w.host.service) }
  | reset {w : Midway σ} {i : Nat} {c : Connection σ} {r : AlarmRequest} {rest : List AlarmRequest} :
      w.host.connections[i]? = some c → w.owed i = r :: rest →
      Step E w r.schedules
        (owe { w with host := w.host.replace i (c.reset i r w.host.service) } i rest)
  /-- The worker needs the lock of a connection only to fire an entry of it. -/
  | work {w : Midway σ} {r : HostStep σ} :
      (∀ e rest c, w.host.service.worker = .firing (e :: rest) → w.host.connections[e.2]? = some c →
        c.alive = true → w.owed e.2 = []) →
      w.host.work = some r → Step E w 0 { w with host := r.host }
  | stirWorker {w : Midway σ} {r : HostStep σ} :
      w.host.stirWorker = some r → Step E w 0 { w with host := r.host }
  | wait (w : Midway σ) (ms : Nat) :
      Step E w 0 { w with host := { w.host with clock := w.host.clock + ms } }

/--
The runs of a new host, with the number of entries that were scheduled in them.
-/
inductive Run (E : Engine σ) : Nat → Midway σ → Prop where
  | start (clock : Instant) : Run E 0 { host := { clock } }
  | step {n k : Nat} {w w' : Midway σ} : Run E n w → Step E w k w' → Run E (n + k) w'

end Midway

def HostAction.schedules : HostAction → Nat
  | .act _ (.request (.setDeadline .both (some _))) => 2
  | .act _ (.request (.setDeadline (.one _) (some _))) => 1
  | _ => 0

def HostAction.schedulesAll : List HostAction → Nat
  | [] => 0
  | a :: rest => a.schedules + schedulesAll rest

namespace Host

variable {σ : Type} {E : Engine σ} {h h' : Host σ} {c : Connection σ} {i j : Nat}

def replay (E : Engine σ) (h : Host σ) : List HostAction → Option (Host σ)
  | [] => some h
  | a :: rest =>
    match h.step E a with
    | some r => r.host.replay E rest
    | none => none

theorem of_openConnection {label : String} {s : σ}
    (hc : (h.openConnection E label s).host.connections[i]? = some c)
    : h.connections[i]? = some c ∨
      h.connections[i]? = none ∧ c = { monitor := Monitor.init E label s, notifiers := 1 } := by
  simp only [openConnection, List.getElem?_append] at hc
  split at hc
  . exact Or.inl hc
  . next hge =>
    right
    have := List.mem_of_getElem? hc
    rw [List.mem_singleton] at this
    rw [List.getElem?_eq_none_iff]
    exact ⟨Nat.le_of_not_lt hge, this⟩

theorem of_replace {cs : Connection σ × Timer.Service Nat} (hc : (h.replace i cs).connections[j]? = some c)
    : j = i ∧ c = cs.1 ∨ j ≠ i ∧ h.connections[j]? = some c := by
  simp only [replace, List.getElem?_set] at hc
  split at hc
  . next heq =>
    split at hc
    . cases hc
      exact Or.inl ⟨heq.symm, rfl⟩
    . contradiction
  . next hne => exact Or.inr ⟨fun heq => hne heq.symm, hc⟩

theorem of_act_eq_some {a : Action} {r : HostStep σ} (hr : h.act E i a = some r)
    : ∃ c s, h.connections[i]? = some c ∧ permits c a = true ∧ c.monitor.step E h.clock a = some s ∧
        r = h.apply i c s := by
  simp only [act, Option.bind_eq_bind, Option.bind_eq_some_iff] at hr
  obtain ⟨c, hc, hr⟩ := hr
  split at hr
  . next hpermits =>
    obtain ⟨s, hs, hr⟩ := Option.bind_eq_some_iff.1 hr
    cases hr
    exact ⟨c, s, hc, hpermits, hs, rfl⟩
  . contradiction

theorem of_drop_eq_some {r : HostStep σ} (hr : h.drop E i = some r)
    : ∃ c, h.connections[i]? = some c ∧ c.handle = true ∧ c.monitor.busy = false ∧
        let s := c.monitor.close E
        let cs := { c with monitor := s.monitor, handle := false }.resetAll i s.alarms h.service
        r.host = h.replace i (cs.1.releaseUnowned i cs.2) := by
  simp only [drop, Option.bind_eq_bind, Option.bind_eq_some_iff] at hr
  obtain ⟨c, hc, hr⟩ := hr
  split at hr
  . next hmay =>
    cases hr
    simp only [Bool.and_eq_true, Bool.not_eq_true'] at hmay
    exact ⟨c, hc, hmay.1, hmay.2, rfl⟩
  . contradiction

theorem of_addNotifier_eq_some {r : HostStep σ} (hr : h.addNotifier i = some r)
    : ∃ c, h.connections[i]? = some c ∧ c.alive = true ∧
        r.host = h.replace i ({ c with notifiers := c.notifiers + 1 }, h.service) := by
  simp only [addNotifier, Option.bind_eq_bind, Option.bind_eq_some_iff] at hr
  obtain ⟨c, hc, hr⟩ := hr
  split at hr
  . next halive =>
    cases hr
    exact ⟨c, hc, halive, rfl⟩
  . contradiction

theorem of_dropNotifier_eq_some {r : HostStep σ} (hr : h.dropNotifier i = some r)
    : ∃ c, h.connections[i]? = some c ∧ 0 < c.notifiers ∧
        r.host = h.replace i (Connection.releaseUnowned i { c with notifiers := c.notifiers - 1 } h.service) := by
  simp only [dropNotifier, Option.bind_eq_bind, Option.bind_eq_some_iff] at hr
  obtain ⟨c, hc, hr⟩ := hr
  split at hr
  . next hsome =>
    cases hr
    exact ⟨c, hc, hsome, rfl⟩
  . contradiction

theorem of_stirWorker_eq_some {r : HostStep σ} (hr : h.stirWorker = some r)
    : r.host = { h with service := h.service.notify } := by
  unfold stirWorker at hr
  split at hr
  . cases hr
    rfl
  . contradiction

def Fires (h : Host σ) (i : Nat) (service : Timer.Service Nat) (h' : Host σ) : Prop :=
  (∃ c, h.connections[i]? = some c ∧ c.monitor.lockFree = true ∧
      h' = h.replace i ({ c with monitor := c.monitor.broadcast }, service)) ∨
    (h' = { h with service } ∧ ∀ c, h.connections[i]? = some c → c.alive = false)

theorem fires_of_fire (hfire : h.fire i = some h') (service : Timer.Service Nat)
    : h.Fires i service { h' with service } := by
  unfold fire at hfire
  split at hfire
  . next c hc =>
    split at hfire
    . obtain ⟨s, hs, hfire⟩ := Option.bind_eq_some_iff.1 hfire
      obtain ⟨hfree, rfl⟩ := Monitor.of_locked_eq_some hs
      cases hfire
      exact Or.inl ⟨c, hc, hfree, rfl⟩
    . next hdead =>
      cases hfire
      right
      refine ⟨rfl, ?_⟩
      intro c' hc'
      rw [hc] at hc'
      cases hc'
      rw [← Bool.not_eq_true]
      exact hdead
  . next hnone =>
    cases hfire
    right
    refine ⟨rfl, ?_⟩
    intro c hc
    rw [hnone] at hc
    contradiction

theorem of_work_eq_some {r : HostStep σ} (hr : h.work = some r)
    : (h.service.worker = .awake ∧ r.host = { h with service := h.service.scan h.clock }) ∨
      (∃ e rest, h.service.worker = .firing (e :: rest) ∧
        h.Fires e.2 { h.service with worker := .firing rest } r.host) ∨
      (h.service.batch = [] ∧ r.host = { h with service := { h.service with worker := .awake } }) := by
  simp only [work, Option.bind_eq_bind, Option.bind_eq_some_iff] at hr
  obtain ⟨⟨fired, service⟩, hstep, hr⟩ := hr
  rcases Timer.Service.of_step_eq_some hstep with ⟨rfl, hawake, rfl⟩ | ⟨e, rest, hworker, rfl, rfl⟩ | ⟨rfl, hnone, rfl⟩
  . cases hr
    exact Or.inl ⟨hawake, rfl⟩
  . obtain ⟨host, hfire, hr⟩ := Option.bind_eq_some_iff.1 hr
    cases hr
    exact Or.inr (Or.inl ⟨e, rest, hworker, fires_of_fire hfire _⟩)
  . cases hr
    exact Or.inr (Or.inr ⟨hnone, rfl⟩)

end Host

namespace Midway

variable {σ : Type} {E : Engine σ} {w w' : Midway σ} {n k i : Nat} {c : Connection σ} {h h' : Host σ}

theorem schedulesAll_close (m : Monitor σ) : AlarmRequest.schedulesAll (m.close E).alarms = 0 := by
  unfold Monitor.close
  dsimp only
  split <;> rfl

theorem schedulesAll_alarms {m : Monitor σ} {now : Instant} {a : Action} {s : BlockingStream.Step σ}
    (hs : m.step E now a = some s)
    : AlarmRequest.schedulesAll s.alarms = (HostAction.act i a).schedules := by
  cases a with
  | enter id call =>
    obtain ⟨_, rfl⟩ := Monitor.of_enter_eq_some hs
    rfl
  | run id =>
    obtain ⟨t, _, _, rfl⟩ := Monitor.of_run_eq_some hs
    rfl
  | stir id =>
    obtain ⟨_, _, _, rfl⟩ := Monitor.of_stir_eq_some hs
    rfl
  | request r =>
    obtain ⟨_, rfl⟩ := Monitor.of_locked_eq_some hs
    cases r with
    | close => exact schedulesAll_close m
    | setDeadline scope deadline =>
      cases deadline with
      | none =>
        cases scope with
        | both => rfl
        | one direction => cases direction <;> rfl
      | some due =>
        cases scope with
        | both => rfl
        | one direction => cases direction <;> rfl
    | _ => rfl
  | upcall u =>
    obtain ⟨_, rfl⟩ := Monitor.of_locked_eq_some hs
    cases u with
    | error code =>
      change AlarmRequest.schedulesAll (m.fail code).alarms = _
      unfold Monitor.fail
      split <;> rfl
    | _ => rfl
  | alarm =>
    obtain ⟨_, rfl⟩ := Monitor.of_locked_eq_some hs
    rfl
  | grant n =>
    cases hs
    rfl

theorem replace_self (hc : h.connections[i]? = some c) : h.replace i (c, h.service) = h := by
  have hset : h.connections.set i c = h.connections := by
    apply List.ext_getElem?
    intro j
    rw [List.getElem?_set]
    split
    . next heq =>
      subst heq
      have hlt := (List.getElem?_eq_some_iff.1 hc).1
      simp only [hlt, if_true]
      exact hc.symm
    . rfl
  rw [Host.replace, hset]

theorem replace_replace (h : Host σ) (i : Nat) (cs cs' : Connection σ × Timer.Service Nat)
    : (h.replace i cs).replace i cs' = h.replace i cs' := by
  simp [Host.replace, List.set_set]

theorem connections_replace (hc : h.connections[i]? = some c) (cs : Connection σ × Timer.Service Nat)
    : (h.replace i cs).connections[i]? = some cs.1 := by
  have := (List.getElem?_eq_some_iff.1 hc).1
  simp [Host.replace, this]

theorem owe_owe (w : Midway σ) (i : Nat) (requests requests' : List AlarmRequest)
    : (w.owe i requests).owe i requests' = w.owe i requests' := by
  simp only [owe, mk.injEq, true_and]
  funext j
  split <;> rfl

theorem owe_self (w : Midway σ) (i : Nat) : w.owe i (w.owed i) = w := by
  have : (fun j => if j = i then w.owed i else w.owed j) = w.owed := by
    funext j
    split
    . next heq => rw [heq]
    . rfl
  rw [owe, this]

theorem Run.resetAll {requests : List AlarmRequest} (run : Run E n w)
    (hc : w.host.connections[i]? = some c) (howed : w.owed i = requests)
    : Run E (n + AlarmRequest.schedulesAll requests)
        (owe { w with host := w.host.replace i (c.resetAll i requests w.host.service) } i []) := by
  -- nobody comes in between, since the lock is kept until nothing is owed
  induction requests generalizing n w c with
  | nil =>
    have hself := owe_self w i
    rw [howed] at hself
    rw [Connection.resetAll_nil, replace_self hc]
    change Run E n (w.owe i [])
    rw [hself]
    exact run
  | cons r rest ih =>
    -- the first alarm is reset, and the others are still owed
    have hreset := run.step (.reset hc howed)
    have hsettled := ih hreset (connections_replace hc _) (by simp [owe])
    rw [Nat.add_assoc] at hsettled
    change Run E _ (owe (owe { w with host := (w.host.replace i _).replace i _ } i rest) i []) at hsettled
    rw [owe_owe, replace_replace] at hsettled
    exact hsettled

/--
A step of a host is a sequence of smaller steps, after which nothing is owed.
-/
theorem Run.host {a : HostAction} {r : HostStep σ} (run : Run E n { host := h }) (hr : h.step E a = some r)
    : Run E (n + a.schedules) { host := r.host } := by
  have hsettle : ∀ {i : Nat} {c c' : Connection σ} {requests : List AlarmRequest},
      h.connections[i]? = some c → Run E n ((update { host := h } i c').owe i requests) →
      Run E (n + AlarmRequest.schedulesAll requests)
        { host := h.replace i (c'.resetAll i requests h.service) } := by
    intro i c c' requests hc hrun
    have howed : ((update { host := h } i c').owe i requests).owed i = requests := by simp [owe]
    have hall := hrun.resetAll (connections_replace hc _) howed
    change Run E _ (owe (owe { host := (h.replace i _).replace i _ } i requests) i []) at hall
    rw [owe_owe, replace_replace] at hall
    have howe : ∀ h' : Host σ, owe { host := h' } i [] = { host := h' } := fun h' => owe_self { host := h' } i
    rw [howe] at hall
    exact hall
  cases a with
  | act i a =>
    obtain ⟨c, s, hc, hpermits, hs, rfl⟩ := Host.of_act_eq_some hr
    rw [← schedulesAll_alarms hs]
    exact hsettle hc (run.step (.act hc hpermits (fun _ => rfl) hs))
  | drop i =>
    obtain ⟨c, hc, hhandle, hbusy, hhost⟩ := Host.of_drop_eq_some hr
    have hdrop := hsettle hc (run.step (.drop hc hhandle hbusy rfl rfl))
    rw [AlarmRequest.schedulesAll_append, schedulesAll_close, Connection.schedulesAll_releases,
      Connection.resetAll_append] at hdrop
    rw [hhost, Connection.releaseUnowned_eq, Connection.releases_resetAll]
    exact hdrop
  | addNotifier i =>
    obtain ⟨c, hc, halive, hhost⟩ := Host.of_addNotifier_eq_some hr
    rw [hhost]
    exact run.step (.addNotifier hc halive)
  | dropNotifier i =>
    obtain ⟨c, hc, hsome, hhost⟩ := Host.of_dropNotifier_eq_some hr
    have hdrop := hsettle hc (run.step (.dropNotifier hc hsome rfl))
    dsimp only [List.nil_append] at hdrop
    rw [Connection.schedulesAll_releases] at hdrop
    rw [hhost, Connection.releaseUnowned_eq]
    exact hdrop
  | work => exact run.step (.work (fun _ _ _ _ _ _ => rfl) hr)
  | stirWorker => exact run.step (.stirWorker hr)
  | wait ms =>
    cases hr
    exact run.step (.wait { host := h } ms)

theorem Run.replay (moves : List HostAction) (run : Run E n { host := h }) (hr : h.replay E moves = some h')
    : Run E (n + HostAction.schedulesAll moves) { host := h' } := by
  induction moves generalizing n h with
  | nil =>
    cases hr
    exact run
  | cons a rest ih =>
    unfold Host.replay at hr
    split at hr
    . next r hstep =>
      have := ih (run.host hstep) hr
      rw [Nat.add_assoc] at this
      exact this
    . contradiction

end Midway

end BlockingStream

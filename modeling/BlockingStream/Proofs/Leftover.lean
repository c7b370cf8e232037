import BlockingStream.Proofs.History
import BlockingStream.Proofs.Ownership

/-!
This module contains what is left in the timer queue of a connection whose handle was dropped. Only the first close
takes back the alarms, and a deadline can be set after that as well. So the drop leaves exactly the entries of such
late deadlines, for as long as the engine keeps a notifier.
-/

namespace BlockingStream

namespace History

/--
What was done after the first close.
-/
def sinceClose : History → History
  | [] => []
  | a :: rest => if a = .request .close then rest else sinceClose rest

def alarm (d : Direction) (h : History) : Option Instant :=
  latestDeadline d (if .request .close ∈ h then h.sinceClose else h)

theorem sinceClose_append_of_mem {h : History} (hclose : .request .close ∈ h) (more : History)
    : sinceClose (h ++ more) = h.sinceClose ++ more := by
  induction h with
  | nil => contradiction
  | cons a rest ih =>
    rw [List.cons_append, sinceClose, sinceClose]
    split
    . rfl
    . next ha =>
      apply ih
      rcases List.mem_cons.1 hclose with heq | hclose
      . exact absurd heq.symm ha
      . exact hclose

theorem sinceClose_append_of_not_mem {h : History} (hopen : .request .close ∉ h) (more : History)
    : sinceClose (h ++ more) = sinceClose more := by
  induction h with
  | nil => rfl
  | cons a rest ih =>
    rw [List.mem_cons, not_or] at hopen
    rw [List.cons_append, sinceClose, if_neg (Ne.symm hopen.1)]
    exact ih hopen.2

theorem alarm_of_mem {d : Direction} {h : History} (hclose : .request .close ∈ h)
    : h.alarm d = latestDeadline d h.sinceClose := by
  rw [alarm, if_pos hclose]

theorem alarm_append_singleton (d : Direction) (h : History) (a : Action)
    : alarm d (h ++ [a]) =
      if a = .request .close ∧ .request .close ∉ h then none else (a.deadline? d).getD (h.alarm d) := by
  by_cases hclose : .request .close ∈ h
  . rw [alarm_of_mem (List.mem_append_left _ hclose), alarm_of_mem hclose, sinceClose_append_of_mem hclose,
      latestDeadline_append_singleton, if_neg fun hfirst => hfirst.2 hclose]
  . by_cases ha : a = .request .close
    . -- this is the first close
      rw [ha, alarm_of_mem (List.mem_append_right _ (List.mem_singleton_self _)), sinceClose_append_of_not_mem hclose,
        if_pos ⟨rfl, hclose⟩]
      rfl
    . have hclose' : .request .close ∉ h ++ [a] := by
        rw [List.mem_append, List.mem_singleton, not_or]
        exact ⟨hclose, Ne.symm ha⟩
      rw [alarm, alarm, if_neg hclose', if_neg hclose, latestDeadline_append_singleton,
        if_neg fun hfirst => ha hfirst.1]

end History

namespace AlarmRequest

/--
The instant that a request sets the alarm of a direction to, if it is about this direction.
-/
def deadline? (d : Direction) (r : AlarmRequest) : Option (Option Instant) :=
  if r.direction = d then some r.deadline else none

def latest? (d : Direction) (requests : List AlarmRequest) : Option (Option Instant) :=
  requests.reverse.findSome? (deadline? d)

end AlarmRequest

namespace Connection

variable {σ : Type} {c : Connection σ} {service : Timer.Service Nat} {i : Nat}

theorem key_resetAll (i : Nat) (requests : List AlarmRequest) (c : Connection σ) (service : Timer.Service Nat)
    (d : Direction)
    : ((c.resetAll i requests service).1.key d).map Timer.Key.deadline =
      (AlarmRequest.latest? d requests).getD ((c.key d).map Timer.Key.deadline) := by
  unfold AlarmRequest.latest?
  induction requests generalizing c service with
  | nil => rfl
  | cons r rest ih =>
    rw [resetAll_cons, ih, List.reverse_cons, List.findSome?_append, List.findSome?_singleton, key_reset]
    cases rest.reverse.findSome? (AlarmRequest.deadline? d) with
    | some due => rfl
    | none =>
      unfold AlarmRequest.deadline?
      by_cases hd : d = r.direction
      . rw [if_pos hd, if_pos hd.symm]
        cases r.deadline <;> rfl
      . rw [if_neg hd, if_neg (Ne.symm hd)]
        rfl

end Connection

namespace Monitor

variable {σ : Type} {E : Engine σ} {m : Monitor σ} {now : Instant} {a : Action} {s : Step σ}

theorem latest?_alarms (h : m.step E now a = some s) (d : Direction)
    : AlarmRequest.latest? d s.alarms =
      if a = .request .close ∧ m.conn.closed = false then some none else a.deadline? d := by
  cases a with
  | enter id call =>
    obtain ⟨_, rfl⟩ := of_enter_eq_some h
    rfl
  | run id =>
    obtain ⟨_, _, _, rfl⟩ := of_run_eq_some h
    rfl
  | stir id =>
    obtain ⟨_, _, _, rfl⟩ := of_stir_eq_some h
    rfl
  | request r =>
    obtain ⟨_, rfl⟩ := of_locked_eq_some h
    cases r with
    | close =>
      change AlarmRequest.latest? d (m.close E).alarms = _
      unfold close
      cases hclosed : m.conn.closed with
      | true =>
        rw [Conn.close_of_closed E hclosed]
        rfl
      | false =>
        obtain ⟨attached, engine, hclose⟩ := Conn.close_of_open E hclosed m.engine
        rw [hclose]
        cases d <;> rfl
    | setDeadline scope deadline =>
      cases scope with
      | both => cases d <;> rfl
      | one direction => cases direction <;> cases d <;> rfl
    | _ => rfl
  | upcall u =>
    obtain ⟨_, rfl⟩ := of_locked_eq_some h
    cases u with
    | error code =>
      change AlarmRequest.latest? d (m.fail code).alarms = _
      unfold fail
      split <;> rfl
    | _ => rfl
  | alarm =>
    obtain ⟨_, rfl⟩ := of_locked_eq_some h
    rfl
  | grant n =>
    cases h
    rfl

end Monitor

namespace HostAction

def on (i : Nat) : HostAction → History
  | .act j a => if j = i then [a] else []
  | .drop j => if j = i then [.request .close] else []
  | _ => []

theorem schedulesAll_append_singleton (trace : List HostAction) (a : HostAction)
    : schedulesAll (trace ++ [a]) = schedulesAll trace + a.schedules := by
  induction trace with
  | nil => exact Nat.add_comm _ _
  | cons b rest ih =>
    rw [List.cons_append, schedulesAll, schedulesAll, ih, Nat.add_assoc]

end HostAction

namespace Connection

variable {σ : Type} {E : Engine σ} {c c' : Connection σ} {h : History} {i : Nat} {service : Timer.Service Nat}

/--
The past of a connection tells whether it is closed and, as long as it has an owner, where its alarms stand.
Whoever drops the handle closes the connection.
-/
structure Recalls (h : History) (c : Connection σ) : Prop where
  closed : c.monitor.conn.closed = true ↔ .request .close ∈ h
  left : c.handle = false → .request .close ∈ h
  alarm : c.alive = true → ∀ d, (c.key d).map Timer.Key.deadline = h.alarm d

theorem Recalls.opened (E : Engine σ) (label : String) (s : σ)
    : Recalls [] { monitor := Monitor.init E label s, notifiers := 1 } where
  closed := by simp [Monitor.init, Conn.init]
  left := by simp
  alarm _ d := by cases d <;> rfl

theorem Recalls.congr (hr : c.Recalls h) (hclosed : c'.monitor.conn.closed = c.monitor.conn.closed)
    (hkey : c'.key = c.key) (hhandle : c'.handle = c.handle) (halive : c'.alive = true → c.alive = true)
    : c'.Recalls h where
  closed := by
    rw [hclosed]
    exact hr.closed
  left := by
    rw [hhandle]
    exact hr.left
  alarm halive' := by
    rw [hkey]
    exact hr.alarm (halive halive')

theorem Recalls.step {s : Step σ} {now : Instant} {a : Action} (hr : c.Recalls h)
    (hs : c.monitor.step E now a = some s) (hmonitor : c'.monitor = s.monitor) (hkey : c'.key = c.key)
    (hhandle : c'.handle = false → c.handle = false ∨ a = .request .close)
    (halive : c'.alive = true → c.alive = true)
    : (c'.resetAll i s.alarms service).1.Recalls (h ++ [a]) := by
  obtain ⟨hmonitor', hhandle', hnotifiers⟩ := resetAll_frame i s.alarms c' service
  refine ⟨?_, ?_, ?_⟩
  . rw [hmonitor', hmonitor, (Monitor.follows_of_step hs).closed, hr.closed, List.mem_append, List.mem_singleton]
    exact or_congr_right eq_comm
  . intro hleft
    rw [hhandle'] at hleft
    rcases hhandle hleft with hleft | rfl
    . exact List.mem_append_left _ (hr.left hleft)
    . exact List.mem_append_right _ (List.mem_singleton_self _)
  . intro halive' d
    have halive : c.alive = true := by
      apply halive
      rw [alive, hhandle', hnotifiers] at halive'
      exact halive'
    rw [key_resetAll, Monitor.latest?_alarms hs, hkey, hr.alarm halive, History.alarm_append_singleton]
    simp only [← hr.closed, Bool.not_eq_true]
    split <;> rfl

theorem Recalls.release (hr : c.Recalls h) : (c.releaseUnowned i service).1.Recalls h := by
  unfold releaseUnowned
  split
  . exact hr
  . next hdead =>
    obtain ⟨hmonitor, hhandle, hnotifiers⟩ := resetAll_frame i [⟨.reading, none⟩, ⟨.writing, none⟩] c service
    refine ⟨?_, ?_, ?_⟩
    . rw [hmonitor]
      exact hr.closed
    . rw [hhandle]
      exact hr.left
    . intro halive
      rw [alive, hhandle, hnotifiers] at halive
      exact absurd halive hdead

end Connection

namespace Host

variable {σ : Type} {E : Engine σ} {h h' : Host σ} {c : Connection σ} {i : Nat} {trace : List HostAction}

/--
The runs of a new host, with what was done in them.
-/
inductive Run (E : Engine σ) : List HostAction → Host σ → Prop where
  | start (clock : Instant) : Run E [] { clock }
  | opened {trace : List HostAction} {h : Host σ} (label : String) (s : σ) :
      Run E trace h → Run E trace (h.openConnection E label s).host
  | snoc {trace : List HostAction} {h : Host σ} {a : HostAction} {r : HostStep σ} :
      Run E trace h → h.step E a = some r → Run E (trace ++ [a]) r.host

theorem Run.of_replay (moves : List HostAction) (run : Run E trace h) (hr : h.replay E moves = some h')
    : Run E (trace ++ moves) h' := by
  induction moves generalizing trace h with
  | nil =>
    cases hr
    rw [List.append_nil]
    exact run
  | cons a rest ih =>
    unfold replay at hr
    split at hr
    . next r hs =>
      rw [List.append_cons]
      exact ih (run.snoc hs) hr
    . contradiction

theorem Run.midway (run : Run E trace h) : Midway.Run E (HostAction.schedulesAll trace) { host := h } := by
  induction run with
  | start clock => exact .start clock
  | opened label s _ ih => exact ih.step (.opened _ label s)
  | snoc _ hs ih =>
    rw [HostAction.schedulesAll_append_singleton]
    exact ih.host hs

def history (i : Nat) (trace : List HostAction) : History := trace.flatMap (HostAction.on i)

theorem history_append_singleton (i : Nat) (trace : List HostAction) (a : HostAction)
    : history i (trace ++ [a]) = history i trace ++ a.on i := by
  rw [history, List.flatMap_append, List.flatMap_singleton]
  rfl

/--
The past tells about each connection, and there is none of a connection that is not there yet.
-/
structure Recalls (trace : List HostAction) (h : Host σ) : Prop where
  recalls : ∀ i (c : Connection σ), h.connections[i]? = some c → c.Recalls (history i trace)
  vacant : ∀ i, h.connections[i]? = none → history i trace = []

theorem Recalls.opened (hr : h.Recalls trace) (label : String) (s : σ)
    : Recalls trace (h.openConnection E label s).host where
  recalls := by
    intro i c hc
    rcases of_openConnection hc with hold | ⟨hnone, rfl⟩
    . exact hr.recalls i c hold
    . rw [hr.vacant i hnone]
      exact Connection.Recalls.opened E label s
  vacant := by
    intro i hnone
    exact hr.vacant i (connections_openConnection_eq_none hnone)

theorem Recalls.replace {a : HostAction} {cs : Connection σ × Timer.Service Nat} (hr : h.Recalls trace)
    (hc : h.connections[i]? = some c) (hself : cs.1.Recalls (history i trace ++ a.on i))
    (hothers : ∀ j, j ≠ i → a.on j = [])
    : (h.replace i cs).Recalls (trace ++ [a]) where
  recalls := by
    intro j c' hj
    rw [history_append_singleton]
    rcases of_replace hj with ⟨rfl, rfl⟩ | ⟨hne, hj⟩
    . exact hself
    . rw [hothers j hne, List.append_nil]
      exact hr.recalls j c' hj
  vacant := by
    intro j hnone
    have hj := Midway.connections_replace_eq_none hnone
    have hne : j ≠ i := by
      rintro rfl
      rw [hc] at hj
      contradiction
    rw [history_append_singleton, hothers j hne, List.append_nil]
    exact hr.vacant j hj

theorem Recalls.replace_quiet {a : HostAction} {cs : Connection σ × Timer.Service Nat} (hr : h.Recalls trace)
    (hc : h.connections[i]? = some c) (hself : cs.1.Recalls (history i trace)) (hnobody : ∀ j, a.on j = [])
    : (h.replace i cs).Recalls (trace ++ [a]) := by
  apply hr.replace hc
  . rw [hnobody, List.append_nil]
    exact hself
  . intro j _
    exact hnobody j

theorem Recalls.congr {a : HostAction} (hr : h.Recalls trace) (hconnections : h'.connections = h.connections)
    (hnobody : ∀ j, a.on j = [])
    : h'.Recalls (trace ++ [a]) where
  recalls := by
    intro j c hj
    rw [history_append_singleton, hnobody, List.append_nil]
    rw [hconnections] at hj
    exact hr.recalls j c hj
  vacant := by
    intro j hnone
    rw [history_append_singleton, hnobody, List.append_nil]
    rw [hconnections] at hnone
    exact hr.vacant j hnone

theorem Recalls.step {a : HostAction} {r : HostStep σ} (hr : h.Recalls trace) (hs : h.step E a = some r)
    : r.host.Recalls (trace ++ [a]) := by
  cases a with
  | act i a =>
    obtain ⟨c, s, hc, _, hstep, rfl⟩ := of_act_eq_some hs
    apply hr.replace hc
    . rw [HostAction.on, if_pos rfl]
      exact (hr.recalls i c hc).step hstep rfl (Connection.key_congr rfl rfl) Or.inl fun halive => halive
    . intro j hne
      exact if_neg hne.symm
  | drop i =>
    obtain ⟨c, hc, hhandle, hbusy, hhost⟩ := of_drop_eq_some hs
    have hclose : c.monitor.step E h.clock (.request .close) = some (c.monitor.close E) :=
      Monitor.locked_of_lockFree (Monitor.lockFree_of_not_busy hbusy) _
    rw [hhost]
    apply hr.replace hc
    . rw [HostAction.on, if_pos rfl]
      apply Connection.Recalls.release
      exact (hr.recalls i c hc).step hclose rfl (Connection.key_congr rfl rfl) (fun _ => Or.inr rfl) fun _ =>
        Connection.alive_of_handle hhandle
    . intro j hne
      exact if_neg hne.symm
  | addNotifier i =>
    obtain ⟨c, hc, halive, hhost⟩ := of_addNotifier_eq_some hs
    rw [hhost]
    apply hr.replace_quiet hc
    . exact (hr.recalls i c hc).congr rfl (Connection.key_congr rfl rfl) rfl fun _ => halive
    . exact fun _ => rfl
  | dropNotifier i =>
    obtain ⟨c, hc, hsome, hhost⟩ := of_dropNotifier_eq_some hs
    rw [hhost]
    apply hr.replace_quiet hc
    . apply Connection.Recalls.release
      refine Connection.Recalls.congr (hr.recalls i c hc) rfl (Connection.key_congr rfl rfl) rfl ?_
      intro _
      simp [Connection.alive, hsome]
    . exact fun _ => rfl
  | work =>
    rcases of_work_eq_some hs with ⟨_, hhost⟩ | ⟨e, rest, _, hfires⟩ | ⟨_, hhost⟩
    . rw [hhost]
      exact hr.congr rfl fun _ => rfl
    . rcases hfires with ⟨c, hc, _, hhost⟩ | ⟨hhost, _⟩
      . rw [hhost]
        apply hr.replace_quiet hc
        . exact (hr.recalls _ c hc).congr rfl (Connection.key_congr rfl rfl) rfl fun halive => halive
        . exact fun _ => rfl
      . rw [hhost]
        exact hr.congr rfl fun _ => rfl
    . rw [hhost]
      exact hr.congr rfl fun _ => rfl
  | stirWorker =>
    rw [of_stirWorker_eq_some hs]
    exact hr.congr rfl fun _ => rfl
  | wait ms =>
    cases hs
    exact hr.congr rfl fun _ => rfl

theorem Run.recalls (run : Run E trace h) : h.Recalls trace := by
  induction run with
  | start clock => exact ⟨by simp, fun _ _ => rfl⟩
  | opened label s _ ih => exact ih.opened label s
  | snoc _ hs ih => exact ih.step hs

end Host

namespace Midway

variable {σ : Type} {E : Engine σ} {w w' : Midway σ} {h : Host σ} {n k i : Nat} {c : Connection σ}

def Pending (h : Host σ) : Prop :=
  ∀ i d k, h.key? i d = some k → (k, i) ∈ h.service.queue.entries ∨ k.deadline ≤ h.clock

theorem Pending.frame {h' : Host σ} (hp : Pending h) (hclock : h.clock ≤ h'.clock)
    (hkey : ∀ i d, h'.key? i d = h.key? i d)
    (hqueue : ∀ e ∈ h.service.queue.entries, e ∈ h'.service.queue.entries ∨ e.1.deadline ≤ h'.clock)
    : Pending h' := by
  intro i d k hk
  rw [hkey] at hk
  rcases hp i d k hk with hmem | hpast
  . exact hqueue (k, i) hmem
  . exact Or.inr (Int.le_trans hpast hclock)

theorem Pending.update {cs : Connection σ × Timer.Service Nat} (hp : Pending h) (hc : h.connections[i]? = some c)
    (hkey : cs.1.key = c.key) (hqueue : cs.2.queue = h.service.queue)
    : Pending (h.replace i cs) := by
  refine hp.frame (Int.le_refl _) (Host.key?_replace_of_eq hc hkey) ?_
  intro e he
  left
  change e ∈ cs.2.queue.entries
  rw [hqueue]
  exact he

theorem Pending.opened (hp : Pending h) (label : String) (s : σ) : Pending (h.openConnection E label s).host :=
  hp.frame (Int.le_refl _) (h.key?_openConnection E label s) fun _ he => Or.inl he

theorem Pending.reset {r : AlarmRequest} (hp : Pending h) (hkeyed : h.Keyed n) (hc : h.connections[i]? = some c)
    : Pending (h.replace i (c.reset i r h.service)) := by
  intro j d k hk
  rw [Host.key?_replace hc, Connection.key_reset] at hk
  by_cases hself : j = i ∧ d = r.direction
  . obtain ⟨rfl, rfl⟩ := hself
    rw [if_pos rfl, if_pos rfl] at hk
    obtain ⟨due, hdue, rfl⟩ := Option.map_eq_some_iff.1 hk
    have hqueued : (c.reset j r h.service).1.Queued (c.reset j r h.service).2 j r.direction due :=
      Connection.queued_reset hdue
    obtain ⟨k, hkey, _, hmem⟩ := hqueued
    rw [Connection.key_reset, if_pos rfl, hdue] at hkey
    cases hkey
    exact Or.inl hmem
  . -- the entry of another alarm stays in the queue
    have hold : h.key? j d = some k := by
      split at hk
      . next heq =>
        rw [if_neg fun hd => hself ⟨heq, hd⟩] at hk
        rw [heq, Host.key?_eq hc, hk]
      . exact hk
    obtain ⟨hother, hnew⟩ := hkeyed.other hc hold hself
    rcases hp j d k hold with hmem | hpast
    . exact Or.inl (Connection.mem_reset hmem hother hnew)
    . exact Or.inr hpast

theorem Pending.work {r : HostStep σ} (hp : Pending h) (hopen : h.service.shutdown = false) (hr : h.work = some r)
    : Pending r.host := by
  rcases Host.of_work_eq_some hr with ⟨_, hhost⟩ | ⟨e, rest, _, hfires⟩ | ⟨_, hhost⟩
  . rw [hhost]
    refine hp.frame (Int.le_refl _) (fun _ _ => rfl) ?_
    intro e he
    rcases Timer.Service.mem_scan hopen he with he | he
    . exact Or.inl he
    . exact Or.inr (Timer.Service.deadline_le_of_mem_batch_scan hopen he)
  . rcases hfires with ⟨c, hc, _, hhost⟩ | ⟨hhost, _⟩
    . rw [hhost]
      exact hp.update hc (Connection.key_congr rfl rfl) rfl
    . rw [hhost]
      exact hp.frame (Int.le_refl _) (fun _ _ => rfl) fun _ he => Or.inl he
  . rw [hhost]
    exact hp.frame (Int.le_refl _) (fun _ _ => rfl) fun _ he => Or.inl he

theorem Pending.step (hp : Pending w.host) (hkept : w.Kept n) (hs : Step E w k w') : Pending w'.host := by
  cases hs with
  | opened label s => exact hp.opened label s
  | act hc _ _ _ => exact hp.update hc (Connection.key_congr rfl rfl) rfl
  | drop hc _ _ _ hdropped =>
    subst hdropped
    exact hp.update hc (Connection.key_congr rfl rfl) rfl
  | addNotifier hc _ => exact hp.update hc (Connection.key_congr rfl rfl) rfl
  | dropNotifier hc _ hdropped =>
    subst hdropped
    exact hp.update hc (Connection.key_congr rfl rfl) rfl
  | disarm hc _ => exact hp.reset hkept.keyed hc
  | reset hc _ => exact hp.reset hkept.keyed hc
  | work _ hr => exact hp.work hkept.watchful.open_ hr
  | stirWorker hr =>
    rw [Host.of_stirWorker_eq_some hr]
    refine hp.frame (Int.le_refl _) (fun _ _ => rfl) ?_
    intro e he
    rw [Timer.Service.queue_notify]
    exact Or.inl he
  | wait ms =>
    have hclock : w.host.clock ≤ w.host.clock + ms := Int.le_add_of_nonneg_right (Int.natCast_nonneg ms)
    exact hp.frame hclock (fun _ _ => rfl) fun e he => Or.inl he

theorem Run.pending (run : Run E n w) (few : n < UInt64.size) : Pending w.host := by
  induction run with
  | start clock =>
    intro i d k hk
    contradiction
  | step run hs ih =>
    have few := Nat.lt_of_le_of_lt (Nat.le_add_right _ _) few
    exact (ih few).step (run.kept few) hs

end Midway

namespace Host

variable {σ : Type} {E : Engine σ} {h : Host σ} {c : Connection σ} {i : Nat} {trace : List HostAction}

/--
What is left in the queue of a connection whose handle was dropped are entries for the deadlines that were set
last, and only after the close. There are none without a notifier. With one, such a deadline has its entry until
it is due, as long as the numbers of the entries do not start again from zero.
-/
theorem Run.entries_left (run : Run E trace h) (hc : h.connections[i]? = some c) (hdropped : c.handle = false)
    : (∀ key, (key, i) ∈ h.service.queue.entries →
        0 < c.notifiers ∧ ∃ d, (history i trace).sinceClose.latestDeadline d = some key.deadline) ∧
      (0 < c.notifiers → HostAction.schedulesAll trace < UInt64.size → ∀ d due,
        (history i trace).sinceClose.latestDeadline d = some due → h.clock < due →
          ∃ key, key.deadline = due ∧ (key, i) ∈ h.service.queue.entries) := by
  have hmidway := run.midway
  have hrecalls := run.recalls.recalls i c hc
  have halarm : c.alive = true → ∀ d, (c.key d).map Timer.Key.deadline =
      (history i trace).sinceClose.latestDeadline d := by
    intro halive d
    rw [hrecalls.alarm halive, History.alarm_of_mem (hrecalls.left hdropped)]
  constructor
  . intro key hmem
    obtain ⟨c', d, hc', halive, hkey, _⟩ := hmidway.tidy.mem_keys (fun _ => rfl) hmem
    dsimp only at hc'
    rw [hc] at hc'
    cases hc'
    refine ⟨by simpa [Connection.alive, hdropped] using halive, d, ?_⟩
    rw [← halarm halive, hkey]
    rfl
  . intro hnotifier few d due hdue hahead
    have halive : c.alive = true := by simp [Connection.alive, hnotifier]
    rw [← halarm halive] at hdue
    obtain ⟨key, hkey, rfl⟩ := Option.map_eq_some_iff.1 hdue
    rw [← key?_eq hc] at hkey
    rcases hmidway.pending few i d key hkey with hmem | hpast
    . exact ⟨key, rfl, hmem⟩
    . exact absurd hpast (Int.not_le.2 hahead)

/--
A deadline is set on a closed connection. Its entry outlives the handle, as the engine keeps its notifier.
-/
theorem late_deadline_left
    : ∃ trace h c, Run Metered.engine trace h ∧ h.connections[0]? = some c ∧ c.handle = false ∧
        h.service.queue.entries = [(⟨60000, 0⟩, 0)] := by
  have run : Run Metered.engine _ _ := Run.of_replay
    [.act 0 (.request .close), .act 0 (.request (.setDeadline (.one .reading) (some 60000))), .drop 0]
    ((Run.start 0).opened "a" {}) rfl
  exact ⟨_, _, _, run, rfl, rfl, rfl⟩

/--
Deadlines are set before and after the close. When the handle is dropped, the earlier one is gone, and the later
one is still queued.
-/
theorem closed_entries_left
    : ∃ trace h c, Run Metered.engine trace h ∧ h.connections[0]? = some c ∧ c.handle = false ∧
        (∀ key, (key, 0) ∈ h.service.queue.entries →
          0 < c.notifiers ∧ ∃ d, (history 0 trace).sinceClose.latestDeadline d = some key.deadline) ∧
        (history 0 trace).sinceClose.latestDeadline .writing = none ∧
        ∃ key, key.deadline = 60 ∧ (key, 0) ∈ h.service.queue.entries := by
  have run : Run Metered.engine _ _ := Run.of_replay
    [.act 0 (.request (.setDeadline (.one .writing) (some 50))), .act 0 (.request .close),
      .act 0 (.request (.setDeadline (.one .reading) (some 60))), .act 0 (.upcall .eof), .drop 0, .wait 9]
    ((Run.start 0).opened "a" {}) rfl
  obtain ⟨honly, hleft⟩ := Run.entries_left run (i := 0) rfl rfl
  exact ⟨_, _, _, run, rfl, rfl, honly, rfl, hleft (by decide) (by decide) .reading 60 rfl (by decide)⟩

end Host

end BlockingStream

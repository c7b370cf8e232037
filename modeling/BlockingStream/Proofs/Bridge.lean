import BlockingStream.Proofs.Midway
import BlockingStream.Proofs.Outlet

/-!
This module contains the runs of a bridge, told by its moves. In each of them at most one end takes a step, and what
this end puts into its outlet is added to what the carrier has still to report.
-/

namespace BlockingStream

namespace Host

variable {σ : Type} {E : Engine σ} {h : Host σ} {r : HostStep σ} {i : Nat} {m : Monitor σ}

def monitors (h : Host σ) : List (Monitor σ) := h.connections.map (·.monitor)

theorem monitors_replace (h : Host σ) (i : Nat) (cs : Connection σ × Timer.Service Nat)
    : (h.replace i cs).monitors = h.monitors.set i cs.1.monitor := by
  simp [monitors, replace, List.map_set]

theorem monitors_getElem? {c : Connection σ} (hc : h.connections[i]? = some c)
    : h.monitors[i]? = some c.monitor := by
  simp [monitors, hc]

theorem map_set_same {α β : Type} {f : α → β} {l : List α} {i : Nat} {a a' : α} (ha : l[i]? = some a) (h : f a' = f a)
    : (l.set i a').map f = l.map f := by
  obtain ⟨hlength, rfl⟩ := List.getElem?_eq_some_iff.1 ha
  have hlength' : i < (l.map f).length := by simpa using hlength
  have hsame : f l[i] = (l.map f)[i] := by simp
  rw [List.map_set, h, hsame, List.set_getElem_self]

theorem monitors_of_step {a : HostAction} (hr : h.step E a = some r)
    : (∃ i b m s, (a = .act i b ∨ a = .drop i ∧ b = .request .close) ∧ h.monitors[i]? = some m ∧
        m.step E h.clock b = some s ∧ r.host.monitors = h.monitors.set i s.monitor) ∨
      ((∀ i b, a ≠ .act i b) ∧ (∀ i, a ≠ .drop i) ∧
        r.host.monitors.map (fun m => (m.conn, m.engine)) = h.monitors.map fun m => (m.conn, m.engine)) := by
  cases a with
  | act i b =>
    obtain ⟨c, s, hc, _, hs, rfl⟩ := of_act_eq_some hr
    refine Or.inl ⟨i, b, c.monitor, s, Or.inl rfl, monitors_getElem? hc, hs, ?_⟩
    rw [apply, monitors_replace, (Connection.resetAll_frame _ _ _ _).1]
  | drop i =>
    obtain ⟨c, hc, _, hbusy, hhost⟩ := of_drop_eq_some hr
    have hs : c.monitor.step E h.clock (.request .close) = some (c.monitor.close E) :=
      Monitor.locked_of_lockFree (Monitor.lockFree_of_not_busy hbusy) _
    refine Or.inl ⟨i, _, c.monitor, _, Or.inr ⟨rfl, rfl⟩, monitors_getElem? hc, hs, ?_⟩
    rw [hhost, monitors_replace, Connection.releaseUnowned_eq, (Connection.resetAll_frame _ _ _ _).1,
      (Connection.resetAll_frame _ _ _ _).1]
  | addNotifier i =>
    obtain ⟨c, hc, _, hhost⟩ := of_addNotifier_eq_some hr
    refine Or.inr ⟨by simp, by simp, ?_⟩
    rw [hhost, monitors_replace]
    exact map_set_same (monitors_getElem? hc) rfl
  | dropNotifier i =>
    obtain ⟨c, hc, _, hhost⟩ := of_dropNotifier_eq_some hr
    refine Or.inr ⟨by simp, by simp, ?_⟩
    rw [hhost, monitors_replace, Connection.releaseUnowned_eq, (Connection.resetAll_frame _ _ _ _).1]
    exact map_set_same (monitors_getElem? hc) rfl
  | work =>
    refine Or.inr ⟨by simp, by simp, ?_⟩
    rcases of_work_eq_some hr with ⟨_, hhost⟩ | ⟨e, rest, _, ⟨c, hc, _, hhost⟩ | ⟨hhost, _⟩⟩ | ⟨_, hhost⟩
    . rw [hhost]
      rfl
    . rw [hhost, monitors_replace]
      exact map_set_same (monitors_getElem? hc) rfl
    . rw [hhost]
      rfl
    . rw [hhost]
      rfl
  | stirWorker =>
    refine Or.inr ⟨by simp, by simp, ?_⟩
    rw [of_stirWorker_eq_some hr]
    rfl
  | wait ms =>
    cases hr
    exact Or.inr ⟨by simp, by simp, rfl⟩

end Host

namespace Bridge

/--
A move, between the states before and after it.
-/
structure Event where
  before : Bridge
  move : Move
  after : Bridge

variable {b b' : Bridge} {move : Move} {side : Side} {events : List Log.Event} {trace : List Event}
  {m m' : Side → Monitor Outlet}

/--
The runs of a new bridge: the threads of both applications, the carrier, the timer worker and the clock in any order.
-/
inductive Run (label : Side → String) : List Event → Bridge → Prop where
  | start : Run label [] (init label).1
  | step {trace : List Event} {b b' : Bridge} {move : Move} {events : List Log.Event} :
      Run label trace b → b.step move = some (b', events) → Run label (trace ++ [⟨b, move, b'⟩]) b'

namespace Event

/--
What one of the ends does in this event, or the carrier to it. Whoever drops the handle closes the connection.
-/
def action? (side : Side) (x : Event) : Option Action :=
  match x.move with
  | .host (.act i a) => if i = side.index then some a else none
  | .host (.drop i) => if i = side.index then some (.request .close) else none
  | .report =>
    match x.before.reports with
    | (receiver, u) :: _ => if receiver = side then some (.upcall u) else none
    | [] => none
  | _ => none

def moment? (side : Side) (x : Event) : Option (Moment Outlet) :=
  (x.action? side).bind fun a =>
    x.before.host.monitors[side.index]?.bind fun m =>
      (m.step Outlet.engine x.before.host.clock a).map fun s => ⟨m, x.before.host.clock, a, s⟩

end Event

def due (b : Bridge) : List (Side × Upcall) := b.reports ++ b.queue.flatMap Packet.reports

/--
The ends are in these states, with nothing in their outlets.
-/
structure Stands (b : Bridge) (m : Side → Monitor Outlet) : Prop where
  monitors : b.host.monitors = [m .dialer, m .acceptor]
  engine (side : Side) : (m side).engine = { side }

theorem Stands.getElem? (stands : b.Stands m) (side : Side) : b.host.monitors[side.index]? = some (m side) := by
  rw [stands.monitors]
  cases side <;> rfl

theorem Stands.of_getElem? {i : Nat} {n : Monitor Outlet} (stands : b.Stands m) (h : b.host.monitors[i]? = some n)
    : ∃ side : Side, i = side.index ∧ n = m side := by
  rw [stands.monitors] at h
  match i, h with
  | 0, h =>
    cases h
    exact ⟨.dialer, rfl, rfl⟩
  | 1, h =>
    cases h
    exact ⟨.acceptor, rfl, rfl⟩

def emptyOutlet (n : Monitor Outlet) : Monitor Outlet := { n with engine := { n.engine with outgoing := [] } }

theorem emptyOutlet_of_empty {n : Monitor Outlet} (h : n.engine = { side }) : emptyOutlet n = n := by
  simp only [emptyOutlet, h]
  rw [← h]

theorem monitors_gather (b : Bridge) : b.gather.host.monitors = b.host.monitors.map emptyOutlet := by
  simp only [gather, Host.monitors, List.map_map]
  rfl

theorem due_gather (b : Bridge)
    : b.gather.due = b.due ++ b.host.monitors.flatMap fun n => n.engine.outgoing.flatMap Packet.reports := by
  simp [gather, due, outgoing, Host.monitors, List.flatMap_map, List.flatMap_assoc]

/--
An event in which nothing happens at the ends but that sleepers are woken.
-/
structure Quiet (m : Side → Monitor Outlet) (x : Event) (m' : Side → Monitor Outlet) : Prop where
  conn (side : Side) : (m' side).conn = (m side).conn
  moment (side : Side) : x.moment? side = none
  due : x.after.due = x.before.due

/--
An event in which one end takes a step. What the carrier reports it has no longer to report, and what the end puts into
its outlet it has to report from now on.
-/
structure Moves (side : Side) (m : Side → Monitor Outlet) (x : Event) (y : Moment Outlet)
    (m' : Side → Monitor Outlet) : Prop where
  before : y.before = m side
  step : y.before.step Outlet.engine y.now y.action = some y.step
  conn : (m' side).conn = y.after.conn
  other : (m' side.other).conn = (m side.other).conn
  action : x.action? side = some y.action
  moment : x.moment? side = some y
  silent : x.action? side.other = none
  due : ∃ rest,
    x.before.due = (y.upcall?.map fun u => (side, u)).toList ++ rest ∧
      x.after.due = rest ++ y.after.engine.outgoing.flatMap Packet.reports

theorem Stands.gather (stands : b.Stands m) {host : Host Outlet} {s : Step Outlet} (reports : List (Side × Upcall))
    (hmonitors : host.monitors = b.host.monitors.set side.index s.monitor) (hside : s.monitor.engine.side = side)
    : Stands (gather { b with host, reports }) (fun T => if T = side then emptyOutlet s.monitor else m T) ∧
      due (gather { b with host, reports }) =
        reports ++ b.queue.flatMap Packet.reports ++ s.monitor.engine.outgoing.flatMap Packet.reports := by
  have hempty : ∀ T, emptyOutlet (m T) = m T := fun T => emptyOutlet_of_empty (stands.engine T)
  have hnothing : ∀ T, (m T).engine.outgoing = [] := by
    intro T
    rw [stands.engine]
  refine ⟨⟨?_, ?_⟩, ?_⟩
  . rw [monitors_gather, hmonitors, stands.monitors]
    cases side <;> simp [Side.index, hempty]
  . intro T
    by_cases hT : T = side
    . rw [if_pos hT, hT]
      simp [emptyOutlet, hside]
    . rw [if_neg hT, stands.engine]
  . rw [due_gather, hmonitors, stands.monitors]
    cases side <;> simp [due, Side.index, hnothing]

theorem moment?_of_action? {n : Monitor Outlet} {s : Step Outlet} {a : Action} {x : Event}
    (ha : x.action? side = some a) (hn : x.before.host.monitors[side.index]? = some n)
    (hs : n.step Outlet.engine x.before.host.clock a = some s)
    : x.moment? side = some ⟨n, x.before.host.clock, a, s⟩ := by
  simp [Event.moment?, ha, hn, hs]

theorem moment?_eq_none {x : Event} (ha : x.action? side = none) : x.moment? side = none := by
  simp [Event.moment?, ha]

theorem Stands.moves (stands : b.Stands m) (move : Move) {host : Host Outlet} {s : Step Outlet} {a : Action}
    (reports : List (Side × Upcall)) (hb' : b' = Bridge.gather { b with host, reports })
    (hs : (m side).step Outlet.engine b.host.clock a = some s)
    (hmonitors : host.monitors = b.host.monitors.set side.index s.monitor)
    (haction : ∀ T, Event.action? T ⟨b, move, b'⟩ = if T = side then some a else none)
    (hreports : b.reports = ((Moment.mk (m side) b.host.clock a s).upcall?.map fun u => (side, u)).toList ++ reports)
    : ∃ m', b'.Stands m' ∧ Moves side m ⟨b, move, b'⟩ ⟨m side, b.host.clock, a, s⟩ m' := by
  obtain ⟨hside, _⟩ := Monitor.sends_of_step (stands.engine side) hs
  obtain ⟨hstands, hdue⟩ := stands.gather reports hmonitors hside
  rw [← hb'] at hstands hdue
  have hown := haction side
  have hsilent := haction side.other
  rw [if_pos rfl] at hown
  rw [if_neg side.other_ne] at hsilent
  refine ⟨_, hstands, ?_⟩
  constructor
  case before => rfl
  case step => exact hs
  case conn => simp [emptyOutlet, Moment.after]
  case other => simp
  case action => exact hown
  case moment => exact moment?_of_action? hown (stands.getElem? side) hs
  case silent => exact hsilent
  case due =>
    refine ⟨reports ++ b.queue.flatMap Packet.reports, ?_, hdue⟩
    dsimp only
    rw [due, hreports, List.append_assoc]

theorem Stands.quiet (stands : b.Stands m) {host : Host Outlet}
    (hsame : (host.monitors.map fun n => (n.conn, n.engine)) = b.host.monitors.map fun n => (n.conn, n.engine))
    : ∃ n, Stands (Bridge.gather { b with host }) n ∧ (∀ side, (n side).conn = (m side).conn) ∧
        due (Bridge.gather { b with host }) = b.due := by
  rw [stands.monitors, List.map_cons, List.map_singleton] at hsame
  obtain ⟨d, rest, hmonitors, hd, hsame⟩ := List.map_eq_cons_iff.1 hsame
  obtain ⟨e, rest, rfl, he, hsame⟩ := List.map_eq_cons_iff.1 hsame
  obtain rfl := List.map_eq_nil_iff.1 hsame
  obtain ⟨hdconn, hdengine⟩ := Prod.mk.inj hd
  obtain ⟨heconn, heengine⟩ := Prod.mk.inj he
  rw [stands.engine] at hdengine heengine
  refine ⟨fun side => if side = .dialer then d else e, ⟨?_, ?_⟩, ?_, ?_⟩
  . rw [monitors_gather, hmonitors, List.map_cons, List.map_singleton, emptyOutlet_of_empty hdengine,
      emptyOutlet_of_empty heengine]
    rfl
  . intro side
    cases side
    . exact hdengine
    . exact heengine
  . intro side
    cases side
    . exact hdconn
    . exact heconn
  . rw [due_gather, hmonitors]
    simp [hdengine, heengine, due]

theorem Stands.step (stands : b.Stands m) (h : b.step move = some (b', events))
    : ∃ m', b'.Stands m' ∧
        (Quiet m ⟨b, move, b'⟩ m' ∨ ∃ side y, Moves side m ⟨b, move, b'⟩ y m') := by
  cases move with
  | host a =>
    simp only [Bridge.step] at h
    split at h
    . contradiction
    . next hreport =>
      obtain ⟨r, hr, h⟩ := Option.bind_eq_some_iff.1 h
      cases h
      rcases Host.monitors_of_step hr with ⟨i, c, n, s, ha, hn, hs, hmonitors⟩ | ⟨hact, hdrop, hsame⟩
      . obtain ⟨side, rfl, rfl⟩ := stands.of_getElem? hn
        have hmoves := stands.moves (.host a) b.reports rfl hs hmonitors ?_ ?_
        . obtain ⟨m', hstands, hmoves⟩ := hmoves
          exact ⟨m', hstands, Or.inr ⟨_, _, hmoves⟩⟩
        . intro T
          have hindex : side.index = T.index ↔ T = side :=
            ⟨fun heq => (Side.eq_of_index heq).symm, fun heq => by rw [heq]⟩
          rcases ha with rfl | ⟨rfl, rfl⟩ <;> simp [Event.action?, hindex]
        . rcases ha with rfl | ⟨rfl, rfl⟩
          . cases c with
            | upcall u => exact absurd rfl hreport
            | _ => rfl
          . rfl
      . obtain ⟨m', hstands, hconn, hdue⟩ := stands.quiet hsame
        refine ⟨m', hstands, Or.inl ⟨hconn, ?_, hdue⟩⟩
        intro side
        apply moment?_eq_none
        cases a with
        | act i c => exact absurd rfl (hact i c)
        | drop i => exact absurd rfl (hdrop i)
        | _ => rfl
  | take =>
    simp only [Bridge.step] at h
    split at h
    . next packet queue hreports hqueue =>
      cases h
      refine ⟨m, ⟨stands.monitors, stands.engine⟩, Or.inl ⟨fun _ => rfl, fun _ => rfl, ?_⟩⟩
      simp [due, hreports, hqueue]
    . contradiction
  | report =>
    simp only [Bridge.step] at h
    split at h
    . next side u reports hreports =>
      obtain ⟨r, hr, h⟩ := Option.bind_eq_some_iff.1 h
      cases h
      have hstep : b.host.step Outlet.engine (.act side.index (.upcall u)) = some r := hr
      rcases Host.monitors_of_step hstep with ⟨i, c, n, s, ha, hn, hs, hmonitors⟩ | ⟨hact, _⟩
      . rcases ha with ha | ⟨ha, _⟩
        . cases ha
          have hm := (stands.getElem? side).symm.trans hn
          cases hm
          have hmoves := stands.moves .report reports rfl hs hmonitors ?_ hreports
          . obtain ⟨m', hstands, hmoves⟩ := hmoves
            exact ⟨m', hstands, Or.inr ⟨_, _, hmoves⟩⟩
          . intro T
            simp [Event.action?, hreports, eq_comm]
        . contradiction
      . exact absurd rfl (hact _ _)
    . contradiction

theorem Moves.sends {x : Event} {y : Moment Outlet} (moves : Moves side m x y m') (stands : x.before.Stands m)
    : Monitor.Sends side y y.after.engine.outgoing := by
  obtain ⟨n, now, a, s⟩ := y
  obtain rfl : n = m side := moves.before
  exact (Monitor.sends_of_step (stands.engine side) moves.step).2

theorem Moves.follows {x : Event} {y : Moment Outlet} (moves : Moves side m x y m')
    : Conn.Follows y.action (m side).conn (m' side).conn := by
  rw [moves.conn, ← moves.before]
  exact Monitor.follows_of_step moves.step

end Bridge

end BlockingStream

import BlockingStream.Proofs.Midway

/-!
This module contains the small steps of a host as moves that are carried out, together with what comes of them: the
runs with a trace, and what a single connection sees of such a trace.
-/

namespace BlockingStream

/--
What a connection that is there does, or its application or engine with it.
-/
inductive OwnMove where
  | act (a : Action)
  | drop
  | addNotifier
  | dropNotifier
  | disarm
  | reset

/--
What comes of a deed, with the number of entries that are scheduled in it.
-/
structure Turn (σ : Type) where
  step : Option (Step σ) := none
  connection : Connection σ
  owed : List AlarmRequest
  service : Timer.Service Nat
  scheduled : Nat := 0

def Connection.turn {σ : Type} (E : Engine σ) (clock : Instant) (i : Nat) (service : Timer.Service Nat)
    (owed : List AlarmRequest) (c : Connection σ) : OwnMove → Option (Turn σ)
  | .act a =>
    if Host.permits c a && (!a.needsLock || owed.isEmpty) then
      match c.monitor.step E clock a with
      | some s =>
        some { step := some s, connection := { c with monitor := s.monitor }, owed := owed ++ s.alarms, service }
      | none => none
    else none
  | .drop =>
    if c.handle && !c.monitor.busy && owed.isEmpty then
      let s := c.monitor.close E
      let dropped := { c with monitor := s.monitor, handle := false }
      some { step := some s, connection := dropped, owed := s.alarms ++ dropped.releases, service }
    else none
  | .addNotifier =>
    if c.alive then some { connection := { c with notifiers := c.notifiers + 1 }, owed, service } else none
  | .dropNotifier =>
    if 0 < c.notifiers then
      let dropped := { c with notifiers := c.notifiers - 1 }
      some { connection := dropped, owed := owed ++ dropped.releases, service }
    else none
  | .disarm =>
    match owed with
    | [] => none
    | r :: _ =>
      let (connection, service) := c.reset i ⟨r.direction, none⟩ service
      some { connection, owed, service }
  | .reset =>
    match owed with
    | [] => none
    | r :: rest =>
      let (connection, service) := c.reset i r service
      some { connection, owed := rest, service, scheduled := r.schedules }

namespace Midway

/--
A move of a host: that of one of its connections, or one that no connection makes.
-/
inductive Move (σ : Type) where
  | opened (label : String) (s : σ)
  | own (i : Nat) (m : OwnMove)
  | work
  | stirWorker
  | wait (ms : Nat)

variable {σ : Type} {E : Engine σ} {w w' : Midway σ} {n k i : Nat}

def turn? (E : Engine σ) (w : Midway σ) (i : Nat) (m : OwnMove) : Option (Turn σ) :=
  w.host.connections[i]?.bind fun c => c.turn E w.host.clock i w.host.service (w.owed i) m

def turned (w : Midway σ) (i : Nat) (t : Turn σ) : Midway σ :=
  owe { w with host := w.host.replace i (t.connection, t.service) } i t.owed

def mayWork (w : Midway σ) : Bool :=
  match w.host.service.worker with
  | .firing (e :: _) =>
    match w.host.connections[e.2]? with
    | some c => !c.alive || (w.owed e.2).isEmpty
    | none => true
  | _ => true

/--
Carries out a move, if it can be made now.
-/
def perform (E : Engine σ) (w : Midway σ) : Move σ → Option (Nat × Midway σ)
  | .opened label s => some (0, { w with host := (w.host.openConnection E label s).host })
  | .own i m =>
    match w.turn? E i m with
    | some t => some (t.scheduled, w.turned i t)
    | none => none
  | .work =>
    if w.mayWork then
      match w.host.work with
      | some r => some (0, { w with host := r.host })
      | none => none
    else none
  | .stirWorker =>
    match w.host.stirWorker with
    | some r => some (0, { w with host := r.host })
    | none => none
  | .wait ms => some (0, { w with host := { w.host with clock := w.host.clock + ms } })

theorem mayWork_iff
    : w.mayWork = true ↔ ∀ e rest c, w.host.service.worker = .firing (e :: rest) →
        w.host.connections[e.2]? = some c → c.alive = true → w.owed e.2 = [] := by
  unfold mayWork
  split
  . next e rest hworker =>
    split
    . next c hc =>
      rw [Bool.or_eq_true, Bool.not_eq_true', List.isEmpty_iff]
      constructor
      . intro hmay e' rest' c' hworker' hc' halive
        rw [hworker] at hworker'
        cases hworker'
        rw [hc] at hc'
        cases hc'
        simpa [halive] using hmay
      . intro hmay
        cases halive : c.alive with
        | false => exact Or.inl rfl
        | true => exact Or.inr (hmay e rest c hworker hc halive)
    . next hnone =>
      simp only [true_iff]
      intro e' rest' c' hworker' hc'
      rw [hworker] at hworker'
      cases hworker'
      rw [hnone] at hc'
      contradiction
  . next hother =>
    simp only [true_iff]
    intro e rest c hworker
    exact absurd hworker (hother e rest)

theorem step_of_own {m : OwnMove} {c : Connection σ} {t : Turn σ} (hc : w.host.connections[i]? = some c)
    (h : c.turn E w.host.clock i w.host.service (w.owed i) m = some t)
    : Step E w t.scheduled (w.turned i t) := by
  cases m with
  | act a =>
    simp only [Connection.turn] at h
    split at h
    . next hmay =>
      rw [Bool.and_eq_true, Bool.or_eq_true, Bool.not_eq_true', List.isEmpty_iff] at hmay
      split at h
      . next s hs =>
        cases h
        refine .act hc hmay.1 ?_ hs
        intro hlock
        simpa [hlock] using hmay.2
      . contradiction
    . contradiction
  | drop =>
    simp only [Connection.turn] at h
    split at h
    . next hmay =>
      rw [Bool.and_eq_true, Bool.and_eq_true, Bool.not_eq_true', List.isEmpty_iff] at hmay
      cases h
      exact .drop hc hmay.1.1 hmay.1.2 hmay.2 rfl
    . contradiction
  | addNotifier =>
    simp only [Connection.turn] at h
    split at h
    . next halive =>
      cases h
      have hstep : Step E w 0 _ := .addNotifier hc halive
      rw [← owe_self (w.update i _) i] at hstep
      exact hstep
    . contradiction
  | dropNotifier =>
    simp only [Connection.turn] at h
    split at h
    . next hsome =>
      cases h
      exact .dropNotifier hc hsome rfl
    . contradiction
  | disarm =>
    simp only [Connection.turn] at h
    split at h
    . contradiction
    . next r rest howed =>
      cases h
      have hstep : Step E w 0 _ := .disarm hc howed
      rw [← owe_self { w with host := _ } i] at hstep
      exact hstep
  | reset =>
    simp only [Connection.turn] at h
    split at h
    . contradiction
    . next r rest howed =>
      cases h
      exact .reset hc howed

theorem exists_move_of_step (hstep : Step E w k w') : ∃ move, w.perform E move = some (k, w') := by
  cases hstep with
  | opened label s => exact ⟨.opened label s, rfl⟩
  | @act i c a s hc hpermits hlock hs =>
    refine ⟨.own i (.act a), ?_⟩
    have hmay : (!a.needsLock || (w.owed i).isEmpty) = true := by
      rw [Bool.or_eq_true, Bool.not_eq_true', List.isEmpty_iff]
      exact (Bool.eq_false_or_eq_true _).symm.imp_right hlock
    simp [perform, turn?, hc, Connection.turn, hpermits, hmay, hs, update, turned]
  | @drop i c dropped hc hhandle hbusy howed hdropped =>
    refine ⟨.own i .drop, ?_⟩
    subst hdropped
    simp [perform, turn?, hc, Connection.turn, hhandle, hbusy, howed, update, turned]
  | @addNotifier i c hc halive =>
    refine ⟨.own i .addNotifier, ?_⟩
    simp only [perform, turn?, hc, Option.bind_some, Connection.turn, halive, if_true]
    exact congrArg (fun w => some (0, w)) (owe_self (w.update _ _) _)
  | @dropNotifier i c dropped hc hsome hdropped =>
    refine ⟨.own i .dropNotifier, ?_⟩
    subst hdropped
    simp [perform, turn?, hc, Connection.turn, hsome, update, turned]
  | @disarm i c r rest hc howed =>
    refine ⟨.own i .disarm, ?_⟩
    simp only [perform, turn?, hc, Option.bind_some, Connection.turn, howed]
    rw [← howed]
    exact congrArg (fun w => some (0, w)) (owe_self { w with host := _ } _)
  | @reset i c r rest hc howed =>
    refine ⟨.own i .reset, ?_⟩
    simp [perform, turn?, hc, Connection.turn, howed, turned]
  | work hfree hr =>
    refine ⟨.work, ?_⟩
    simp [perform, mayWork_iff.2 hfree, hr]
  | stirWorker hr =>
    refine ⟨.stirWorker, ?_⟩
    simp [perform, hr]
  | wait ms => exact ⟨.wait ms, rfl⟩

theorem step_of_perform {move : Move σ} (h : w.perform E move = some (k, w')) : Step E w k w' := by
  cases move with
  | opened label s =>
    cases h
    exact .opened w label s
  | own i m =>
    unfold perform at h
    dsimp only at h
    split at h
    . next t ht =>
      obtain ⟨c, hc, ht⟩ := Option.bind_eq_some_iff.1 ht
      cases h
      exact step_of_own hc ht
    . contradiction
  | work =>
    unfold perform at h
    dsimp only at h
    split at h
    . next hmay =>
      split at h
      . next r hr =>
        cases h
        exact .work (mayWork_iff.1 hmay) hr
      . contradiction
    . contradiction
  | stirWorker =>
    unfold perform at h
    dsimp only at h
    split at h
    . next r hr =>
      cases h
      exact .stirWorker hr
    . contradiction
  | wait ms =>
    cases h
    exact .wait w ms

/--
The moves make just the steps of a host.
-/
theorem step_iff : Step E w k w' ↔ ∃ move, w.perform E move = some (k, w') :=
  ⟨exists_move_of_step, fun ⟨_, h⟩ => step_of_perform h⟩

/--
A move, between the states before and after it.
-/
structure Event (σ : Type) where
  before : Midway σ
  move : Move σ
  after : Midway σ

/--
The runs of a new host, with their traces and the number of entries that were scheduled in them.
-/
inductive TracedRun (E : Engine σ) : List (Event σ) → Nat → Midway σ → Prop where
  | start (clock : Instant) : TracedRun E [] 0 { host := { clock } }
  | step {trace : List (Event σ)} {n k : Nat} {w w' : Midway σ} {move : Move σ} :
      TracedRun E trace n w → w.perform E move = some (k, w') → TracedRun E (trace ++ [⟨w, move, w'⟩]) (n + k) w'

theorem TracedRun.run {trace : List (Event σ)} (run : TracedRun E trace n w) : Run E n w := by
  induction run with
  | start clock => exact .start clock
  | step _ h ih => exact ih.step (step_iff.2 ⟨_, h⟩)

def replay (E : Engine σ) (w : Midway σ) : List (Move σ) → Option (List (Event σ) × Nat × Midway σ)
  | [] => some ([], 0, w)
  | move :: rest =>
    match w.perform E move with
    | some (k, after) =>
      match after.replay E rest with
      | some (trace, n, last) => some (⟨w, move, after⟩ :: trace, k + n, last)
      | none => none
    | none => none

theorem TracedRun.replay {trace more : List (Event σ)} (moves : List (Move σ)) (run : TracedRun E trace n w)
    (h : w.replay E moves = some (more, k, w'))
    : TracedRun E (trace ++ more) (n + k) w' := by
  induction moves generalizing trace n w more k with
  | nil =>
    cases h
    rw [List.append_nil]
    exact run
  | cons move rest ih =>
    unfold Midway.replay at h
    split at h
    . next hmove =>
      split at h
      . next hrest =>
        cases h
        have hrun := ih (run.step hmove) hrest
        rw [List.append_assoc, Nat.add_assoc] at hrun
        exact hrun
      . contradiction
    . contradiction

theorem TracedRun.replayed (clock : Instant) (moves : List (Move σ))
    (h : (Midway.replay E { host := { clock } } moves).isSome = true)
    : TracedRun E ((Midway.replay E { host := { clock } } moves).get h).1
        ((Midway.replay E { host := { clock } } moves).get h).2.1
        ((Midway.replay E { host := { clock } } moves).get h).2.2 := by
  have hrun := (TracedRun.start (E := E) clock).replay moves (Option.some_get h).symm
  rw [List.nil_append, Nat.zero_add] at hrun
  exact hrun

/--
What a connection sees of a move: its own deed, an entry of its own that fires, or the clock.
-/
inductive Occurrence (σ : Type) where
  | opened (label : String) (s : σ)
  | did (m : OwnMove) (step : Option (BlockingStream.Step σ))
  | fired (step : Option (BlockingStream.Step σ))
  | waited (ms : Nat)

def alarm? (w : Midway σ) (i : Nat) : Option (BlockingStream.Step σ) :=
  w.host.connections[i]?.bind fun c => if c.alive then c.monitor.alarm else none

def Event.occurrence (E : Engine σ) (i : Nat) (x : Event σ) : Option (Occurrence σ) :=
  match x.move with
  | .opened label s => if x.before.host.connections.length = i then some (.opened label s) else none
  | .own j m => if j = i then some (.did m ((x.before.turn? E i m).bind (·.step))) else none
  | .work =>
    match x.before.host.service.worker with
    | .firing (e :: _) => if e.2 = i then some (.fired (x.before.alarm? i)) else none
    | _ => none
  | .stirWorker => none
  | .wait ms => some (.waited ms)

def account (E : Engine σ) (i : Nat) (trace : List (Event σ)) : List (Occurrence σ) :=
  trace.filterMap (·.occurrence E i)

end Midway

end BlockingStream

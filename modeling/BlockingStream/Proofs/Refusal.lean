import BlockingStream.Engine.Metered
import BlockingStream.Proofs.Deadline
import BlockingStream.Proofs.History
import BlockingStream.Proofs.Move

/-!
This module contains the proof that the refusal of a second failure leaves no trace. The engine must not report more
than one failure on a connection. Whoever reports another one is told so, with the first one, and nothing else comes of
it: a run in which all such calls are left out is a run through the same states.
-/

namespace BlockingStream

namespace Monitor

variable {σ : Type} {E : Engine σ} {m : Monitor σ} {now : Instant} {a : Action} {s : Step σ} {code first : EngineCode}
  {message : String}

/--
What the engine is told that has reported a second failure.
-/
def refusal (label : String) (code first : EngineCode) : String :=
  "multiple engine errors on connection `" ++ label ++ "`: got " ++ code.name ++ ", have " ++ first.name

theorem label_of_step (h : m.step E now a = some s) : s.monitor.label = m.label := by
  cases a with
  | enter id call =>
    obtain ⟨_, rfl⟩ := of_enter_eq_some h
    rfl
  | run id =>
    obtain ⟨_, _, _, rfl⟩ := of_run_eq_some h
    rfl
  | stir id =>
    obtain ⟨_, _, _, rfl⟩ := of_stir_eq_some h
    rfl
  | request r =>
    obtain ⟨_, rfl⟩ := of_locked_eq_some h
    rcases monitor_request E m r with ⟨conn, engine, hm⟩ | ⟨conn, engine, _, hm⟩
    . rw [hm]
      rfl
    . rw [hm]
  | upcall u =>
    obtain ⟨_, rfl⟩ := of_locked_eq_some h
    rcases monitor_upcall m u with ⟨conn, hm⟩ | hm
    . rw [hm]
      rfl
    . rw [hm]
  | alarm =>
    obtain ⟨_, rfl⟩ := of_locked_eq_some h
    rfl
  | grant n =>
    cases h
    rfl

theorem label_close (E : Engine σ) (m : Monitor σ) : (m.close E).monitor.label = m.label := by
  unfold close
  dsimp only
  split <;> rfl

theorem answer_of_first (h : m.step E now (.upcall (.error code)) = some s) (hfirst : m.conn.failure = none)
    : s.answer = .done := by
  obtain ⟨_, rfl⟩ := of_locked_eq_some h
  simp [upcall, fail, Conn.fail, hfirst, absorb]

theorem refused_of_second (h : m.step E now (.upcall (.error code)) = some s) (hfirst : m.conn.failure = some first)
    : s.answer = .fatal (refusal m.label code first) ∧ s.monitor = m ∧ s.alarms = [] := by
  obtain ⟨_, rfl⟩ := of_locked_eq_some h
  change (m.fail code).answer = _ ∧ (m.fail code).monitor = m ∧ (m.fail code).alarms = []
  have hrefused : m.conn.fail code = .error first := by rw [Conn.fail, hfirst]
  rw [fail, hrefused]
  exact ⟨rfl, rfl, rfl⟩

theorem second_of_fatal (h : m.step E now a = some s) (hfatal : s.answer = .fatal message)
    : ∃ code first, a = .upcall (.error code) ∧ m.conn.failure = some first := by
  cases a with
  | enter id call =>
    obtain ⟨_, rfl⟩ := of_enter_eq_some h
    contradiction
  | run id =>
    obtain ⟨_, _, _, rfl⟩ := of_run_eq_some h
    contradiction
  | stir id =>
    obtain ⟨_, _, _, rfl⟩ := of_stir_eq_some h
    contradiction
  | request r =>
    obtain ⟨_, rfl⟩ := of_locked_eq_some h
    cases r with
    | close =>
      simp only [request, close] at hfatal
      split at hfatal <;> contradiction
    | setDeadline scope deadline =>
      cases scope with
      | both => contradiction
      | one direction => cases direction <;> contradiction
    | _ => contradiction
  | upcall u =>
    cases u with
    | error code =>
      cases hfirst : m.conn.failure with
      | none =>
        rw [answer_of_first h hfirst] at hfatal
        contradiction
      | some first => exact ⟨code, first, rfl, rfl⟩
    | _ =>
      obtain ⟨_, rfl⟩ := of_locked_eq_some h
      contradiction
  | alarm =>
    obtain ⟨_, rfl⟩ := of_locked_eq_some h
    contradiction
  | grant n =>
    cases h
    contradiction

end Monitor

namespace OwnMove

def failure? : OwnMove → Option EngineCode
  | .act a => a.failure?
  | _ => none

end OwnMove

namespace Connection

variable {σ : Type} {E : Engine σ} {c : Connection σ} {clock : Instant} {i : Nat} {service : Timer.Service Nat}
  {owed : List AlarmRequest} {move : OwnMove} {t : Turn σ}

theorem failure_of_turn (h : c.turn E clock i service owed move = some t)
    : t.connection.monitor.label = c.monitor.label ∧
      t.connection.monitor.conn.failure = c.monitor.conn.failure.or move.failure? := by
  cases move with
  | act a =>
    simp only [turn] at h
    split at h
    . split at h
      . next s hs =>
        cases h
        exact ⟨Monitor.label_of_step hs, (Monitor.follows_of_step hs).failure⟩
      . contradiction
    . contradiction
  | drop =>
    simp only [turn] at h
    split at h
    . cases h
      have hfollows := Conn.follows_close E c.monitor.conn c.monitor.engine
      rw [← (Monitor.conn_close E c.monitor).1] at hfollows
      exact ⟨Monitor.label_close E c.monitor, hfollows.failure⟩
    . contradiction
  | addNotifier | dropNotifier =>
    simp only [turn] at h
    split at h
    . cases h
      exact ⟨rfl, Option.or_none.symm⟩
    . contradiction
  | disarm | reset =>
    simp only [turn] at h
    split at h
    . contradiction
    . cases h
      rw [(reset_frame i _ c service).1]
      exact ⟨rfl, Option.or_none.symm⟩

theorem act_of_fatal {s : Step σ} {message : String} (h : c.turn E clock i service owed move = some t)
    (hstep : t.step = some s) (hfatal : s.answer = .fatal message)
    : ∃ a, move = .act a := by
  cases move with
  | act a => exact ⟨a, rfl⟩
  | drop =>
    simp only [turn] at h
    split at h
    . cases h
      cases hstep
      unfold Monitor.close at hfatal
      dsimp only at hfatal
      split at hfatal <;> contradiction
    . contradiction
  | disarm | reset =>
    simp only [turn] at h
    split at h
    . contradiction
    . cases h
      contradiction
  | addNotifier | dropNotifier =>
    simp only [turn] at h
    split at h
    . cases h
      contradiction
    . contradiction

end Connection

namespace Midway

variable {σ : Type} {E : Engine σ} {w w' : Midway σ} {n k i : Nat} {trace before after : List (Event σ)} {x : Event σ}
  {move : Move σ} {code : EngineCode}

namespace Event

/--
What the engine reports as the failure of connection `i` in this event, whether or not it is refused.
-/
def failure? (i : Nat) (x : Event σ) : Option EngineCode :=
  match x.move with
  | .own j m => if j = i then m.failure? else none
  | _ => none

def label? (i : Nat) (x : Event σ) : Option String :=
  match x.move with
  | .opened label _ => if x.before.host.connections.length = i then some label else none
  | _ => none

/--
What is answered to whoever acts on a connection.
-/
def answer? (E : Engine σ) (x : Event σ) : Option Answer :=
  match x.move with
  | .own i m => ((x.before.turn? E i m).bind (·.step)).map (·.answer)
  | _ => none

def isFatal (E : Engine σ) (x : Event σ) : Bool :=
  match x.answer? E with
  | some (.fatal _) => true
  | _ => false

end Event

def firstFailure (i : Nat) (trace : List (Event σ)) : Option EngineCode := trace.findSome? (Event.failure? i)

def labelOf (i : Nat) (trace : List (Event σ)) : Option String := trace.findSome? (Event.label? i)

theorem firstFailure_snoc (i : Nat) (trace : List (Event σ)) (x : Event σ)
    : firstFailure i (trace ++ [x]) = (firstFailure i trace).or (x.failure? i) := by
  rw [firstFailure, List.findSome?_append, List.findSome?_singleton]
  rfl

theorem labelOf_snoc (i : Nat) (trace : List (Event σ)) (x : Event σ)
    : labelOf i (trace ++ [x]) = (labelOf i trace).or (x.label? i) := by
  rw [labelOf, List.findSome?_append, List.findSome?_singleton]
  rfl

/--
The place of a connection tells its label and its first failure, as the past has it.
-/
structure Told (i : Nat) (trace : List (Event σ)) (w : Midway σ) : Prop where
  vacant : w.host.connections[i]? = none → labelOf i trace = none ∧ firstFailure i trace = none
  occupied {c : Connection σ} : w.host.connections[i]? = some c →
    labelOf i trace = some c.monitor.label ∧ firstFailure i trace = c.monitor.conn.failure

theorem Told.start (clock : Instant) (i : Nat) : Told (σ := σ) i [] { host := { clock } } where
  vacant _ := ⟨rfl, rfl⟩
  occupied h := by contradiction

theorem Told.quiet (h : Told i trace w) (hlabel : x.label? i = none) (hfailure : x.failure? i = none)
    (hvacant : w'.host.connections[i]? = none → w.host.connections[i]? = none)
    (hoccupied : ∀ c', w'.host.connections[i]? = some c' → ∃ c, w.host.connections[i]? = some c ∧
      c'.monitor.label = c.monitor.label ∧ c'.monitor.conn.failure = c.monitor.conn.failure)
    : Told i (trace ++ [x]) w' := by
  refine ⟨?_, ?_⟩
  . intro hnone
    rw [labelOf_snoc, firstFailure_snoc, hlabel, hfailure, Option.or_none, Option.or_none]
    exact h.vacant (hvacant hnone)
  . intro c' hc'
    obtain ⟨c, hc, hsame, hsame'⟩ := hoccupied c' hc'
    rw [labelOf_snoc, firstFailure_snoc, hlabel, hfailure, Option.or_none, Option.or_none, hsame, hsame']
    exact h.occupied hc

theorem Told.opened (h : Told i trace w) (label : String) (s : σ)
    : Told i (trace ++ [⟨w, .opened label s, { w with host := (w.host.openConnection E label s).host }⟩])
        { w with host := (w.host.openConnection E label s).host } := by
  by_cases hlength : w.host.connections.length = i
  . obtain ⟨hnolabel, hnofailure⟩ := h.vacant (List.getElem?_eq_none_iff.2 (Nat.le_of_eq hlength))
    refine ⟨?_, ?_⟩
    . intro hnone
      simp only [Host.openConnection, List.getElem?_eq_none_iff, List.length_append, List.length_singleton] at hnone
      omega
    . intro c hc
      rcases Host.of_openConnection hc with hold | ⟨_, rfl⟩
      . have := (List.getElem?_eq_some_iff.1 hold).1
        omega
      . rw [labelOf_snoc, firstFailure_snoc, hnolabel, hnofailure]
        exact ⟨if_pos hlength, rfl⟩
  . refine h.quiet (if_neg hlength) rfl Host.connections_openConnection_eq_none ?_
    intro c hc
    rcases Host.of_openConnection hc with hold | ⟨hnone, rfl⟩
    . exact ⟨c, hold, rfl, rfl⟩
    . -- the place of the new connection is another one
      simp only [Host.openConnection, List.getElem?_append] at hc
      rw [List.getElem?_eq_none_iff] at hnone
      rw [if_neg (Nat.not_lt.2 hnone), List.getElem?_eq_none (by simp; omega)] at hc
      contradiction

theorem Told.own {j : Nat} {m : OwnMove} {t : Turn σ} (h : Told i trace w) (ht : w.turn? E j m = some t)
    : Told i (trace ++ [⟨w, .own j m, w.turned j t⟩]) (w.turned j t) := by
  obtain ⟨c, hc, hturn⟩ := Option.bind_eq_some_iff.1 ht
  by_cases hj : j = i
  . subst hj
    obtain ⟨hlabel, hfailure⟩ := h.occupied hc
    obtain ⟨hlabel', hfailure'⟩ := Connection.failure_of_turn hturn
    refine ⟨?_, ?_⟩
    . intro hnone
      rw [connections_replace_eq_none hnone] at hc
      contradiction
    . intro c' hc'
      cases (connections_replace hc _).symm.trans hc'
      have hreported : (Event.mk w (.own j m) (w.turned j t)).failure? j = m.failure? := if_pos rfl
      rw [labelOf_snoc, firstFailure_snoc, hlabel, hfailure, hlabel', hfailure', hreported]
      exact ⟨rfl, rfl⟩
  . refine h.quiet rfl (if_neg hj) connections_replace_eq_none ?_
    intro c' hc'
    rcases Host.of_replace hc' with ⟨heq, _⟩ | ⟨_, hold⟩
    . exact absurd heq.symm hj
    . exact ⟨c', hold, rfl, rfl⟩

theorem Told.work {r : HostStep σ} (h : Told i trace w) (hr : w.host.work = some r)
    : Told i (trace ++ [⟨w, .work, { w with host := r.host }⟩]) { w with host := r.host } := by
  rcases Host.of_work_eq_some hr with ⟨_, hhost⟩ | ⟨e, rest, _, ⟨c, hc, _, hhost⟩ | ⟨hhost, _⟩⟩ | ⟨_, hhost⟩
  . rw [hhost]
    exact h.quiet rfl rfl id fun c hc => ⟨c, hc, rfl, rfl⟩
  . rw [hhost]
    refine h.quiet rfl rfl connections_replace_eq_none ?_
    intro c' hc'
    rcases Host.of_replace hc' with ⟨rfl, rfl⟩ | ⟨_, hold⟩
    . exact ⟨c, hc, rfl, rfl⟩
    . exact ⟨c', hold, rfl, rfl⟩
  . rw [hhost]
    exact h.quiet rfl rfl id fun c hc => ⟨c, hc, rfl, rfl⟩
  . rw [hhost]
    exact h.quiet rfl rfl id fun c hc => ⟨c, hc, rfl, rfl⟩

theorem Told.step (h : Told i trace w) (hmove : w.perform E move = some (k, w'))
    : Told i (trace ++ [⟨w, move, w'⟩]) w' := by
  cases move with
  | opened label s =>
    cases hmove
    exact h.opened label s
  | own j m =>
    unfold perform at hmove
    dsimp only at hmove
    split at hmove
    . next t ht =>
      cases hmove
      exact h.own ht
    . contradiction
  | work =>
    unfold perform at hmove
    dsimp only at hmove
    split at hmove
    . split at hmove
      . next r hr =>
        cases hmove
        exact h.work hr
      . contradiction
    . contradiction
  | stirWorker =>
    unfold perform at hmove
    dsimp only at hmove
    split at hmove
    . next r hr =>
      cases hmove
      rw [Host.of_stirWorker_eq_some hr]
      exact h.quiet rfl rfl id fun c hc => ⟨c, hc, rfl, rfl⟩
    . contradiction
  | wait ms =>
    cases hmove
    exact h.quiet rfl rfl id fun c hc => ⟨c, hc, rfl, rfl⟩

theorem TracedRun.told (run : TracedRun E trace n w) (i : Nat) : Told i trace w := by
  induction run with
  | start clock => exact .start clock i
  | step _ hmove ih => exact ih.step hmove

theorem TracedRun.of_split (run : TracedRun E (before ++ x :: after) n w)
    : ∃ n' k, TracedRun E before n' x.before ∧ x.before.perform E x.move = some (k, x.after) := by
  generalize htrace : before ++ x :: after = full at run
  induction run generalizing after with
  | start clock => simp at htrace
  | @step trace n k w w' move run hmove ih =>
    rcases List.eq_nil_or_concat after with rfl | ⟨rest, y, rfl⟩
    . obtain ⟨rfl, heq⟩ := List.append_inj' htrace rfl
      cases heq
      exact ⟨n, k, run, hmove⟩
    . rw [List.concat_eq_append, ← List.cons_append, ← List.append_assoc] at htrace
      exact ih (List.append_inj' htrace rfl).1

/--
Nobody keeps the lock of connection `i`, neither between two rounds nor to reset an alarm.
-/
def lockFree (w : Midway σ) (i : Nat) : Bool :=
  match w.host.connections[i]? with
  | some c => c.monitor.lockFree && (w.owed i).isEmpty
  | none => false

theorem lockFree_eq_true_iff
    : w.lockFree i = true ↔ ∃ c, w.host.connections[i]? = some c ∧ c.monitor.lockFree = true ∧ w.owed i = [] := by
  unfold lockFree
  split
  . next c hc => simp [hc]
  . next hnone => simp [hnone]

theorem of_turn?_act {a : Action} {t : Turn σ} (h : w.turn? E i (.act a) = some t)
    : ∃ c s, w.host.connections[i]? = some c ∧ Host.permits c a = true ∧ (a.needsLock = true → w.owed i = []) ∧
        c.monitor.step E w.host.clock a = some s ∧
        t = { step := some s, connection := { c with monitor := s.monitor }, owed := w.owed i ++ s.alarms,
              service := w.host.service } := by
  obtain ⟨c, hc, h⟩ := Option.bind_eq_some_iff.1 h
  simp only [Connection.turn] at h
  split at h
  . next hmay =>
    rw [Bool.and_eq_true, Bool.or_eq_true, Bool.not_eq_true', List.isEmpty_iff] at hmay
    split at h
    . next s hs =>
      cases h
      refine ⟨c, s, hc, hmay.1, fun hlock => ?_, hs, rfl⟩
      simpa [hlock] using hmay.2
    . contradiction
  . contradiction

theorem turned_of_idle {c : Connection σ} {s : BlockingStream.Step σ} (hc : w.host.connections[i]? = some c)
    (hmonitor : s.monitor = c.monitor) (halarms : s.alarms = [])
    : w.turned i { step := some s, connection := { c with monitor := s.monitor }, owed := w.owed i ++ s.alarms,
                   service := w.host.service } = w := by
  rw [turned, hmonitor, halarms, List.append_nil, replace_self hc]
  exact owe_self w i

theorem Event.isFatal_iff
    : x.isFatal E = true ↔ ∃ i m t s message, x.move = .own i m ∧ x.before.turn? E i m = some t ∧ t.step = some s ∧
        s.answer = .fatal message := by
  unfold isFatal answer?
  constructor
  . intro hfatal
    split at hfatal
    . next message hanswer =>
      split at hanswer
      . next i m hmove =>
        obtain ⟨s, hs, hanswer⟩ := Option.map_eq_some_iff.1 hanswer
        obtain ⟨t, ht, hs⟩ := Option.bind_eq_some_iff.1 hs
        exact ⟨i, m, t, s, message, hmove, ht, hs, hanswer⟩
      . contradiction
    . contradiction
  . rintro ⟨i, m, t, s, message, hmove, ht, hs, hanswer⟩
    simp only [hmove, ht, hs, hanswer, Option.bind_some, Option.map_some]

theorem Event.answer?_of_turn {m : OwnMove} {t : Turn σ} (hmove : x.move = .own i m)
    (ht : x.before.turn? E i m = some t)
    : x.answer? E = t.step.map (·.answer) := by
  simp only [Event.answer?, hmove, ht, Option.bind_some]

theorem perform_fatal (hmove : w.perform E move = some (k, w')) (hfatal : (Event.mk w move w').isFatal E = true)
    : k = 0 ∧ w' = w ∧ ∃ i c code first, move = .own i (.act (.upcall (.error code))) ∧
        w.host.connections[i]? = some c ∧ c.monitor.conn.failure = some first := by
  obtain ⟨i, m, t, s, message, rfl, ht, hstep, hanswer⟩ := Event.isFatal_iff.1 hfatal
  dsimp only at ht
  simp only [perform, ht, Option.some.injEq, Prod.mk.injEq] at hmove
  obtain ⟨rfl, rfl⟩ := hmove
  obtain ⟨c, hc, hturn⟩ := Option.bind_eq_some_iff.1 ht
  obtain ⟨a, rfl⟩ := Connection.act_of_fatal hturn hstep hanswer
  obtain ⟨c', s', hc', _, _, hs, rfl⟩ := of_turn?_act ht
  rw [hc] at hc'
  cases hc'
  cases hstep
  obtain ⟨code, first, rfl, hfirst⟩ := Monitor.second_of_fatal hs hanswer
  obtain ⟨_, hmonitor, halarms⟩ := Monitor.refused_of_second hs hfirst
  exact ⟨rfl, turned_of_idle hc hmonitor halarms, i, c, code, first, rfl, hc, hfirst⟩

theorem perform_report (hmove : w.perform E (.own i (.act (.upcall (.error code)))) = some (k, w'))
    : ∃ c, w.host.connections[i]? = some c ∧ w.lockFree i = true ∧
        let answer? := (Event.mk w (.own i (.act (.upcall (.error code)))) w').answer? E
        match c.monitor.conn.failure with
        | none => answer? = some .done
        | some first => answer? = some (.fatal (Monitor.refusal c.monitor.label code first)) ∧ w' = w := by
  unfold perform at hmove
  dsimp only at hmove
  split at hmove
  . next t ht =>
    cases hmove
    obtain ⟨c, s, hc, _, howed, hs, rfl⟩ := of_turn?_act ht
    obtain ⟨hfree, _⟩ := Monitor.of_locked_eq_some hs
    refine ⟨c, hc, lockFree_eq_true_iff.2 ⟨c, hc, hfree, howed rfl⟩, ?_⟩
    dsimp only
    rw [Event.answer?_of_turn rfl ht]
    cases hfirst : c.monitor.conn.failure with
    | none => exact congrArg some (Monitor.answer_of_first hs hfirst)
    | some first =>
      obtain ⟨hanswer, hmonitor, halarms⟩ := Monitor.refused_of_second hs hfirst
      exact ⟨congrArg some hanswer, turned_of_idle hc hmonitor halarms⟩
  . contradiction

theorem exists_perform_report {c : Connection σ} (hc : w.host.connections[i]? = some c) (hnotifier : 0 < c.notifiers)
    (hfree : w.lockFree i = true) (code : EngineCode)
    : ∃ w', w.perform E (.own i (.act (.upcall (.error code)))) = some (0, w') := by
  obtain ⟨c', hc', hfree, howed⟩ := lockFree_eq_true_iff.1 hfree
  rw [hc] at hc'
  cases hc'
  have hs : c.monitor.step E w.host.clock (.upcall (.error code)) = some (c.monitor.upcall (.error code)) :=
    Monitor.locked_of_lockFree hfree _
  simp [perform, turn?, hc, Connection.turn, Host.permits, hnotifier, howed, hs]

theorem TracedRun.without_refusals (run : TracedRun E trace n w)
    : TracedRun E (trace.filter fun x => !x.isFatal E) n w := by
  induction run with
  | start clock => exact .start clock
  | @step trace n k w w' move run hmove ih =>
    rw [List.filter_append]
    by_cases hfatal : (Event.mk w move w').isFatal E = true
    . obtain ⟨rfl, rfl, _⟩ := perform_fatal hmove hfatal
      rw [List.filter_cons_of_neg (by simp [hfatal]), List.filter_nil, List.append_nil]
      exact ih
    . rw [Bool.not_eq_true] at hfatal
      rw [List.filter_cons_of_pos (by simp [hfatal]), List.filter_nil]
      exact ih.step hmove

/--
The engine can report a failure as soon as nobody keeps the lock of the connection. The report is refused exactly if
there was an earlier one, whatever else has happened, and whoever makes it is told the label and both codes. Nothing has
changed then: so the run without the refused calls goes through the same states, with the same answers.
-/
theorem TracedRun.refusals_invisible (run : TracedRun E trace n w)
    : (∀ i c code, w.host.connections[i]? = some c → 0 < c.notifiers → w.lockFree i = true →
        ∃ w', w.perform E (.own i (.act (.upcall (.error code)))) = some (0, w')) ∧
      (∀ before x after, trace = before ++ x :: after → ∀ i code, x.move = .own i (.act (.upcall (.error code))) →
        match firstFailure i before with
        | none => x.answer? E = some .done
        | some first =>
          ∃ label, labelOf i before = some label ∧ x.answer? E = some (.fatal (Monitor.refusal label code first)) ∧
            x.after = x.before ∧ x.after.lockFree i = true) ∧
      (∀ before x after, trace = before ++ x :: after → x.isFatal E = true →
        ∃ i code first, x.move = .own i (.act (.upcall (.error code))) ∧ firstFailure i before = some first) ∧
      TracedRun E (trace.filter fun x => !x.isFatal E) n w := by
  refine ⟨?_, ?_, ?_, run.without_refusals⟩
  . intro i c code hc hnotifier hfree
    exact exists_perform_report hc hnotifier hfree code
  . rintro before ⟨w₀, move, w₁⟩ after rfl i code rfl
    obtain ⟨_, k, hbefore, hmove⟩ := run.of_split
    obtain ⟨c, hc, hfree, hreport⟩ := perform_report hmove
    obtain ⟨hlabel, hfirst⟩ := (hbefore.told i).occupied hc
    dsimp only at hreport ⊢
    rw [hfirst]
    cases hfailure : c.monitor.conn.failure with
    | none =>
      rw [hfailure] at hreport
      exact hreport
    | some first =>
      rw [hfailure] at hreport
      obtain ⟨hanswer, rfl⟩ := hreport
      exact ⟨_, hlabel, hanswer, rfl, hfree⟩
  . rintro before ⟨w₀, move, w₁⟩ after rfl hfatal
    obtain ⟨_, k, hbefore, hmove⟩ := run.of_split
    obtain ⟨_, _, i, c, code, first, rfl, hc, hfirst⟩ := perform_fatal hmove hfatal
    exact ⟨i, code, first, rfl, ((hbefore.told i).occupied hc).2.trans hfirst⟩

/--
The first report is made on a connection that has seen the end of its input, that was destroyed and closed, and whose
handle was dropped. The second one is refused, with a deadline pending and a reader of another connection asleep.
-/
theorem late_refusal_invisible
    : ∃ trace n w, TracedRun Metered.engine trace n w ∧
        (trace.filter fun x => (x.failure? 0).isSome).filterMap (Event.answer? Metered.engine) =
          [.done, .fatal "multiple engine errors on connection `a`: got ETIMEDOUT, have ECONNRESET"] ∧
        w.host.service.queue.entries = [(⟨9, 0⟩, 0)] ∧
        w.host.connections.map (·.monitor.threads.map Thread.isAsleep) = [[false], [true]] ∧
        (trace.filter fun x => !x.isFatal Metered.engine).length + 1 = trace.length ∧
        TracedRun Metered.engine (trace.filter fun x => !x.isFatal Metered.engine) n w := by
  have run := TracedRun.replayed (E := Metered.engine) 0
    [.opened "a" {}, .opened "b" {}, .own 1 (.act (.enter 0 (.read 4))), .own 1 (.act (.run 0)),
      .own 0 (.act (.enter 0 (.read 4))), .own 0 (.act (.run 0)), .own 0 (.act (.upcall .eof)),
      .own 0 (.act (.upcall .destroyed)), .own 0 (.act (.request .close)), .own 0 .reset, .own 0 .reset,
      .own 0 (.act (.request (.setDeadline (.one .writing) (some 9)))), .own 0 .reset, .own 0 (.act (.run 0)),
      .own 0 .drop, .own 0 (.act (.upcall (.error ⟨"ECONNRESET"⟩))), .wait 1,
      .own 0 (.act (.upcall (.error ⟨"ETIMEDOUT"⟩))), .wait 1, .work] (by decide +kernel)
  obtain ⟨_, _, _, without⟩ := run.refusals_invisible
  exact ⟨_, _, _, run, by decide +kernel, by decide +kernel, by decide +kernel, by decide +kernel, without⟩

end Midway

end BlockingStream

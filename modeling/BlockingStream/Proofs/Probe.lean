import BlockingStream.Proofs.Omission
import BlockingStream.Proofs.Phase
import BlockingStream.Proofs.Refusal

/-!
This module contains the proof that probes leave no trace. A probe is a transfer of nothing, a look at the connection,
or a further close of one that is closed already. A run into which probes were inserted, at any points, is without the
threads that made them a run of the other moves alone.
-/

namespace BlockingStream

namespace Call

/--
It is a transfer of nothing.
-/
def isProbe : Call → Bool
  | .awaitConnect => false
  | .readInto buffer => buffer.isEmpty
  | .write data => data.isEmpty

end Call

namespace Thread

/--
The thread is in a transfer of nothing, which it has not tried yet or has returned from.
-/
structure Probing (t : Thread) : Prop where
  call : t.call.isProbe = true
  taken : t.taken = 0
  rest : t.rest = []
  awake : t.isReady = true ∨ t.outcome? ≠ none

variable {t : Thread} {id : Nat} {call : Call}

theorem probing_enter (h : call.isProbe = true) : (enter id call).Probing := by
  cases call with
  | awaitConnect => contradiction
  | readInto buffer => exact ⟨h, rfl, rfl, Or.inl rfl⟩
  | write data =>
    obtain rfl : data = [] := by simpa [Call.isProbe] using h
    exact ⟨rfl, rfl, rfl, Or.inl rfl⟩

theorem Probing.isAsleep (h : t.Probing) : t.isAsleep = false := by
  have hawake := h.awake
  unfold isReady outcome? at hawake
  unfold Thread.isAsleep
  cases hstatus : t.status <;> simp_all

theorem Probing.isHolding (h : t.Probing) : t.isHolding = false := by
  have hawake := h.awake
  unfold isReady outcome? at hawake
  unfold Thread.isHolding
  cases hstatus : t.status <;> simp_all

theorem Probing.signal_eq (h : t.Probing) : t.signal = t := by
  have hasleep := h.isAsleep
  unfold Thread.isAsleep at hasleep
  unfold signal
  cases hstatus : t.status <;> simp_all

end Thread

namespace Action

def respects (p : Nat → Bool) : Action → Bool
  | .enter id call => !p id || call.isProbe
  | _ => true

theorem respects_of_spares {p : Nat → Bool} {a : Action} (h : a.spares p = true) : a.respects p = true := by
  cases a with
  | enter id call =>
    have hid : p id = false := by simpa [spares, thread?] using h
    simp [respects, hid]
  | _ => rfl

end Action

namespace Monitor

variable {σ : Type} {E : Engine σ} {m : Monitor σ} {p : Nat → Bool} {t : Thread} {now : Instant} {id : Nat}
  {a : Action} {s : Step σ} {call : Call}

theorem round_of_probing (E : Engine σ) (now : Instant) (hcounted : m.Counted) (ht : t.Probing)
    : (m.round E now t).conn = m.conn ∧ (m.round E now t).engine = m.engine ∧
      (m.round E now t).thread.Probing ∧ (m.round E now t).thread.outcome? ≠ none := by
  have hreturned : ∀ buffer outcome, ({ t with buffer, status := .returned outcome } : Thread).Probing := fun _ _ =>
    ⟨ht.call, ht.taken, ht.rest, Or.inr (by simp [Thread.outcome?])⟩
  have hcall := ht.call
  cases hkind : t.call with
  | awaitConnect =>
    rw [hkind] at hcall
    contradiction
  | readInto buffer =>
    obtain rfl : buffer = [] := by simpa [Call.isProbe, hkind] using hcall
    obtain ⟨hconn, hengine, hthread⟩ := readRound_cases E now m t 0
    rw [round_of_read hkind, List.length_nil, hconn, hengine, hthread]
    refine ⟨?_, ?_, ?_⟩
    . simp [Conn.read, countUp_zero hcounted.1]
    . simp [Conn.read, Conn.hintDrained]
    . simp only [ne_eq, not_true_eq_false, false_and, and_false, if_false]
      exact ⟨hreturned _ _, by simp [Thread.outcome?]⟩
  | write data =>
    have hround : m.round E now t = m.finishWrite t (m.conn.writeError now) m.engine [] := by
      simp [round_of_write hkind, writeRound, ht.rest]
    rw [hround]
    refine ⟨?_, rfl, hreturned _ _, by simp [finishWrite, Thread.outcome?]⟩
    simp [finishWrite, Conn.recordWritten, ht.taken, countUp_zero hcounted.2]

/--
The given threads make transfers of nothing only.
-/
structure Probed (p : Nat → Bool) (m : Monitor σ) : Prop where
  counted : m.Counted
  probing : ∀ t ∈ m.threads, p t.id = true → t.Probing

theorem probed_init (E : Engine σ) (label : String) (s : σ) (p : Nat → Bool) : (init E label s).Probed p where
  counted := ⟨Nat.zero_le _, Nat.zero_le _⟩
  probing := by
    intro t ht
    contradiction

theorem Probed.step (probed : m.Probed p) (h : m.step E now a = some s) (ha : a.respects p = true)
    : s.monitor.Probed p := by
  refine ⟨(counters_of_step probed.counted h).1, ?_⟩
  intro t ht hp
  by_cases hthread : a.thread? = some t.id
  . cases a with
    | enter id call =>
      cases hthread
      obtain ⟨hnone, rfl⟩ := of_enter_eq_some h
      rcases List.mem_append.1 ht with ht | ht
      . exact absurd rfl (thread?_eq_none_iff.1 hnone t ht)
      . rw [List.mem_singleton.1 ht]
        apply Thread.probing_enter
        simpa [Action.respects, hp] using ha
    | run id =>
      cases hthread
      obtain ⟨u, hfound, _, rfl⟩ := of_run_eq_some h
      obtain ⟨hu, hid⟩ := of_thread? hfound
      rcases mem_setThread ht with rfl | ⟨_, hne⟩
      . rw [← hid] at hp
        exact (round_of_probing E now probed.counted (probed.probing u hu hp)).2.2.1
      . rw [id_round] at hne
        exact absurd hid.symm hne
    | stir id =>
      cases hthread
      obtain ⟨u, hfound, hasleep, _⟩ := of_stir_eq_some h
      obtain ⟨hu, hid⟩ := of_thread? hfound
      rw [← hid] at hp
      rw [(probed.probing u hu hp).isAsleep] at hasleep
      contradiction
    | _ => contradiction
  . obtain ⟨u, hu, hid, hsame | hsignal⟩ := mem_of_step h ht hthread
    . rw [hsame]
      rw [← hid] at hp
      exact probed.probing u hu hp
    . rw [← hid] at hp
      have hprobing := probed.probing u hu hp
      rw [hsignal, hprobing.signal_eq]
      exact hprobing

/--
What may be done at any time without any trace: a transfer of nothing by one of the given threads, a look, or a close
of what is closed.
-/
def isProbe (p : Nat → Bool) (m : Monitor σ) : Action → Bool
  | .enter id call => p id && call.isProbe
  | .run id => p id
  | .request .close => m.conn.closed
  | .request .stats | .request .phase | .request .buffered => true
  | _ => false

theorem respects_of_isProbe (ha : m.isProbe p a = true) : a.respects p = true := by
  cases a with
  | enter id call =>
    simp only [isProbe, Bool.and_eq_true] at ha
    simp [Action.respects, ha.2]
  | _ => rfl

theorem without_of_probe (probed : m.Probed p) (h : m.step E now a = some s) (ha : m.isProbe p a = true)
    : s.monitor.without p = m.without p ∧ s.alarms = [] := by
  cases a with
  | enter id call =>
    obtain ⟨_, rfl⟩ := of_enter_eq_some h
    simp only [isProbe, Bool.and_eq_true] at ha
    refine ⟨?_, rfl⟩
    simp [without, ha.1]
  | run id =>
    obtain ⟨t, hfound, _, rfl⟩ := of_run_eq_some h
    obtain ⟨ht, rfl⟩ := of_thread? hfound
    obtain ⟨hconn, hengine, _⟩ := round_of_probing E now probed.counted (probed.probing t ht ha)
    refine ⟨?_, rfl⟩
    rw [hconn, hengine]
    apply without_setThread_self
    rw [id_round]
    exact ha
  | request r =>
    obtain ⟨_, rfl⟩ := of_locked_eq_some h
    cases r with
    | close =>
      have hclosed : m.conn.closed = true := ha
      have hclose : m.close E = { monitor := m } := by simp [close, Conn.close_of_closed E hclosed]
      rw [request, hclose]
      exact ⟨rfl, rfl⟩
    | stats | phase | buffered => exact ⟨rfl, rfl⟩
    | _ => contradiction
  | _ => contradiction

theorem exists_run_of_probing (E : Engine σ) (now : Instant) (hcounted : m.Counted) (hfree : m.lockFree = true)
    (hid : m.thread? id = some t) (ht : t.Probing) (hinside : t.outcome? = none)
    : ∃ s, m.step E now (.run id) = some s ∧ (s.monitor.thread? id).bind Thread.outcome? ≠ none := by
  have hready : t.isReady = true := ht.awake.resolve_right fun hreturned => hreturned hinside
  have hmay : m.mayRun t = true := by simp [mayRun, hready, hfree]
  obtain ⟨s, hs, hthread, _⟩ := step_of_mayRun E now hid hmay
  refine ⟨s, hs, ?_⟩
  rw [hthread]
  exact (round_of_probing E now hcounted ht).2.2.2

end Monitor

namespace OwnMove

def respects (p : Nat → Bool) : OwnMove → Bool
  | .act a => a.respects p
  | _ => true

theorem respects_of_spares {p : Nat → Bool} {move : OwnMove} (h : move.spares p = true) : move.respects p = true := by
  cases move with
  | act a => exact Action.respects_of_spares h
  | _ => rfl

end OwnMove

namespace Midway

/--
A question that is answered without a step of the connection.
-/
inductive Inquiry where
  | label
  | debug
  deriving DecidableEq, Repr

/--
Something that may be inserted into a run.
-/
inductive Probe where
  | act (i : Nat) (a : Action)
  | inquire (i : Nat) (q : Inquiry)
  deriving DecidableEq, Repr

variable {σ : Type} {E : Engine σ} {w w' : Midway σ} {P : Nat → Nat → Bool} {n k i : Nat} {move : Move σ}
  {trace : List (Event σ)} {probe : Probe}

def Move.respects (P : Nat → Nat → Bool) : Move σ → Bool
  | .own i m => m.respects (P i)
  | _ => true

theorem Move.respects_of_spares (h : move.spares P = true) : move.respects P = true := by
  cases move with
  | own i m => exact OwnMove.respects_of_spares h
  | _ => rfl

def Probed (P : Nat → Nat → Bool) (w : Midway σ) : Prop := w.Every fun i m => m.Probed (P i)

theorem Probed.perform (probed : w.Probed P) (hmove : w.perform E move = some (k, w'))
    (hrespects : move.respects P = true)
    : w'.Probed P := by
  apply Every.perform (fun i a => a.respects (P i) = true) probed hmove
  . rintro i a rfl
    exact hrespects
  . intro i
    exact ⟨rfl, rfl⟩
  . intro i label s
    exact Monitor.probed_init E label s (P i)
  . intro i m now a s hm hs ha
    exact hm.step hs ha

theorem Probed.idle (probed : w.Probed P) : w.Idle P :=
  fun i c hc t ht hp => ((probed i c hc).probing t ht hp).isHolding

def inquire (w : Midway σ) (i : Nat) (q : Inquiry) : Option String :=
  w.host.connections[i]?.bind fun c =>
    match q with
    | .label => if c.handle then some c.monitor.label else none
    | .debug => if c.handle && w.lockFree i then some c.monitor.render else none

def isProbe (P : Nat → Nat → Bool) (w : Midway σ) (i : Nat) (a : Action) : Bool :=
  w.host.connections[i]?.any fun c => c.monitor.isProbe (P i) a

/--
Makes a probe, if it can be made now.
-/
def ask (E : Engine σ) (P : Nat → Nat → Bool) (w : Midway σ) : Probe → Option (Midway σ)
  | .act i a => if w.isProbe P i a then (w.perform E (.own i (.act a))).map Prod.snd else none
  | .inquire i q => (w.inquire i q).map fun _ => w

theorem of_ask_act {a : Action} (h : w.ask E P (.act i a) = some w')
    : w.perform E (.own i (.act a)) = some (0, w') ∧
        ∃ c s, w.host.connections[i]? = some c ∧ c.monitor.isProbe (P i) a = true ∧
          c.monitor.step E w.host.clock a = some s ∧
          w' = w.turned i { step := some s, connection := { c with monitor := s.monitor },
                            owed := w.owed i ++ s.alarms, service := w.host.service } := by
  unfold ask at h
  dsimp only at h
  split at h
  . next hprobe =>
    obtain ⟨⟨k, w''⟩, hmove, rfl⟩ := Option.map_eq_some_iff.1 h
    have hperform := hmove
    unfold perform at hmove
    dsimp only at hmove
    split at hmove
    . next t ht =>
      obtain ⟨c, s, hc, _, _, hs, rfl⟩ := of_turn?_act ht
      cases hmove
      refine ⟨hperform, c, s, hc, ?_, hs, rfl⟩
      simpa [isProbe, hc] using hprobe
    . contradiction
  . contradiction

theorem Probed.ask (probed : w.Probed P) (h : w.ask E P probe = some w') : w'.Probed P := by
  cases probe with
  | act i a =>
    obtain ⟨hmove, c, s, _, hprobe, _⟩ := of_ask_act h
    exact probed.perform hmove (Monitor.respects_of_isProbe hprobe)
  | inquire i q =>
    obtain ⟨_, _, rfl⟩ := Option.map_eq_some_iff.1 h
    exact probed

theorem without_of_ask (probed : w.Probed P) (h : w.ask E P probe = some w') : w'.without P = w.without P := by
  -- a transfer of nothing ends in its first round, and then only its thread is left, which is left out
  cases probe with
  | act i a =>
    obtain ⟨_, c, s, hc, hprobe, hs, rfl⟩ := of_ask_act h
    obtain ⟨hwithout, halarms⟩ := Monitor.without_of_probe (probed i c hc) hs hprobe
    -- without the threads that make probes, the connection is replaced by itself
    have hc' : (w.without P).host.connections[i]? = some (c.without (P i)) := by
      rw [connection_without, hc]
      rfl
    have hturned := turned_of_idle (s := s.without (P i)) hc' hwithout halarms
    rw [← turned_without]
    exact hturned
  | inquire i q =>
    obtain ⟨_, _, rfl⟩ := Option.map_eq_some_iff.1 h
    rfl

theorem exists_ask_of_step {c : Connection σ} {a : Action} {s : BlockingStream.Step σ}
    (hc : w.host.connections[i]? = some c) (hpermits : Host.permits c a = true)
    (hlock : a.needsLock = true → w.owed i = []) (hprobe : c.monitor.isProbe (P i) a = true)
    (hs : c.monitor.step E w.host.clock a = some s)
    : ∃ w', w.ask E P (.act i a) = some w' ∧
        w'.host.connections[i]? = some { c with monitor := s.monitor } := by
  have hmay : (!a.needsLock || (w.owed i).isEmpty) = true := by
    rw [Bool.or_eq_true, Bool.not_eq_true', List.isEmpty_iff]
    exact (Bool.eq_false_or_eq_true _).symm.imp_right hlock
  refine ⟨w.turned i { step := some s, connection := { c with monitor := s.monitor }, owed := w.owed i ++ s.alarms,
                       service := w.host.service }, ?_, ?_⟩
  . simp [ask, isProbe, hc, hprobe, perform, turn?, Connection.turn, hpermits, hmay, hs]
  . exact connections_replace hc _

/--
What a call has returned.
-/
def outcome? (w : Midway σ) (i id : Nat) : Option Outcome :=
  w.host.connections[i]?.bind fun c => (c.monitor.thread? id).bind Thread.outcome?

theorem outcome?_without {id : Nat} (w : Midway σ) (hid : P i id = false)
    : (w.without P).outcome? i id = w.outcome? i id := by
  unfold outcome?
  rw [connection_without]
  cases hc : w.host.connections[i]? with
  | none => rfl
  | some c => exact congrArg (·.bind Thread.outcome?) (Monitor.thread?_without hid)

/--
What a call returns in this event.
-/
def Event.outcome? (x : Event σ) : Option Outcome :=
  match x.move with
  | .own i (.act (.run id)) => x.after.outcome? i id
  | _ => none

theorem busy_without_of_drop {c : Connection σ} (hmove : w.perform E (.own i .drop) = some (k, w'))
    (hc : w.host.connections[i]? = some c)
    : (c.monitor.without (P i)).busy = c.monitor.busy := by
  simp only [perform, turn?, hc, Option.bind_some, Connection.turn] at hmove
  split at hmove
  . next t ht =>
    split at ht
    . next hmay =>
      rw [Bool.and_eq_true, Bool.and_eq_true, Bool.not_eq_true'] at hmay
      apply Monitor.busy_without
      intro t ht _
      exact Monitor.outcome?_of_not_busy hmay.1.2 ht
    . contradiction
  . contradiction

theorem Probed.perform_without (probed : w.Probed P) (hspares : move.spares P = true)
    (hmove : w.perform E move = some (k, w'))
    : (w.without P).perform E move = some (k, w'.without P) := by
  rw [Midway.perform_without E probed.idle hspares, hmove]
  . rfl
  . rintro i c rfl hc
    exact busy_without_of_drop hmove hc

theorem Probed.answer?_without (probed : w.Probed P) (hspares : move.spares P = true)
    (hmove : w.perform E move = some (k, w'))
    : ((Event.mk w move w').without P).answer? E = (Event.mk w move w').answer? E := by
  cases move with
  | own i m =>
    have hturn : (w.without P).turn? E i m = (w.turn? E i m).map (Turn.without (P i)) := by
      apply turn?_without probed.idle hspares
      rintro rfl c hc
      exact busy_without_of_drop hmove hc
    simp only [Event.answer?, Event.without, hturn]
    cases w.turn? E i m with
    | none => rfl
    | some t => cases hstep : t.step <;> simp [Turn.without, Step.without, hstep]
  | _ => rfl

theorem Event.outcome?_without {x : Event σ} (hspares : x.move.spares P = true)
    : (x.without P).outcome? = x.outcome? := by
  obtain ⟨w, move, w'⟩ := x
  cases move with
  | own i m =>
    cases m with
    | act a =>
      cases a with
      | run id =>
        apply Midway.outcome?_without w'
        simpa [Move.spares, OwnMove.spares, Action.spares, Action.thread?] using hspares
      | _ => rfl
    | _ => rfl
  | _ => rfl

/--
The runs of a new host with probes inserted at any points, together with a trace of what else happened. The threads
that are given for each connection make probes and nothing else.
-/
inductive ProbedRun (E : Engine σ) (P : Nat → Nat → Bool) : List (Event σ) → Nat → Midway σ → Prop where
  | start (clock : Instant) : ProbedRun E P [] 0 { host := { clock } }
  | step {trace : List (Event σ)} {n k : Nat} {w w' : Midway σ} {move : Move σ} :
      ProbedRun E P trace n w → move.spares P = true → w.perform E move = some (k, w') →
      ProbedRun E P (trace ++ [⟨w, move, w'⟩]) (n + k) w'
  | probe {trace : List (Event σ)} {n : Nat} {w w' : Midway σ} {probe : Probe} :
      ProbedRun E P trace n w → w.ask E P probe = some w' → ProbedRun E P trace n w'

namespace ProbedRun

theorem probed (run : ProbedRun E P trace n w) : w.Probed P := by
  induction run with
  | start clock =>
    intro i c hc
    contradiction
  | step _ hspares hmove ih => exact ih.perform hmove (Move.respects_of_spares hspares)
  | probe _ hask ih => exact ih.ask hask

theorem of_mem {x : Event σ} (run : ProbedRun E P trace n w) (hx : x ∈ trace)
    : x.before.Probed P ∧ x.move.spares P = true ∧ ∃ k, x.before.perform E x.move = some (k, x.after) := by
  induction run with
  | start clock => contradiction
  | step run hspares hmove ih =>
    rcases List.mem_append.1 hx with hx | hx
    . exact ih hx
    . rw [List.mem_singleton.1 hx]
      exact ⟨run.probed, hspares, _, hmove⟩
  | probe _ _ ih => exact ih hx

theorem without (run : ProbedRun E P trace n w) : TracedRun E (trace.map (Event.without P)) n (w.without P) := by
  induction run with
  | start clock => exact .start clock
  | step run hspares hmove ih =>
    rw [List.map_append]
    exact ih.step (run.probed.perform_without hspares hmove)
  | probe run hask ih =>
    rw [without_of_ask run.probed hask]
    exact ih

theorem exists_ask {c : Connection σ} (run : ProbedRun E P trace n w) (hc : w.host.connections[i]? = some c)
    : (c.handle = true → w.lockFree i = true →
        (∀ q, w.ask E P (.inquire i q) = some w) ∧
        ∀ r, c.monitor.isProbe (P i) (.request r) = true → ∃ w', w.ask E P (.act i (.request r)) = some w') ∧
      ∀ id, P i id = true →
        (∀ call, c.handle = true → call.isProbe = true → c.monitor.thread? id = none →
          ∃ w', w.ask E P (.act i (.enter id call)) = some w') ∧
        ∀ t, c.monitor.thread? id = some t → t.outcome? = none → w.lockFree i = true →
          ∃ w', w.ask E P (.act i (.run id)) = some w' ∧ w'.outcome? i id ≠ none := by
  constructor
  . intro hhandle hfree
    constructor
    . intro q
      cases q <;> simp [ask, inquire, hc, hhandle, hfree]
    . intro r hr
      obtain ⟨c', hc', hlock, howed⟩ := lockFree_eq_true_iff.1 hfree
      rw [hc] at hc'
      cases hc'
      have hs : c.monitor.step E w.host.clock (.request r) = _ := Monitor.locked_of_lockFree hlock _
      obtain ⟨w', hask, _⟩ := exists_ask_of_step (a := .request r) hc hhandle (fun _ => howed) hr hs
      exact ⟨w', hask⟩
  . intro id hp
    constructor
    . intro call hhandle hcall hid
      have hs : c.monitor.step E w.host.clock (.enter id call) =
          some { monitor := { c.monitor with threads := c.monitor.threads ++ [Thread.enter id call] } } := by
        simp [Monitor.step, Monitor.enter, hid]
      have hprobe : c.monitor.isProbe (P i) (.enter id call) = true := by
        simp [Monitor.isProbe, hp, hcall]
      obtain ⟨w', hask, _⟩ :=
        exists_ask_of_step (a := .enter id call) hc hhandle (fun hlock => by contradiction) hprobe hs
      exact ⟨w', hask⟩
    . intro t ht hinside hfree
      obtain ⟨c', hc', hlock, howed⟩ := lockFree_eq_true_iff.1 hfree
      rw [hc] at hc'
      cases hc'
      obtain ⟨hmem, rfl⟩ := Monitor.of_thread? ht
      have probed := run.probed i c hc
      obtain ⟨s, hs, hreturned⟩ :=
        Monitor.exists_run_of_probing E w.host.clock probed.counted hlock ht (probed.probing t hmem hp) hinside
      obtain ⟨w', hask, hc'⟩ := exists_ask_of_step (a := .run t.id) hc rfl (fun _ => howed) hp hs
      refine ⟨w', hask, ?_⟩
      simp only [outcome?, hc']
      exact hreturned

/--
Probes are invisible. The other moves of a run into which probes were inserted make a run of their own, with the same
results, through the same states apart from the threads that make probes: the connections, their engines (also one that
writes down its calls), the timer queue and the sleepers are the same. Nobody who makes a probe is ever asleep, and a
probe is possible whenever the lock is free. Nothing else is kept from happening, but that the handle is not dropped
while somebody is still inside a call. Once all of them have returned, whatever else is done from there on goes as it
would have gone without them.
-/
theorem probes_invisible (run : ProbedRun E P trace n w)
    : TracedRun E (trace.map (Event.without P)) n (w.without P) ∧
      (∀ x ∈ trace, (x.without P).answer? E = x.answer? E ∧ (x.without P).outcome? = x.outcome?) ∧
      (w.without P).host.service = w.host.service ∧
      (∀ i c, w.host.connections[i]? = some c →
        (∃ c', (w.without P).host.connections[i]? = some c' ∧ c'.monitor.conn = c.monitor.conn ∧
          c'.monitor.engine = c.monitor.engine ∧
          c'.monitor.threads.filter Thread.isAsleep = c.monitor.threads.filter Thread.isAsleep) ∧
        (∀ t ∈ c.monitor.threads, P i t.id = true → t.isAsleep = false) ∧
        (c.handle = true → w.lockFree i = true →
          (∀ q, w.ask E P (.inquire i q) = some w) ∧
          ∀ r, c.monitor.isProbe (P i) (.request r) = true → ∃ w', w.ask E P (.act i (.request r)) = some w') ∧
        ∀ id, P i id = true →
          (∀ call, c.handle = true → call.isProbe = true → c.monitor.thread? id = none →
            ∃ w', w.ask E P (.act i (.enter id call)) = some w') ∧
          ∀ t, c.monitor.thread? id = some t → t.outcome? = none → w.lockFree i = true →
            ∃ w', w.ask E P (.act i (.run id)) = some w' ∧ w'.outcome? i id ≠ none) ∧
      (∀ move, move.spares P = true →
        (∀ i c, move = .own i .drop → w.host.connections[i]? = some c →
          ∀ t ∈ c.monitor.threads, P i t.id = true → t.outcome? ≠ none) →
        (w.without P).perform E move = (w.perform E move).map fun r => (r.1, r.2.without P)) ∧
      (w.Settled P → ∀ moves, (∀ move ∈ moves, move.spares P = true) →
        (w.without P).replay E moves =
          (w.replay E moves).map fun r => (r.1.map (Event.without P), r.2.1, r.2.2.without P)) := by
  refine ⟨run.without, ?_, rfl, ?_, ?_, ?_⟩
  . rintro ⟨before, move, after⟩ hx
    obtain ⟨probed, hspares, _, hmove⟩ := run.of_mem hx
    exact ⟨probed.answer?_without hspares hmove, Event.outcome?_without hspares⟩
  . intro i c hc
    have hawake : ∀ t ∈ c.monitor.threads, P i t.id = true → t.isAsleep = false :=
      fun t ht hp => ((run.probed i c hc).probing t ht hp).isAsleep
    refine ⟨⟨c.without (P i), ?_, rfl, rfl, ?_⟩, hawake, run.exists_ask hc⟩
    . rw [connection_without, hc]
      rfl
    . change (c.monitor.threads.filter _).filter _ = _
      rw [List.filter_filter]
      apply List.filter_congr
      intro t ht
      cases hp : P i t.id with
      | true => simp [hawake t ht hp]
      | false => simp
  . intro move hspares hreturned
    exact perform_without E run.probed.idle hspares fun i c hdrop hc =>
      Monitor.busy_without (hreturned i c hdrop hc)
  . intro settled moves hspares
    exact settled.replay_without E hspares

end ProbedRun

def replayProbed (E : Engine σ) (P : Nat → Nat → Bool) (w : Midway σ)
    : List (Move σ ⊕ Probe) → Option (List (Event σ) × Nat × Midway σ)
  | [] => some ([], 0, w)
  | .inl move :: rest =>
    match move.spares P, w.perform E move with
    | true, some (k, after) =>
      match after.replayProbed E P rest with
      | some (trace, n, last) => some (⟨w, move, after⟩ :: trace, k + n, last)
      | none => none
    | _, _ => none
  | .inr probe :: rest =>
    match w.ask E P probe with
    | some after => after.replayProbed E P rest
    | none => none

theorem ProbedRun.replay {more : List (Event σ)} (script : List (Move σ ⊕ Probe)) (run : ProbedRun E P trace n w)
    (h : w.replayProbed E P script = some (more, k, w'))
    : ProbedRun E P (trace ++ more) (n + k) w' := by
  induction script generalizing trace n w more k with
  | nil =>
    cases h
    rw [List.append_nil]
    exact run
  | cons item rest ih =>
    unfold replayProbed at h
    split at h
    . contradiction
    . next hitem =>
      cases hitem
      split at h
      . next hspares hmove =>
        split at h
        . next hrest =>
          cases h
          have hrun := ih (run.step hspares hmove) hrest
          rw [List.append_assoc, Nat.add_assoc] at hrun
          exact hrun
        . contradiction
      . contradiction
    . next hitem =>
      cases hitem
      split at h
      . next hask => exact ih (run.probe hask) h
      . contradiction

theorem ProbedRun.replayed (P : Nat → Nat → Bool) (clock : Instant) (script : List (Move σ ⊕ Probe))
    (h : (replayProbed E P { host := { clock } } script).isSome = true)
    : ProbedRun E P ((replayProbed E P { host := { clock } } script).get h).1
        ((replayProbed E P { host := { clock } } script).get h).2.1
        ((replayProbed E P { host := { clock } } script).get h).2.2 := by
  have hrun := (ProbedRun.start (E := E) (P := P) clock).replay script (Option.some_get h).symm
  rw [List.nil_append, Nat.zero_add] at hrun
  exact hrun

/--
Probes on a connection whose engine has no room, while a writer sleeps there. They come before and after the close, and
one of the closes that follow finds a deadline that was set since.
-/
theorem probes_beside_sleeper_invisible
    : ∃ trace n w, ProbedRun Metered.engine (fun _ id => 100 ≤ id) trace n w ∧
        TracedRun Metered.engine (trace.map (Event.without fun _ id => 100 ≤ id)) n
          (w.without fun _ id => 100 ≤ id) ∧
        trace.length = 19 ∧
        w.host.service.queue.entries = [(⟨9, 0⟩, 0)] ∧
        w.host.connections.map (·.monitor.engine) = [{ credit := some 0, closes := 1 }, { credit := some 0 }] ∧
        w.host.connections.map (·.monitor.threads.map fun t => (t.id, t.isAsleep)) =
          [[(0, false), (100, false), (101, false), (1, false), (102, false)], [(0, true), (100, false)]] ∧
        ((w.outcome? 0 100).bind Outcome.error?, (w.outcome? 0 101).bind Outcome.error?,
          (w.outcome? 0 102).bind Outcome.error?) = (some .endOfStream, none, some .endOfStream) := by
  have run := ProbedRun.replayed (E := Metered.engine) (fun _ id => 100 ≤ id) 0
    [.inl (.opened "a" { credit := some 0 }), .inl (.opened "b" { credit := some 0 }),
      .inl (.own 0 (.act (.enter 0 (.write [7])))), .inl (.own 0 (.act (.run 0))),
      .inl (.own 1 (.act (.enter 0 (.write [8])))), .inl (.own 1 (.act (.run 0))),
      .inr (.act 0 (.enter 100 (.read 0))), .inr (.act 0 (.enter 101 (.write []))), .inr (.act 0 (.run 101)),
      .inl (.own 0 (.act (.upcall .eof))), .inr (.act 0 (.run 100)), .inl (.own 0 (.act (.run 0))),
      .inr (.act 0 (.request .stats)), .inr (.inquire 0 .debug),
      .inl (.own 0 (.act (.request .close))), .inr (.inquire 0 .label), .inl (.own 0 .reset), .inl (.own 0 .reset),
      .inl (.own 0 (.act (.run 0))), .inl (.own 0 (.act (.request (.setDeadline (.one .writing) (some 9))))),
      .inl (.own 0 .reset), .inr (.act 0 (.request .close)), .inr (.act 0 (.request .phase)),
      .inl (.own 0 (.act (.enter 1 (.read 4)))), .inl (.own 0 (.act (.run 1))),
      .inr (.act 1 (.enter 100 (.write []))), .inr (.act 1 (.run 100)), .inr (.act 1 (.request .buffered)),
      .inl (.wait 1), .inr (.act 0 (.enter 102 (.read 0))), .inl .work, .inr (.act 0 (.run 102)),
      .inr (.act 0 (.request .close)), .inl (.wait 1)] (by decide +kernel)
  exact ⟨_, _, _, run, run.probes_invisible.1, by decide +kernel, by decide +kernel, by decide +kernel,
    by decide +kernel, by decide +kernel⟩

end Midway

end BlockingStream

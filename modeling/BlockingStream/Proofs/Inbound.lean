import BlockingStream.Proofs.Run
import BlockingStream.Proofs.Step
import BlockingStream.Engine.Metered

/-!
This module contains the proof that no input is lost, repeated or reordered: what the reads of a connection
deliver, followed by what is still there to read, is what has arrived.
-/

namespace BlockingStream

namespace Moment

variable {σ : Type}

def payload (x : Moment σ) : Bytes :=
  match x.action with
  | .upcall u => u.payload
  | _ => []

/--
The call whose round this step is.
-/
def call? (x : Moment σ) : Option Call :=
  match x.action with
  | .run id => (x.before.thread? id).map Thread.call
  | _ => none

def delivery? (x : Moment σ) : Option Conn.Delivery :=
  match x.outcome? with
  | some (.read d) => some d
  | _ => none

/--
The buffer of the call whose round this step is, as the step leaves it.
-/
def buffer? (x : Moment σ) : Option Bytes :=
  match x.action with
  | .run id => (x.after.thread? id).map Thread.buffer
  | _ => none

end Moment

namespace Moment

variable {σ : Type} {x : Moment σ}

theorem of_call?_eq_some {call : Call} (h : x.call? = some call)
    : ∃ id t, x.action = .run id ∧ x.before.thread? id = some t ∧ t.call = call := by
  unfold call? at h
  split at h
  . next id hran =>
    obtain ⟨t, ht, hcall⟩ := Option.map_eq_some_iff.1 h
    exact ⟨id, t, hran, ht, hcall⟩
  . contradiction

end Moment

namespace Conn.Delivery

variable {d : Delivery} {buffer : Bytes}

theorem fill_of_nil (h : d.data = []) : d.fill buffer = buffer := by
  simp [fill, h]

theorem take_fill : (d.fill buffer).take d.data.length = d.data :=
  List.take_left' rfl

theorem drop_fill : (d.fill buffer).drop d.data.length = buffer.drop d.data.length :=
  List.drop_left' rfl

theorem length_fill (h : d.data.length ≤ buffer.length) : (d.fill buffer).length = buffer.length := by
  simp only [fill, List.length_append, List.length_drop]
  omega

end Conn.Delivery

namespace Monitor

variable {σ : Type} {E : Engine σ} {start m : Monitor σ} {trace : List (Moment σ)} {s : Step σ}
  {now : Instant} {a : Action} {id : Nat} {t : Thread} {buffer : Bytes}

/--
The bytes that the reads of a run have delivered, in the order of their rounds.
-/
def delivered (trace : List (Moment σ)) : Bytes := (trace.filterMap Moment.delivery?).flatMap (·.data)

def arrived (trace : List (Moment σ)) : Bytes := trace.flatMap Moment.payload

theorem arrived_snoc (trace : List (Moment σ)) (x : Moment σ)
    : arrived (trace ++ [x]) = arrived trace ++ x.payload := by
  simp [arrived]

theorem delivered_snoc (trace : List (Moment σ)) (x : Moment σ)
    : delivered (trace ++ [x]) = delivered trace ++ ((x.delivery?.map (·.data)).getD []) := by
  cases h : x.delivery? <;> simp [delivered, h]

theorem thread?_run (ht : m.thread? id = some t) (h : m.step E now (.run id) = some s)
    : s.monitor.thread? id = some (m.round E now t).thread := by
  obtain ⟨t', ht', hmay, _⟩ := of_run_eq_some h
  rw [ht] at ht'
  cases ht'
  obtain ⟨s', hs', hthread, _⟩ := step_of_mayRun E now ht hmay
  rw [h] at hs'
  cases hs'
  exact hthread

theorem outcome?_run (ht : m.thread? id = some t) (h : m.step E now (.run id) = some s)
    : (Moment.mk m now (.run id) s).outcome? = (m.round E now t).thread.outcome? := by
  simp [Moment.outcome?, Moment.after, thread?_run ht h]

theorem delivery?_run (ht : m.thread? id = some t) (h : m.step E now (.run id) = some s)
    : (Moment.mk m now (.run id) s).delivery? =
      match (m.round E now t).thread.outcome? with
      | some (.read d) => some d
      | _ => none := by
  rw [Moment.delivery?, outcome?_run ht h]

theorem read_run (ht : m.thread? id = some t) (hcall : t.call = .readInto buffer)
    (h : m.step E now (.run id) = some s)
    : s.monitor.conn = (m.conn.read E buffer.length now m.engine).2.1 ∧
      ((Moment.mk m now (.run id) s).outcome? = some (.read (m.conn.read E buffer.length now m.engine).1) ∨
        (Moment.mk m now (.run id) s).outcome? = none ∧
          (m.conn.read E buffer.length now m.engine).1.data = []) := by
  have houtcome := outcome?_run ht h
  obtain ⟨t', ht', _, rfl⟩ := of_run_eq_some h
  rw [ht] at ht'
  cases ht'
  obtain ⟨hconn, _, hthread⟩ := readRound_cases E now m t buffer.length
  rw [round_of_read hcall] at houtcome ⊢
  refine ⟨hconn, ?_⟩
  rw [houtcome, hthread]
  dsimp only
  split
  . next hidle => exact Or.inr ⟨rfl, hidle.1⟩
  . exact Or.inl rfl

theorem buffer?_run (ht : m.thread? id = some t) (hcall : t.call = .readInto buffer)
    (h : m.step E now (.run id) = some s)
    : (Moment.mk m now (.run id) s).buffer? = some ((m.conn.read E buffer.length now m.engine).1.fill t.buffer) := by
  have hthread := thread?_run ht h
  rw [round_of_read hcall, (readRound_cases E now m t buffer.length).2.2] at hthread
  simp [Moment.buffer?, Moment.after, hthread]

theorem delivery?_run_of_ne (ht : m.thread? id = some t) (hcall : ∀ buffer, t.call ≠ .readInto buffer)
    (h : m.step E now (.run id) = some s)
    : (Moment.mk m now (.run id) s).delivery? = none ∧
      s.monitor.conn.inbound = m.conn.inbound ∧ s.monitor.conn.bytesRead = m.conn.bytesRead := by
  have hdelivery := delivery?_run ht h
  obtain ⟨t', ht', _, rfl⟩ := of_run_eq_some h
  rw [ht] at ht'
  cases ht'
  rw [hdelivery]
  change _ ∧ (m.round E now t).conn.inbound = _ ∧ (m.round E now t).conn.bytesRead = _
  cases hkind : t.call with
  | awaitConnect =>
    rw [round_of_connect hkind]
    refine ⟨?_, rfl, rfl⟩
    unfold connectRound
    cases m.conn.connectResult <;> rfl
  | readInto buffer => exact absurd hkind (hcall buffer)
  | write data =>
    rw [round_of_write hkind]
    refine ⟨?_, ?_⟩
    . rcases outcome?_writeRound E now m t with houtcome | ⟨w, houtcome⟩ <;> rw [houtcome]
    . rcases conn_writeRound E now m t with hconn | ⟨n, hconn⟩ <;> rw [hconn] <;> exact ⟨rfl, rfl⟩

theorem step_conserves (hmax : m.conn.bytesRead ≤ maxCount) (h : m.step E now a = some s)
    : ((Moment.mk m now a s).delivery?.map (·.data)).getD [] ++ s.monitor.conn.inbound =
        m.conn.inbound ++ (Moment.mk m now a s).payload ∧
      s.monitor.conn.bytesRead =
        countUp m.conn.bytesRead (((Moment.mk m now a s).delivery?.map (·.data)).getD []).length := by
  cases a with
  | enter id call =>
    obtain ⟨_, rfl⟩ := of_enter_eq_some h
    simp [Moment.delivery?, Moment.outcome?, Moment.payload, countUp_zero hmax]
  | run id =>
    obtain ⟨t, ht, _, _⟩ := of_run_eq_some h
    have hpayload : (Moment.mk m now (.run id) s).payload = [] := rfl
    rw [hpayload, List.append_nil]
    by_cases hread : ∃ buffer, t.call = .readInto buffer
    . obtain ⟨buffer, hcall⟩ := hread
      obtain ⟨hconn, hattempt⟩ := read_run ht hcall h
      rw [hconn]
      rcases hattempt with hreturned | ⟨hasleep, hnothing⟩
      . simp only [Moment.delivery?, hreturned, Option.map_some, Option.getD_some]
        exact ⟨Conn.read_append E buffer.length now m.conn m.engine, rfl⟩
      . -- a read that goes to sleep has moved nothing
        have happend := Conn.read_append E buffer.length now m.conn m.engine
        rw [hnothing] at happend
        simp only [Moment.delivery?, hasleep, Option.map_none, Option.getD_none]
        refine ⟨happend, ?_⟩
        rw [← hnothing]
        rfl
    . have hcall : ∀ buffer, t.call ≠ .readInto buffer := fun buffer hcall => hread ⟨buffer, hcall⟩
      obtain ⟨hdelivery, hinbound, hbytes⟩ := delivery?_run_of_ne ht hcall h
      rw [hdelivery, hinbound, hbytes]
      simp [countUp_zero hmax]
  | stir id =>
    obtain ⟨_, _, _, rfl⟩ := of_stir_eq_some h
    simp [Moment.delivery?, Moment.outcome?, Moment.payload, setThread, countUp_zero hmax]
  | request r =>
    obtain ⟨_, rfl⟩ := of_locked_eq_some h
    obtain ⟨hinbound, hbytes, _⟩ := counters_request E m r
    rw [hinbound, hbytes]
    simp [Moment.delivery?, Moment.outcome?, Moment.payload, countUp_zero hmax]
  | upcall u =>
    obtain ⟨_, rfl⟩ := of_locked_eq_some h
    obtain ⟨hinbound, hbytes, _⟩ := counters_upcall m u
    rw [hinbound, hbytes]
    simp [Moment.delivery?, Moment.outcome?, Moment.payload, countUp_zero hmax]
  | alarm =>
    obtain ⟨_, rfl⟩ := of_locked_eq_some h
    simp [Moment.delivery?, Moment.outcome?, Moment.payload, broadcast, countUp_zero hmax]
  | grant n =>
    cases h
    simp [Moment.delivery?, Moment.outcome?, Moment.payload, countUp_zero hmax]

/--
What was there to read before and what has arrived since is what was delivered since and what is there to read now.
-/
theorem Run.conserves_since (run : Run E start trace m) (hmax : start.conn.bytesRead ≤ maxCount)
    : delivered trace ++ m.conn.inbound = start.conn.inbound ++ arrived trace ∧
      m.conn.bytesRead = countUp start.conn.bytesRead (delivered trace).length := by
  induction run with
  | nil => exact ⟨(List.append_nil _).symm, (countUp_zero hmax).symm⟩
  | @snoc trace m now a s _ h ih =>
    have hmax : m.conn.bytesRead ≤ maxCount := by
      rw [ih.2]
      apply countUp_le_maxCount
    obtain ⟨hbytes, hcount⟩ := step_conserves hmax h
    rw [delivered_snoc, arrived_snoc]
    constructor
    . rw [List.append_assoc, hbytes, ← List.append_assoc, ih.1, List.append_assoc]
    . rw [hcount, ih.2, countUp_countUp, List.length_append]

theorem Run.conserves {label : String} {engine : σ} (run : Run E (init E label engine) trace m)
    : delivered trace ++ m.conn.inbound = arrived trace ∧
      m.conn.bytesRead = countUp 0 (delivered trace).length :=
  run.conserves_since (Nat.zero_le _)

theorem Run.of_mem {x : Moment σ} (run : Run E start trace m) (hx : x ∈ trace)
    : x.before.step E x.now x.action = some x.step := by
  induction run with
  | nil => contradiction
  | snoc _ h ih =>
    rcases List.mem_append.1 hx with hx | hx
    . exact ih hx
    . rw [List.mem_singleton.1 hx]
      exact h

theorem buffer_of_round (hcall : t.call = .readInto buffer) (hunderway : (m.round E now t).thread.outcome? = none)
    : (m.round E now t).thread.buffer = t.buffer := by
  rw [round_of_read hcall, (readRound_cases E now m t buffer.length).2.2] at hunderway ⊢
  dsimp only at hunderway ⊢
  split at hunderway
  . next hidle => exact Conn.Delivery.fill_of_nil hidle.1
  . contradiction

theorem Run.untouched {label : String} {engine : σ} (run : Run E (init E label engine) trace m)
    (ht : m.thread? id = some t) (hcall : t.call = .readInto buffer) (hunderway : t.outcome? = none)
    : t.buffer = buffer := by
  induction run generalizing t with
  | nil => contradiction
  | snoc _ h ih =>
    rcases of_thread?_step h ht with ⟨_, u, hu, hmay, rfl, _⟩ | ⟨_, _, call, _, rfl⟩ | ⟨_, u, hu, hstays⟩
    . rw [call_round] at hcall
      rw [buffer_of_round hcall hunderway]
      exact ih hu hcall (outcome?_of_mayRun hmay)
    . rw [Thread.call_enter] at hcall
      rw [hcall]
      rfl
    . rw [hstays.buffer]
      exact ih hu (hstays.call.symm.trans hcall) (hstays.outcome?.symm.trans hunderway)

/--
What was delivered and what is still there to read is what has arrived. Each attempt to read moves as much as
fits from the front of the input to the front of the caller's buffer, and leaves the rest of this buffer alone.
-/
theorem Run.input_conserved {label : String} {engine : σ} (run : Run E (init E label engine) trace m)
    : delivered trace ++ m.conn.inbound = arrived trace ∧
      m.conn.bytesRead = min (delivered trace).length maxCount ∧
      ∀ x ∈ trace, ∀ buffer, x.call? = some (.readInto buffer) →
        ∃ (d : Conn.Delivery) (filled : Bytes), x.buffer? = some filled ∧
          (x.outcome? = some (.read d) ∨ x.outcome? = none ∧ d.data = []) ∧
          d.data.length = min buffer.length x.before.conn.inbound.length ∧
          d.data ++ x.after.conn.inbound = x.before.conn.inbound ∧
          filled.take d.data.length = d.data ∧
          filled.drop d.data.length = buffer.drop d.data.length ∧
          filled.length = buffer.length := by
  obtain ⟨hbytes, hcount⟩ := run.conserves
  rw [countUp, Nat.zero_add] at hcount
  refine ⟨hbytes, hcount, ?_⟩
  intro x hx buffer hcall
  obtain ⟨before, after, rfl⟩ := List.append_of_mem hx
  obtain ⟨hbefore, h, _⟩ := run.of_split
  obtain ⟨id, t, hran, ht, hread⟩ := Moment.of_call?_eq_some hcall
  obtain ⟨m, now, a, s⟩ := x
  dsimp only at hran ht h hbefore
  subst hran
  obtain ⟨t', ht', hmay, _⟩ := of_run_eq_some h
  rw [ht] at ht'
  cases ht'
  obtain ⟨hconn, hattempt⟩ := read_run ht hread h
  have hlen := Conn.length_read_data E buffer.length now m.conn m.engine
  have hbuffer := hbefore.untouched ht hread (outcome?_of_mayRun hmay)
  refine ⟨_, _, buffer?_run ht hread h, hattempt, hlen, ?_, Conn.Delivery.take_fill, ?_, ?_⟩
  . rw [Moment.after, hconn]
    apply Conn.read_append
  . rw [hbuffer]
    exact Conn.Delivery.drop_fill
  . rw [hbuffer]
    apply Conn.Delivery.length_fill
    omega

/--
Two readers share input that goes on arriving after the end of the stream and after the close. The first one gets
only one byte, and keeps what lies behind it in its buffer.
-/
theorem late_input_conserved
    : ∃ trace m, Run Metered.engine (init Metered.engine "a" {}) trace m ∧
        delivered trace ++ m.conn.inbound = arrived trace ∧ delivered trace = [1, 2, 3, 4] ∧
        m.conn.inbound = [5] ∧ m.conn.bytesRead = min (delivered trace).length maxCount ∧
        (m.thread? 0).map Thread.buffer = some [3, 9] := by
  have run : Run Metered.engine (init Metered.engine "a" {}) _ _ := Run.of_replay
    [(0, .enter 0 (.readInto [8, 9])), (0, .enter 1 (.read 2)), (0, .run 0), (0, .run 1),
      (1, .upcall (.data [1, 2, 3])), (1, .run 1), (1, .run 0), (2, .upcall .eof),
      (2, .request .close), (3, .upcall (.data [4, 5])), (3, .enter 2 (.read 1)), (3, .run 2)] rfl
  exact ⟨_, _, run, (Run.input_conserved run).1, rfl, rfl, (Run.input_conserved run).2.1, rfl⟩

end Monitor

end BlockingStream

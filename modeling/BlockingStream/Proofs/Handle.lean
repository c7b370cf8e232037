import BlockingStream.Proofs.History
import BlockingStream.Engine.Scripted

/-!
This module contains the proof that a connection respects its engine: it calls the engine only as long as it
holds it, closes it once at most, and asks nothing more of an engine that has failed than to be closed and to
tell its addresses.
-/

namespace BlockingStream

namespace Conn

variable {σ : Type} {c c' : Conn} {now : Instant} {a : Action} {call : EngineCall}

def HoldsEngine (c : Conn) : Prop := c.attached = true ↔ c.destroyed = false ∧ c.closed = false

theorem HoldsEngine.congr (h : c.HoldsEngine) (calm : Calm c c') (hattached : c'.attached = c.attached)
    : c'.HoldsEngine := by
  unfold HoldsEngine
  rw [hattached, calm.destroyed, calm.closed]
  exact h

theorem HoldsEngine.close (h : c.HoldsEngine) (E : Engine σ) (s : σ) : (c.close E s).2.1.HoldsEngine := by
  unfold HoldsEngine at *
  unfold Conn.close
  split
  . exact h
  . split
    . simp_all
    . split <;> simp_all

theorem attached_remoteAddr (E : Engine σ) (c : Conn) (s : σ) : (c.remoteAddr E s).2.1.attached = c.attached := by
  unfold remoteAddr
  split <;> rfl

theorem attached_ownAddr (E : Engine σ) (c : Conn) (s : σ) : (c.ownAddr E s).2.1.attached = c.attached := by
  unfold ownAddr
  split <;> rfl

theorem HoldsEngine.attached_of_writeError (h : c.HoldsEngine) (herror : c.writeError now = none)
    : c.attached = true := by
  obtain ⟨_, hdestroyed, hclosed, _⟩ := commonError_eq_none_iff.1 herror
  exact h.2 ⟨hdestroyed, hclosed⟩

theorem HoldsEngine.error?_offer (h : c.HoldsEngine) (E : Engine σ) (data : Bytes) (now : Instant) (s : σ)
    : (c.offer E data now s).1.error? = c.writeError now := by
  by_cases hdata : data = []
  . unfold offer
    cases c.writeError now <;> simp [hdata, Offer.error?]
  . rcases offer_cases E data hdata now c s with hoffer | hoffer | hoffer
    . obtain ⟨e, herror, hoffer⟩ := hoffer
      rw [hoffer, herror]
      rfl
    . have := h.attached_of_writeError hoffer.1
      rw [hoffer.2.1] at this
      contradiction
    . rw [hoffer.1, hoffer.2.2.1]

def Admits (c : Conn) (now : Instant) (a : Action) (call : EngineCall) : Prop :=
  c.attached = true ∧
    match call with
    | .write offered _ => (∃ id, a = .run id) ∧ offered ≠ [] ∧ c.writeError now = none
    | .readDrained => (∃ id, a = .run id) ∧ c.failure = none
    | .close => a = .request .close
    | .peerAddr => a = .request .remoteAddr
    | .localAddr => a = .request .localAddr

def Calls (c : Conn) (now : Instant) (a : Action) (calls calls' : List EngineCall) : Prop :=
  ∃ call? : Option EngineCall, calls' = calls ++ call?.toList ∧ ∀ call ∈ call?, c.Admits now a call

theorem Calls.none (c : Conn) (now : Instant) (a : Action) (calls : List EngineCall) : c.Calls now a calls calls :=
  ⟨.none, (List.append_nil calls).symm, by simp⟩

theorem Calls.one (calls : List EngineCall) (h : c.Admits now a call) : c.Calls now a calls (calls ++ [call]) := by
  refine ⟨some call, rfl, ?_⟩
  intro call' hcall'
  cases hcall'
  exact h

theorem calls_read (E : Engine σ) (len : Nat) (now : Instant) (c : Conn) (s : σ × List EngineCall) (id : Nat)
    : c.Calls now (.run id) s.2 (c.read E.recorded len now s).2.2.2 := by
  simp only [read, hintDrained]
  split
  . next hhint =>
    simp only [mayHint, Bool.and_eq_true, Option.isNone_iff_eq_none] at hhint
    apply Calls.one
    exact ⟨hhint.2.2, ⟨id, rfl⟩, hhint.2.1.1.1⟩
  . apply Calls.none

end Conn

namespace Monitor

variable {σ : Type} {E : Engine σ} {m : Monitor σ} {t : Thread} {now : Instant} {a : Action} {id : Nat}
  {s : Step σ}

theorem attached_round (E : Engine σ) (now : Instant) (m : Monitor σ) (t : Thread)
    : (m.round E now t).conn.attached = m.conn.attached := by
  cases hcall : t.call with
  | awaitConnect =>
    rw [round_of_connect hcall]
    rfl
  | readInto buffer =>
    rw [round_of_read hcall, (readRound_cases E now m t buffer.length).1]
    rfl
  | write data =>
    rw [round_of_write hcall]
    rcases conn_writeRound E now m t with h | ⟨n, h⟩
    . rw [h]
    . rw [h]
      rfl

theorem holdsEngine_of_step (hholds : m.conn.HoldsEngine) (h : m.step E now a = some s)
    : s.monitor.conn.HoldsEngine := by
  cases a with
  | enter id call =>
    obtain ⟨_, rfl⟩ := of_enter_eq_some h
    exact hholds
  | run id =>
    obtain ⟨t, _, _, rfl⟩ := of_run_eq_some h
    exact hholds.congr (calm_round E now m t) (attached_round E now m t)
  | stir id =>
    obtain ⟨_, _, _, rfl⟩ := of_stir_eq_some h
    exact hholds
  | request r =>
    obtain ⟨_, rfl⟩ := of_locked_eq_some h
    cases r with
    | close =>
      change (m.close E).monitor.conn.HoldsEngine
      rw [(conn_close E m).1]
      exact hholds.close E m.engine
    | setDeadline scope deadline =>
      cases scope with
      | both => exact hholds
      | one direction => cases direction <;> exact hholds
    | remoteAddr =>
      exact hholds.congr (Conn.calm_remoteAddr E m.conn m.engine) (Conn.attached_remoteAddr E m.conn m.engine)
    | localAddr =>
      exact hholds.congr (Conn.calm_ownAddr E m.conn m.engine) (Conn.attached_ownAddr E m.conn m.engine)
    | _ => exact hholds
  | upcall u =>
    obtain ⟨_, rfl⟩ := of_locked_eq_some h
    cases u with
    | error code =>
      change (m.fail code).monitor.conn.HoldsEngine
      unfold fail Conn.fail
      cases m.conn.failure <;> exact hholds
    | destroyed =>
      change (m.conn.destroy).HoldsEngine
      simp [Conn.HoldsEngine, Conn.destroy]
    | _ => exact hholds
  | alarm =>
    obtain ⟨_, rfl⟩ := of_locked_eq_some h
    exact hholds
  | grant n =>
    cases h
    exact hholds

theorem Run.holdsEngine {label : String} {engine : σ} {trace : List (Moment σ)}
    (run : Run E (init E label engine) trace m)
    : m.conn.HoldsEngine :=
  run.invariant (by simp [init, Conn.init, Conn.HoldsEngine]) holdsEngine_of_step

/-!
The calls on the engine.
-/

variable {m : Monitor (σ × List EngineCall)} {s : Step (σ × List EngineCall)}

theorem calls_round (E : Engine σ) (now : Instant) (m : Monitor (σ × List EngineCall)) (t : Thread) (id : Nat)
    : m.conn.Calls now (.run id) m.engine.2 (m.round E.recorded now t).engine.2 := by
  cases hcall : t.call with
  | awaitConnect =>
    rw [round_of_connect hcall]
    apply Conn.Calls.none
  | readInto buffer =>
    rw [round_of_read hcall, (readRound_cases E.recorded now m t buffer.length).2.1]
    apply Conn.calls_read
  | write data =>
    rw [round_of_write hcall]
    rcases writeRound_cases E.recorded now m t with ⟨_, _, _, hround⟩ | ⟨hrest, herror, hattached, hround⟩
    . rw [hround]
      apply Conn.Calls.none
    . have hengine : (m.writeRound E.recorded now t).engine.2 =
          m.engine.2 ++ [.write t.rest (E.write t.rest m.engine.1).1] := by
        rw [hround]
        dsimp only
        split <;> rfl
      rw [hengine]
      apply Conn.Calls.one
      exact ⟨hattached, ⟨id, rfl⟩, hrest, herror⟩

theorem calls_request (E : Engine σ) (now : Instant) (m : Monitor (σ × List EngineCall)) (r : Request)
    : m.conn.Calls now (.request r) m.engine.2 (m.request E.recorded r).monitor.engine.2 := by
  cases r with
  | close =>
    change m.conn.Calls _ _ _ (m.close E.recorded).monitor.engine.2
    rw [(conn_close E.recorded m).2]
    unfold Conn.close
    split
    . apply Conn.Calls.none
    . split
      . apply Conn.Calls.none
      . split
        . next hattached => exact Conn.Calls.one _ ⟨hattached, rfl⟩
        . apply Conn.Calls.none
  | setDeadline scope deadline =>
    cases scope with
    | both => apply Conn.Calls.none
    | one direction => cases direction <;> apply Conn.Calls.none
  | remoteAddr =>
    simp only [request, Conn.remoteAddr]
    split
    . next hattached => exact Conn.Calls.one _ ⟨hattached, rfl⟩
    . apply Conn.Calls.none
  | localAddr =>
    simp only [request, Conn.ownAddr]
    split
    . next hattached => exact Conn.Calls.one _ ⟨hattached, rfl⟩
    . apply Conn.Calls.none
  | _ => apply Conn.Calls.none

theorem engine_upcall {σ : Type} (m : Monitor σ) (u : Upcall) : (m.upcall u).monitor.engine = m.engine := by
  rcases monitor_upcall m u with ⟨conn, h⟩ | h
  . rw [h]
    rfl
  . rw [h]

theorem calls_of_step (h : m.step E.recorded now a = some s)
    : m.conn.Calls now a m.engine.2 s.monitor.engine.2 := by
  cases a with
  | enter id call =>
    obtain ⟨_, rfl⟩ := of_enter_eq_some h
    apply Conn.Calls.none
  | run id =>
    obtain ⟨t, _, _, rfl⟩ := of_run_eq_some h
    exact calls_round E now m t id
  | stir id =>
    obtain ⟨_, _, _, rfl⟩ := of_stir_eq_some h
    apply Conn.Calls.none
  | request r =>
    obtain ⟨_, rfl⟩ := of_locked_eq_some h
    exact calls_request E now m r
  | upcall u =>
    obtain ⟨_, rfl⟩ := of_locked_eq_some h
    rw [engine_upcall]
    apply Conn.Calls.none
  | alarm =>
    obtain ⟨_, rfl⟩ := of_locked_eq_some h
    apply Conn.Calls.none
  | grant n =>
    cases h
    apply Conn.Calls.none

theorem calls_eq (call? : Option EngineCall) (hcalls : s.monitor.engine.2 = m.engine.2 ++ call?.toList)
    : (Moment.mk m now a s).calls = call?.toList := by
  rw [Moment.calls, Moment.after, hcalls]
  exact List.drop_left' rfl

theorem engine_of_step (h : m.step E.recorded now a = some s)
    : s.monitor.engine.2 = m.engine.2 ++ (Moment.mk m now a s).calls := by
  obtain ⟨call?, hcalls, _⟩ := calls_of_step h
  rw [calls_eq call? hcalls, hcalls]

theorem admits_of_mem_calls {call : EngineCall} (h : m.step E.recorded now a = some s)
    (hcall : call ∈ (Moment.mk m now a s).calls)
    : m.conn.Admits now a call := by
  obtain ⟨call?, hcalls, hadmits⟩ := calls_of_step h
  rw [calls_eq call? hcalls, Option.mem_toList] at hcall
  exact hadmits call hcall

theorem calls_close (hholds : m.conn.HoldsEngine) (hdestroyed : m.conn.destroyed = false)
    (hclosed : m.conn.closed = false) (h : m.step E.recorded now (.request .close) = some s)
    : (Moment.mk m now (.request .close) s).calls = [.close] := by
  obtain ⟨_, rfl⟩ := of_locked_eq_some h
  apply calls_eq (some .close)
  change (m.close E.recorded).monitor.engine.2 = _
  rw [(conn_close E.recorded m).2]
  simp [Conn.close, hclosed, hdestroyed, hholds.2 ⟨hdestroyed, hclosed⟩]

variable {label : String} {engine : σ} {trace : List (Moment (σ × List EngineCall))}

theorem RecordedRun.engine_eq (run : RecordedRun E label engine trace m)
    : m.engine.2 = [.peerAddr, .localAddr] ++ trace.flatMap Moment.calls := by
  induction run with
  | nil => rfl
  | snoc _ h ih =>
    rw [engine_of_step h, ih, List.flatMap_append, List.flatMap_singleton, List.append_assoc]

theorem RecordedRun.count_close (run : RecordedRun E label engine trace m)
    : m.engine.2.count .close ≤ 1 ∧ (m.conn.closed = false → m.engine.2.count .close = 0) := by
  induction run with
  | nil => exact ⟨Nat.zero_le 1, fun _ => rfl⟩
  | @snoc trace m now a s run h ih =>
    have hholds := Run.holdsEngine run
    have hfollows := follows_of_step h
    obtain ⟨call?, hcalls, hadmits⟩ := calls_of_step h
    rw [hcalls, List.count_append]
    by_cases hclose : call? = some .close
    . -- the connection was open, and is not any more
      obtain ⟨hattached, rfl⟩ := hadmits .close hclose
      have hzero := ih.2 (hholds.1 hattached).2
      have hclosed : s.monitor.conn.closed = true := hfollows.closed.2 (Or.inr rfl)
      rw [hclose, hzero, hclosed]
      exact ⟨Nat.le_refl 1, by simp⟩
    . have hzero : call?.toList.count .close = 0 := by
        rw [List.count_eq_zero, Option.mem_toList]
        exact hclose
      rw [hzero]
      refine ⟨ih.1, ?_⟩
      intro hopen
      apply ih.2
      rw [← Bool.not_eq_true] at hopen ⊢
      exact fun hclosed => hopen (hfollows.closed.2 (Or.inl hclosed))

/--
All calls on the engine are made while the connection holds it, that is until it is destroyed or closed. The
first close is passed on if the engine is still there, and no other one. An engine that has failed is offered
nothing more and gets no more hints, and none is ever offered nothing.
-/
theorem RecordedRun.handle_respected (run : RecordedRun E label engine trace m)
    : m.engine.2 = [.peerAddr, .localAddr] ++ trace.flatMap Moment.calls ∧
      m.engine.2.count .close ≤ 1 ∧
      (∀ before x after, trace = before ++ x :: after →
        (.upcall .destroyed ∈ history before ∨ .request .close ∈ history before → x.calls = []) ∧
        (.close ∈ x.calls ↔
          x.action = .request .close ∧ .request .close ∉ history before ∧
            .upcall .destroyed ∉ history before) ∧
        (∀ code, .upcall (.error code) ∈ history before →
          .readDrained ∉ x.calls ∧ ∀ offered reply, .write offered reply ∉ x.calls) ∧
        ∀ reply, .write [] reply ∉ x.calls) ∧
      (m.conn.attached = true ↔ m.conn.destroyed = false ∧ m.conn.closed = false) ∧
      ∀ data now s, (m.conn.offer E.recorded data now s).1.error? = m.conn.writeError now := by
  have hholds := Run.holdsEngine run
  refine ⟨run.engine_eq, run.count_close.1, ?_, hholds, fun data now s => hholds.error?_offer E.recorded data now s⟩
  rintro before x after rfl
  obtain ⟨hrun, hstep, _⟩ := Run.of_split run
  have hholds := Run.holdsEngine hrun
  have hreflects := Run.reflects hrun
  have hadmits : ∀ call ∈ x.calls, x.before.conn.Admits x.now x.action call :=
    fun call hcall => admits_of_mem_calls hstep hcall
  refine ⟨?_, ?_, ?_, ?_⟩
  . intro hgone
    apply List.eq_nil_iff_forall_not_mem.2
    intro call hcall
    obtain ⟨hdestroyed, hclosed⟩ := hholds.1 (hadmits call hcall).1
    rw [← hreflects.destroyed, ← hreflects.closed, hdestroyed, hclosed] at hgone
    simp at hgone
  . rw [← hreflects.destroyed, ← hreflects.closed, Bool.not_eq_true, Bool.not_eq_true]
    constructor
    . intro hcall
      obtain ⟨hattached, hclose⟩ := hadmits .close hcall
      exact ⟨hclose, (hholds.1 hattached).symm⟩
    . rintro ⟨hclose, hclosed, hdestroyed⟩
      rw [hclose] at hstep
      have := calls_close hholds hdestroyed hclosed hstep
      rw [← hclose] at this
      rw [this]
      exact List.mem_singleton_self _
  . intro code hfailed
    have hfailure : x.before.conn.failure ≠ none := by
      rw [hreflects.failure, ne_eq, History.firstFailure_eq_none_iff]
      exact fun hnone => hnone code hfailed
    refine ⟨fun hcall => hfailure (hadmits _ hcall).2.2, ?_⟩
    intro offered reply hcall
    exact hfailure (Conn.commonError_eq_none_iff.1 (hadmits _ hcall).2.2.2).1
  . intro reply hcall
    exact (hadmits _ hcall).2.2.1 rfl

/--
A reader empties the buffer and a writer hands over one of two bytes. Then the engine fails, is asked for its
address, closed and closed again, and destroys its socket.
-/
theorem failed_handle_respected
    : ∃ trace m, RecordedRun Scripted.engine "a" { replies := [1], thenAll := false } trace m ∧
        m.engine.2 = [.peerAddr, .localAddr, .readDrained, .write [7, 8] 1, .write [8] 0, .peerAddr, .close] ∧
        m.engine.2 = [.peerAddr, .localAddr] ++ trace.flatMap Moment.calls ∧
        m.engine.2.count .close ≤ 1 ∧
        (m.conn.attached = true ↔ m.conn.destroyed = false ∧ m.conn.closed = false) := by
  have run : RecordedRun Scripted.engine "a" { replies := [1], thenAll := false } _ _ := Run.of_replay
    [(0, .upcall (.data [9])), (0, .enter 0 (.read 4)), (0, .run 0), (1, .enter 1 (.write [7, 8])), (1, .run 1),
      (1, .run 1), (2, .upcall (.error ⟨"ECONNRESET"⟩)), (3, .run 1), (3, .request .remoteAddr),
      (4, .request .close), (4, .request .close), (5, .upcall .destroyed), (6, .request .localAddr)] rfl
  have respected := RecordedRun.handle_respected run
  exact ⟨_, _, run, rfl, respected.1, respected.2.1, respected.2.2.2.1⟩

end Monitor

end BlockingStream

import BlockingStream.Proofs.Handle

/-!
This module contains the proof that a connection knows the last addresses it was told: an engine that tells none
takes nothing back, and an engine that is gone is not asked any more.
-/

namespace BlockingStream

/--
The two ends of a connection, each of which has an address.
-/
inductive Endpoint where
  | remote
  | own
  deriving DecidableEq, Repr

namespace Endpoint

variable {σ : Type}

def request : Endpoint → Request
  | remote => .remoteAddr
  | own => .localAddr

def call : Endpoint → EngineCall
  | remote => .peerAddr
  | own => .localAddr

def ask (E : Engine σ) (s : σ) : Endpoint → Option Address
  | remote => (E.peerAddr s).1
  | own => (E.localAddr s).1

def atFirst (E : Engine σ) (s : σ) : Endpoint → Option Address
  | remote => (E.peerAddr s).1
  | own => (E.localAddr (E.peerAddr s).2).1

end Endpoint

def Conn.known (c : Conn) : Endpoint → Option Address
  | .remote => c.peer
  | .own => c.localAddr

/--
The address of an end that the engine told in this step. It tells none if it is not asked.
-/
def Moment.told {σ : Type} (E : Engine σ) (e : Endpoint) (x : Moment (σ × List EngineCall)) : Option Address :=
  if e.call ∈ x.calls then e.ask E x.before.engine.1 else none

/--
The engine is gone: it has destroyed its socket, or the connection was closed.
-/
def History.Gone (h : History) : Prop := .upcall .destroyed ∈ h ∨ .request .close ∈ h

theorem History.Gone.append {h : History} (hgone : h.Gone) (h' : History) : (h ++ h').Gone :=
  hgone.imp (List.mem_append_left h') (List.mem_append_left h')

namespace Monitor

variable {σ : Type}

/--
All addresses of an end that the engine has told, in order.
-/
def reported (E : Engine σ) (e : Endpoint) (engine : σ) (trace : List (Moment (σ × List EngineCall))) : List Address :=
  (e.atFirst E engine).toList ++ trace.filterMap (Moment.told E e)

theorem getLast?_reported_snoc (E : Engine σ) (e : Endpoint) (engine : σ)
    (trace : List (Moment (σ × List EngineCall))) (x : Moment (σ × List EngineCall))
    : (reported E e engine (trace ++ [x])).getLast? = (x.told E e).or (reported E e engine trace).getLast? := by
  unfold reported
  rw [List.filterMap_append, ← List.append_assoc, List.getLast?_append]
  cases htold : x.told E e <;> simp [htold]

theorem known_round (E : Engine σ) (now : Instant) (m : Monitor σ) (t : Thread) (e : Endpoint)
    : (m.round E now t).conn.known e = m.conn.known e := by
  cases hcall : t.call with
  | awaitConnect =>
    rw [round_of_connect hcall]
    rfl
  | readInto buffer =>
    rw [round_of_read hcall, (readRound_cases E now m t buffer.length).1]
    cases e <;> rfl
  | write data =>
    rw [round_of_write hcall]
    rcases conn_writeRound E now m t with hconn | ⟨n, hconn⟩
    . rw [hconn]
    . rw [hconn]
      cases e <;> rfl

theorem known_close (E : Engine σ) (m : Monitor σ) (e : Endpoint)
    : (m.close E).monitor.conn.known e = m.conn.known e := by
  rw [(conn_close E m).1]
  by_cases hclosed : m.conn.closed = true
  . rw [Conn.close_of_closed E hclosed]
  . rw [Bool.not_eq_true] at hclosed
    obtain ⟨attached, engine, hclose⟩ := Conn.close_of_open E hclosed m.engine
    rw [hclose]
    cases e <;> rfl

theorem known_upcall (m : Monitor σ) (u : Upcall) (e : Endpoint)
    : (m.upcall u).monitor.conn.known e = m.conn.known e := by
  cases u with
  | error code =>
    change (m.fail code).monitor.conn.known e = _
    unfold fail Conn.fail
    cases m.conn.failure with
    | some first => rfl
    | none => cases e <;> rfl
  | _ => cases e <;> rfl

theorem known_of_ne {E : Engine σ} {m : Monitor σ} {now : Instant} {a : Action} {s : Step σ} {e : Endpoint}
    (h : m.step E now a = some s) (ha : a ≠ .request e.request)
    : s.monitor.conn.known e = m.conn.known e := by
  cases a with
  | enter id call =>
    obtain ⟨_, rfl⟩ := of_enter_eq_some h
    rfl
  | run id =>
    obtain ⟨t, _, _, rfl⟩ := of_run_eq_some h
    apply known_round
  | stir id =>
    obtain ⟨_, _, _, rfl⟩ := of_stir_eq_some h
    rfl
  | request r =>
    obtain ⟨_, rfl⟩ := of_locked_eq_some h
    cases r with
    | close => apply known_close
    | setDeadline scope deadline =>
      cases scope with
      | both => cases e <;> rfl
      | one direction => cases direction <;> cases e <;> rfl
    | remoteAddr =>
      cases e with
      | remote => exact absurd rfl ha
      | own =>
        simp only [request, Conn.remoteAddr]
        split <;> rfl
    | localAddr =>
      cases e with
      | remote =>
        simp only [request, Conn.ownAddr]
        split <;> rfl
      | own => exact absurd rfl ha
    | _ => rfl
  | upcall u =>
    obtain ⟨_, rfl⟩ := of_locked_eq_some h
    apply known_upcall
  | alarm =>
    obtain ⟨_, rfl⟩ := of_locked_eq_some h
    rfl
  | grant n =>
    cases h
    rfl

theorem request_endpoint (E : Engine σ) (e : Endpoint) (m : Monitor (σ × List EngineCall))
    : let addr := (if m.conn.attached = true then e.ask E m.engine.1 else none).or (m.conn.known e)
      (m.request E.recorded e.request).answer = .address addr ∧
        (m.request E.recorded e.request).monitor.conn.known e = addr ∧
        (m.request E.recorded e.request).monitor.engine.2 =
          m.engine.2 ++ if m.conn.attached = true then [e.call] else [] := by
  have horElse : ∀ a b : Option Address, (a <|> b) = a.or b := by
    intro a b
    cases a <;> rfl
  cases hattached : m.conn.attached with
  | true =>
    cases e <;>
      simp [Endpoint.request, request, Conn.remoteAddr, Conn.ownAddr, hattached, Conn.known, Endpoint.ask, horElse,
        Engine.recorded, Endpoint.call]
  | false => cases e <;> simp [Endpoint.request, request, Conn.remoteAddr, Conn.ownAddr, hattached, Conn.known]

variable {E : Engine σ} {m : Monitor (σ × List EngineCall)} {now : Instant} {a : Action} {e : Endpoint}
  {s : Step (σ × List EngineCall)} {x : Moment (σ × List EngineCall)}

theorem calls_query (E : Engine σ) (e : Endpoint) (m : Monitor (σ × List EngineCall)) (now : Instant)
    : (Moment.mk m now (.request e.request) (m.request E.recorded e.request)).calls =
      if m.conn.attached = true then [e.call] else [] := by
  have hengine := (request_endpoint E e m).2.2
  cases hattached : m.conn.attached with
  | true =>
    rw [hattached, if_pos rfl] at hengine
    exact calls_eq (some e.call) hengine
  | false =>
    rw [hattached, if_neg Bool.false_ne_true] at hengine
    exact calls_eq none hengine

theorem told_query (E : Engine σ) (e : Endpoint) (m : Monitor (σ × List EngineCall)) (now : Instant)
    : (Moment.mk m now (.request e.request) (m.request E.recorded e.request)).told E e =
      if m.conn.attached = true then e.ask E m.engine.1 else none := by
  rw [Moment.told, calls_query]
  cases m.conn.attached <;> simp

theorem known_of_step (h : x.before.step E.recorded x.now x.action = some x.step)
    : x.after.conn.known e = (x.told E e).or (x.before.conn.known e) := by
  obtain ⟨m, now, a, s⟩ := x
  dsimp only at h ⊢
  by_cases ha : a = .request e.request
  . subst ha
    obtain ⟨_, rfl⟩ := of_locked_eq_some h
    rw [told_query]
    exact (request_endpoint E e m).2.1
  . have hcall : e.call ∉ (Moment.mk m now a s).calls := by
      intro hcall
      have hadmits := (admits_of_mem_calls h hcall).2
      cases e <;> exact ha hadmits
    rw [Moment.told, if_neg hcall, Option.none_or]
    exact known_of_ne h ha

variable {label : String} {engine : σ} {trace : List (Moment (σ × List EngineCall))}

theorem RecordedRun.known_eq (run : RecordedRun E label engine trace m) (e : Endpoint)
    : m.conn.known e = (reported E e engine trace).getLast? := by
  induction run with
  | nil =>
    have hfirst : (init E.recorded label (engine, [])).conn.known e = e.atFirst E engine := by cases e <;> rfl
    rw [hfirst, reported]
    cases e.atFirst E engine <;> rfl
  | @snoc trace m now a s _ h ih =>
    rw [getLast?_reported_snoc, ← ih]
    exact known_of_step (x := ⟨m, now, a, s⟩) h

theorem Run.attached_eq_false_iff {σ : Type} {E : Engine σ} {m : Monitor σ} {engine : σ} {trace : List (Moment σ)}
    (run : Run E (init E label engine) trace m)
    : m.conn.attached = false ↔ (history trace).Gone := by
  have hholds : m.conn.attached = true ↔ m.conn.destroyed = false ∧ m.conn.closed = false := run.holdsEngine
  have hreflects := run.reflects
  rw [← Bool.not_eq_true, hholds, History.Gone, ← hreflects.destroyed, ← hreflects.closed]
  cases m.conn.destroyed <;> simp

theorem RecordedRun.reported_of_gone {before after : List (Moment (σ × List EngineCall))}
    (run : RecordedRun E label engine (before ++ after) m) (hgone : (history before).Gone) (e : Endpoint)
    : reported E e engine (before ++ after) = reported E e engine before := by
  have hsilent : after.filterMap (Moment.told E e) = [] := by
    rw [List.filterMap_eq_nil_iff]
    intro y hy
    obtain ⟨between, rest, rfl⟩ := List.append_of_mem hy
    rw [← List.append_assoc] at run
    obtain ⟨hrun, h, _⟩ := Run.of_split run
    have hdetached : y.before.conn.attached = false := by
      rw [Run.attached_eq_false_iff hrun, history, List.map_append]
      exact hgone.append _
    have hcall : e.call ∉ y.calls := by
      intro hcall
      have hattached := (admits_of_mem_calls h hcall).1
      rw [hdetached] at hattached
      contradiction
    rw [Moment.told, if_neg hcall]
  unfold reported
  rw [List.filterMap_append, hsilent, List.append_nil]

/--
A query answers with the last address that the engine has ever told, and with none if it never told any. The engine is
asked as long as it is there, and takes nothing back by telling none. From the moment it is gone on, every query has
the same answer.
-/
theorem RecordedRun.addresses_cached (run : RecordedRun E label engine trace m) (e : Endpoint) (now : Instant)
    : let x : Moment (σ × List EngineCall) := ⟨m, now, .request e.request, m.request E.recorded e.request⟩
      (m.lockFree = true → m.step E.recorded now x.action = some x.step) ∧
      x.step.answer = .address (reported E e engine (trace ++ [x])).getLast? ∧
      (x.step.answer = .address none ↔ reported E e engine (trace ++ [x]) = []) ∧
      (x.told E e = none → x.step.answer = .address (reported E e engine trace).getLast?) ∧
      (¬ (history trace).Gone → x.calls = [e.call]) ∧
      ∀ before after, trace = before ++ after → (history before).Gone →
        x.calls = [] ∧ x.step.answer = .address (reported E e engine before).getLast? := by
  intro x
  have hcalls : x.calls = if m.conn.attached = true then [e.call] else [] := calls_query E e m now
  have htold : x.told E e = if m.conn.attached = true then e.ask E m.engine.1 else none := told_query E e m now
  have hanswer : x.step.answer = .address ((x.told E e).or (reported E e engine trace).getLast?) := by
    rw [htold, ← run.known_eq e]
    exact (request_endpoint E e m).1
  have hlatest : x.step.answer = .address (reported E e engine (trace ++ [x])).getLast? := by
    rw [getLast?_reported_snoc]
    exact hanswer
  refine ⟨fun hfree => locked_of_lockFree hfree _, hlatest, ?_, ?_, ?_, ?_⟩
  . rw [hlatest, Answer.address.injEq, List.getLast?_eq_none_iff]
  . intro hnone
    rw [hanswer, hnone, Option.none_or]
  . intro hthere
    rw [hcalls, if_pos]
    rw [← Bool.not_eq_false, Run.attached_eq_false_iff run]
    exact hthere
  . rintro before after rfl hgone
    have hdetached : m.conn.attached = false := by
      rw [Run.attached_eq_false_iff run, history, List.map_append]
      exact hgone.append _
    rw [hdetached, if_neg Bool.false_ne_true] at hcalls htold
    refine ⟨hcalls, ?_⟩
    rw [hanswer, htold, Option.none_or, run.reported_of_gone hgone]

/--
The engine tells no address of the other end at first, then one, then none, and then another one. It tells its own
address only when the connection is opened. After it has destroyed its socket it is not asked any more.
-/
theorem destroyed_addresses_cached
    : ∃ trace m,
        let engine : Scripted :=
          { peers := [none, some (.loopback 1), none, some (.loopback 2)], locals := [some (.loopback 3), none] }
        RecordedRun Scripted.engine "a" engine trace m ∧
        trace.map (·.step.answer) =
          [.address (some (.loopback 1)), .address (some (.loopback 1)), .address (some (.loopback 3)),
            .address (some (.loopback 2)), .done, .done] ∧
        reported Scripted.engine .remote engine trace = [.loopback 1, .loopback 2] ∧
        reported Scripted.engine .own engine trace = [.loopback 3] ∧
        m.lockFree = true ∧
        ∀ e : Endpoint, ∃ s, m.step Scripted.engine.recorded 9 (.request e.request) = some s ∧
          (Moment.mk m 9 (.request e.request) s).calls = [] ∧
          s.answer = .address (reported Scripted.engine e engine trace).getLast? := by
  have run : RecordedRun Scripted.engine "a"
      { peers := [none, some (.loopback 1), none, some (.loopback 2)], locals := [some (.loopback 3), none] } _ _ :=
    Run.of_replay
      [(0, .request .remoteAddr), (1, .request .remoteAddr), (2, .request .localAddr), (3, .request .remoteAddr),
        (4, .upcall .destroyed), (5, .upcall .eof)] rfl
  refine ⟨_, _, run, rfl, rfl, rfl, rfl, ?_⟩
  intro e
  have cached := RecordedRun.addresses_cached run e 9
  obtain ⟨hcalls, hanswer⟩ := cached.2.2.2.2.2 _ [] (List.append_nil _).symm (Or.inl (by decide))
  exact ⟨_, cached.1 rfl, hcalls, hanswer⟩

end Monitor

end BlockingStream

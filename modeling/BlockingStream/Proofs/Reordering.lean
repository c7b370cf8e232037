import BlockingStream.Engine.Metered
import BlockingStream.Proofs.Detached

/-!
This module contains the proof that the order of updates does not matter. An update is whatever the engine reports,
a close, or a new deadline. What a list of updates makes of a connection depends only on which of them are in the
list, on the order in which the data arrives, and on the order in which the deadlines of a direction are set.

The order between a close and the end of the engine decides whether the engine is asked to close. Nothing can be told
from that afterwards, since the connection has no engine any more.
-/

namespace BlockingStream

namespace Action

/--
The action changes the state of a connection without an answer that depends on it.
-/
def isUpdate : Action → Bool
  | .upcall _ | .request .close | .request (.setDeadline _ _) => true
  | _ => false

def data? : Action → Option Bytes
  | .upcall (.data bytes) => some bytes
  | _ => none

def wakes (closed : Bool) (a : Action) : Bool := a ≠ .request .close || !closed

end Action

/--
There is a close, and the engine is not destroyed before it.
-/
def History.closesFirst : History → Bool
  | [] => false
  | .request .close :: _ => true
  | .upcall .destroyed :: _ => false
  | _ :: rest => closesFirst rest

theorem History.closesFirst_cons {a : Action} (hclose : a ≠ .request .close) (hdestroyed : a ≠ .upcall .destroyed)
    (h : History)
    : closesFirst (a :: h) = h.closesFirst := by
  rw [closesFirst]
  . exact hclose
  . exact hdestroyed

theorem History.closesFirst_iff (h : History)
    : h.closesFirst = true ↔ ∃ before after, h = before ++ .request .close :: after ∧ .upcall .destroyed ∉ before := by
  induction h with
  | nil => simp [closesFirst]
  | cons a rest ih =>
    by_cases hclose : a = .request .close
    . subst hclose
      simp only [closesFirst, true_iff]
      exact ⟨[], rest, rfl, List.not_mem_nil⟩
    . by_cases hdestroyed : a = .upcall .destroyed
      . subst hdestroyed
        simp only [closesFirst, Bool.false_eq_true, false_iff]
        rintro ⟨before, after, heq, hnot⟩
        cases before with
        | nil => cases heq
        | cons first before =>
          rw [List.cons_append] at heq
          rw [← (List.cons.inj heq).1] at hnot
          exact hnot List.mem_cons_self
      . rw [closesFirst_cons hclose hdestroyed, ih]
        constructor
        . rintro ⟨before, after, rfl, hnot⟩
          refine ⟨a :: before, after, rfl, ?_⟩
          intro hmem
          rcases List.mem_cons.1 hmem with heq | hmem
          . exact hdestroyed heq.symm
          . exact hnot hmem
        . rintro ⟨before, after, heq, hnot⟩
          cases before with
          | nil => exact absurd (List.cons.inj heq).1 hclose
          | cons first before =>
            refine ⟨before, after, (List.cons.inj heq).2, ?_⟩
            intro hmem
            exact hnot (List.mem_cons_of_mem first hmem)

theorem History.closesFirst_of_not_mem {h : History} (hclose : .request .close ∉ h) : h.closesFirst = false := by
  rw [← Bool.not_eq_true, closesFirst_iff]
  rintro ⟨before, after, rfl, _⟩
  simp at hclose

def Conn.settle (c : Conn) (h : History) : Conn :=
  { c with
    connected := c.connected || .upcall .connected ∈ h
    eof := c.eof || .upcall .eof ∈ h
    destroyed := c.destroyed || .upcall .destroyed ∈ h
    closed := c.closed || .request .close ∈ h
    failure := c.failure.or (h.filterMap Action.failure?).head?
    readDeadline := (h.filterMap (Action.deadline? .reading)).getLast?.getD c.readDeadline
    writeDeadline := (h.filterMap (Action.deadline? .writing)).getLast?.getD c.writeDeadline
    inbound := c.inbound ++ (h.filterMap Action.data?).flatten
    attached := c.attached && .upcall .destroyed ∉ h && .request .close ∉ h }

namespace Conn

variable {c : Conn} {h h' : History}

theorem settle_cons (c : Conn) (a : Action) (h : History) : (c.settle [a]).settle h = c.settle (a :: h) := by
  have hfailure : (c.failure.or ([a].filterMap Action.failure?).head?).or (h.filterMap Action.failure?).head? =
      c.failure.or ((a :: h).filterMap Action.failure?).head? := by
    cases hfailure : a.failure? <;> cases c.failure <;> simp [hfailure]
  have hdeadline : ∀ d (old : Option Instant), (h.filterMap (Action.deadline? d)).getLast?.getD
      (([a].filterMap (Action.deadline? d)).getLast?.getD old) =
        ((a :: h).filterMap (Action.deadline? d)).getLast?.getD old := by
    intro d old
    cases hdeadline : a.deadline? d <;> simp [hdeadline, List.getLast?_cons]
  have hinbound : c.inbound ++ ([a].filterMap Action.data?).flatten ++ (h.filterMap Action.data?).flatten =
      c.inbound ++ ((a :: h).filterMap Action.data?).flatten := by
    cases hdata : a.data? <;> simp [hdata]
  unfold settle
  dsimp only
  rw [hfailure, hdeadline, hdeadline, hinbound]
  simp [Bool.or_assoc, Bool.and_assoc, Bool.and_left_comm]

theorem close_eq_settle {σ : Type} (hholds : c.HoldsEngine) (E : Engine σ) (s : σ)
    : c.close E s =
        (!c.closed, c.settle [.request .close], if c.attached then E.close s else s) := by
  have hsettle : c.settle [.request .close] = { c with closed := true, attached := false } := by
    simp [settle, List.filterMap_cons, Action.failure?, Action.deadline?, Action.data?]
  rw [hsettle]
  unfold HoldsEngine at hholds
  obtain ⟨connected, eof, destroyed, closed, failure, readDeadline, writeDeadline, inbound, bytesRead, bytesWritten,
    peer, localAddr, attached⟩ := c
  dsimp only at hholds
  cases closed <;> cases destroyed <;> cases attached <;> simp [close] at hholds ⊢

theorem settle_congr (hmem : ∀ a, a ∈ h' ↔ a ∈ h)
    (hfailure : h'.filterMap Action.failure? = h.filterMap Action.failure?)
    (hdata : h'.filterMap Action.data? = h.filterMap Action.data?)
    (hdeadline : ∀ d, h'.filterMap (Action.deadline? d) = h.filterMap (Action.deadline? d))
    : c.settle h' = c.settle h := by
  simp only [settle, hmem, hfailure, hdata, hdeadline]

end Conn

namespace Monitor

variable {σ : Type} {E : Engine σ} {m : Monitor σ} {now : Instant} {a : Action} {h h' : History}

def settle (E : Engine σ) (m : Monitor σ) (h : History) : Monitor σ :=
  { m with
    conn := m.conn.settle h
    engine := if m.conn.attached && h.closesFirst then E.close m.engine else m.engine
    threads := if h.any (Action.wakes m.conn.closed) then m.threads.map Thread.signal else m.threads }

theorem map_signal_signal (threads : List Thread)
    : (threads.map Thread.signal).map Thread.signal = threads.map Thread.signal := by
  rw [List.map_map]
  apply List.map_congr_left
  intro t _
  simp only [Function.comp_apply, Thread.signal]
  cases h : t.status <;> simp [h]

theorem settle_cons (E : Engine σ) (m : Monitor σ) (a : Action) (h : History)
    : (m.settle E [a]).settle E h = m.settle E (a :: h) := by
  have hengine : ((m.settle E [a]).settle E h).engine = (m.settle E (a :: h)).engine := by
    by_cases hclose : a = .request .close
    . simp [settle, Conn.settle, History.closesFirst, hclose]
    . by_cases hdestroyed : a = .upcall .destroyed
      . simp [settle, Conn.settle, History.closesFirst, hdestroyed]
      . have hneither : (.request .close) ∉ [a] ∧ (.upcall .destroyed) ∉ [a] := by
          simp [Ne.symm hclose, Ne.symm hdestroyed]
        simp only [settle, Conn.settle, History.closesFirst_cons hclose hdestroyed, History.closesFirst]
        simp [hneither]
  have hthreads : ((m.settle E [a]).settle E h).threads = (m.settle E (a :: h)).threads := by
    cases hwakes : a.wakes m.conn.closed with
    | true =>
      simp only [settle, List.any_cons, List.any_nil, hwakes, Bool.or_false, Bool.true_or, if_true, map_signal_signal,
        ite_self]
    | false =>
      -- this is a close, and not the first
      obtain ⟨rfl, hclosed⟩ : a = .request .close ∧ m.conn.closed = true := by
        simpa [Action.wakes] using hwakes
      have hlater : Action.wakes true (.request .close) = false := rfl
      simp [settle, Conn.settle, hclosed, hlater]
  exact Monitor.ext rfl (Conn.settle_cons m.conn a h) hengine hthreads

theorem step_update (hfree : m.lockFree = true) (hholds : m.conn.HoldsEngine) (hupdate : a.isUpdate = true)
    (honce : m.conn.failure = none ∨ a.failure? = none)
    : ∃ s, m.step E now a = some s ∧ s.monitor = m.settle E [a] := by
  cases a with
  | upcall u =>
    refine ⟨m.upcall u, locked_of_lockFree hfree _, ?_⟩
    cases u with
    | error code =>
      have hnone : m.conn.failure = none := by simpa [Action.failure?] using honce
      apply Monitor.ext
      . simp [upcall, fail, Conn.fail, hnone, absorb, broadcast, settle]
      . simp [upcall, fail, Conn.fail, hnone, absorb, broadcast, settle, Conn.settle, Action.failure?, Action.deadline?,
          Action.data?]
      . simp [upcall, fail, Conn.fail, hnone, absorb, broadcast, settle, History.closesFirst]
      . simp [upcall, fail, Conn.fail, hnone, absorb, broadcast, settle, Action.wakes]
    | _ =>
      apply Monitor.ext
      . rfl
      . simp [upcall, receive, absorb, broadcast, settle, Conn.settle, Conn.receive, Conn.destroy, List.filterMap_cons,
          Action.failure?, Action.deadline?, Action.data?]
      . simp [upcall, receive, absorb, broadcast, settle, History.closesFirst]
      . simp [upcall, receive, absorb, broadcast, settle, Action.wakes]
  | request r =>
    refine ⟨m.request E r, locked_of_lockFree hfree _, ?_⟩
    cases r with
    | close =>
      have hclose := Conn.close_eq_settle hholds E m.engine
      apply Monitor.ext
      . simp only [request, close, hclose]
        split <;> rfl
      . simp only [request, close, hclose]
        split <;> rfl
      . simp only [request, close, hclose]
        split <;> simp [settle, broadcast, History.closesFirst]
      . simp only [request, close, hclose]
        cases hclosed : m.conn.closed <;> simp [settle, broadcast, Action.wakes, hclosed]
    | setDeadline scope deadline =>
      cases scope with
      | both =>
        apply Monitor.ext
        . rfl
        . simp [request, setDeadline, broadcast, settle, Conn.settle, Action.failure?, Action.deadline?, Action.data?]
        . simp [request, setDeadline, broadcast, settle, History.closesFirst]
        . simp [request, setDeadline, broadcast, settle, Action.wakes]
      | one direction =>
        cases direction <;> apply Monitor.ext
        all_goals
          simp [request, setDeadline, broadcast, settle, Conn.settle, Action.failure?, Action.deadline?, Action.data?,
            History.closesFirst, Action.wakes]
    | _ => contradiction
  | _ => contradiction

theorem lockFree_settle (E : Engine σ) (m : Monitor σ) (h : History) : (m.settle E h).lockFree = m.lockFree := by
  change List.all (if _ then m.threads.map Thread.signal else m.threads) _ = _
  split
  . exact lockFree_broadcast m
  . rfl

theorem replay_updates (moves : List (Instant × Action)) (hfree : m.lockFree = true) (hholds : m.conn.HoldsEngine)
    (hupdates : ∀ move ∈ moves, move.2.isUpdate = true)
    (honce : (m.conn.failure.toList ++ (moves.map Prod.snd).filterMap Action.failure?).length ≤ 1)
    : ∃ trace, m.replay E moves = some (trace, m.settle E (moves.map Prod.snd)) := by
  induction moves generalizing m with
  | nil =>
    refine ⟨[], ?_⟩
    have hsame : m.settle E [] = m := by
      apply Monitor.ext <;> simp [settle, Conn.settle, History.closesFirst]
    rw [List.map_nil, hsame]
    rfl
  | cons move rest ih =>
    obtain ⟨now, a⟩ := move
    rw [List.map_cons, List.filterMap_cons] at honce
    have hfirst : m.conn.failure = none ∨ a.failure? = none := by
      cases hfailure : m.conn.failure with
      | none => exact Or.inl rfl
      | some code =>
        right
        cases ha : a.failure? with
        | none => rfl
        | some code' => simp [hfailure, ha] at honce
    obtain ⟨s, hs, hsettle⟩ : ∃ s, m.step E now a = some s ∧ s.monitor = m.settle E [a] :=
      step_update hfree hholds (hupdates _ List.mem_cons_self) hfirst
    have hrest : (s.monitor.conn.failure.toList ++ (rest.map Prod.snd).filterMap Action.failure?).length ≤ 1 := by
      rw [(follows_of_step hs).failure]
      generalize (rest.map Prod.snd).filterMap Action.failure? = failures at honce ⊢
      rcases hfirst with hnone | hnone
      . rw [hnone] at honce ⊢
        cases ha : a.failure? <;> simpa [ha] using honce
      . rw [hnone] at honce ⊢
        rw [Option.or_none]
        exact honce
    have hfree' : s.monitor.lockFree = true := by rw [hsettle, lockFree_settle, hfree]
    obtain ⟨trace, hreplay⟩ := ih hfree' (holdsEngine_of_step hholds hs)
      (fun move hmove => hupdates move (List.mem_cons_of_mem _ hmove)) hrest
    refine ⟨⟨m, now, a, s⟩ :: trace, ?_⟩
    unfold replay
    rw [hs]
    dsimp only
    rw [hreplay, hsettle, settle_cons]
    rfl

theorem filterMap_failure?_eq (hperm : h'.Perm h) (honce : (h.filterMap Action.failure?).length ≤ 1)
    : h'.filterMap Action.failure? = h.filterMap Action.failure? := by
  -- there is one failure at most, so that the first is the same in every order
  have hfailures := hperm.filterMap Action.failure?
  cases hall : h.filterMap Action.failure? with
  | nil =>
    rw [hall] at hfailures
    exact hfailures.eq_nil
  | cons code rest =>
    rw [hall, List.length_cons] at honce
    have hrest : rest = [] := List.length_eq_zero_iff.1 (Nat.le_zero.1 (Nat.le_of_succ_le_succ honce))
    rw [hall, hrest] at hfailures
    rw [hrest]
    exact List.perm_singleton.1 hfailures

theorem outside_settle_congr (hperm : h'.Perm h)
    (honce : (h.filterMap Action.failure?).length ≤ 1)
    (hdata : h'.filterMap Action.data? = h.filterMap Action.data?)
    (hdeadline : ∀ d, h'.filterMap (Action.deadline? d) = h.filterMap (Action.deadline? d))
    : (m.settle E h').outside = (m.settle E h).outside := by
  have hmem : ∀ a, a ∈ h' ↔ a ∈ h := fun a => hperm.mem_iff
  have hwakes : h'.any (Action.wakes m.conn.closed) = h.any (Action.wakes m.conn.closed) := hperm.any_eq
  apply Monitor.ext
  . rfl
  . exact Conn.settle_congr hmem (filterMap_failure?_eq hperm honce) hdata hdeadline
  . rfl
  . simp only [outside, settle, hwakes]

variable {label : String} {engine : σ} {trace : List (Moment (σ × List EngineCall))}
  {m : Monitor (σ × List EngineCall)}

/--
Whatever the order of updates, the state that they lead to is the same, with the same threads awake. The engine is
closed once or not at all, and is otherwise left alone. It is closed if the connection still had it and one of the
updates is a close that comes before the end of the engine. Nothing else tells the orders apart: whatever is done
afterwards has the same effects, answers and outcomes.
-/
theorem RecordedRun.updates_reorder (run : RecordedRun E label engine trace m) (hfree : m.lockFree = true)
    (moves moves' : List (Instant × Action)) (hupdates : ∀ move ∈ moves, move.2.isUpdate = true)
    (honce : (m.conn.failure.toList ++ (moves.map Prod.snd).filterMap Action.failure?).length ≤ 1)
    (hperm : (moves'.map Prod.snd).Perm (moves.map Prod.snd))
    (hdata : (moves'.map Prod.snd).filterMap Action.data? = (moves.map Prod.snd).filterMap Action.data?)
    (hdeadline : ∀ d, (moves'.map Prod.snd).filterMap (Action.deadline? d) =
      (moves.map Prod.snd).filterMap (Action.deadline? d))
    : ∃ trace₁ m₁ trace₁' m₁', m.replay E.recorded moves = some (trace₁, m₁) ∧
        m.replay E.recorded moves' = some (trace₁', m₁') ∧ m₁'.outside = m₁.outside ∧
        (m₁.conn.attached = true → m₁'.engine = m₁.engine) ∧
        m₁.engine.2 = m.engine.2 ++
          (if m.conn.attached && History.closesFirst (moves.map Prod.snd) then [.close] else []) ∧
        m₁'.engine.2 = m.engine.2 ++
          (if m.conn.attached && History.closesFirst (moves'.map Prod.snd) then [.close] else []) ∧
        ∀ more, (m₁'.replay E.recorded more).map (fun r => (r.1.map Moment.outside, r.2.outside)) =
          (m₁.replay E.recorded more).map (fun r => (r.1.map Moment.outside, r.2.outside)) := by
  have hholds := run.holdsEngine
  have hupdates' : ∀ move ∈ moves', move.2.isUpdate = true := by
    intro move hmove
    have hmem := hperm.mem_iff.1 (List.mem_map_of_mem (f := Prod.snd) hmove)
    obtain ⟨other, hother, heq⟩ := List.mem_map.1 hmem
    rw [← heq]
    exact hupdates other hother
  have hfew : ((moves.map Prod.snd).filterMap Action.failure?).length ≤ 1 := by
    rw [List.length_append] at honce
    exact Nat.le_trans (Nat.le_add_left _ _) honce
  have honce' := honce
  rw [← filterMap_failure?_eq hperm hfew] at honce'
  obtain ⟨trace₁, hreplay⟩ := replay_updates (E := E.recorded) moves hfree hholds hupdates honce
  obtain ⟨trace₁', hreplay'⟩ := replay_updates (E := E.recorded) moves' hfree hholds hupdates' honce'
  have houtside := outside_settle_congr (E := E.recorded) (m := m) hperm hfew hdata hdeadline
  have hcalls : ∀ h : History, (m.settle E.recorded h).engine.2 =
      m.engine.2 ++ (if m.conn.attached && h.closesFirst then [.close] else []) := by
    intro h
    unfold settle
    dsimp only
    split
    . rfl
    . exact (List.append_nil _).symm
  -- the orders differ only if the engine is gone afterwards
  have hengine : (m.settle E.recorded (moves.map Prod.snd)).conn.attached = true →
      (m.settle E.recorded (moves'.map Prod.snd)).engine = (m.settle E.recorded (moves.map Prod.snd)).engine := by
    intro hattached
    have hclose : .request .close ∉ moves.map Prod.snd := by
      simp only [settle, Conn.settle, Bool.and_eq_true, decide_eq_true_eq] at hattached
      exact hattached.2
    have hclose' : .request .close ∉ moves'.map Prod.snd := fun hmem => hclose (hperm.mem_iff.1 hmem)
    simp only [settle, History.closesFirst_of_not_mem hclose, History.closesFirst_of_not_mem hclose']
  refine ⟨_, _, _, _, hreplay, hreplay', houtside, hengine, hcalls _, hcalls _, ?_⟩
  intro more
  exact map_outside_replay_congr (run.replay_append hreplay).holdsEngine houtside hengine more

/--
A reader sleeps while data arrives, the engine fails and destroys its socket, a deadline is set and the connection is
closed. If the close comes last, the engine does not hear of it.
-/
theorem late_close_reorders
    : ∃ trace m trace₁ m₁ trace₁' m₁', RecordedRun Metered.engine "a" {} trace m ∧
        m.replay Metered.engine.recorded
          [(1, .upcall (.data [1])), (1, .request .close), (2, .upcall .destroyed), (2, .upcall (.data [2])),
            (3, .upcall (.error ⟨"ECONNRESET"⟩)), (3, .request (.setDeadline .both (some 9)))] =
          some (trace₁, m₁) ∧
        m.replay Metered.engine.recorded
          [(1, .upcall .destroyed), (2, .request (.setDeadline .both (some 9))), (2, .upcall (.data [1])),
            (3, .upcall (.error ⟨"ECONNRESET"⟩)), (4, .upcall (.data [2])), (4, .request .close)] =
          some (trace₁', m₁') ∧
        m₁'.outside = m₁.outside ∧ m₁.engine.2 = m.engine.2 ++ [.close] ∧ m₁'.engine.2 = m.engine.2 := by
  have run : RecordedRun Metered.engine "a" {} _ _ := Run.of_replay [(0, .enter 0 (.read 4)), (0, .run 0)] rfl
  obtain ⟨trace₁, m₁, trace₁', m₁', hreplay, hreplay', houtside, _, hcalls, hcalls', _⟩ :=
    RecordedRun.updates_reorder run rfl
      [(1, .upcall (.data [1])), (1, .request .close), (2, .upcall .destroyed), (2, .upcall (.data [2])),
        (3, .upcall (.error ⟨"ECONNRESET"⟩)), (3, .request (.setDeadline .both (some 9)))]
      [(1, .upcall .destroyed), (2, .request (.setDeadline .both (some 9))), (2, .upcall (.data [1])),
        (3, .upcall (.error ⟨"ECONNRESET"⟩)), (4, .upcall (.data [2])), (4, .request .close)]
      (by decide) (by decide) (by decide) rfl (by intro d; cases d <;> rfl)
  exact ⟨_, _, trace₁, m₁, trace₁', m₁', run, hreplay, hreplay', houtside, hcalls, hcalls'.trans (List.append_nil _)⟩

end Monitor

end BlockingStream

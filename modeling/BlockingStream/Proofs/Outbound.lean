import BlockingStream.Proofs.Run
import BlockingStream.Proofs.Step
import BlockingStream.Engine.Scripted

/-!
This module contains the account of the output of a connection: what its engine has accepted is made up of
the front parts of what the writers were given to write, each one in order, and the counter of written bytes
is what the finished writes have returned.
-/

namespace BlockingStream

/--
The parts are spread over the whole: each element of the whole has an owner, and what an owner has there, in
this order, is its part.
-/
def Shuffle {ι α : Type} [DecidableEq ι] (parts : ι → List α) (whole : List α) : Prop :=
  ∃ owned : List (ι × α),
    owned.map Prod.snd = whole ∧ ∀ i, (owned.filter fun x => x.1 = i).map Prod.snd = parts i

namespace Shuffle

variable {ι α : Type} [DecidableEq ι] {parts parts' : ι → List α} {whole : List α}

theorem nil (h : ∀ i, parts i = []) : Shuffle parts [] := by
  refine ⟨[], rfl, ?_⟩
  intro i
  rw [h]
  rfl

theorem append (h : Shuffle parts whole) (i : ι) (chunk : List α) (hi : parts' i = parts i ++ chunk)
    (hne : ∀ j, j ≠ i → parts' j = parts j)
    : Shuffle parts' (whole ++ chunk) := by
  obtain ⟨owned, hwhole, hparts⟩ := h
  refine ⟨owned ++ chunk.map fun x => (i, x), ?_, ?_⟩
  . rw [List.map_append, hwhole, List.map_map]
    simp [Function.comp_def]
  . intro j
    rw [List.filter_append, List.map_append, hparts j]
    by_cases hj : j = i
    . subst hj
      rw [hi]
      simp [List.filter_map, Function.comp_def]
    . have hnone : ¬ i = j := fun heq => hj heq.symm
      rw [hne j hj]
      simp [List.filter_map, Function.comp_def, hnone]

end Shuffle

namespace Thread

/--
The number of bytes that a write has returned, or has got rid of so far.
-/
def progress (t : Thread) : Nat :=
  match t.outcome? with
  | some (.write w) => w.bytes
  | _ => t.taken

def accepted (t : Thread) : Bytes :=
  match t.call with
  | .write data => data.take t.progress
  | _ => []

def completed (t : Thread) : Nat :=
  match t.outcome? with
  | some (.write w) => w.bytes
  | _ => 0

def underway (t : Thread) : Nat :=
  match t.outcome? with
  | some _ => 0
  | none => t.taken

def Accounted (t : Thread) : Prop :=
  match t.call with
  | .write data =>
    t.taken ≤ data.length ∧ t.rest = data.drop t.taken ∧
      ∀ outcome, t.outcome? = some outcome → ∃ error, outcome = .write ⟨t.taken, error⟩
  | _ => t.taken = 0 ∧ ∀ w, t.outcome? ≠ some (.write w)

variable {t : Thread}

theorem Accounted.enter (id : Nat) (call : Call) : (Thread.enter id call).Accounted := by
  cases call with
  | awaitConnect => exact ⟨rfl, by intro w; simp [Thread.enter, outcome?]⟩
  | readInto buffer => exact ⟨rfl, by intro w; simp [Thread.enter, outcome?]⟩
  | write data => exact ⟨Nat.zero_le _, rfl, by intro outcome; simp [Thread.enter, outcome?]⟩

theorem Accounted.signal (h : t.Accounted) : t.signal.Accounted := by
  unfold Accounted at *
  simp only [call_signal, taken_signal, rest_signal, outcome?_signal]
  exact h

theorem Accounted.progress_eq (h : t.Accounted) : t.progress = t.taken := by
  unfold Accounted at h
  unfold progress
  split at h
  . split
    . next w hw =>
      obtain ⟨_, heq⟩ := h.2.2 _ hw
      injection heq with heq
      rw [heq]
    . rfl
  . split
    . next w hw => exact absurd hw (h.2 w)
    . rfl

theorem Accounted.completed_add_underway (h : t.Accounted)
    : t.completed + t.underway = t.accepted.length := by
  have hprogress := h.progress_eq
  unfold Accounted at h
  unfold accepted
  rw [hprogress]
  unfold completed underway
  split at h
  . obtain ⟨hle, _, hout⟩ := h
    rw [List.length_take]
    split
    . next w hw =>
      obtain ⟨_, heq⟩ := hout _ hw
      injection heq with heq
      simp only [hw, heq]
      omega
    . next hnot =>
      split
      . next outcome hout' =>
        obtain ⟨_, rfl⟩ := hout _ hout'
        exact absurd hout' (hnot _)
      . omega
  . obtain ⟨hzero, hnot⟩ := h
    rw [List.length_nil]
    split
    . next w hw => exact absurd hw (hnot w)
    . split <;> omega

theorem Accounted.length_accepted {data : Bytes} (h : t.Accounted) (hcall : t.call = .write data)
    : t.accepted.length = t.taken := by
  have hprogress := h.progress_eq
  unfold Accounted at h
  rw [hcall] at h
  unfold accepted
  rw [hcall, hprogress]
  dsimp only
  rw [List.length_take, Nat.min_eq_left h.1]

theorem Stays.accepted_eq {u : Thread} (h : t.Stays u) : u.accepted = t.accepted := by
  simp only [accepted, progress, h.call, h.taken, h.outcome?]

theorem completed_of_outcome?_eq_none (h : t.outcome? = none) : t.completed = 0 := by
  simp [completed, h]

theorem Accounted.handOver {data : Bytes} {status : Status} {n : Nat} (h : t.Accounted)
    (hcall : t.call = .write data) (hn : n ≤ t.rest.length)
    (hstatus : ∀ outcome, status = .returned outcome → ∃ error, outcome = .write ⟨t.taken + n, error⟩)
    : Accounted { t.handOver n with status } := by
  unfold Accounted at h ⊢
  rw [hcall] at h
  obtain ⟨hle, hrest, _⟩ := h
  simp only [Thread.handOver, hcall]
  refine ⟨?_, ?_, ?_⟩
  . rw [hrest, List.length_drop] at hn
    omega
  . rw [hrest, List.drop_drop]
  . intro outcome houtcome
    exact hstatus outcome (outcome?_eq_some_iff.1 houtcome)

theorem Accounted.accepted_handOver {data : Bytes} {status : Status} {n : Nat} (h : t.Accounted)
    (hcall : t.call = .write data) (h' : Accounted { t.handOver n with status })
    : accepted { t.handOver n with status } = t.accepted ++ t.rest.take n := by
  have hprogress := h.progress_eq
  have hprogress' := h'.progress_eq
  unfold Accounted at h
  rw [hcall] at h
  unfold accepted
  rw [hprogress', hprogress]
  simp only [Thread.handOver, hcall]
  rw [h.2.1, List.take_add]

theorem Accounted.settle (buffer : Bytes) (status : Status) (h : t.Accounted) (hcall : ∀ data, t.call ≠ .write data)
    (hstatus : ∀ w, status ≠ .returned (.write w))
    : Accounted { t with buffer, status } ∧ accepted { t with buffer, status } = t.accepted ∧
      completed { t with buffer, status } = 0 := by
  unfold Accounted at h ⊢
  unfold accepted completed
  have hnot : ∀ w, outcome? { t with buffer, status } ≠ some (.write w) := by
    intro w hw
    exact hstatus w (outcome?_eq_some_iff.1 hw)
  split at h
  . next data hdata => exact absurd hdata (hcall data)
  . refine ⟨⟨h.1, hnot⟩, rfl, ?_⟩
    split
    . next w hw => exact absurd hw (hnot w)
    . rfl

@[simp]
theorem accepted_signal (t : Thread) : t.signal.accepted = t.accepted := by
  simp [accepted, progress]

@[simp]
theorem completed_signal (t : Thread) : t.signal.completed = t.completed := by
  simp [completed]

@[simp]
theorem accepted_enter (id : Nat) (call : Call) : (enter id call).accepted = [] := by
  cases call with
  | write data => exact List.take_zero (l := data)
  | _ => rfl

@[simp]
theorem completed_enter (id : Nat) (call : Call) : (enter id call).completed = 0 := by
  cases call <;> rfl

end Thread

namespace Monitor

variable {σ : Type} {E : Engine σ} {m : Monitor (σ × List EngineCall)} {s : Step (σ × List EngineCall)}
  {t u : Thread} {now : Instant} {a : Action}

def accepted {σ : Type} (m : Monitor σ) (id : Nat) : Bytes :=
  match m.thread? id with
  | some t => t.accepted
  | none => []

def completed {σ : Type} (m : Monitor σ) : Nat := m.total Thread.completed

def underway {σ : Type} (m : Monitor σ) : Nat := m.total Thread.underway

def outbound (m : Monitor (σ × List EngineCall)) : Bytes := EngineCall.stream m.engine.2

/--
The output of a connection adds up.
-/
structure Balanced (m : Monitor (σ × List EngineCall)) : Prop where
  distinct : (m.threads.map Thread.id).Nodup
  accounted : ∀ t ∈ m.threads, t.Accounted
  shuffle : Shuffle m.accepted m.outbound
  length : m.outbound.length = m.total fun t => t.accepted.length
  written : m.conn.bytesWritten = countUp 0 m.completed

theorem Balanced.init (E : Engine σ) (label : String) (s : σ)
    : Balanced (Monitor.init E.recorded label (s, [])) where
  distinct := List.nodup_nil
  accounted := by simp [Monitor.init]
  shuffle := Shuffle.nil fun _ => rfl
  length := rfl
  written := rfl

theorem Balanced.of_threads_eq {m' : Monitor (σ × List EngineCall)} (h : m.Balanced)
    (hthreads : m'.threads = m.threads) (houtbound : m'.outbound = m.outbound)
    (hwritten : m'.conn.bytesWritten = m.conn.bytesWritten)
    : m'.Balanced where
  distinct := by
    rw [hthreads]
    exact h.distinct
  accounted := by
    rw [hthreads]
    exact h.accounted
  shuffle := by
    have : m'.accepted = m.accepted := by
      funext id
      simp [accepted, thread?, hthreads]
    rw [this, houtbound]
    exact h.shuffle
  length := by
    rw [houtbound, total, hthreads]
    exact h.length
  written := by
    rw [hwritten, completed, total, hthreads]
    exact h.written

theorem Balanced.broadcast (h : m.Balanced) : m.broadcast.Balanced where
  distinct := by
    rw [ids_broadcast]
    exact h.distinct
  accounted := by
    intro t ht
    obtain ⟨u, hu, rfl⟩ := List.mem_map.1 ht
    exact (h.accounted u hu).signal
  shuffle := by
    have : m.broadcast.accepted = m.accepted := by
      funext id
      rw [accepted, thread?_broadcast]
      cases hid : m.thread? id <;> simp [accepted, hid]
    rw [this]
    exact h.shuffle
  length := by
    change m.outbound.length = _
    rw [total_broadcast, h.length]
    intro t
    rw [Thread.accepted_signal]
  written := by
    rw [completed, total_broadcast Thread.completed_signal]
    exact h.written

theorem Balanced.enter {id : Nat} {call : Call} (h : m.Balanced) (hid : m.thread? id = none)
    : Balanced { m with threads := m.threads ++ [Thread.enter id call] } where
  distinct := by
    rw [List.map_append, List.nodup_append]
    refine ⟨h.distinct, by simp, ?_⟩
    intro i hi j hj
    rw [List.map_singleton, Thread.id_enter, List.mem_singleton] at hj
    obtain ⟨u, hu, rfl⟩ := List.mem_map.1 hi
    rw [hj]
    exact thread?_eq_none_iff.1 hid u hu
  accounted := by
    intro t ht
    rcases List.mem_append.1 ht with ht | ht
    . exact h.accounted t ht
    . rw [List.mem_singleton.1 ht]
      apply Thread.Accounted.enter
  shuffle := by
    have : accepted { m with threads := m.threads ++ [Thread.enter id call] } = m.accepted := by
      funext i
      simp only [accepted, thread?, List.find?_append]
      cases hi : m.threads.find? fun t => t.id == i with
      | some t => rfl
      | none =>
        by_cases heq : id = i
        . simp [heq]
        . simp [heq]
    rw [this]
    exact h.shuffle
  length := by
    change m.outbound.length = _
    rw [h.length, total_append, Thread.accepted_enter]
    rfl
  written := by
    rw [completed, total_append, Thread.completed_enter]
    exact h.written

theorem Balanced.replace {conn : Conn} {engine : σ × List EngineCall} {chunk : Bytes} (h : m.Balanced)
    (ht : m.thread? t.id = some t) (hid : u.id = t.id) (haccounted : u.Accounted)
    (haccepted : u.accepted = t.accepted ++ chunk)
    (hstream : EngineCall.stream engine.2 = m.outbound ++ chunk)
    (hcompleted : t.completed = 0) (hwritten : conn.bytesWritten = countUp m.conn.bytesWritten u.completed)
    : Balanced ({ m with conn, engine }.setThread u) where
  distinct := by
    rw [ids_setThread]
    exact h.distinct
  accounted := by
    intro v hv
    rcases mem_setThread hv with rfl | ⟨hv, _⟩
    . exact haccounted
    . exact h.accounted v hv
  shuffle := by
    change Shuffle _ (EngineCall.stream engine.2)
    rw [hstream]
    apply h.shuffle.append t.id chunk
    . have := thread?_setThread_self (m := { m with conn, engine }) (t := u) (u := t)
        (by rw [hid]; exact ht)
      rw [hid] at this
      rw [accepted, accepted, this, ht]
      exact haccepted
    . intro i hi
      rw [← hid] at hi
      rw [accepted, thread?_setThread_of_ne hi]
      rfl
  length := by
    have hsum := total_setThread (m := { m with conn, engine }) (fun v => v.accepted.length) h.distinct
      (of_thread? ht).1 hid
    change (EngineCall.stream engine.2).length = _
    rw [hstream, List.length_append, h.length]
    rw [haccepted, List.length_append] at hsum
    have hold : total (fun v => v.accepted.length) { m with conn, engine } = m.total fun v => v.accepted.length := rfl
    omega
  written := by
    have hsum := total_setThread (m := { m with conn, engine }) Thread.completed h.distinct
      (of_thread? ht).1 hid
    have hsum : completed ({ m with conn, engine }.setThread u) = m.completed + u.completed := by
      rw [hcompleted] at hsum
      exact hsum
    change conn.bytesWritten = _
    rw [hsum, hwritten, h.written, countUp_countUp]

theorem outbound_request (E : Engine σ) (m : Monitor (σ × List EngineCall)) (r : Request)
    : (m.request E.recorded r).monitor.outbound = m.outbound := by
  cases r with
  | close =>
    simp only [request, close, Conn.close]
    repeat' split
    all_goals simp_all [broadcast, outbound, EngineCall.stream, EngineCall.handedOver]
  | setDeadline scope deadline =>
    cases scope with
    | both => rfl
    | one direction => cases direction <;> rfl
  | remoteAddr =>
    simp only [request, Conn.remoteAddr]
    split <;> simp [outbound, EngineCall.stream, EngineCall.handedOver]
  | localAddr =>
    simp only [request, Conn.ownAddr]
    split <;> simp [outbound, EngineCall.stream, EngineCall.handedOver]
  | stats => rfl
  | phase => rfl
  | buffered => rfl

theorem stream_read (E : Engine σ) (len : Nat) (now : Instant) (c : Conn) (s : σ × List EngineCall)
    : EngineCall.stream (c.read E.recorded len now s).2.2.2 = EngineCall.stream s.2 := by
  simp only [Conn.read, Conn.hintDrained]
  split <;> simp [EngineCall.stream, EngineCall.handedOver]

theorem written_finishWrite (m : Monitor σ) (t : Thread) (error : Option StreamError) (engine : σ)
    (events : List Log.Event)
    : (m.finishWrite t error engine events).conn.bytesWritten =
      countUp m.conn.bytesWritten (m.finishWrite t error engine events).thread.completed :=
  rfl

theorem chunk_writeRound (E : Engine σ) {data : Bytes} (h : t.Accounted) (hcall : t.call = .write data)
    (hmax : m.conn.bytesWritten ≤ maxCount)
    : let r := m.writeRound E.recorded now t
      ∃ chunk, EngineCall.stream r.engine.2 = m.outbound ++ chunk ∧ r.thread.Accounted ∧
        r.thread.accepted = t.accepted ++ chunk ∧
        r.conn.bytesWritten = countUp m.conn.bytesWritten r.thread.completed := by
  dsimp only
  rcases writeRound_cases E.recorded now m t with ⟨error, _, _, hround⟩ | ⟨_, _, _, hround⟩
  . -- the call ends without an offer
    rw [hround]
    have haccounted : (m.finishWrite t error m.engine []).thread.Accounted := by
      apply h.handOver (n := 0) hcall (Nat.zero_le _)
      intro outcome houtcome
      injection houtcome with houtcome
      exact ⟨error, houtcome.symm⟩
    refine ⟨[], (List.append_nil _).symm, haccounted, ?_, written_finishWrite ..⟩
    exact h.accepted_handOver (n := 0) hcall haccounted
  . rw [hround]
    dsimp only
    have hn : min (E.recorded.write t.rest m.engine).1 t.rest.length ≤ t.rest.length := Nat.min_le_right ..
    have hstream : EngineCall.stream (E.recorded.write t.rest m.engine).2.2 = m.outbound ++
        t.rest.take (min (E.recorded.write t.rest m.engine).1 t.rest.length) := by
      rw [Engine.recorded_write_calls, EngineCall.stream_append, ← List.take_eq_take_min]
      simp [outbound, EngineCall.stream, EngineCall.handedOver, Engine.recorded]
    generalize min (E.recorded.write t.rest m.engine).1 t.rest.length = n at hn hstream ⊢
    refine ⟨t.rest.take n, ?_⟩
    split
    . -- all is handed over, and counted
      have haccounted : (m.finishWrite (t.handOver n) none (E.recorded.write t.rest m.engine).2
          (offerEvents (m.conn.offer E.recorded t.rest now m.engine).1)).thread.Accounted := by
        apply h.handOver hcall hn
        intro outcome houtcome
        injection houtcome with houtcome
        exact ⟨none, houtcome.symm⟩
      exact ⟨hstream, haccounted, h.accepted_handOver hcall haccounted, written_finishWrite ..⟩
    . -- the call goes on, and nothing is counted yet
      have haccounted : Thread.Accounted
          { t.handOver n with status := if n = 0 then .asleep else .holding } := by
        apply h.handOver hcall hn
        intro outcome houtcome
        split at houtcome <;> contradiction
      refine ⟨hstream, haccounted, h.accepted_handOver hcall haccounted, ?_⟩
      have hzero : Thread.completed { t.handOver n with status := if n = 0 then .asleep else .holding } = 0 := by
        apply Thread.completed_of_outcome?_eq_none
        by_cases hzero : n = 0 <;> simp [hzero, Thread.outcome?]
      exact (countUp_zero hmax).symm.trans (congrArg _ hzero.symm)

theorem chunk_round (E : Engine σ) (now : Instant) (h : t.Accounted) (hmax : m.conn.bytesWritten ≤ maxCount)
    : let r := m.round E.recorded now t
      ∃ chunk, EngineCall.stream r.engine.2 = m.outbound ++ chunk ∧ r.thread.Accounted ∧
        r.thread.accepted = t.accepted ++ chunk ∧
        r.conn.bytesWritten = countUp m.conn.bytesWritten r.thread.completed := by
  dsimp only
  cases hcall : t.call with
  | write data =>
    rw [round_of_write hcall]
    exact chunk_writeRound E h hcall hmax
  | awaitConnect =>
    obtain ⟨haccounted, haccepted, hcompleted⟩ := h.settle t.buffer (m.connectRound t).thread.status
      (by simp [hcall]) (by unfold connectRound; cases m.conn.connectResult <;> simp)
    rw [round_of_connect hcall]
    refine ⟨[], (List.append_nil _).symm, haccounted, haccepted.trans (List.append_nil _).symm, ?_⟩
    exact (countUp_zero hmax).symm.trans (congrArg _ hcompleted.symm)
  | readInto buffer =>
    obtain ⟨hconn, hengine, hthread⟩ := readRound_cases E.recorded now m t buffer.length
    have hstatus : ∀ w, (m.readRound E.recorded now t buffer.length).thread.status ≠ .returned (.write w) := by
      rw [hthread]
      dsimp only
      split <;> simp
    obtain ⟨haccounted, haccepted, hcompleted⟩ :=
      h.settle (m.readRound E.recorded now t buffer.length).thread.buffer _ (by simp [hcall]) hstatus
    rw [round_of_read hcall]
    rw [hthread] at haccounted haccepted hcompleted ⊢
    rw [hconn, hengine]
    refine ⟨[], ?_, haccounted, haccepted.trans (List.append_nil _).symm, ?_⟩
    . rw [stream_read, List.append_nil]
      rfl
    . exact (countUp_zero hmax).symm.trans (congrArg _ hcompleted.symm)

theorem Balanced.step (h : m.Balanced) (hs : m.step E.recorded now a = some s) : s.monitor.Balanced := by
  cases a with
  | enter id call =>
    obtain ⟨hid, rfl⟩ := of_enter_eq_some hs
    exact h.enter hid
  | run id =>
    obtain ⟨t, ht, hmay, rfl⟩ := of_run_eq_some hs
    obtain ⟨hmem, rfl⟩ := of_thread? ht
    have hmax : m.conn.bytesWritten ≤ maxCount := by
      rw [h.written]
      apply countUp_le_maxCount
    obtain ⟨chunk, hstream, haccounted, haccepted, hwritten⟩ :=
      chunk_round E now (h.accounted t hmem) hmax
    have hcompleted : t.completed = 0 := by
      apply Thread.completed_of_outcome?_eq_none
      exact outcome?_of_mayRun hmay
    exact h.replace ht id_round haccounted haccepted hstream hcompleted hwritten
  | stir id =>
    obtain ⟨t, ht, hasleep, rfl⟩ := of_stir_eq_some hs
    obtain ⟨hmem, rfl⟩ := of_thread? ht
    have hcompleted : t.completed = 0 := by
      apply Thread.completed_of_outcome?_eq_none
      simp [Thread.outcome?, Thread.isAsleep_iff.1 hasleep]
    have hmax : m.conn.bytesWritten ≤ maxCount := by
      rw [h.written]
      apply countUp_le_maxCount
    have haccepted : t.signal.accepted = t.accepted ++ [] := by rw [Thread.accepted_signal, List.append_nil]
    have hstream : EngineCall.stream m.engine.2 = m.outbound ++ [] := (List.append_nil _).symm
    have hwritten : m.conn.bytesWritten = countUp m.conn.bytesWritten t.signal.completed := by
      rw [Thread.completed_signal, hcompleted, countUp_zero hmax]
    exact h.replace ht t.id_signal (h.accounted t hmem).signal haccepted hstream hcompleted hwritten
  | request r =>
    obtain ⟨_, rfl⟩ := of_locked_eq_some hs
    have houtbound := outbound_request E m r
    obtain ⟨_, _, hwritten⟩ := counters_request E.recorded m r
    rcases monitor_request E.recorded m r with ⟨conn, engine, hm⟩ | ⟨conn, engine, _, hm⟩
    . rw [hm] at houtbound hwritten ⊢
      apply Balanced.broadcast
      exact h.of_threads_eq rfl houtbound hwritten
    . rw [hm] at houtbound hwritten ⊢
      exact h.of_threads_eq rfl houtbound hwritten
  | upcall u =>
    obtain ⟨_, rfl⟩ := of_locked_eq_some hs
    obtain ⟨_, _, hwritten⟩ := counters_upcall m u
    rcases monitor_upcall m u with ⟨conn, hm⟩ | hm
    . rw [hm] at hwritten ⊢
      apply Balanced.broadcast
      exact h.of_threads_eq rfl rfl hwritten
    . rw [hm]
      exact h
  | alarm =>
    obtain ⟨_, rfl⟩ := of_locked_eq_some hs
    exact h.broadcast
  | grant n =>
    cases hs
    exact h.of_threads_eq rfl rfl rfl

theorem RecordedRun.balanced {label : String} {engine : σ} {trace : List (Moment (σ × List EngineCall))}
    (run : RecordedRun E label engine trace m)
    : m.Balanced :=
  Run.invariant run (Balanced.init E label engine) Balanced.step

theorem Balanced.completed_add_underway (h : m.Balanced)
    : m.completed + m.underway = m.outbound.length := by
  rw [h.length]
  apply total_add
  intro t ht
  exact (h.accounted t ht).completed_add_underway

/--
What the engine has accepted is a shuffle of the front parts of what the writers were given. The counter of
written bytes is what the finished writes have returned, and together with what the writes under way have got
rid of it is all that the engine has accepted.
-/
theorem RecordedRun.output_accounted {label : String} {engine : σ}
    {trace : List (Moment (σ × List EngineCall))} (run : RecordedRun E label engine trace m)
    : (m.threads.map Thread.id).Nodup ∧
      Shuffle m.accepted m.outbound ∧
      (∀ t ∈ m.threads, ∀ data, t.call = .write data →
        m.accepted t.id = data.take t.progress ∧ t.progress ≤ data.length) ∧
      m.conn.bytesWritten = min m.completed maxCount ∧
      (m.completed ≤ maxCount → m.conn.bytesWritten + m.underway = m.outbound.length) := by
  have h := run.balanced
  have hwritten : m.conn.bytesWritten = min m.completed maxCount := by
    rw [h.written, countUp, Nat.zero_add]
  refine ⟨h.distinct, h.shuffle, ?_, hwritten, ?_⟩
  . intro t ht data hcall
    have haccounted := h.accounted t ht
    have hprogress := haccounted.progress_eq
    constructor
    . rw [accepted, thread?_of_mem h.distinct ht]
      dsimp only
      rw [Thread.accepted, hcall]
    . unfold Thread.Accounted at haccounted
      rw [hcall] at haccounted
      rw [hprogress]
      exact haccounted.1
  . intro hmax
    have := h.completed_add_underway
    omega

/--
Two writers take turns on an engine that takes one byte, then nothing, then claims more than it was offered.
One of them has returned, and the other one has got rid of two of its three bytes.
-/
theorem interleaved_output_accounted
    : ∃ trace m, RecordedRun Scripted.engine "a" { replies := [1, 0, 9, 1] } trace m ∧
        Shuffle m.accepted [1, 2, 3, 4] ∧ m.accepted 0 = [1, 4] ∧ m.accepted 1 = [2, 3] ∧
        m.conn.bytesWritten = min m.completed maxCount ∧ m.completed = 2 ∧ m.underway = 2 := by
  have run : RecordedRun Scripted.engine "a" { replies := [1, 0, 9, 1] } _ _ := Run.of_replay
    [(0, .enter 0 (.write [1, 4, 5])), (0, .enter 1 (.write [2, 3])), (1, .run 0), (1, .run 0),
      (2, .run 1), (3, .upcall .writable), (4, .run 0)] rfl
  have h := RecordedRun.output_accounted run
  exact ⟨_, _, run, h.2.1, rfl, rfl, h.2.2.2.1, rfl, rfl⟩

end Monitor

end BlockingStream

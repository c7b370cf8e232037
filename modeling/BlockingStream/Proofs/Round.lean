import BlockingStream.Proofs.Attempt

/-!
This module contains what a thread does in its round, and how the threads of a connection are found, replaced
and counted. A thread goes to sleep only in its own round, and only if nothing it waits for has happened.
-/

namespace BlockingStream

namespace Thread

@[simp]
theorem id_enter (id : Nat) (call : Call) : (enter id call).id = id := by
  cases call <;> rfl

@[simp]
theorem status_enter (id : Nat) (call : Call) : (enter id call).status = .ready := by
  cases call <;> rfl

@[simp]
theorem call_enter (id : Nat) (call : Call) : (enter id call).call = call := by
  cases call <;> rfl

@[simp]
theorem call_signal (t : Thread) : t.signal.call = t.call := by
  unfold signal
  split <;> rfl

@[simp]
theorem buffer_signal (t : Thread) : t.signal.buffer = t.buffer := by
  unfold signal
  split <;> rfl

@[simp]
theorem taken_signal (t : Thread) : t.signal.taken = t.taken := by
  unfold signal
  split <;> rfl

@[simp]
theorem rest_signal (t : Thread) : t.signal.rest = t.rest := by
  unfold signal
  split <;> rfl

theorem isAsleep_iff {t : Thread} : t.isAsleep = true ↔ t.status = .asleep := by
  unfold isAsleep
  cases t.status <;> simp

theorem outcome?_eq_some_iff {t : Thread} {outcome : Outcome}
    : t.outcome? = some outcome ↔ t.status = .returned outcome := by
  unfold outcome?
  cases t.status <;> simp

/--
The thread is where it was in its call, though it may have been signalled.
-/
structure Stays (t t' : Thread) : Prop where
  call : t'.call = t.call
  buffer : t'.buffer = t.buffer
  taken : t'.taken = t.taken
  rest : t'.rest = t.rest
  outcome? : t'.outcome? = t.outcome?

theorem Stays.refl (t : Thread) : t.Stays t := ⟨rfl, rfl, rfl, rfl, rfl⟩

theorem stays_signal (t : Thread) : t.Stays t.signal where
  call := t.call_signal
  buffer := t.buffer_signal
  taken := t.taken_signal
  rest := t.rest_signal
  outcome? := t.outcome?_signal

def handOver (n : Nat) (t : Thread) : Thread :=
  { t with taken := t.taken + n, rest := t.rest.drop n }

end Thread

namespace Monitor

variable {σ : Type} {E : Engine σ} {m : Monitor σ} {t u : Thread} {now : Instant}

theorem of_thread? {id : Nat} (h : m.thread? id = some t) : t ∈ m.threads ∧ t.id = id := by
  constructor
  . exact List.mem_of_find?_eq_some h
  . simpa using List.find?_some h

theorem thread?_eq_none_iff {id : Nat} : m.thread? id = none ↔ ∀ u ∈ m.threads, u.id ≠ id := by
  simp [thread?]

theorem thread?_of_mem (hdistinct : (m.threads.map Thread.id).Nodup)
    (ht : t ∈ m.threads)
    : m.thread? t.id = some t := by
  unfold thread?
  generalize m.threads = threads at hdistinct ht
  induction threads with
  | nil => contradiction
  | cons u rest ih =>
    rw [List.map_cons, List.nodup_cons] at hdistinct
    rcases List.mem_cons.1 ht with rfl | ht
    . simp
    . have hne : u.id ≠ t.id := by
        intro heq
        apply hdistinct.1
        rw [heq]
        exact List.mem_map_of_mem ht
      have hskip : (u.id == t.id) = false := by simp [hne]
      rw [List.find?_cons, hskip]
      exact ih hdistinct.2 ht

theorem mem_setThread (h : u ∈ (m.setThread t).threads) : u = t ∨ (u ∈ m.threads ∧ u.id ≠ t.id) := by
  simp only [setThread, List.mem_map] at h
  obtain ⟨v, hv, rfl⟩ := h
  split
  . exact Or.inl rfl
  . next hne => exact Or.inr ⟨hv, hne⟩

@[simp]
theorem ids_setThread : (m.setThread t).threads.map Thread.id = m.threads.map Thread.id := by
  simp only [setThread, List.map_map, List.map_inj_left, Function.comp_apply]
  intro u _
  split
  . next h => exact h.symm
  . rfl

@[simp]
theorem ids_broadcast : m.broadcast.threads.map Thread.id = m.threads.map Thread.id := by
  simp [broadcast, Function.comp_def]

theorem thread?_broadcast (m : Monitor σ) (id : Nat)
    : m.broadcast.thread? id = (m.thread? id).map Thread.signal := by
  have hcomp : ((fun t : Thread => t.id == id) ∘ Thread.signal) = fun t => t.id == id := by
    funext t
    simp
  unfold thread? broadcast
  rw [List.find?_map, hcomp]

theorem thread?_setThread_self (h : m.thread? t.id = some u) : (m.setThread t).thread? t.id = some t := by
  unfold thread? setThread at *
  rw [List.find?_map]
  have hcomp : ((fun v : Thread => v.id == t.id) ∘ fun v => if v.id = t.id then t else v)
      = fun v => v.id == t.id := by
    funext v
    by_cases hv : v.id = t.id <;> simp [hv]
  rw [hcomp, h]
  have := (of_thread? (m := m) h).2
  simp [this]

theorem thread?_setThread_of_ne {id : Nat} (h : id ≠ t.id) : (m.setThread t).thread? id = m.thread? id := by
  have hcomp : ((fun v : Thread => v.id == id) ∘ fun v => if v.id = t.id then t else v)
      = fun v => v.id == id := by
    funext v
    by_cases hv : v.id = t.id
    . simp [hv]
    . simp [hv]
  unfold thread? setThread
  rw [List.find?_map, hcomp]
  cases hfound : m.threads.find? fun v => v.id == id with
  | none => rfl
  | some v =>
    have hv : v.id = id := by simpa using List.find?_some hfound
    have hne : ¬ v.id = t.id := by
      rw [hv]
      exact h
    simp [hne]

def total (f : Thread → Nat) (m : Monitor σ) : Nat := m.threads.foldr (fun t n => f t + n) 0

theorem total_broadcast {f : Thread → Nat} (h : ∀ t, f t.signal = f t) : m.broadcast.total f = m.total f := by
  unfold total broadcast
  induction m.threads with
  | nil => rfl
  | cons t rest ih =>
    dsimp only at ih
    rw [List.map_cons, List.foldr_cons, ih, h]
    rfl

theorem total_append (f : Thread → Nat) (m : Monitor σ) (t : Thread)
    : total f { m with threads := m.threads ++ [t] } = m.total f + f t := by
  unfold total
  dsimp only
  induction m.threads with
  | nil => exact Nat.add_comm _ _
  | cons u rest ih =>
    rw [List.cons_append, List.foldr_cons, ih]
    exact (Nat.add_assoc _ _ _).symm

theorem total_add {f g k : Thread → Nat} (h : ∀ t ∈ m.threads, f t + g t = k t)
    : m.total f + m.total g = m.total k := by
  unfold total
  generalize m.threads = threads at h
  induction threads with
  | nil => rfl
  | cons t rest ih =>
    rw [List.forall_mem_cons] at h
    have hrest := ih h.2
    have hhead := h.1
    simp only [List.foldr_cons]
    omega

theorem total_setThread (f : Thread → Nat) (hdistinct : (m.threads.map Thread.id).Nodup)
    (ht : t ∈ m.threads) (hid : u.id = t.id)
    : (m.setThread u).total f + f t = m.total f + f u := by
  unfold total setThread
  dsimp only
  rw [hid]
  generalize m.threads = threads at hdistinct ht
  induction threads with
  | nil => contradiction
  | cons v rest ih =>
    rw [List.map_cons, List.nodup_cons] at hdistinct
    by_cases hv : v.id = t.id
    . -- the thread is here, and so nowhere else
      have hrest : ∀ w ∈ rest, w.id ≠ t.id := by
        intro w hw heq
        apply hdistinct.1
        rw [hv, ← heq]
        exact List.mem_map_of_mem hw
      have hvt : v = t := by
        rcases List.mem_cons.1 ht with h | h
        . exact h.symm
        . exact absurd rfl (hrest t h)
      have hsame : (rest.map fun w => if w.id = t.id then u else w) = rest.map id := by
        apply List.map_congr_left
        intro w hw
        simp [hrest w hw]
      rw [List.map_id] at hsame
      simp only [List.map_cons, if_true, hsame, List.foldr_cons, hvt]
      omega
    . have hmem : t ∈ rest := by
        rcases List.mem_cons.1 ht with h | h
        . rw [h] at hv
          exact absurd rfl hv
        . exact h
      have := ih hdistinct.2 hmem
      simp only [List.map_cons, hv, if_false, List.foldr_cons]
      omega

/-!
What a thread does in its round.
-/

theorem outcome?_of_mayRun (h : m.mayRun t = true)
    : t.outcome? = none := by
  unfold mayRun Thread.isHolding Thread.isReady at h
  unfold Thread.outcome?
  cases hstatus : t.status <;> simp_all

theorem writeRound_cases (E : Engine σ) (now : Instant) (m : Monitor σ) (t : Thread)
    : (∃ error, (t.rest = [] ∨ error ≠ none) ∧
        (error = m.conn.writeError now ∨
          m.conn.writeError now = none ∧ m.conn.attached = false ∧ error = some .destroyed) ∧
        m.writeRound E now t = m.finishWrite t error m.engine []) ∨
      (t.rest ≠ [] ∧ m.conn.writeError now = none ∧ m.conn.attached = true ∧
        m.writeRound E now t =
          let n := min (E.write t.rest m.engine).1 t.rest.length
          let engine := (E.write t.rest m.engine).2
          let events := offerEvents (m.conn.offer E t.rest now m.engine).1
          if n = t.rest.length then m.finishWrite (t.handOver n) none engine events
          else
            { thread := { t.handOver n with status := if n = 0 then .asleep else .holding }
              conn := m.conn, engine, events }) := by
  by_cases hrest : t.rest = []
  . -- a write of nothing only asks for the error
    left
    refine ⟨m.conn.writeError now, Or.inl hrest, Or.inl rfl, ?_⟩
    simp [writeRound, hrest]
  . have hempty : t.rest.isEmpty = false := by simp [hrest]
    rcases Conn.offer_cases E t.rest hrest now m.conn m.engine with h | h | h
    . left
      obtain ⟨e, herror, hoffer⟩ := h
      refine ⟨some e, Or.inr (by simp), Or.inl herror.symm, ?_⟩
      simp [writeRound, hempty, hoffer, Conn.Offer.error?, Conn.Offer.count, offerEvents]
    . -- an engine that is gone counts as destroyed
      left
      obtain ⟨herror, hattached, hoffer⟩ := h
      refine ⟨some .destroyed, Or.inr (by simp), Or.inr ⟨herror, hattached, rfl⟩, ?_⟩
      simp [writeRound, hempty, hoffer, Conn.Offer.error?, Conn.Offer.count, offerEvents]
    . right
      obtain ⟨herror, hattached, hnone, hcount, hengine⟩ := h
      refine ⟨hrest, herror, hattached, ?_⟩
      have hlen : 0 < t.rest.length := List.length_pos_iff.2 hrest
      simp only [writeRound, hempty, hnone, hcount, hengine, Bool.false_eq_true, if_false,
        List.isEmpty_iff, List.drop_eq_nil_iff]
      by_cases hall : min (E.write t.rest m.engine).1 t.rest.length = t.rest.length
      . simp [hall, Thread.handOver]
      . have hpart : ¬ t.rest.length ≤ min (E.write t.rest m.engine).1 t.rest.length := by omega
        simp only [hall, hpart, if_false, Thread.handOver]
        split <;> rfl

theorem readRound_cases (E : Engine σ) (now : Instant) (m : Monitor σ) (t : Thread) (len : Nat)
    : (m.readRound E now t len).conn = (m.conn.read E len now m.engine).2.1 ∧
      (m.readRound E now t len).engine = (m.conn.read E len now m.engine).2.2 ∧
      (m.readRound E now t len).thread =
        let d := (m.conn.read E len now m.engine).1
        { t with
          buffer := d.fill t.buffer
          status := if d.data = [] ∧ len ≠ 0 ∧ d.error = none then .asleep else .returned (.read d) } := by
  rcases hread : m.conn.read E len now m.engine with ⟨d, conn, engine⟩
  have hcond : (!d.data.isEmpty || len == 0 || d.error.isSome) = true ↔
      ¬ (d.data = [] ∧ len ≠ 0 ∧ d.error = none) := by
    cases d.data <;> cases d.error <;> simp
  unfold readRound
  simp only [hread, hcond]
  by_cases h : d.data = [] ∧ len ≠ 0 ∧ d.error = none
  . simp [h]
  . simp [h]

theorem round_of_connect (h : t.call = .awaitConnect) : m.round E now t = m.connectRound t := by
  simp [round, h]

theorem round_of_read {buffer : Bytes} (h : t.call = .readInto buffer)
    : m.round E now t = m.readRound E now t buffer.length := by
  simp [round, h]

theorem round_of_write {data : Bytes} (h : t.call = .write data) : m.round E now t = m.writeRound E now t := by
  simp [round, h]

theorem frame_round (E : Engine σ) (now : Instant) (m : Monitor σ) (t : Thread)
    : (m.round E now t).thread.id = t.id ∧ (m.round E now t).thread.call = t.call := by
  cases hcall : t.call with
  | awaitConnect =>
    rw [round_of_connect hcall]
    exact ⟨rfl, hcall⟩
  | readInto buffer =>
    rw [round_of_read hcall, (readRound_cases E now m t buffer.length).2.2]
    exact ⟨rfl, hcall⟩
  | write data =>
    rw [round_of_write hcall]
    rcases writeRound_cases E now m t with ⟨_, _, _, hround⟩ | ⟨_, _, _, hround⟩
    . rw [hround]
      exact ⟨rfl, hcall⟩
    . rw [hround]
      dsimp only
      split <;> exact ⟨rfl, hcall⟩

@[simp]
theorem id_round : (m.round E now t).thread.id = t.id :=
  (frame_round E now m t).1

@[simp]
theorem call_round : (m.round E now t).thread.call = t.call :=
  (frame_round E now m t).2

theorem conn_writeRound (E : Engine σ) (now : Instant) (m : Monitor σ) (t : Thread)
    : (m.writeRound E now t).conn = m.conn ∨
      ∃ n, (m.writeRound E now t).conn = m.conn.recordWritten n := by
  rcases writeRound_cases E now m t with ⟨error, _, _, h⟩ | ⟨_, _, _, h⟩
  . rw [h]
    exact Or.inr ⟨t.taken, rfl⟩
  . rw [h]
    dsimp only
    split
    . exact Or.inr ⟨_, rfl⟩
    . exact Or.inl rfl

theorem outcome?_writeRound (E : Engine σ) (now : Instant) (m : Monitor σ) (t : Thread)
    : (m.writeRound E now t).thread.outcome? = none ∨
      ∃ w, (m.writeRound E now t).thread.outcome? = some (.write w) := by
  rcases writeRound_cases E now m t with ⟨error, _, _, h⟩ | ⟨_, _, _, h⟩
  . rw [h]
    exact Or.inr ⟨_, rfl⟩
  . rw [h]
    dsimp only
    split
    . exact Or.inr ⟨_, rfl⟩
    . left
      split <;> rfl

theorem calm_round (E : Engine σ) (now : Instant) (m : Monitor σ) (t : Thread)
    : m.conn.Calm (m.round E now t).conn := by
  cases hcall : t.call with
  | awaitConnect =>
    rw [round_of_connect hcall]
    exact Conn.Calm.refl m.conn
  | readInto buffer =>
    rw [round_of_read hcall, (readRound_cases E now m t buffer.length).1]
    apply Conn.calm_read
  | write data =>
    rw [round_of_write hcall]
    rcases conn_writeRound E now m t with h | ⟨n, h⟩
    . rw [h]
      exact Conn.Calm.refl m.conn
    . rw [h]
      apply Conn.calm_recordWritten

/--
Whoever goes to sleep has nothing to return, and its deadline has not passed.
-/
theorem blocks_of_round_asleep (h : (m.round E now t).thread.isAsleep = true)
    : m.conn.Blocks t.call ∧
      ∀ d, t.call.direction? = some d → deadlinePassed (m.conn.deadline d) now = false := by
  rw [Thread.isAsleep_iff] at h
  cases hcall : t.call with
  | awaitConnect =>
    rw [round_of_connect hcall] at h
    have hnone : m.conn.connectResult = none := by
      unfold connectRound at h
      cases hresult : m.conn.connectResult with
      | none => rfl
      | some result => simp [hresult] at h
    exact ⟨Conn.connectResult_eq_none_iff.1 hnone, by simp [Call.direction?]⟩
  | readInto buffer =>
    rw [round_of_read hcall, (readRound_cases E now m t buffer.length).2.2] at h
    simp only at h
    split at h
    . next hidle =>
      have := Conn.blocks_of_read hidle.2.1 hidle.1 hidle.2.2
      refine ⟨this.1, ?_⟩
      intro d hd
      cases hd
      exact this.2
    . simp at h
  | write data =>
    rw [round_of_write hcall] at h
    rcases writeRound_cases E now m t with ⟨_, _, _, hround⟩ | ⟨_, herror, _, hround⟩
    . rw [hround] at h
      simp [finishWrite] at h
    . have := Conn.commonError_eq_none_iff.1 herror
      refine ⟨⟨this.1, this.2.1, this.2.2.1, trivial⟩, ?_⟩
      intro d hd
      cases hd
      exact this.2.2.2

@[simp]
theorem busy_broadcast (m : Monitor σ) : m.broadcast.busy = m.busy := by
  simp [busy, broadcast, Function.comp_def]

theorem outcome?_of_not_busy (h : m.busy = false) (ht : t ∈ m.threads) : t.outcome? ≠ none := by
  intro hnone
  rw [busy, List.any_eq_false] at h
  apply h t ht
  rw [hnone]
  rfl

theorem isAsleep_of_not_busy (h : m.busy = false) (ht : t ∈ m.threads) : t.isAsleep = false := by
  have := outcome?_of_not_busy h ht
  unfold Thread.outcome? at this
  unfold Thread.isAsleep
  cases hstatus : t.status <;> simp_all

theorem lockFree_of_not_busy (h : m.busy = false) : m.lockFree = true := by
  rw [lockFree, List.all_eq_true]
  intro t ht
  have hreturned := outcome?_of_not_busy h ht
  rw [Bool.not_eq_true']
  unfold Thread.outcome? at hreturned
  unfold Thread.isHolding
  cases hstatus : t.status with
  | holding =>
    rw [hstatus] at hreturned
    contradiction
  | _ => rfl

theorem error?_round_of_deadline {d : Direction} {due : Instant} (E : Engine σ) (hblocks : m.conn.Blocks t.call)
    (hd : t.call.direction? = some d) (hdue : m.conn.deadline d = some due) (hnow : due ≤ now)
    : ∃ outcome, (m.round E now t).thread.outcome? = some outcome ∧
        outcome.error? = some .deadlineExceeded := by
  -- nothing that weighs more than the deadline has happened
  obtain ⟨hfailure, hdestroyed, hclosed, hcall⟩ := hblocks
  cases hkind : t.call with
  | awaitConnect => simp [hkind, Call.direction?] at hd
  | readInto buffer =>
    rw [hkind] at hd hcall
    cases hd
    have hdeadline : m.conn.readDeadline = some due := hdue
    have herror : (m.conn.read E buffer.length now m.engine).1.error = some .deadlineExceeded := by
      simp [Conn.read, Conn.readError, Conn.commonError, hcall.2, hfailure, hdestroyed, hclosed, hdeadline, hnow]
    refine ⟨.read (m.conn.read E buffer.length now m.engine).1, ?_, herror⟩
    rw [round_of_read hkind, (readRound_cases E now m t buffer.length).2.2]
    simp [herror, Thread.outcome?]
  | write data =>
    rw [hkind] at hd
    cases hd
    have hdeadline : m.conn.writeDeadline = some due := hdue
    have herror : m.conn.writeError now = some .deadlineExceeded := by
      simp [Conn.writeError, Conn.commonError, hfailure, hdestroyed, hclosed, hdeadline, hnow]
    rw [round_of_write hkind]
    rcases writeRound_cases E now m t with ⟨error, _, horigin, hcases⟩ | ⟨_, hnone, _, _⟩
    . rw [hcases]
      refine ⟨.write ⟨t.taken, error⟩, rfl, ?_⟩
      rcases horigin with rfl | ⟨hnone, _, _⟩
      . exact herror
      . rw [hnone] at herror
        contradiction
    . rw [hnone] at herror
      contradiction

end Monitor

end BlockingStream

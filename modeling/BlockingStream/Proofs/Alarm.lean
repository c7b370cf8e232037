import BlockingStream.Proofs.Midway

/-!
This module contains what the alarms of a single connection have to do with its deadlines and its sleepers.

An alarm that is not being reset is queued for the deadline of its direction as long as this deadline lies
ahead. A thread goes to sleep only under a deadline that lies ahead, and when the worker takes its entry, it
sleeps no longer than until the entry fires.
-/

namespace BlockingStream

namespace Connection

variable {σ : Type} {E : Engine σ} {c c' : Connection σ} {service service' : Timer.Service Nat}
  {clock clock' : Instant} {owed : List AlarmRequest} {i j : Nat} {d : Direction} {due : Instant}
  {r : AlarmRequest} {k : Timer.Key}

def Queued (service : Timer.Service Nat) (i : Nat) (c : Connection σ) (d : Direction) (due : Instant) : Prop :=
  ∃ k, c.key d = some k ∧ k.deadline = due ∧ (k, i) ∈ service.queue.entries

def Taken (service : Timer.Service Nat) (i : Nat) (c : Connection σ) (d : Direction) (due : Instant) : Prop :=
  ∃ k, c.key d = some k ∧ k.deadline = due ∧ (k, i) ∈ service.batch

/--
The alarms of connection `i` stand as its deadlines ask, apart from those that are still to be reset.
-/
structure Sound (service : Timer.Service Nat) (clock : Instant) (owed : List AlarmRequest) (i : Nat)
    (c : Connection σ) : Prop where
  -- an alarm that is still to be reset will be set to its deadline
  owes : c.monitor.conn.closed = false → ∀ r ∈ owed, r.deadline = c.monitor.conn.deadline r.direction
  -- every other one is, unless the worker has taken its entry in time
  armed : c.monitor.conn.closed = false → ∀ d due, c.monitor.conn.deadline d = some due →
    (∀ r ∈ owed, r.direction ≠ d) → c.Queued service i d due ∨ due ≤ clock
  -- nobody sleeps while somebody keeps the lock to reset alarms
  idle : owed ≠ [] → ∀ t ∈ c.monitor.threads, t.isAsleep = false
  -- a sleeper has nothing to report but its deadline, and its entry will wake it for that
  blocks : ∀ t ∈ c.monitor.threads, t.isAsleep = true → c.monitor.conn.Blocks t.call
  waiting : ∀ t ∈ c.monitor.threads, t.isAsleep = true → ∀ d due, t.call.direction? = some d →
    c.monitor.conn.deadline d = some due → c.Queued service i d due ∨ c.Taken service i d due
  -- a connection without a handle was closed, and nobody is inside a call
  left : c.handle = false → c.monitor.busy = false ∧ c.monitor.conn.closed = true

theorem key_congr (hread : c'.readKey = c.readKey) (hwrite : c'.writeKey = c.writeKey) : c'.key = c.key := by
  funext d
  cases d with
  | reading => exact hread
  | writing => exact hwrite

theorem Sound.of_left (hbusy : c.monitor.busy = false) (hclosed : c.monitor.conn.closed = true)
    : c.Sound service clock owed i := by
  -- nothing is asked of the alarms of a closed connection that nobody is waiting on
  have hawake : ∀ t ∈ c.monitor.threads, t.isAsleep = true → False := by
    intro t ht hasleep
    rw [Monitor.isAsleep_of_not_busy hbusy ht] at hasleep
    contradiction
  refine ⟨?_, ?_, ?_, ?_, ?_, fun _ => ⟨hbusy, hclosed⟩⟩
  . intro hopen
    rw [hclosed] at hopen
    contradiction
  . intro hopen
    rw [hclosed] at hopen
    contradiction
  . intro _ t ht
    exact Monitor.isAsleep_of_not_busy hbusy ht
  . intro t ht hasleep
    exact (hawake t ht hasleep).elim
  . intro t ht hasleep
    exact (hawake t ht hasleep).elim

theorem Sound.congr (h : c.Sound service clock owed i) (hmonitor : c'.monitor = c.monitor)
    (hkey : c'.key = c.key) (hhandle : c'.handle = c.handle)
    : c'.Sound service clock owed i where
  owes := by
    rw [hmonitor]
    exact h.owes
  armed := by
    unfold Queued
    rw [hmonitor, hkey]
    exact h.armed
  idle := by
    rw [hmonitor]
    exact h.idle
  blocks := by
    rw [hmonitor]
    exact h.blocks
  waiting := by
    unfold Queued Taken
    rw [hmonitor, hkey]
    exact h.waiting
  left := by
    rw [hmonitor, hhandle]
    exact h.left

theorem Sound.frame (h : c.Sound service clock owed i) (hclock : clock ≤ clock')
    (hqueue : ∀ d k, c.key d = some k → (k, i) ∈ service.queue.entries →
      (k, i) ∈ service'.queue.entries ∨ (k, i) ∈ service'.batch ∧ k.deadline ≤ clock')
    (hbatch : ∀ k, (k, i) ∈ service.batch → (k, i) ∈ service'.batch)
    : c.Sound service' clock' owed i where
  owes := h.owes
  armed := by
    intro hopen d due hdue hnot
    rcases h.armed hopen d due hdue hnot with ⟨k, hkey, rfl, hmem⟩ | hpast
    . rcases hqueue d k hkey hmem with hmem | ⟨_, hpast⟩
      . exact Or.inl ⟨k, hkey, rfl, hmem⟩
      . exact Or.inr hpast
    . exact Or.inr (Int.le_trans hpast hclock)
  idle := h.idle
  blocks := h.blocks
  waiting := by
    intro t ht hasleep d due hd hdue
    rcases h.waiting t ht hasleep d due hd hdue with ⟨k, hkey, rfl, hmem⟩ | ⟨k, hkey, rfl, hmem⟩
    . rcases hqueue d k hkey hmem with hmem | ⟨hmem, _⟩
      . exact Or.inl ⟨k, hkey, rfl, hmem⟩
      . exact Or.inr ⟨k, hkey, rfl, hmem⟩
    . exact Or.inr ⟨k, hkey, rfl, hbatch k hmem⟩
  left := h.left

theorem Sound.act {a : Action} {s : Step σ} (h : c.Sound service clock owed i)
    (hpermits : Host.permits c a = true) (hlock : a.needsLock = true → owed = [])
    (hs : c.monitor.step E clock a = some s)
    : Sound service clock (owed ++ s.alarms) i { c with monitor := s.monitor } := by
  have hkey : key { c with monitor := s.monitor } = c.key := key_congr rfl rfl
  have hopen_of : s.monitor.conn.closed = false → c.monitor.conn.closed = false := by
    intro hopen
    rw [← Bool.not_eq_true] at hopen ⊢
    intro hclosed
    exact hopen (Monitor.closed_of_step hs hclosed)
  refine ⟨?_, ?_, ?_, ?_, ?_, ?_⟩
  . intro hopen r hr
    rcases Monitor.alarms_of_step hs with ⟨hnone, hsame⟩ | ⟨⟨_, rfl⟩, _, _, hnew⟩
    . rw [hnone, List.append_nil] at hr
      exact (h.owes (hopen_of hopen) r hr).trans (hsame r.direction).symm
    . rw [hlock rfl, List.nil_append] at hr
      exact hnew hopen r hr
  . intro hopen d due hdue hnot
    unfold Queued
    rw [hkey]
    have hnot_owed : ∀ r ∈ owed, r.direction ≠ d := fun r hr => hnot r (List.mem_append_left _ hr)
    have hsame : s.monitor.conn.deadline d = c.monitor.conn.deadline d := by
      rcases Monitor.alarms_of_step hs with ⟨_, hsame⟩ | ⟨_, _, hkept, _⟩
      . exact hsame d
      . exact hkept d fun r hr => hnot r (List.mem_append_right _ hr)
    exact h.armed (hopen_of hopen) d due (hsame.symm.trans hdue) hnot_owed
  . intro howed t ht
    rw [← Bool.not_eq_true]
    intro hasleep
    rcases Monitor.alarms_of_step hs with ⟨hnone, _⟩ | ⟨_, hawake, _, _⟩
    . rw [hnone, List.append_nil] at howed
      rcases (Monitor.asleep_of_step hs ht hasleep).2 with ⟨hmem, _⟩ | ⟨rfl, _⟩
      . rw [h.idle howed t hmem] at hasleep
        contradiction
      . exact howed (hlock rfl)
    . rw [hawake t ht] at hasleep
      contradiction
  . intro t ht hasleep
    obtain ⟨calm, ⟨hmem, _⟩ | ⟨_, t₀, ht₀, rfl, _⟩⟩ := Monitor.asleep_of_step hs ht hasleep
    . exact calm.blocks (h.blocks t hmem hasleep)
    . apply calm.blocks
      rw [Monitor.call_round]
      exact (Monitor.blocks_of_round_asleep hasleep).1
  . intro t ht hasleep d due hd hdue
    unfold Queued Taken
    rw [hkey]
    obtain ⟨calm, ⟨hmem, _⟩ | ⟨rfl, t₀, ht₀, rfl, _⟩⟩ := Monitor.asleep_of_step hs ht hasleep
    . exact h.waiting t hmem hasleep d due hd ((calm.deadline d).symm.trans hdue)
    . -- whoever goes to sleep now has a deadline that lies ahead, and no alarm is being reset
      obtain ⟨hblocks, hahead⟩ := Monitor.blocks_of_round_asleep hasleep
      rw [Monitor.call_round] at hd
      have hdue : c.monitor.conn.deadline d = some due := (calm.deadline d).symm.trans hdue
      have hfuture := hahead d hd
      rw [hdue, ← Bool.not_eq_true, deadlinePassed_some] at hfuture
      left
      rcases h.armed hblocks.2.2.1 d due hdue (by simp [hlock rfl]) with hqueued | hpast
      . exact hqueued
      . exact absurd hpast hfuture
  . intro hhandle
    have hhandle : c.handle = false := hhandle
    obtain ⟨hbusy, hclosed⟩ := h.left hhandle
    refine ⟨Monitor.busy_of_step hs hbusy ?_, Monitor.closed_of_step hs hclosed⟩
    rintro id call rfl
    simp [Host.permits, hhandle] at hpermits

theorem Sound.opened (E : Engine σ) (label : String) (s : σ)
    : Sound service clock [] i { monitor := Monitor.init E label s, notifiers := 1 } where
  owes := by simp
  armed := by
    intro _ d due hdue
    cases d <;> contradiction
  idle := by simp
  blocks := by simp [Monitor.init]
  waiting := by simp [Monitor.init]
  left := by simp

theorem Sound.fire (h : c.Sound service clock owed i) (hqueue : service'.queue = service.queue)
    : Sound service' clock owed i { c with monitor := c.monitor.broadcast } := by
  -- once everybody is awake, nothing more is asked of the service than that the queue is as it was
  have hkey : key { c with monitor := c.monitor.broadcast } = c.key := key_congr rfl rfl
  have hawake : ∀ t ∈ c.monitor.broadcast.threads, t.isAsleep = false := by
    intro t ht
    exact Monitor.isAsleep_of_mem_broadcast ht
  refine ⟨h.owes, ?_, fun _ => hawake, ?_, ?_, ?_⟩
  . unfold Queued
    rw [hkey, hqueue]
    exact h.armed
  . intro t ht hasleep
    rw [hawake t ht] at hasleep
    contradiction
  . intro t ht hasleep
    rw [hawake t ht] at hasleep
    contradiction
  . intro hhandle
    rw [Monitor.busy_broadcast]
    exact h.left hhandle

theorem key_setKey (c : Connection σ) (d d' : Direction) (key : Option Timer.Key)
    : (c.setKey d key).key d' = if d' = d then key else c.key d' := by
  cases d <;> cases d' <;> rfl

theorem key_reset (i : Nat) (r : AlarmRequest) (c : Connection σ) (service : Timer.Service Nat) (d : Direction)
    : (c.reset i r service).1.key d =
      if d = r.direction then r.deadline.map fun due => ⟨due, service.queue.nextSeq⟩ else c.key d := by
  unfold reset
  cases r.deadline with
  | none => exact key_setKey ..
  | some due =>
    simp only [key_setKey, Timer.Service.schedule, Timer.Queue.schedule, Option.map_some]
    cases c.key r.direction <;> rfl

def withdraw (d : Direction) (c : Connection σ) (service : Timer.Service Nat) : Timer.Service Nat :=
  match c.key d with
  | some key => service.cancel key
  | none => service

theorem service_reset (i : Nat) (r : AlarmRequest) (c : Connection σ) (service : Timer.Service Nat)
    : (c.reset i r service).2 =
      match r.deadline with
      | some due => ((c.withdraw r.direction service).schedule due i).2
      | none => c.withdraw r.direction service := by
  unfold reset
  cases r.deadline <;> rfl

theorem batch_withdraw (d : Direction) (c : Connection σ) (service : Timer.Service Nat)
    : (c.withdraw d service).batch = service.batch := by
  unfold withdraw
  cases c.key d <;> rfl

theorem nextSeq_withdraw (d : Direction) (c : Connection σ) (service : Timer.Service Nat)
    : (c.withdraw d service).queue.nextSeq = service.queue.nextSeq := by
  unfold withdraw
  cases c.key d <;> rfl

theorem watchful_withdraw (h : service.Watchful) : (c.withdraw d service).Watchful := by
  unfold withdraw
  cases c.key d with
  | none => exact h
  | some key => exact h.cancel

theorem mem_withdraw (h : (k, j) ∈ service.queue.entries) (hother : c.key d ≠ some k)
    : (k, j) ∈ (c.withdraw d service).queue.entries := by
  unfold withdraw
  cases hkey : c.key d with
  | none => exact h
  | some key =>
    apply Timer.Queue.mem_cancel.2
    refine ⟨h, ?_⟩
    intro heq
    apply hother
    rw [hkey, ← heq]

theorem batch_reset (i : Nat) (r : AlarmRequest) (c : Connection σ) (service : Timer.Service Nat)
    : (c.reset i r service).2.batch = service.batch := by
  rw [service_reset]
  cases r.deadline with
  | none => exact batch_withdraw ..
  | some due =>
    dsimp only
    rw [Timer.Service.batch_schedule, batch_withdraw]

theorem nextSeq_reset (i : Nat) (r : AlarmRequest) (c : Connection σ) (service : Timer.Service Nat)
    : (c.reset i r service).2.queue.nextSeq =
      match r.deadline with
      | some _ => service.queue.nextSeq + 1
      | none => service.queue.nextSeq := by
  rw [service_reset]
  cases r.deadline with
  | none => exact nextSeq_withdraw ..
  | some due =>
    dsimp only
    rw [Timer.Service.queue_schedule, Timer.Queue.schedule, nextSeq_withdraw]

theorem watchful_reset (h : service.Watchful) : (c.reset i r service).2.Watchful := by
  rw [service_reset]
  cases r.deadline with
  | none => exact watchful_withdraw h
  | some due => exact (watchful_withdraw h).schedule

theorem mem_reset (h : (k, j) ∈ service.queue.entries) (hother : c.key r.direction ≠ some k)
    (hnew : k.seq ≠ service.queue.nextSeq)
    : (k, j) ∈ (c.reset i r service).2.queue.entries := by
  have hmem := mem_withdraw h hother
  rw [service_reset]
  cases r.deadline with
  | none => exact hmem
  | some due =>
    dsimp only
    rw [Timer.Service.queue_schedule]
    apply Timer.Queue.mem_insert_of_ne hmem
    intro heq
    apply hnew
    rw [← nextSeq_withdraw r.direction c service]
    exact congrArg Timer.Key.seq heq

theorem queued_reset (hdue : r.deadline = some due)
    : (c.reset i r service).1.Queued (c.reset i r service).2 i r.direction due := by
  refine ⟨⟨due, service.queue.nextSeq⟩, ?_, rfl, ?_⟩
  . rw [key_reset, if_pos rfl, hdue]
    rfl
  . rw [service_reset, hdue, ← nextSeq_withdraw r.direction c service]
    dsimp only
    rw [Timer.Service.queue_schedule]
    exact Timer.Queue.mem_insert_self ..

theorem queued_reset_of_ne (hd : d ≠ r.direction) (h : c.Queued service i d due)
    (hother : ∀ k, c.key d = some k → c.key r.direction ≠ some k ∧ k.seq ≠ service.queue.nextSeq)
    : (c.reset i r service).1.Queued (c.reset i r service).2 i d due := by
  obtain ⟨k, hkey, hdue, hmem⟩ := h
  obtain ⟨hne, hnew⟩ := hother k hkey
  refine ⟨k, ?_, hdue, mem_reset hmem hne hnew⟩
  rw [key_reset, if_neg hd]
  exact hkey

theorem Sound.reset_of {owed' : List AlarmRequest} (h : c.Sound service clock owed i) (howed : owed ≠ [])
    (howes : c.monitor.conn.closed = false → ∀ r' ∈ owed', r'.deadline = c.monitor.conn.deadline r'.direction)
    (harmed : c.monitor.conn.closed = false → ∀ d due, c.monitor.conn.deadline d = some due →
      (∀ r' ∈ owed', r'.direction ≠ d) →
        (c.reset i r service).1.Queued (c.reset i r service).2 i d due ∨ due ≤ clock)
    : (c.reset i r service).1.Sound (c.reset i r service).2 clock owed' i := by
  -- while an alarm is being reset nobody sleeps, so that only the entries of the alarms matter
  obtain ⟨hmonitor, hhandle, _⟩ := reset_frame i r c service
  have hawake := h.idle howed
  refine ⟨?_, ?_, ?_, ?_, ?_, ?_⟩
  . rw [hmonitor]
    exact howes
  . rw [hmonitor]
    exact harmed
  . rw [hmonitor]
    intro _
    exact hawake
  . rw [hmonitor]
    exact h.blocks
  . rw [hmonitor]
    intro t ht hasleep
    rw [hawake t ht] at hasleep
    contradiction
  . rw [hmonitor, hhandle]
    exact h.left

theorem Sound.reset {rest : List AlarmRequest} (h : c.Sound service clock (r :: rest) i)
    (hother : ∀ d, d ≠ r.direction →
      ∀ k, c.key d = some k → c.key r.direction ≠ some k ∧ k.seq ≠ service.queue.nextSeq)
    : (c.reset i r service).1.Sound (c.reset i r service).2 clock rest i := by
  apply h.reset_of (by simp)
  . intro hopen r' hr'
    exact h.owes hopen r' (List.mem_cons_of_mem r hr')
  . intro hopen d due hdue hnot
    by_cases hd : d = r.direction
    . left
      rw [hd] at hdue ⊢
      apply queued_reset
      rw [← hdue]
      exact h.owes hopen r List.mem_cons_self
    . have hnot : ∀ r' ∈ r :: rest, r'.direction ≠ d := by
        intro r' hr'
        rcases List.mem_cons.1 hr' with rfl | hr'
        . exact fun heq => hd heq.symm
        . exact hnot r' hr'
      rcases h.armed hopen d due hdue hnot with hqueued | hpast
      . exact Or.inl (queued_reset_of_ne hd hqueued (hother d hd))
      . exact Or.inr hpast

theorem Sound.disarm {rest : List AlarmRequest} (h : c.Sound service clock (r :: rest) i)
    (hother : ∀ d, d ≠ r.direction →
      ∀ k, c.key d = some k → c.key r.direction ≠ some k ∧ k.seq ≠ service.queue.nextSeq)
    : (c.reset i ⟨r.direction, none⟩ service).1.Sound (c.reset i ⟨r.direction, none⟩ service).2 clock
        (r :: rest) i := by
  apply h.reset_of (by simp) h.owes
  intro hopen d due hdue hnot
  have hd : d ≠ r.direction := (hnot r List.mem_cons_self).symm
  rcases h.armed hopen d due hdue hnot with hqueued | hpast
  . exact Or.inl (queued_reset_of_ne hd hqueued (hother d hd))
  . exact Or.inr hpast

end Connection

end BlockingStream

import BlockingStream.Proofs.Alarm
import BlockingStream.Engine.Metered

/-!
This module contains the proof that no deadline is lost: whoever sleeps under a deadline has a timer entry of
its own for just that instant, which is queued, or taken by the worker and about to fire.

No alarm interferes with another one, since no two of them remember the same key.
-/

namespace BlockingStream

namespace Host

variable {σ : Type} {E : Engine σ} {h h' : Host σ} {c : Connection σ} {i j n : Nat} {d : Direction}
  {r : AlarmRequest} {k : Timer.Key}

def key? (h : Host σ) (i : Nat) (d : Direction) : Option Timer.Key := h.connections[i]?.bind (·.key d)

theorem key?_eq (hc : h.connections[i]? = some c) (d : Direction) : h.key? i d = c.key d := by
  rw [key?, hc, Option.bind_some]

theorem key?_replace (hc : h.connections[i]? = some c) (cs : Connection σ × Timer.Service Nat) (j : Nat)
    (d : Direction)
    : (h.replace i cs).key? j d = if j = i then cs.1.key d else h.key? j d := by
  have hlt := (List.getElem?_eq_some_iff.1 hc).1
  simp only [key?, replace, List.getElem?_set]
  by_cases hj : j = i
  . subst hj
    simp [hlt]
  . have hij : ¬ i = j := fun heq => hj heq.symm
    simp [hj, hij]

theorem key?_replace_of_eq (hc : h.connections[i]? = some c) {cs : Connection σ × Timer.Service Nat}
    (hkey : cs.1.key = c.key) (j : Nat) (d : Direction)
    : (h.replace i cs).key? j d = h.key? j d := by
  rw [key?_replace hc, hkey]
  split
  . next heq => rw [heq, key?_eq hc]
  . rfl

theorem connections_openConnection_eq_none {label : String} {s : σ}
    (hnone : (h.openConnection E label s).host.connections[i]? = none)
    : h.connections[i]? = none := by
  rw [List.getElem?_eq_none_iff] at hnone ⊢
  simp only [openConnection, List.length_append] at hnone
  omega

theorem key?_openConnection (E : Engine σ) (label : String) (s : σ) (h : Host σ) (i : Nat) (d : Direction)
    : (h.openConnection E label s).host.key? i d = h.key? i d := by
  rw [key?, key?]
  cases hc : (h.openConnection E label s).host.connections[i]? with
  | none => rw [connections_openConnection_eq_none hc]
  | some c =>
    rcases of_openConnection hc with hold | ⟨hnone, rfl⟩
    . rw [hold]
    . rw [hnone]
      cases d <;> rfl

/--
Each alarm remembers a key that no other alarm remembers and that was scheduled earlier than the next one.
-/
structure Keyed (n : Nat) (h : Host σ) : Prop where
  numbered : h.service.queue.nextSeq.toNat = n
  older : ∀ i d k, h.key? i d = some k → k.seq.toNat < n
  distinct : ∀ i j d d' k, h.key? i d = some k → h.key? j d' = some k → i = j ∧ d = d'

theorem Keyed.congr (hk : h.Keyed n) (hseq : h'.service.queue.nextSeq = h.service.queue.nextSeq)
    (hkey : ∀ i d, h'.key? i d = h.key? i d)
    : h'.Keyed n where
  numbered := by
    rw [hseq]
    exact hk.numbered
  older := by
    intro i d k
    rw [hkey]
    exact hk.older i d k
  distinct := by
    intro i j d d' k
    rw [hkey, hkey]
    exact hk.distinct i j d d' k

theorem Keyed.other (hk : h.Keyed n) (hc : h.connections[i]? = some c) {d' : Direction}
    (hkey : h.key? j d' = some k) (hne : ¬ (j = i ∧ d' = d))
    : c.key d ≠ some k ∧ k.seq ≠ h.service.queue.nextSeq := by
  constructor
  . intro heq
    rw [← key?_eq hc d] at heq
    exact hne (hk.distinct j i d' d k hkey heq)
  . intro heq
    have hold := hk.older j d' k hkey
    rw [heq, hk.numbered] at hold
    exact absurd hold (Nat.lt_irrefl n)

theorem Keyed.reset (hk : h.Keyed n) (hc : h.connections[i]? = some c) (few : n + r.schedules < UInt64.size)
    : (h.replace i (c.reset i r h.service)).Keyed (n + r.schedules) := by
  have hkey : ∀ j d, (h.replace i (c.reset i r h.service)).key? j d =
      if j = i ∧ d = r.direction then r.deadline.map fun due => ⟨due, h.service.queue.nextSeq⟩
      else h.key? j d := by
    intro j d
    rw [key?_replace hc, Connection.key_reset]
    by_cases hj : j = i
    . rw [hj, key?_eq hc]
      simp
    . simp [hj]
  have hnew : ∀ j d k, (h.replace i (c.reset i r h.service)).key? j d = some k →
      j = i ∧ d = r.direction ∧ r.schedules = 1 ∧ k.seq.toNat = n ∨
        ¬ (j = i ∧ d = r.direction) ∧ h.key? j d = some k := by
    intro j d k hjd
    rw [hkey] at hjd
    split at hjd
    . next heq =>
      left
      obtain ⟨due, hdue, rfl⟩ := Option.map_eq_some_iff.1 hjd
      refine ⟨heq.1, heq.2, ?_, hk.numbered⟩
      rw [AlarmRequest.schedules, hdue]
    . next hne => exact Or.inr ⟨hne, hjd⟩
  refine ⟨?_, ?_, ?_⟩
  . -- this is where the numbers must not start again from zero
    change (c.reset i r h.service).2.queue.nextSeq.toNat = _
    have hnumbered := hk.numbered
    rw [Connection.nextSeq_reset]
    unfold AlarmRequest.schedules at few ⊢
    cases hdeadline : r.deadline with
    | none => exact hnumbered
    | some due =>
      rw [hdeadline] at few
      dsimp only at few ⊢
      rw [UInt64.toNat_add, hnumbered]
      exact Nat.mod_eq_of_lt few
  . intro j d k hjd
    rcases hnew j d k hjd with ⟨_, _, hone, hseq⟩ | ⟨_, hold⟩
    . omega
    . have := hk.older j d k hold
      omega
  . intro j j' d d' k hjd hjd'
    rcases hnew j d k hjd with ⟨hj, hd, _, hseq⟩ | ⟨_, hold⟩
    . rcases hnew j' d' k hjd' with ⟨hj', hd', _, _⟩ | ⟨_, hold'⟩
      . exact ⟨hj.trans hj'.symm, hd.trans hd'.symm⟩
      . have := hk.older j' d' k hold'
        omega
    . rcases hnew j' d' k hjd' with ⟨_, _, _, hseq⟩ | ⟨_, hold'⟩
      . have := hk.older j d k hold
        omega
      . exact hk.distinct j j' d d' k hold hold'

end Host

namespace Midway

variable {σ : Type} {E : Engine σ} {w w' : Midway σ} {n k i : Nat} {c c' : Connection σ}

/--
All connections have their alarms in order, and the service is on the watch.
-/
structure Kept (n : Nat) (w : Midway σ) : Prop where
  sound : ∀ i (c : Connection σ), w.host.connections[i]? = some c →
    c.Sound w.host.service w.host.clock (w.owed i) i
  vacant : ∀ i, w.host.connections[i]? = none → w.owed i = []
  keyed : w.host.Keyed n
  watchful : w.host.service.Watchful
  due : ∀ e ∈ w.host.service.batch, e.1.deadline ≤ w.host.clock

theorem Kept.start (clock : Instant) : Kept 0 ({ host := { clock } } : Midway σ) where
  sound := by simp
  vacant := by simp
  keyed := ⟨rfl, by simp [Host.key?], by simp [Host.key?]⟩
  watchful := Timer.Service.Watchful.init
  due := by simp [Timer.Service.batch]

theorem connections_replace_eq_none {h : Host σ} {cs : Connection σ × Timer.Service Nat} {j : Nat}
    (hnone : (h.replace i cs).connections[j]? = none)
    : h.connections[j]? = none := by
  rw [List.getElem?_eq_none_iff] at hnone ⊢
  simpa [Host.replace] using hnone

theorem vacant_owe {cs : Connection σ × Timer.Service Nat} {requests : List AlarmRequest} {j : Nat}
    (hvacant : ∀ j, w.host.connections[j]? = none → w.owed j = []) (hc : w.host.connections[i]? = some c)
    (hnone : (w.host.replace i cs).connections[j]? = none)
    : (owe { w with host := w.host.replace i cs } i requests).owed j = [] := by
  have hj := connections_replace_eq_none hnone
  have hne : j ≠ i := by
    intro heq
    rw [heq, hc] at hj
    contradiction
  simp only [owe, if_neg hne]
  exact hvacant j hj

theorem vacant_of_step (hvacant : ∀ j, w.host.connections[j]? = none → w.owed j = []) (hs : Step E w k w')
    : ∀ j, w'.host.connections[j]? = none → w'.owed j = [] := by
  intro j hnone
  cases hs with
  | opened label s => exact hvacant j (Host.connections_openConnection_eq_none hnone)
  | act hc _ _ _ => exact vacant_owe hvacant hc hnone
  | drop hc _ _ _ _ => exact vacant_owe hvacant hc hnone
  | addNotifier hc _ => exact hvacant j (connections_replace_eq_none hnone)
  | dropNotifier hc _ _ => exact vacant_owe hvacant hc hnone
  | disarm hc _ => exact hvacant j (connections_replace_eq_none hnone)
  | reset hc _ => exact vacant_owe hvacant hc hnone
  | work _ hr =>
    rcases Host.of_work_eq_some hr with ⟨_, hhost⟩ | ⟨e, rest, _, hfires⟩ | ⟨_, hhost⟩
    . rw [hhost] at hnone
      exact hvacant j hnone
    . rcases hfires with ⟨c, _, _, hhost⟩ | ⟨hhost, _⟩
      . rw [hhost] at hnone
        exact hvacant j (connections_replace_eq_none hnone)
      . rw [hhost] at hnone
        exact hvacant j hnone
    . rw [hhost] at hnone
      exact hvacant j hnone
  | stirWorker hr =>
    rw [Host.of_stirWorker_eq_some hr] at hnone
    exact hvacant j hnone
  | wait ms => exact hvacant j hnone

theorem Run.vacant (run : Run E n w) : ∀ j, w.host.connections[j]? = none → w.owed j = [] := by
  induction run with
  | start clock => exact fun _ _ => rfl
  | step _ hs ih => exact vacant_of_step ih hs

theorem Kept.update {requests : List AlarmRequest} (h : w.Kept n) (hc : w.host.connections[i]? = some c)
    (hkey : c'.key = c.key) (hsound : c'.Sound w.host.service w.host.clock requests i)
    : ((w.update i c').owe i requests).Kept n where
  sound := by
    intro j c'' hj
    rcases Host.of_replace hj with ⟨rfl, rfl⟩ | ⟨hne, hj⟩
    . simp only [owe, Midway.update, Host.replace, if_true]
      exact hsound
    . simp only [owe, Midway.update, Host.replace, if_neg hne]
      exact h.sound j c'' hj
  vacant := by
    intro j hnone
    exact vacant_owe h.vacant hc hnone
  keyed := by
    apply Host.Keyed.congr h.keyed
    . rfl
    . exact Host.key?_replace_of_eq hc hkey
  watchful := h.watchful
  due := h.due

theorem Kept.reset {r : AlarmRequest} {requests : List AlarmRequest} (h : w.Kept n)
    (hc : w.host.connections[i]? = some c) (few : n + r.schedules < UInt64.size)
    (hsound : (c.reset i r w.host.service).1.Sound (c.reset i r w.host.service).2 w.host.clock requests i)
    : (owe { w with host := w.host.replace i (c.reset i r w.host.service) } i requests).Kept (n + r.schedules) where
  sound := by
    intro j c'' hj
    rcases Host.of_replace hj with ⟨rfl, rfl⟩ | ⟨hne, hj⟩
    . simp only [owe, if_true]
      exact hsound
    . -- no other connection remembers the key that is cancelled or the one that is scheduled
      simp only [owe, if_neg hne]
      apply (h.sound j c'' hj).frame (Int.le_refl _)
      . intro d k hkey hmem
        rw [← Host.key?_eq hj] at hkey
        obtain ⟨hother, hnew⟩ := h.keyed.other hc hkey (d := r.direction) (fun heq => hne heq.1)
        exact Or.inl (Connection.mem_reset hmem hother hnew)
      . intro k hmem
        change _ ∈ (c.reset i r w.host.service).2.batch
        rw [Connection.batch_reset]
        exact hmem
  vacant := by
    intro j hnone
    exact vacant_owe h.vacant hc hnone
  keyed := h.keyed.reset hc few
  watchful := Connection.watchful_reset h.watchful
  due := by
    change ∀ e ∈ (c.reset i r w.host.service).2.batch, _
    rw [Connection.batch_reset]
    exact h.due

theorem Kept.service {service : Timer.Service Nat} {clock : Instant} (h : w.Kept n)
    (hclock : w.host.clock ≤ clock)
    (hqueue : ∀ e ∈ w.host.service.queue.entries,
      e ∈ service.queue.entries ∨ e ∈ service.batch ∧ e.1.deadline ≤ clock)
    (hbatch : ∀ e ∈ w.host.service.batch, e ∈ service.batch)
    (hseq : service.queue.nextSeq = w.host.service.queue.nextSeq) (hwatchful : service.Watchful)
    (hdue : ∀ e ∈ service.batch, e.1.deadline ≤ clock)
    : Kept n { w with host := { w.host with service, clock } } where
  sound := by
    intro i c hc
    apply (h.sound i c hc).frame hclock
    . intro d k _ hmem
      exact hqueue (k, i) hmem
    . intro k hmem
      exact hbatch (k, i) hmem
  vacant := h.vacant
  keyed := by
    apply Host.Keyed.congr h.keyed
    . exact hseq
    . intro i d
      rfl
  watchful := hwatchful
  due := hdue

theorem Kept.wait (h : w.Kept n) (ms : Nat)
    : Kept n { w with host := { w.host with clock := w.host.clock + ms } } := by
  have hclock : w.host.clock ≤ w.host.clock + ms := Int.le_add_of_nonneg_right (Int.natCast_nonneg ms)
  apply h.service hclock (fun e he => Or.inl he) (fun e he => he) rfl h.watchful
  intro e he
  exact Int.le_trans (h.due e he) hclock

theorem Kept.stirWorker {r : HostStep σ} (h : w.Kept n) (hr : w.host.stirWorker = some r)
    : Kept n { w with host := r.host } := by
  rw [Host.of_stirWorker_eq_some hr]
  apply h.service (Int.le_refl _)
  . intro e he
    rw [Timer.Service.queue_notify]
    exact Or.inl he
  . intro e he
    rw [Timer.Service.batch_notify]
    exact he
  . rw [Timer.Service.queue_notify]
  . exact Timer.Service.watchful_notify h.watchful.open_ h.watchful.running h.watchful.ordered
  . rw [Timer.Service.batch_notify]
    exact h.due

theorem Kept.opened (h : w.Kept n) (label : String) (s : σ)
    : Kept n { w with host := (w.host.openConnection E label s).host } := by
  refine ⟨?_, ?_, ?_, h.watchful, h.due⟩
  . intro i c hc
    rcases Host.of_openConnection hc with hold | ⟨hnone, rfl⟩
    . exact h.sound i c hold
    . rw [h.vacant i hnone]
      exact Connection.Sound.opened E label s
  . intro i hnone
    exact h.vacant i (Host.connections_openConnection_eq_none hnone)
  . exact Host.Keyed.congr h.keyed rfl (w.host.key?_openConnection E label s)

theorem Kept.fire {e : Timer.Key × Nat} {rest : List (Timer.Key × Nat)} {host : Host σ} (h : w.Kept n)
    (hworker : w.host.service.worker = .firing (e :: rest))
    (hfires : w.host.Fires e.2 { w.host.service with worker := .firing rest } host)
    : Kept n { w with host } := by
  -- if nobody owns this connection there is nobody to wake
  have hbatch : w.host.service.batch = e :: rest := by rw [Timer.Service.batch, hworker]
  -- the entry belongs to a single connection, so that the others miss nothing
  have hother : ∀ {j : Nat} {c : Connection σ}, j ≠ e.2 → w.host.connections[j]? = some c →
      c.Sound { w.host.service with worker := .firing rest } w.host.clock (w.owed j) j := by
    intro j c hne hc
    apply (h.sound j c hc).frame (Int.le_refl _)
    . intro d k _ hmem
      exact Or.inl hmem
    . intro k hmem
      rw [hbatch] at hmem
      rcases List.mem_cons.1 hmem with hmem | hmem
      . rw [← hmem] at hne
        exact absurd rfl hne
      . exact hmem
  have hwatchful := h.watchful.firing rest
  have hdue : ∀ e' ∈ rest, e'.1.deadline ≤ w.host.clock := by
    intro e' he'
    apply h.due
    rw [hbatch]
    exact List.mem_cons_of_mem e he'
  rcases hfires with ⟨c, hc, _, rfl⟩ | ⟨rfl, hdead⟩
  . refine ⟨?_, ?_, ?_, hwatchful, hdue⟩
    . intro j c' hj
      rcases Host.of_replace hj with ⟨rfl, rfl⟩ | ⟨hne, hj⟩
      . exact (h.sound e.2 c hc).fire rfl
      . exact hother hne hj
    . intro j hnone
      exact h.vacant j (connections_replace_eq_none hnone)
    . apply Host.Keyed.congr h.keyed
      . rfl
      . exact Host.key?_replace_of_eq hc (Connection.key_congr rfl rfl)
  . refine ⟨?_, h.vacant, Host.Keyed.congr h.keyed rfl fun _ _ => rfl, hwatchful, hdue⟩
    intro j c hc
    by_cases hj : j = e.2
    . subst hj
      have hhandle : c.handle = false := by
        have := hdead c hc
        simp only [Connection.alive, Bool.or_eq_false_iff] at this
        exact this.1
      obtain ⟨hbusy, hclosed⟩ := (h.sound e.2 c hc).left hhandle
      exact Connection.Sound.of_left hbusy hclosed
    . exact hother hj hc

theorem Kept.work {r : HostStep σ} (h : w.Kept n) (hr : w.host.work = some r)
    : Kept n { w with host := r.host } := by
  rcases Host.of_work_eq_some hr with ⟨hawake, hhost⟩ | ⟨e, rest, hworker, hfires⟩ | ⟨hnone, hhost⟩
  . rw [hhost]
    have hopen := h.watchful.open_
    apply h.service (Int.le_refl _)
    . intro e he
      rcases Timer.Service.mem_scan hopen he with he | he
      . exact Or.inl he
      . exact Or.inr ⟨he, Timer.Service.deadline_le_of_mem_batch_scan hopen he⟩
    . intro e he
      rw [Timer.Service.batch, hawake] at he
      contradiction
    . exact Timer.Service.nextSeq_scan w.host.clock hopen
    . exact h.watchful.scan
    . intro e he
      exact Timer.Service.deadline_le_of_mem_batch_scan hopen he
  . exact h.fire hworker hfires
  . rw [hhost]
    apply h.service (Int.le_refl _)
    . intro e he
      exact Or.inl he
    . intro e he
      rw [hnone] at he
      contradiction
    . rfl
    . exact h.watchful.awake
    . intro e he
      contradiction

theorem Kept.drop {dropped : Connection σ} (h : w.Kept n) (hc : w.host.connections[i]? = some c)
    (hbusy : c.monitor.busy = false)
    (hdropped : dropped = { c with monitor := (c.monitor.close E).monitor, handle := false })
    (requests : List AlarmRequest)
    : ((w.update i dropped).owe i requests).Kept n := by
  subst hdropped
  refine h.update hc (Connection.key_congr rfl rfl) ?_
  apply Connection.Sound.of_left
  . exact (Monitor.busy_close E c.monitor).trans hbusy
  . exact Monitor.closed_close E c.monitor

theorem Kept.dropNotifier {dropped : Connection σ} (h : w.Kept n) (hc : w.host.connections[i]? = some c)
    (hdropped : dropped = { c with notifiers := c.notifiers - 1 })
    : ((w.update i dropped).owe i (w.owed i ++ dropped.releases)).Kept n := by
  subst hdropped
  have hsound := h.sound i c hc
  refine h.update hc (Connection.key_congr rfl rfl) ?_
  unfold Connection.releases
  split
  . rw [List.append_nil]
    exact hsound.congr rfl (Connection.key_congr rfl rfl) rfl
  . next hdead =>
    rw [Bool.not_eq_true, Connection.alive, Bool.or_eq_false_iff] at hdead
    obtain ⟨hbusy, hclosed⟩ := hsound.left hdead.1
    exact Connection.Sound.of_left hbusy hclosed

theorem Kept.other (h : w.Kept n) (hc : w.host.connections[i]? = some c) {d d' : Direction} (hne : d' ≠ d)
    (k : Timer.Key) (hkey : c.key d' = some k)
    : c.key d ≠ some k ∧ k.seq ≠ w.host.service.queue.nextSeq := by
  rw [← Host.key?_eq hc] at hkey
  exact h.keyed.other hc hkey fun heq => hne heq.2

theorem Kept.step (h : w.Kept n) (hs : Step E w k w') (few : n + k < UInt64.size) : w'.Kept (n + k) := by
  cases hs with
  | opened label s => exact h.opened label s
  | act hc hpermits hlock hs =>
    exact h.update hc (Connection.key_congr rfl rfl) ((h.sound _ _ hc).act hpermits hlock hs)
  | drop hc _ hbusy _ hdropped => exact h.drop hc hbusy hdropped _
  | @addNotifier i c hc _ =>
    rw [← owe_self (w.update i { c with notifiers := c.notifiers + 1 }) i]
    exact h.update hc (Connection.key_congr rfl rfl)
      ((h.sound i c hc).congr rfl (Connection.key_congr rfl rfl) rfl)
  | dropNotifier hc _ hdropped => exact h.dropNotifier hc hdropped
  | @disarm i c r rest hc howed =>
    have hsound := h.sound i c hc
    rw [howed] at hsound
    have hself := owe_self { w with host := w.host.replace i (c.reset i ⟨r.direction, none⟩ w.host.service) } i
    change owe _ i (w.owed i) = _ at hself
    have few : n + AlarmRequest.schedules ⟨r.direction, none⟩ < UInt64.size := few
    rw [← hself, howed]
    exact h.reset hc few (hsound.disarm fun d hne => h.other hc hne)
  | @reset i c r rest hc howed =>
    have hsound := h.sound i c hc
    rw [howed] at hsound
    exact h.reset hc few (hsound.reset fun d hne => h.other hc hne)
  | work _ hr => exact h.work hr
  | stirWorker hr => exact h.stirWorker hr
  | wait ms => exact h.wait ms

theorem Run.kept (run : Run E n w) (few : n < UInt64.size) : w.Kept n := by
  induction run with
  | start clock => exact Kept.start clock
  | step _ hs ih => exact (ih (by omega)).step hs few

/--
Whoever sleeps in a transfer under a deadline is woken when it has passed: the entry of its alarm, for just that
instant, is queued or has been taken and not fired yet, the worker does not rest as long as that is due, and with
the next look at the state the call reports the deadline.
-/
theorem Run.deadline_kept {t : Thread} {d : Direction} {due : Instant} (run : Run E n w) (few : n < UInt64.size)
    (hc : w.host.connections[i]? = some c) (ht : t ∈ c.monitor.threads) (hasleep : t.isAsleep = true)
    (hd : t.call.direction? = some d) (hdue : c.monitor.conn.deadline d = some due)
    : (∃ k, c.key d = some k ∧ k.deadline = due ∧
        ((k, i) ∈ w.host.service.queue.entries ∨
          (k, i) ∈ w.host.service.batch ∧ due ≤ w.host.clock)) ∧
      (due ≤ w.host.clock → (w.host.service.step w.host.clock).isSome = true) ∧
      ∀ now, due ≤ now → ∃ outcome, (c.monitor.round E now t).thread.outcome? = some outcome ∧
        outcome.error? = some .deadlineExceeded := by
  have hkept := run.kept few
  have hsound := hkept.sound i c hc
  refine ⟨?_, ?_, ?_⟩
  . rcases hsound.waiting t ht hasleep d due hd hdue with ⟨k, hkey, hk, hmem⟩ | ⟨k, hkey, hk, hmem⟩
    . exact ⟨k, hkey, hk, Or.inl hmem⟩
    . refine ⟨k, hkey, hk, Or.inr ⟨hmem, ?_⟩⟩
      rw [← hk]
      exact hkept.due (k, i) hmem
  . intro hpast
    rcases hsound.waiting t ht hasleep d due hd hdue with ⟨k, hkey, hk, hmem⟩ | ⟨k, hkey, hk, hmem⟩
    . apply hkept.watchful.isSome_step (e := (k, i))
      left
      rw [hk]
      exact ⟨hmem, hpast⟩
    . exact hkept.watchful.isSome_step (Or.inr hmem)
  . intro now hnow
    exact Monitor.error?_round_of_deadline E (hsound.blocks t ht hasleep) hd hdue hnow

/--
A reader sleeps under a deadline that has come, and the worker has just taken its entry.
-/
theorem taken_deadline_kept
    : ∃ n w c t, Run Metered.engine n w ∧ w.host.connections[0]? = some c ∧ t ∈ c.monitor.threads ∧
        t.isAsleep = true ∧ c.monitor.conn.deadline .reading = some 5 ∧ w.host.service.queue.entries = [] ∧
        (∃ k, c.key .reading = some k ∧ k.deadline = 5 ∧
          ((k, 0) ∈ w.host.service.queue.entries ∨ (k, 0) ∈ w.host.service.batch ∧ 5 ≤ w.host.clock)) := by
  have opened : Run Metered.engine 0 { host := _ } := (Run.start 0).step (.opened _ "a" {})
  have run : Run Metered.engine _ { host := _ } := opened.replay
    [.act 0 (.request (.setDeadline (.one .reading) (some 5))), .act 0 (.enter 0 (.read 4)), .act 0 (.run 0),
      .wait 5, .work] rfl
  have kept := Run.deadline_kept run (i := 0) (by decide) rfl (List.mem_cons_self ..) rfl rfl rfl
  exact ⟨_, _, _, _, run, rfl, List.mem_cons_self .., rfl, rfl, rfl, kept.1⟩

end Midway

end BlockingStream

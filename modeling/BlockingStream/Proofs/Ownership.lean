import BlockingStream.Proofs.Deadline

/-!
This module contains the proof that the timer queue holds nothing but what its connections have armed: each entry
is the one that a single alarm of a living connection remembers, at the deadline that is in force. So the queue
stays small, whatever is reset and however often, and nobody cancels the entry of somebody else.
-/

namespace BlockingStream

namespace Timer

theorem Queue.nodup_keys {α : Type} {entries : List (Key × α)} (h : Ordered entries)
    : (entries.map Prod.fst).Nodup := by
  unfold Ordered at h
  apply List.nodup_iff_pairwise_ne.2
  apply List.pairwise_map.2
  apply h.imp
  intro a b hbefore heq
  rw [heq, Key.before_iff] at hbefore
  lia

theorem Service.mem_of_mem_scan {α : Type} {s : Service α} {now : Instant} {e : Key × α}
    (he : e ∈ (s.scan now).queue.entries)
    : e ∈ s.queue.entries := by
  cases hopen : s.shutdown with
  | true =>
    -- a service that has ended leaves its queue as it is
    unfold scan at he
    rw [if_pos hopen] at he
    exact he
  | false =>
    rw [← s.queue.popDue_append now]
    apply List.mem_append_right
    rcases scan_cases now hopen with ⟨_, hscan⟩ | hscan
    . rw [hscan] at he
      exact he
    . rw [hscan] at he
      exact he

end Timer

namespace Connection

variable {σ : Type} {E : Engine σ} {c c' : Connection σ} {service : Timer.Service Nat} {owed : List AlarmRequest}
  {i j : Nat} {r : AlarmRequest} {k : Timer.Key} {d : Direction}

def Owns (owed : List AlarmRequest) (c : Connection σ) (k : Timer.Key) : Prop :=
  ∃ d, c.key d = some k ∧
    (c.alive = true ∧ c.monitor.conn.deadline d = some k.deadline ∨ ∃ r ∈ owed, r.direction = d)

def Schedules (owed : List AlarmRequest) (c : Connection σ) : Prop :=
  ∀ r ∈ owed, ∀ due, r.deadline = some due → c.handle = true ∧ c.monitor.conn.deadline r.direction = some due

theorem alive_of_handle (h : c.handle = true) : c.alive = true := by
  rw [alive, h, Bool.true_or]

theorem deadline_of_mem_releases (hr : r ∈ c.releases) : r.deadline = none := by
  unfold releases at hr
  split at hr
  . contradiction
  . simp only [List.mem_cons, List.not_mem_nil, or_false] at hr
    rcases hr with rfl | rfl <;> rfl

theorem mem_releases (h : c.alive = false) (d : Direction) : ⟨d, none⟩ ∈ c.releases := by
  unfold releases
  rw [h]
  cases d <;> simp

theorem of_mem_withdraw (h : (k, j) ∈ (c.withdraw d service).queue.entries)
    : (k, j) ∈ service.queue.entries ∧ c.key d ≠ some k := by
  unfold withdraw at h
  cases hkey : c.key d with
  | none =>
    rw [hkey] at h
    exact ⟨h, by simp⟩
  | some key =>
    rw [hkey] at h
    obtain ⟨hmem, hne⟩ := Timer.Queue.mem_cancel.1 h
    refine ⟨hmem, ?_⟩
    intro heq
    injection heq with heq
    exact hne heq.symm

theorem of_mem_reset (h : (k, j) ∈ (c.reset i r service).2.queue.entries)
    : (k, j) ∈ service.queue.entries ∧ c.key r.direction ≠ some k ∨
      j = i ∧ r.deadline = some k.deadline ∧ (c.reset i r service).1.key r.direction = some k := by
  rw [key_reset, if_pos rfl]
  rw [service_reset] at h
  cases hdue : r.deadline with
  | none =>
    rw [hdue] at h
    exact Or.inl (of_mem_withdraw h)
  | some due =>
    rw [hdue] at h
    dsimp only at h
    rw [Timer.Service.queue_schedule, Timer.Queue.schedule, nextSeq_withdraw] at h
    rcases Timer.Queue.mem_of_mem_insert h with heq | hmem
    . injection heq with hk hj
      rw [hk]
      exact Or.inr ⟨hj, rfl, rfl⟩
    . exact Or.inl (of_mem_withdraw hmem)

theorem Owns.mono {owed' : List AlarmRequest} (h : c.Owns owed k) (hsub : ∀ r ∈ owed, r ∈ owed')
    : c.Owns owed' k := by
  obtain ⟨d, hkey, hstands | ⟨r, hr, hd⟩⟩ := h
  . exact ⟨d, hkey, Or.inl hstands⟩
  . exact ⟨d, hkey, Or.inr ⟨r, hsub r hr, hd⟩⟩

theorem Owns.congr (h : c.Owns owed k) (hkey : c'.key = c.key)
    (hdeadline : ∀ d, c'.monitor.conn.deadline d = c.monitor.conn.deadline d)
    (halive : c.alive = true → c'.alive = true)
    : c'.Owns owed k := by
  obtain ⟨d, hd, hstands⟩ := h
  refine ⟨d, by rw [hkey, hd], ?_⟩
  rcases hstands with ⟨hlive, hdue⟩ | howed
  . exact Or.inl ⟨halive hlive, (hdeadline d).trans hdue⟩
  . exact Or.inr howed

theorem schedules_of_none (h : ∀ r ∈ owed, r.deadline = none) : c.Schedules owed := by
  intro r hr due hdue
  rw [h r hr] at hdue
  contradiction

theorem Schedules.release (h : c.Schedules owed) (hmonitor : c'.monitor = c.monitor)
    (hhandle : c'.handle = c.handle)
    : c'.Schedules (owed ++ c'.releases) := by
  intro r hr due hdue
  rcases List.mem_append.1 hr with hr | hr
  . rw [hmonitor, hhandle]
    exact h r hr due hdue
  . rw [deadline_of_mem_releases hr] at hdue
    contradiction

theorem Owns.act {s : Step σ} {clock : Instant} {a : Action} (h : c.Owns owed k)
    (hs : c.monitor.step E clock a = some s)
    : Owns (owed ++ s.alarms) { c with monitor := s.monitor } k := by
  obtain ⟨d, hkey, hstands⟩ := h
  have hkey' : key { c with monitor := s.monitor } = c.key := key_congr rfl rfl
  refine ⟨d, by rw [hkey', hkey], ?_⟩
  rcases hstands with ⟨halive, hdue⟩ | ⟨r, hr, hd⟩
  . rcases Monitor.alarms_of_step hs with ⟨_, hsame⟩ | ⟨_, _, hkept, _⟩
    . exact Or.inl ⟨halive, (hsame d).trans hdue⟩
    . -- the deadline is kept, or the alarm is owed
      by_cases hasked : ∃ r ∈ s.alarms, r.direction = d
      . obtain ⟨r, hr, hd⟩ := hasked
        exact Or.inr ⟨r, List.mem_append_right _ hr, hd⟩
      . left
        refine ⟨halive, (hkept d ?_).trans hdue⟩
        intro r hr hd
        exact hasked ⟨r, hr, hd⟩
  . exact Or.inr ⟨r, List.mem_append_left _ hr, hd⟩

theorem Schedules.act {s : Step σ} {clock : Instant} {a : Action} (h : c.Schedules owed)
    (hpermits : Host.permits c a = true) (hlock : a.needsLock = true → owed = [])
    (hs : c.monitor.step E clock a = some s)
    : Schedules (owed ++ s.alarms) { c with monitor := s.monitor } := by
  intro r hr due hdue
  rcases List.mem_append.1 hr with hr | hr
  . obtain ⟨hhandle, hdeadline⟩ := h r hr due hdue
    refine ⟨hhandle, ?_⟩
    rcases Monitor.alarms_of_step hs with ⟨_, hsame⟩ | ⟨⟨_, rfl⟩, _⟩
    . exact (hsame _).trans hdeadline
    . rw [hlock rfl] at hr
      contradiction
  . obtain ⟨⟨_, rfl⟩, hdeadline⟩ := Monitor.deadline_of_alarm hs hr hdue
    exact ⟨hpermits, hdeadline⟩

theorem Owns.release (h : c.Owns owed k) (hkey : c'.key = c.key)
    (hdeadline : ∀ d, c'.monitor.conn.deadline d = c.monitor.conn.deadline d)
    : c'.Owns (owed ++ c'.releases) k := by
  obtain ⟨d, hd, hstands⟩ := h
  refine ⟨d, by rw [hkey, hd], ?_⟩
  rcases hstands with ⟨_, hdue⟩ | ⟨r, hr, hd⟩
  . cases halive : c'.alive with
    | true => exact Or.inl ⟨rfl, (hdeadline d).trans hdue⟩
    | false => exact Or.inr ⟨⟨d, none⟩, List.mem_append_right _ (mem_releases halive d), rfl⟩
  . exact Or.inr ⟨r, List.mem_append_left _ hr, hd⟩

theorem Owns.reset {owed' : List AlarmRequest} (h : c.Owns owed k) (hother : c.key r.direction ≠ some k)
    (howed : ∀ r' ∈ owed, r'.direction ≠ r.direction → r' ∈ owed')
    : (c.reset i r service).1.Owns owed' k := by
  obtain ⟨d, hkey, hstands⟩ := h
  obtain ⟨hmonitor, hhandle, hnotifiers⟩ := reset_frame i r c service
  have hd : d ≠ r.direction := by
    intro heq
    rw [heq] at hkey
    exact hother hkey
  refine ⟨d, ?_, ?_⟩
  . rw [key_reset, if_neg hd]
    exact hkey
  . unfold alive
    rw [hmonitor, hhandle, hnotifiers]
    rcases hstands with hstands | ⟨r', hr', hd'⟩
    . exact Or.inl hstands
    . refine Or.inr ⟨r', howed r' hr' ?_, hd'⟩
      rw [hd']
      exact hd

def keys (c : Connection σ) : List Timer.Key := c.readKey.toList ++ c.writeKey.toList

theorem mem_keys (h : c.key d = some k) : k ∈ c.keys := by
  cases d with
  | reading => exact List.mem_append_left _ (Option.mem_toList.2 h)
  | writing => exact List.mem_append_right _ (Option.mem_toList.2 h)

theorem length_keys_le (connections : List (Connection σ))
    : (connections.flatMap keys).length ≤ 2 * connections.length := by
  induction connections with
  | nil => exact Nat.le_refl 0
  | cons c rest ih =>
    have hread : c.readKey.toList.length ≤ 1 := by cases c.readKey <;> simp
    have hwrite : c.writeKey.toList.length ≤ 1 := by cases c.writeKey <;> simp
    rw [List.flatMap_cons, keys, List.length_append, List.length_append, List.length_cons]
    omega

end Connection

namespace Midway

variable {σ : Type} {E : Engine σ} {w w' : Midway σ} {n k i : Nat} {c c' : Connection σ}

/--
The queue holds only what a connection owns.
-/
structure Tidy (w : Midway σ) : Prop where
  owned : ∀ k i, (k, i) ∈ w.host.service.queue.entries →
    ∃ c, w.host.connections[i]? = some c ∧ c.Owns (w.owed i) k
  schedules : ∀ i (c : Connection σ), w.host.connections[i]? = some c → c.Schedules (w.owed i)

theorem Tidy.start (clock : Instant) : Tidy ({ host := { clock } } : Midway σ) where
  owned := by simp
  schedules := by simp

theorem connections_replace_of_ne {h : Host σ} {j : Nat} (hj : j ≠ i) (cs : Connection σ × Timer.Service Nat)
    : (h.replace i cs).connections[j]? = h.connections[j]? :=
  List.getElem?_set_ne hj.symm

theorem Tidy.replace {requests : List AlarmRequest} {cs : Connection σ × Timer.Service Nat} (h : w.Tidy)
    (hc : w.host.connections[i]? = some c)
    (hothers : ∀ k j, j ≠ i → (k, j) ∈ cs.2.queue.entries → (k, j) ∈ w.host.service.queue.entries)
    (howns : ∀ k, (k, i) ∈ cs.2.queue.entries → cs.1.Owns requests k) (hschedules : cs.1.Schedules requests)
    : (owe { w with host := w.host.replace i cs } i requests).Tidy where
  owned := by
    intro k j hmem
    by_cases hj : j = i
    . subst hj
      simp only [owe, if_true]
      exact ⟨cs.1, connections_replace hc _, howns k hmem⟩
    . simp only [owe, if_neg hj, connections_replace_of_ne hj]
      exact h.owned k j (hothers k j hj hmem)
  schedules := by
    intro j c' hj
    rcases Host.of_replace hj with ⟨rfl, rfl⟩ | ⟨hne, hj⟩
    . simp only [owe, if_true]
      exact hschedules
    . simp only [owe, if_neg hne]
      exact h.schedules j c' hj

theorem Tidy.owns (h : w.Tidy) (hc : w.host.connections[i]? = some c) {key : Timer.Key}
    (hmem : (key, i) ∈ w.host.service.queue.entries)
    : c.Owns (w.owed i) key := by
  obtain ⟨c', hc', howns⟩ := h.owned key i hmem
  rw [hc] at hc'
  cases hc'
  exact howns

theorem Tidy.update {requests : List AlarmRequest} (h : w.Tidy) (hc : w.host.connections[i]? = some c)
    (howns : ∀ k, c.Owns (w.owed i) k → c'.Owns requests k) (hschedules : c'.Schedules requests)
    : ((w.update i c').owe i requests).Tidy := by
  apply h.replace hc
  . intro k j _ hmem
    exact hmem
  . intro k hmem
    exact howns k (h.owns hc hmem)
  . exact hschedules

theorem Tidy.congr (h : w.Tidy) (c' : Connection σ) (hc : w.host.connections[i]? = some c) (hkey : c'.key = c.key)
    (hdeadline : ∀ d, c'.monitor.conn.deadline d = c.monitor.conn.deadline d)
    (halive : c.alive = true → c'.alive = true) (hhandle : c'.handle = c.handle)
    : (w.update i c').Tidy := by
  rw [← owe_self (w.update i c') i]
  apply h.update hc
  . intro k howns
    exact howns.congr hkey hdeadline halive
  . intro r hr due hdue
    rw [hhandle, hdeadline]
    exact h.schedules i c hc r hr due hdue

theorem Tidy.drop {dropped : Connection σ} (h : w.Tidy) (hc : w.host.connections[i]? = some c)
    (howed : w.owed i = [])
    (hdropped : dropped = { c with monitor := (c.monitor.close E).monitor, handle := false })
    : ((w.update i dropped).owe i ((c.monitor.close E).alarms ++ dropped.releases)).Tidy := by
  subst hdropped
  apply h.update hc
  . -- nothing was owed, so that the entries stand at their deadlines, which the close leaves alone
    intro k howns
    rw [howed] at howns
    have howns : c.Owns (c.monitor.close E).alarms k := howns.mono (by simp)
    exact howns.release (Connection.key_congr rfl rfl) (Monitor.deadline_close E c.monitor)
  . exact (Connection.schedules_of_none (Monitor.alarms_close E c.monitor)).release rfl rfl

theorem Tidy.dropNotifier {dropped : Connection σ} (h : w.Tidy) (hc : w.host.connections[i]? = some c)
    (hdropped : dropped = { c with notifiers := c.notifiers - 1 })
    : ((w.update i dropped).owe i (w.owed i ++ dropped.releases)).Tidy := by
  subst hdropped
  apply h.update hc
  . intro k howns
    exact howns.release (Connection.key_congr rfl rfl) fun _ => rfl
  . exact (h.schedules i c hc).release rfl rfl

theorem Tidy.reset {r : AlarmRequest} {requests : List AlarmRequest} (h : w.Tidy)
    (hc : w.host.connections[i]? = some c)
    (hr : ∀ due, r.deadline = some due → c.handle = true ∧ c.monitor.conn.deadline r.direction = some due)
    (hkept : ∀ r' ∈ w.owed i, r'.direction ≠ r.direction → r' ∈ requests)
    (hsub : ∀ r' ∈ requests, r' ∈ w.owed i)
    : (owe { w with host := w.host.replace i (c.reset i r w.host.service) } i requests).Tidy := by
  obtain ⟨hmonitor, hhandle, _⟩ := Connection.reset_frame i r c w.host.service
  apply h.replace hc
  . intro k j hj hmem
    rcases Connection.of_mem_reset hmem with ⟨hmem, _⟩ | ⟨heq, _⟩
    . exact hmem
    . exact absurd heq hj
  . intro k hmem
    rcases Connection.of_mem_reset hmem with ⟨hmem, hother⟩ | ⟨_, hdue, hkey⟩
    . exact (h.owns hc hmem).reset hother hkept
    . -- the new entry is for the deadline in force
      obtain ⟨hhandle', hdeadline⟩ := hr k.deadline hdue
      refine ⟨r.direction, hkey, Or.inl ⟨?_, ?_⟩⟩
      . apply Connection.alive_of_handle
        rw [hhandle, hhandle']
      . rw [hmonitor, hdeadline]
  . intro r' hr' due hdue
    rw [hmonitor, hhandle]
    exact h.schedules i c hc r' (hsub r' hr') due hdue

theorem Tidy.service {service : Timer.Service Nat} {clock : Instant} (h : w.Tidy)
    (hsub : ∀ e ∈ service.queue.entries, e ∈ w.host.service.queue.entries)
    : Tidy { w with host := { w.host with service, clock } } where
  owned := by
    intro k i hmem
    exact h.owned k i (hsub (k, i) hmem)
  schedules := h.schedules

theorem Tidy.opened (h : w.Tidy) (hvacant : ∀ i, w.host.connections[i]? = none → w.owed i = []) (label : String)
    (s : σ)
    : Tidy { w with host := (w.host.openConnection E label s).host } where
  owned := by
    intro k i hmem
    obtain ⟨c, hc, howns⟩ := h.owned k i hmem
    refine ⟨c, ?_, howns⟩
    have hlt := (List.getElem?_eq_some_iff.1 hc).1
    simp only [Host.openConnection]
    rw [List.getElem?_append_left hlt, hc]
  schedules := by
    intro i c hc
    rcases Host.of_openConnection hc with hold | ⟨hnone, _⟩
    . exact h.schedules i c hold
    . intro r hr
      rw [hvacant i hnone] at hr
      contradiction

theorem Tidy.work {r : HostStep σ} (h : w.Tidy) (hr : w.host.work = some r)
    : Tidy { w with host := r.host } := by
  rcases Host.of_work_eq_some hr with ⟨_, hhost⟩ | ⟨e, rest, _, hfires⟩ | ⟨_, hhost⟩
  . rw [hhost]
    apply h.service
    intro e he
    exact Timer.Service.mem_of_mem_scan he
  . rcases hfires with ⟨c, hc, _, hhost⟩ | ⟨hhost, _⟩
    . rw [hhost]
      have hfired := h.congr { c with monitor := c.monitor.broadcast } hc (Connection.key_congr rfl rfl)
        (fun _ => rfl) (fun halive => halive) rfl
      exact hfired.service fun _ he => he
    . rw [hhost]
      exact h.service fun _ he => he
  . rw [hhost]
    exact h.service fun _ he => he

theorem Tidy.step (h : w.Tidy) (hvacant : ∀ i, w.host.connections[i]? = none → w.owed i = [])
    (hs : Step E w k w')
    : w'.Tidy := by
  cases hs with
  | opened label s => exact h.opened hvacant label s
  | @act i c a s hc hpermits hlock hs =>
    apply h.update hc
    . intro k howns
      exact howns.act hs
    . exact (h.schedules i c hc).act hpermits hlock hs
  | drop hc _ _ howed hdropped => exact h.drop hc howed hdropped
  | @addNotifier i c hc _ =>
    apply h.congr { c with notifiers := c.notifiers + 1 } hc (Connection.key_congr rfl rfl)
    . exact fun _ => rfl
    . simp [Connection.alive]
    . rfl
  | dropNotifier hc _ hdropped => exact h.dropNotifier hc hdropped
  | @disarm i c r rest hc howed =>
    -- the request is still owed, and nothing is scheduled yet
    rw [← owe_self { w with host := w.host.replace i (c.reset i ⟨r.direction, none⟩ w.host.service) } i]
    apply h.reset hc
    . simp
    . exact fun _ hr' _ => hr'
    . exact fun _ hr' => hr'
  | @reset i c r rest hc howed =>
    apply h.reset hc
    . exact h.schedules i c hc r (by simp [howed])
    . intro r' hr' hne
      rw [howed] at hr'
      rcases List.mem_cons.1 hr' with rfl | hr'
      . exact absurd rfl hne
      . exact hr'
    . intro r' hr'
      rw [howed]
      exact List.mem_cons_of_mem r hr'
  | work _ hr => exact h.work hr
  | stirWorker hr =>
    rw [Host.of_stirWorker_eq_some hr]
    apply h.service
    intro e he
    rw [Timer.Service.queue_notify] at he
    exact he
  | wait ms => exact h.service fun _ he => he

theorem Run.tidy (run : Run E n w) : w.Tidy := by
  induction run with
  | start clock => exact Tidy.start clock
  | step run hs ih => exact ih.step run.vacant hs

theorem Tidy.mem_keys (h : w.Tidy) (hquiet : ∀ i, w.owed i = []) {key : Timer.Key}
    (hmem : (key, i) ∈ w.host.service.queue.entries)
    : ∃ c d, w.host.connections[i]? = some c ∧ c.alive = true ∧ c.key d = some key ∧
        c.monitor.conn.deadline d = some key.deadline := by
  obtain ⟨c, hc, d, hkey, ⟨halive, hdue⟩ | ⟨r, hr, _⟩⟩ := h.owned key i hmem
  . exact ⟨c, d, hc, halive, hkey, hdue⟩
  . rw [hquiet i] at hr
    contradiction

theorem Tidy.pending_le (h : w.Tidy) (hquiet : ∀ i, w.owed i = [])
    (hordered : Timer.Queue.Ordered w.host.service.queue.entries)
    : w.host.service.pending ≤ 2 * (w.host.connections.filter Connection.alive).length := by
  have hsub : w.host.service.queue.entries.map Prod.fst ⊆
      (w.host.connections.filter Connection.alive).flatMap Connection.keys := by
    intro key hkey
    obtain ⟨⟨key, i⟩, hmem, rfl⟩ := List.mem_map.1 hkey
    obtain ⟨c, d, hc, halive, hkey, _⟩ := h.mem_keys hquiet hmem
    apply List.mem_flatMap.2
    refine ⟨c, ?_, Connection.mem_keys hkey⟩
    exact List.mem_filter.2 ⟨List.mem_of_getElem? hc, halive⟩
  have hlen := (Timer.Queue.nodup_keys hordered).length_le_of_subset hsub
  rw [List.length_map] at hlen
  exact Nat.le_trans hlen (Connection.length_keys_le _)

theorem Tidy.cancel (h : w.Tidy) (hkeyed : w.host.Keyed n) {d : Direction} {key : Timer.Key}
    (hkey : w.host.key? i d = some key)
    : (∀ e ∈ w.host.service.queue.entries, e ≠ (key, i) → e ∈ (w.host.service.cancel key).queue.entries) ∧
        ((key, i) ∉ w.host.service.queue.entries → (w.host.service.cancel key).queue = w.host.service.queue) := by
  -- an entry with this key belongs to the alarm that remembers it
  have hown : ∀ e ∈ w.host.service.queue.entries, e ≠ (key, i) → e.1 ≠ key := by
    rintro ⟨k, j⟩ hmem hne rfl
    obtain ⟨c, hc, d', hkey', _⟩ := h.owned k j hmem
    rw [← Host.key?_eq hc] at hkey'
    apply hne
    rw [(hkeyed.distinct j i d' d k hkey' hkey).1]
  constructor
  . intro e hmem hne
    exact Timer.Queue.mem_cancel.2 ⟨hmem, hown e hmem hne⟩
  . intro hgone
    have hall : w.host.service.queue.entries.filter (·.1 ≠ key) = w.host.service.queue.entries := by
      apply List.filter_eq_self.2
      intro e hmem
      rw [decide_eq_true_eq]
      apply hown e hmem
      rintro rfl
      exact hgone hmem
    change { w.host.service.queue with entries := w.host.service.queue.entries.filter (·.1 ≠ key) } = _
    rw [hall]

/--
Whenever no operation is under way, each entry of the queue is the one that a single alarm remembers, that of a
connection with an owner, for the deadline of its direction. No two alarms remember the same key. So there are no
more than two entries for each connection that has an owner, none when all owners are gone, and whoever takes back
an alarm whose entry has fired takes nothing from anybody else.
-/
theorem Run.entries_owned (run : Run E n w) (few : n < UInt64.size) (hquiet : ∀ i, w.owed i = [])
    : (∀ key i, (key, i) ∈ w.host.service.queue.entries →
        ∃ c d, w.host.connections[i]? = some c ∧ c.alive = true ∧ c.key d = some key ∧
          c.monitor.conn.deadline d = some key.deadline ∧
          ∀ j d', w.host.key? j d' = some key → j = i ∧ d' = d) ∧
      (∀ i j d d' key, w.host.key? i d = some key → w.host.key? j d' = some key → i = j ∧ d = d') ∧
      w.host.service.pending ≤ 2 * (w.host.connections.filter Connection.alive).length ∧
      (∀ i d key, w.host.key? i d = some key →
        (∀ e ∈ w.host.service.queue.entries, e ≠ (key, i) → e ∈ (w.host.service.cancel key).queue.entries) ∧
        ((key, i) ∉ w.host.service.queue.entries →
          (w.host.service.cancel key).queue = w.host.service.queue)) ∧
      ((∀ c ∈ w.host.connections, c.alive = false) → w.host.service.pending = 0) := by
  have htidy := run.tidy
  have hkept := run.kept few
  have hpending := htidy.pending_le hquiet hkept.watchful.ordered
  refine ⟨?_, hkept.keyed.distinct, hpending, ?_, ?_⟩
  . intro key i hmem
    obtain ⟨c, d, hc, halive, hkey, hdue⟩ := htidy.mem_keys hquiet hmem
    refine ⟨c, d, hc, halive, hkey, hdue, ?_⟩
    intro j d' hkey'
    rw [← Host.key?_eq hc] at hkey
    exact hkept.keyed.distinct j i d' d key hkey' hkey
  . intro i d key hkey
    exact htidy.cancel hkept.keyed hkey
  . intro hgone
    have hnone : w.host.connections.filter Connection.alive = [] := by
      rw [List.filter_eq_nil_iff]
      intro c hc
      rw [hgone c hc]
      exact Bool.false_ne_true
    rw [hnone] at hpending
    exact Nat.le_zero.1 hpending

/--
Two connections have all their deadlines at the same instant. One of them moves its deadline for reading, the
worker takes the other three entries, and the first alarm is reset once more. Three of the four alarms remember
an entry that has been taken.
-/
theorem shared_entries_owned
    : ∃ n w, Run Metered.engine n w ∧ n < UInt64.size ∧ (∀ i, w.owed i = []) ∧
        w.host.service.queue.entries = [(⟨8, 5⟩, 0)] ∧
        w.host.service.pending ≤ 2 * (w.host.connections.filter Connection.alive).length ∧
        w.host.key? 1 .reading = some ⟨5, 2⟩ ∧
        (w.host.service.cancel ⟨5, 2⟩).queue = w.host.service.queue := by
  have opened : Run Metered.engine 0 { host := _ } :=
    ((Run.start 0).step (.opened _ "a" {})).step (.opened _ "b" {})
  have run : Run Metered.engine _ { host := _ } := opened.replay
    [.act 0 (.request (.setDeadline .both (some 5))), .act 1 (.request (.setDeadline .both (some 5))),
      .act 0 (.request (.setDeadline (.one .reading) (some 9))), .wait 5, .work,
      .act 0 (.request (.setDeadline (.one .reading) (some 8)))] rfl
  have owned := Run.entries_owned run (by decide) fun _ => rfl
  have cancelled := owned.2.2.2.1 1 .reading ⟨5, 2⟩ rfl
  exact ⟨_, _, run, by decide, fun _ => rfl, rfl, owned.2.2.1, rfl, cancelled.2 (by decide)⟩

end Midway

end BlockingStream

import BlockingStream.Proofs.Face

/-!
This module contains the proof that connections do not notice each other, although all of them keep their entries
in one queue and one worker takes these together: whatever happens to a connection, it could have happened in the
same way if it had been alone, with a timer service of its own.
-/

namespace BlockingStream

namespace Face

variable {σ : Type}

def alive (f : Face σ) : Bool := f.handle || 0 < f.notifiers

def broadcast (f : Face σ) : Face σ := if f.alive then { f with monitor := f.monitor.broadcast } else f

end Face

/--
What a host shows to a connection: the clock, the connection itself, the alarms that it has to reset before it gives
back its lock, and how many of its entries the worker has taken and not fired yet.
-/
@[ext]
structure View (σ : Type) where
  clock : Instant
  connection : Option (Face σ)
  owed : List AlarmRequest
  taken : Nat

namespace View

variable {σ : Type} {v : View σ}

def dues (v : View σ) : List (Instant × Option Direction) :=
  match v.connection with
  | some f => f.agenda.filter (·.1 ≤ v.clock)
  | none => []

def scan (v : View σ) : View σ :=
  { v with
    connection := v.connection.map fun f => { f with agenda := f.agenda.filter (v.clock < ·.1) }
    taken := v.dues.length }

def mayFire (v : View σ) : Bool :=
  match v.connection with
  | some f => !f.alive || (v.owed.isEmpty && f.monitor.lockFree)
  | none => true

def fire (v : View σ) : View σ :=
  { v with connection := v.connection.map Face.broadcast, taken := v.taken - 1 }

theorem scan_of_dues_eq_nil (hdues : v.dues = []) (htaken : v.taken = 0) : v.scan = v := by
  unfold dues at hdues
  unfold scan dues
  rw [hdues]
  apply View.ext
  . rfl
  . dsimp only
    cases hv : v.connection with
    | none => rfl
    | some f =>
      rw [hv] at hdues
      have hahead : f.agenda.filter (v.clock < ·.1) = f.agenda := by
        rw [List.filter_eq_self]
        intro x hx
        have := List.filter_eq_nil_iff.1 hdues x hx
        simpa using this
      simp only [Option.map_some, hahead]
  . rfl
  . exact htaken.symm

end View

namespace Midway

variable {σ : Type} {E : Engine σ} {w w' : Midway σ} {n k i j : Nat} {c : Connection σ} {t : Turn σ}

def view (w : Midway σ) (i : Nat) : View σ where
  clock := w.host.clock
  connection := w.host.connections[i]?.map (·.face i w.host.service)
  owed := w.owed i
  taken := w.host.service.batch.countP fun e => decide (e.2 = i)

theorem view_congr (hclock : w'.host.clock = w.host.clock)
    (hconnection : w'.host.connections[i]? = w.host.connections[i]?) (howed : w'.owed i = w.owed i)
    (hentries : Connection.entries i w'.host.service = Connection.entries i w.host.service)
    (hbatch : (w'.host.service.batch.countP fun e => decide (e.2 = i)) =
      w.host.service.batch.countP fun e => decide (e.2 = i))
    : w'.view i = w.view i := by
  apply View.ext hclock _ howed hbatch
  change w'.host.connections[i]?.map _ = _
  rw [hconnection]
  cases h : w.host.connections[i]? with
  | none => simp [view, h]
  | some c =>
    simp only [view, h, Option.map_some]
    rw [Connection.face_congr hentries]

theorem view_service {service : Timer.Service Nat}
    (hentries : Connection.entries i service = Connection.entries i w.host.service)
    (hbatch : (service.batch.countP fun e => decide (e.2 = i)) =
      w.host.service.batch.countP fun e => decide (e.2 = i))
    : view { w with host := { w.host with service } } i = w.view i :=
  view_congr rfl rfl rfl hentries hbatch

theorem view_awake (hbatch : w.host.service.batch = []) (i : Nat)
    : view { w with host := { w.host with service := { w.host.service with worker := .awake } } } i = w.view i := by
  apply view_service
  . rfl
  . rw [hbatch]
    rfl

theorem view_turned (hc : w.host.connections[i]? = some c) (hbatch : t.service.batch = w.host.service.batch)
    : (w.turned i t).view i =
        { w.view i with connection := some (t.connection.face i t.service), owed := t.owed } := by
  apply View.ext
  . rfl
  . change (w.host.replace i (t.connection, t.service)).connections[i]?.map _ = _
    rw [connections_replace hc]
    rfl
  . exact if_pos rfl
  . change t.service.batch.countP _ = _
    rw [hbatch]
    rfl

theorem view_turned_of_ne (hj : j ≠ i) (hbatch : t.service.batch = w.host.service.batch)
    (hentries : Connection.entries j t.service = Connection.entries j w.host.service)
    : (w.turned i t).view j = w.view j := by
  apply view_congr
  . rfl
  . exact connections_replace_of_ne hj _
  . exact if_neg hj
  . exact hentries
  . change t.service.batch.countP _ = _
    rw [hbatch]

theorem view_opened (E : Engine σ) (label : String) (s : σ) (hlength : w.host.connections.length = i)
    (hentries : Connection.entries i w.host.service = [])
    : view { w with host := (w.host.openConnection E label s).host } i =
        { w.view i with connection := some ⟨Monitor.init E label s, true, 1, fun _ => none, []⟩ } := by
  apply View.ext
  . rfl
  . have hopened : (w.host.openConnection E label s).host.connections[i]? =
        some { monitor := Monitor.init E label s, notifiers := 1 } := by
      rw [← hlength]
      exact List.getElem?_concat_length
    simp only [view, hopened, Option.map_some]
    change some (Connection.face i w.host.service _) = _
    unfold Connection.face
    rw [hentries]
    congr
    funext d
    cases d <;> rfl
  . rfl
  . rfl

theorem view_opened_of_ne (E : Engine σ) (label : String) (s : σ) (hlength : w.host.connections.length ≠ i)
    : view { w with host := (w.host.openConnection E label s).host } i = w.view i := by
  apply view_congr
  . rfl
  . change (w.host.connections ++ [_])[i]? = _
    by_cases hlt : i < w.host.connections.length
    . rw [List.getElem?_append_left hlt]
    . rw [List.getElem?_eq_none (by simp; omega), List.getElem?_eq_none (by omega)]
  . rfl
  . rfl
  . rfl

/-!
What the runs have to do with what connections see.
-/

theorem Run.remembered (run : Run E n w) {key : Timer.Key} (hmem : (key, i) ∈ w.host.service.queue.entries)
    : ∃ c d, w.host.connections[i]? = some c ∧ c.key d = some key := by
  obtain ⟨c, hc, d, hkey, _⟩ := run.tidy.owned key i hmem
  exact ⟨c, d, hc, hkey⟩

theorem Run.entries_eq_nil (run : Run E n w) (hnone : w.host.connections[i]? = none)
    : Connection.entries i w.host.service = [] := by
  apply List.filter_eq_nil_iff.2
  rintro ⟨key, j⟩ hmem hj
  rw [decide_eq_true_eq] at hj
  subst hj
  obtain ⟨c, _, hc, _⟩ := run.remembered hmem
  rw [hnone] at hc
  contradiction

theorem Run.marked (run : Run E n w) (few : n < UInt64.size) (hc : w.host.connections[i]? = some c)
    : c.Marked w.host.service where
  ordered := (run.kept few).watchful.ordered
  fresh := by
    rintro ⟨key, j⟩ hmem
    obtain ⟨c, d, hc, hkey⟩ := run.remembered hmem
    rw [(run.kept few).keyed.numbered]
    rw [← Host.key?_eq hc] at hkey
    exact (run.kept few).keyed.older j d key hkey
  older := by
    intro d k hkey
    rw [(run.kept few).keyed.numbered]
    rw [← Host.key?_eq hc] at hkey
    exact (run.kept few).keyed.older i d k hkey
  distinct := by
    intro d d' k hkey hkey'
    rw [← Host.key?_eq hc] at hkey hkey'
    exact ((run.kept few).keyed.distinct i i d d' k hkey hkey').2

theorem Run.key_ne (run : Run E n w) (few : n < UInt64.size) (hc : w.host.connections[i]? = some c) (hj : j ≠ i)
    {key : Timer.Key} (hmem : (key, j) ∈ w.host.service.queue.entries) (d : Direction)
    : c.key d ≠ some key := by
  intro hkey
  obtain ⟨c', d', hc', hkey'⟩ := run.remembered hmem
  rw [← Host.key?_eq hc] at hkey
  rw [← Host.key?_eq hc'] at hkey'
  exact hj ((run.kept few).keyed.distinct j i d' d key hkey' hkey).1

theorem Run.view_turned_of_ne (run : Run E n w) (few : n < UInt64.size) {m : OwnMove}
    (ht : w.turn? E i m = some t) (hj : j ≠ i)
    : (w.turned i t).view j = w.view j := by
  obtain ⟨c, hc, ht⟩ := Option.bind_eq_some_iff.1 ht
  apply Midway.view_turned_of_ne hj (Connection.batch_turn ht)
  exact Connection.entries_turn_of_ne (run.marked few hc) hj (fun key hmem => run.key_ne few hc hj hmem) ht

theorem Run.view_scan (run : Run E n w) (few : n < UInt64.size) (i : Nat)
    : view { w with host := { w.host with service := w.host.service.scan w.host.clock } } i = (w.view i).scan := by
  have hwatchful := (run.kept few).watchful
  obtain ⟨hleft, htaken⟩ := Timer.Service.scan_eq_filter hwatchful.open_ hwatchful.ordered w.host.clock
  have hentries : Connection.entries i (w.host.service.scan w.host.clock) =
      (Connection.entries i w.host.service).filter fun e => decide (w.host.clock < e.1.deadline) := by
    unfold Connection.entries
    rw [hleft, filter_swap]
  have hdues : ((w.host.service.scan w.host.clock).batch.countP fun e => decide (e.2 = i)) =
      ((Connection.entries i w.host.service).filter fun e => decide (e.1.deadline ≤ w.host.clock)).length := by
    rw [htaken, List.countP_eq_length_filter, filter_swap]
    rfl
  apply View.ext
  . rfl
  . simp only [view, View.scan, Option.map_map]
    cases w.host.connections[i]? with
    | none => rfl
    | some c =>
      simp only [Option.map_some, Function.comp_apply, Connection.face, hentries, List.filter_map]
      rfl
  . rfl
  . change List.countP _ _ = (w.view i).dues.length
    rw [hdues]
    unfold View.dues view
    dsimp only
    cases hc : w.host.connections[i]? with
    | none => rw [run.entries_eq_nil hc]; rfl
    | some c =>
      simp only [Option.map_some, Connection.face, List.filter_map, List.length_map]
      rfl

theorem modify_eq_set {connections : List (Connection σ)} (hc : connections[i]? = some c)
    (f : Connection σ → Connection σ)
    : connections.modify i f = connections.set i (f c) := by
  have : Inhabited (Connection σ) := ⟨c⟩
  rw [List.modify_eq_set, hc, Option.getD_some]

/--
The state after the worker has fired an entry of connection `i`, and `rest` is left to fire.
-/
def fired (w : Midway σ) (i : Nat) (rest : List (Timer.Key × Nat)) : Midway σ :=
  { w with
    host :=
      { w.host with
        connections := w.host.connections.modify i fun c =>
          if c.alive then { c with monitor := c.monitor.broadcast } else c
        service := { w.host.service with worker := .firing rest } } }

theorem perform_of_firing {e : Timer.Key × Nat} {rest : List (Timer.Key × Nat)}
    (hworker : w.host.service.worker = .firing (e :: rest))
    : w.perform E .work =
        if w.mayWork then
          (w.host.fire e.2).map fun h =>
            (0, { w with host := { h with service := { w.host.service with worker := .firing rest } } })
        else none := by
  simp only [perform, Host.work, Timer.Service.step, hworker, Option.bind_eq_bind, Option.bind_some]
  cases w.host.fire e.2 <;> rfl

theorem perform_firing {e : Timer.Key × Nat} {rest : List (Timer.Key × Nat)}
    (hworker : w.host.service.worker = .firing (e :: rest))
    : w.perform E .work = if (w.view e.2).mayFire then some (0, w.fired e.2 rest) else none := by
  rw [perform_of_firing hworker]
  cases hc : w.host.connections[e.2]? with
  | none =>
    have hsame : w.fired e.2 rest =
        { w with host := { w.host with service := { w.host.service with worker := .firing rest } } } := by
      unfold fired
      rw [List.modify_eq_self (List.getElem?_eq_none_iff.1 hc)]
    simp [mayWork, hworker, Host.fire, View.mayFire, view, hc, hsame]
  | some c =>
    have hset := modify_eq_set hc fun c => if c.alive then { c with monitor := c.monitor.broadcast } else c
    have hmay : w.mayWork = (!c.alive || (w.owed e.2).isEmpty) := by
      unfold mayWork
      rw [hworker]
      dsimp only
      rw [hc]
    have hmayFire : (w.view e.2).mayFire = (!c.alive || ((w.owed e.2).isEmpty && c.monitor.lockFree)) := by
      unfold View.mayFire view
      rw [hc]
      rfl
    rw [hmay, hmayFire]
    unfold fired Host.fire
    rw [hc, hset]
    cases halive : c.alive with
    | false =>
      -- nobody is woken, and nothing changes but the service
      have hself : w.host.connections.set e.2 c = w.host.connections := congrArg Host.connections (replace_self hc)
      simp [halive, hself]
    | true =>
      cases (w.owed e.2).isEmpty with
      | false => rfl
      | true => cases hfree : c.monitor.lockFree <;> simp [halive, Monitor.alarm, Monitor.locked, hfree]

theorem view_fired {e : Timer.Key × Nat} {rest : List (Timer.Key × Nat)}
    (hworker : w.host.service.worker = .firing (e :: rest)) (i : Nat)
    : (w.fired e.2 rest).view i = if e.2 = i then (w.view i).fire else w.view i := by
  have hbatch : w.host.service.batch = e :: rest := by
    unfold Timer.Service.batch
    rw [hworker]
  have hrest : (w.fired e.2 rest).host.service.batch = rest := rfl
  have hentries : ∀ j, Connection.entries j (w.fired e.2 rest).host.service = Connection.entries j w.host.service :=
    fun _ => rfl
  split
  . next heq =>
    subst heq
    apply View.ext
    . rfl
    . simp only [view, View.fire, fired, List.getElem?_modify, if_true]
      cases w.host.connections[e.2]? with
      | none => rfl
      | some c =>
        have hlive : Face.alive (c.face e.2 w.host.service) = c.alive := rfl
        simp only [Option.map_some, Option.map_eq_map, Face.broadcast, hlive]
        cases c.alive <;> rfl
    . rfl
    . change rest.countP _ = (w.host.service.batch.countP _) - 1
      rw [hbatch, List.countP_cons]
      simp
  . next hne =>
    apply view_congr
    . rfl
    . simp only [fired, List.getElem?_modify, if_neg hne]
      cases w.host.connections[i]? <;> rfl
    . rfl
    . exact hentries i
    . rw [hrest, hbatch, List.countP_cons]
      simp [hne]

/-!
The run in which a connection is alone.
-/

theorem occurrence_work_of_batch_nil (hbatch : w.host.service.batch = []) (w' : Midway σ) (i : Nat)
    : (Event.mk w .work w').occurrence E i = none := by
  unfold Timer.Service.batch at hbatch
  unfold Event.occurrence
  dsimp only
  split
  . next hworker =>
    rw [hworker] at hbatch
    contradiction
  . rfl

theorem account_append_singleton (E : Engine σ) (i : Nat) (trace : List (Event σ)) (x : Event σ)
    : account E i (trace ++ [x]) = account E i trace ++ (x.occurrence E i).toList := by
  unfold account
  rw [List.filterMap_append]
  cases hx : x.occurrence E i <;> simp [hx]

/--
A run of a host that has no connection but one, to which the same happens as to connection `i` of another run.
-/
structure Twin (E : Engine σ) (i : Nat) (trace : List (Event σ)) (n : Nat) (w : Midway σ)
    (trace' : List (Event σ)) (n' : Nat) (w' : Midway σ) : Prop where
  run : TracedRun E trace' n' w'
  view : w'.view 0 = w.view i
  account : account E 0 trace' = account E i trace
  fewer : n' ≤ n
  alone : w'.host.connections.length ≤ 1
  taken : ∀ e ∈ w'.host.service.batch, e.2 = 0
  -- apart from what happens to the connection, only the worker moves
  only : ∀ x ∈ trace', (x.occurrence E 0).isSome = true ∨ x.move = .work

variable {trace trace' : List (Event σ)} {n' k' : Nat} {w₁ w₁' : Midway σ} {move move' : Move σ}

theorem Twin.start (clock : Instant) (i : Nat)
    : Twin E i [] 0 { host := { clock } } [] 0 { host := { clock } } where
  run := .start clock
  view := rfl
  account := rfl
  fewer := Nat.le_refl 0
  alone := Nat.zero_le 1
  taken _ he := nomatch he
  only _ hx := nomatch hx

theorem Twin.stay (h : Twin E i trace n w trace' n' w') (hview : w₁.view i = w.view i)
    (hnone : (Event.mk w move w₁).occurrence E i = none)
    : Twin E i (trace ++ [⟨w, move, w₁⟩]) (n + k) w₁ trace' n' w' where
  run := h.run
  view := h.view.trans hview.symm
  account := by
    rw [account_append_singleton, hnone, h.account]
    exact (List.append_nil _).symm
  fewer := Nat.le_add_right_of_le h.fewer
  alone := h.alone
  taken := h.taken
  only := h.only

theorem Twin.both (h : Twin E i trace n w trace' n' w') (hmove : w'.perform E move' = some (k', w₁'))
    (hview : w₁'.view 0 = w₁.view i)
    (hoccurrence : (Event.mk w' move' w₁').occurrence E 0 = (Event.mk w move w₁).occurrence E i) (hk : k' ≤ k)
    (halone : w₁'.host.connections.length ≤ 1) (htaken : ∀ e ∈ w₁'.host.service.batch, e.2 = 0)
    (honly : ((Event.mk w' move' w₁').occurrence E 0).isSome = true ∨ move' = .work)
    : Twin E i (trace ++ [⟨w, move, w₁⟩]) (n + k) w₁ (trace' ++ [⟨w', move', w₁'⟩]) (n' + k') w₁' where
  run := h.run.step hmove
  view := hview
  account := by
    rw [account_append_singleton, account_append_singleton, h.account, hoccurrence]
  fewer := Nat.add_le_add h.fewer hk
  alone := halone
  taken := htaken
  only := by
    intro x hx
    rcases List.mem_append.1 hx with hx | hx
    . exact h.only x hx
    . cases List.mem_singleton.1 hx
      exact honly

theorem Twin.opened (h : Twin E i trace n w trace' n' w') (run : Run E n w) (label : String) (s : σ)
    : ∃ trace₁' n₁' w₁', Twin E i
        (trace ++ [⟨w, .opened label s, { w with host := (w.host.openConnection E label s).host }⟩]) (n + 0)
        { w with host := (w.host.openConnection E label s).host } trace₁' n₁' w₁' := by
  by_cases hlength : w.host.connections.length = i
  . have hnone : w.host.connections[i]? = none := List.getElem?_eq_none (Nat.le_of_eq hlength)
    have hnone' : w'.host.connections[0]? = none := by
      have hview := congrArg View.connection h.view
      simpa [Midway.view, hnone] using hview
    have hlength' : w'.host.connections.length = 0 := Nat.le_zero.1 (List.getElem?_eq_none_iff.1 hnone')
    have hview := view_opened E label s hlength (run.entries_eq_nil hnone)
    have hview' := view_opened E label s hlength' (h.run.run.entries_eq_nil hnone')
    have hmove' : w'.perform E (.opened label s) =
        some (0, { w' with host := (w'.host.openConnection E label s).host }) := rfl
    refine ⟨_, _, _, h.both hmove' ?_ ?_ (Nat.le_refl 0) ?_ h.taken (Or.inl ?_)⟩
    . rw [hview, hview', h.view]
    . simp [Event.occurrence, hlength, hlength']
    . simp [Host.openConnection, hlength']
    . simp [Event.occurrence, hlength']
  . refine ⟨_, _, _, h.stay (view_opened_of_ne E label s hlength) ?_⟩
    simp [Event.occurrence, hlength]

theorem Twin.own (h : Twin E i trace n w trace' n' w') (run : Run E n w) (few : n < UInt64.size) {j : Nat}
    {m : OwnMove} (ht : w.turn? E j m = some t)
    : ∃ trace₁' n₁' w₁', Twin E i (trace ++ [⟨w, .own j m, w.turned j t⟩]) (n + t.scheduled) (w.turned j t)
        trace₁' n₁' w₁' := by
  by_cases hj : j = i
  . subst hj
    obtain ⟨c, hc, hturn⟩ := Option.bind_eq_some_iff.1 ht
    have hconnection := congrArg View.connection h.view
    simp only [Midway.view, hc, Option.map_some] at hconnection
    obtain ⟨c', hc', hface⟩ := Option.map_eq_some_iff.1 hconnection
    have hclock : w'.host.clock = w.host.clock := congrArg View.clock h.view
    have howed : w'.owed 0 = w.owed j := congrArg View.owed h.view
    have hmarked := h.run.run.marked (Nat.lt_of_le_of_lt h.fewer few) hc'
    obtain ⟨t', hturn', hstep, hrest, hscheduled, hface'⟩ :=
      Connection.turn_congr (run.marked few hc) hmarked hface hturn
    rw [← hclock, ← howed] at hturn'
    have ht' : w'.turn? E 0 m = some t' := by
      rw [turn?, hc', Option.bind_some, hturn']
    have hmove : w'.perform E (.own 0 m) = some (t'.scheduled, w'.turned 0 t') := by
      simp only [perform, ht']
    have hbatch := Connection.batch_turn hturn'
    refine ⟨_, _, _, h.both hmove ?_ ?_ (Nat.le_of_eq hscheduled) ?_ ?_ (Or.inl ?_)⟩
    . rw [view_turned hc (Connection.batch_turn hturn), view_turned hc' hbatch, h.view, hface', hrest]
    . simp [Event.occurrence, ht, ht', hstep]
    . simpa [turned, owe, Host.replace] using h.alone
    . change ∀ e ∈ t'.service.batch, e.2 = 0
      rw [hbatch]
      exact h.taken
    . simp [Event.occurrence]
  . refine ⟨_, _, _, h.stay (run.view_turned_of_ne few ht (Ne.symm hj)) ?_⟩
    simp [Event.occurrence, hj]

theorem perform_awake (hworker : w.host.service.worker = .awake)
    : w.perform E .work =
        some (0, { w with host := { w.host with service := w.host.service.scan w.host.clock } }) := by
  simp [perform, mayWork, Host.work, Timer.Service.step, hworker]

theorem alarm?_eq (w : Midway σ) (i : Nat)
    : w.alarm? i = (w.view i).connection.bind fun f => if f.alive then f.monitor.alarm else none := by
  unfold alarm? view
  cases w.host.connections[i]? <;> rfl

theorem exists_due (h : (w.view i).dues ≠ [])
    : ∃ e ∈ w.host.service.queue.entries, e.1.deadline ≤ w.host.clock := by
  unfold View.dues view at h
  dsimp only at h
  split at h
  . next f hf =>
    obtain ⟨c, _, rfl⟩ := Option.map_eq_some_iff.1 hf
    obtain ⟨x, hx⟩ := List.exists_mem_of_ne_nil _ h
    obtain ⟨hmem, hdue⟩ := List.mem_filter.1 hx
    obtain ⟨e, he, rfl⟩ := List.mem_map.1 hmem
    exact ⟨e, (List.mem_filter.1 he).1, of_decide_eq_true hdue⟩
  . contradiction

theorem Twin.awaken (h : Twin E i trace n w trace' n' w') (few : n < UInt64.size)
    (hbatch : w'.host.service.batch = []) (hdues : (w'.view 0).dues ≠ [])
    : ∃ trace₁' w₁', Twin E i trace n w trace₁' n' w₁' ∧ w₁'.host.service.worker = .awake := by
  -- its worker has fired all that it took, and does not sleep any longer
  have hwatchful := (h.run.run.kept (Nat.lt_of_le_of_lt h.fewer few)).watchful
  obtain ⟨e, he, hdue⟩ := exists_due hdues
  obtain ⟨⟨fired, service⟩, hstep⟩ := Option.isSome_iff_exists.1 (hwatchful.isSome_step (Or.inl ⟨he, hdue⟩))
  rcases Timer.Service.of_step_eq_some hstep with ⟨_, hawake, _⟩ | ⟨e, rest, hfiring, _⟩ | ⟨rfl, _, rfl⟩
  . exact ⟨trace', w', h, hawake⟩
  . unfold Timer.Service.batch at hbatch
    rw [hfiring] at hbatch
    contradiction
  . have hmay : w'.mayWork = true := by
      rw [mayWork_iff]
      intro e rest c hfiring
      unfold Timer.Service.batch at hbatch
      rw [hfiring] at hbatch
      contradiction
    have hmove : w'.perform E .work =
        some (0, { w' with host := { w'.host with service := { w'.host.service with worker := .awake } } }) := by
      simp [perform, hmay, Host.work, hstep]
    have hnone := occurrence_work_of_batch_nil (E := E) hbatch
      { w' with host := { w'.host with service := { w'.host.service with worker := .awake } } } 0
    refine ⟨_, _, ⟨h.run.step hmove, ?_, ?_, h.fewer, h.alone, ?_, ?_⟩, rfl⟩
    . rw [← h.view]
      exact view_awake hbatch 0
    . rw [account_append_singleton, hnone, h.account]
      exact List.append_nil _
    . simp [Timer.Service.batch]
    . intro x hx
      rcases List.mem_append.1 hx with hx | hx
      . exact h.only x hx
      . cases List.mem_singleton.1 hx
        exact Or.inr rfl

theorem Twin.own_entries (h : Twin E i trace n w trace' n' w')
    : ∀ e ∈ w'.host.service.queue.entries, e.2 = 0 := by
  rintro ⟨key, j⟩ hmem
  obtain ⟨c, _, hc, _⟩ := h.run.run.remembered hmem
  have hlt := (List.getElem?_eq_some_iff.1 hc).1
  exact Nat.lt_one_iff.1 (Nat.lt_of_lt_of_le hlt h.alone)

theorem Twin.scan (h : Twin E i trace n w trace' n' w') (run : Run E n w) (few : n < UInt64.size)
    (hworker : w.host.service.worker = .awake)
    : ∃ trace₁' n₁' w₁', Twin E i
        (trace ++ [⟨w, .work, { w with host := { w.host with service := w.host.service.scan w.host.clock } }⟩]) (n + 0)
        { w with host := { w.host with service := w.host.service.scan w.host.clock } } trace₁' n₁' w₁' := by
  have hbatch : ∀ {w : Midway σ}, w.host.service.worker = .awake → w.host.service.batch = [] := by
    intro w hawake
    unfold Timer.Service.batch
    rw [hawake]
  have htaken : (w.view i).taken = 0 := by
    change w.host.service.batch.countP _ = 0
    rw [hbatch hworker]
    rfl
  have hview := run.view_scan few i
  have hnone := occurrence_work_of_batch_nil (E := E) (hbatch hworker)
    { w with host := { w.host with service := w.host.service.scan w.host.clock } } i
  by_cases hdues : (w.view i).dues = []
  . rw [View.scan_of_dues_eq_nil hdues htaken] at hview
    exact ⟨_, _, _, h.stay hview hnone⟩
  . have hbatch' : w'.host.service.batch = [] := by
      rw [← h.view] at htaken
      apply List.eq_nil_iff_forall_not_mem.2
      intro e he
      have hother := List.countP_eq_zero.1 htaken e he
      simp [h.taken e he] at hother
    rw [← h.view] at hdues
    obtain ⟨trace₁', w₁', h₁, hworker'⟩ := h.awaken few hbatch' hdues
    have few' := Nat.lt_of_le_of_lt h₁.fewer few
    have hwatchful := (h₁.run.run.kept few').watchful
    have hnone' := occurrence_work_of_batch_nil (E := E) (hbatch hworker')
      { w₁' with host := { w₁'.host with service := w₁'.host.service.scan w₁'.host.clock } } 0
    refine ⟨_, _, _, h₁.both (perform_awake hworker') ?_ ?_ (Nat.le_refl 0) h₁.alone ?_ (Or.inr rfl)⟩
    . rw [hview, h₁.run.run.view_scan few' 0, h₁.view]
    . rw [hnone, hnone']
    . intro e he
      apply h₁.own_entries e
      change e ∈ (w₁'.host.service.scan w₁'.host.clock).batch at he
      rw [(Timer.Service.scan_eq_filter hwatchful.open_ hwatchful.ordered _).2] at he
      exact (List.mem_filter.1 he).1

theorem Twin.fire (h : Twin E i trace n w trace' n' w') {e : Timer.Key × Nat} {rest : List (Timer.Key × Nat)}
    (hworker : w.host.service.worker = .firing (e :: rest)) (hmay : (w.view e.2).mayFire = true)
    : ∃ trace₁' n₁' w₁', Twin E i (trace ++ [⟨w, .work, w.fired e.2 rest⟩]) (n + 0) (w.fired e.2 rest)
        trace₁' n₁' w₁' := by
  by_cases heq : e.2 = i
  . -- the connection that is alone has as many entries to fire
    have htaken : 0 < (w.view i).taken := by
      have hbatch : w.host.service.batch = e :: rest := by
        unfold Timer.Service.batch
        rw [hworker]
      change 0 < w.host.service.batch.countP _
      rw [hbatch, List.countP_cons]
      simp [heq]
    rw [← h.view] at htaken
    obtain ⟨e', rest', hworker'⟩ : ∃ e' rest', w'.host.service.worker = .firing (e' :: rest') := by
      obtain ⟨e', he', _⟩ := List.countP_pos_iff.1 htaken
      unfold Timer.Service.batch at he'
      split at he'
      . next batch hworker' =>
        obtain ⟨first, rest, rfl⟩ := List.exists_cons_of_ne_nil (List.ne_nil_of_mem he')
        exact ⟨first, rest, hworker'⟩
      . contradiction
    have hbatch' : w'.host.service.batch = e' :: rest' := by
      unfold Timer.Service.batch
      rw [hworker']
    have hzero : e'.2 = 0 := h.taken e' (by simp [hbatch'])
    have hmove : w'.perform E .work = some (0, w'.fired e'.2 rest') := by
      rw [perform_firing hworker', hzero, h.view, ← heq, if_pos hmay]
    refine ⟨_, _, _, h.both hmove ?_ ?_ (Nat.le_refl 0) ?_ ?_ (Or.inr rfl)⟩
    . rw [view_fired hworker, view_fired hworker', if_pos heq, if_pos hzero, h.view]
    . have halarm : w'.alarm? 0 = w.alarm? i := by
        rw [alarm?_eq, alarm?_eq, h.view]
      simp [Event.occurrence, hworker, hworker', heq, hzero, halarm]
    . simpa [fired] using h.alone
    . intro x hx
      exact h.taken x (by rw [hbatch']; exact List.mem_cons_of_mem e' hx)
  . refine ⟨_, _, _, h.stay ?_ ?_⟩
    . rw [view_fired hworker, if_neg heq]
    . simp [Event.occurrence, hworker, heq]

theorem Twin.work (h : Twin E i trace n w trace' n' w') (run : Run E n w) (few : n < UInt64.size)
    (hmove : w.perform E .work = some (k, w₁))
    : ∃ trace₁' n₁' w₁', Twin E i (trace ++ [⟨w, .work, w₁⟩]) (n + k) w₁ trace₁' n₁' w₁' := by
  have hwork := hmove
  unfold perform at hwork
  dsimp only at hwork
  split at hwork
  . split at hwork
    . next r hr =>
      cases hwork
      rcases Host.of_work_eq_some hr with ⟨hworker, hhost⟩ | ⟨e, rest, hworker, _⟩ | ⟨hbatch, hhost⟩
      . rw [hhost]
        exact h.scan run few hworker
      . rw [perform_firing hworker] at hmove
        split at hmove
        . next hmay =>
          injection hmove with hmove
          injection hmove with _ hfired
          rw [← hfired]
          exact h.fire hworker hmay
        . contradiction
      . refine ⟨_, _, _, h.stay ?_ (occurrence_work_of_batch_nil hbatch _ i)⟩
        rw [hhost]
        exact view_awake hbatch i
    . contradiction
  . contradiction

theorem Twin.step (h : Twin E i trace n w trace' n' w') (run : Run E n w) (few : n < UInt64.size)
    (hmove : w.perform E move = some (k, w₁))
    : ∃ trace₁' n₁' w₁', Twin E i (trace ++ [⟨w, move, w₁⟩]) (n + k) w₁ trace₁' n₁' w₁' := by
  cases move with
  | opened label s =>
    cases hmove
    exact h.opened run label s
  | own j m =>
    unfold perform at hmove
    dsimp only at hmove
    split at hmove
    . next t ht =>
      cases hmove
      exact h.own run few ht
    . contradiction
  | work => exact h.work run few hmove
  | stirWorker =>
    unfold perform at hmove
    dsimp only at hmove
    split at hmove
    . next r hr =>
      cases hmove
      refine ⟨_, _, _, h.stay ?_ rfl⟩
      rw [Host.of_stirWorker_eq_some hr]
      apply view_service
      . unfold Connection.entries
        rw [Timer.Service.queue_notify]
      . rw [Timer.Service.batch_notify]
    . contradiction
  | wait ms =>
    cases hmove
    have hmove' : w'.perform E (.wait ms) =
        some (0, { w' with host := { w'.host with clock := w'.host.clock + ms } }) := rfl
    refine ⟨_, _, _, h.both hmove' ?_ rfl (Nat.le_refl 0) h.alone h.taken (Or.inl rfl)⟩
    have hlater : ∀ (w : Midway σ) (i : Nat),
        Midway.view { w with host := { w.host with clock := w.host.clock + ms } } i =
          { w.view i with clock := (w.view i).clock + ms } := fun _ _ => rfl
    rw [hlater, hlater, h.view]

theorem TracedRun.twin (run : TracedRun E trace n w) (few : n < UInt64.size) (i : Nat)
    : ∃ trace' n' w', Twin E i trace n w trace' n' w' := by
  induction run with
  | start clock => exact ⟨_, _, _, .start clock i⟩
  | step run hmove ih =>
    have few' := Nat.lt_of_le_of_lt (Nat.le_add_right _ _) few
    obtain ⟨trace', n', w', h⟩ := ih few'
    exact h.step run.run few' hmove

/--
Whatever happens to a connection, among any number of others, happens in the same way to a connection that is alone
with a service of its own: the same moves are made, at the same instants, with the same answers and the same state of
the connection and its engine, and the same entries fire in between. In the end the connection and its threads are
the same, whichever of these are asleep, and its alarms are armed, pending and about to fire for the same instants,
under other numbers.
-/
theorem TracedRun.isolated (run : TracedRun E trace n w) (few : n < UInt64.size) (i : Nat)
    : ∃ trace' n' w', TracedRun E trace' n' w' ∧ n' ≤ n ∧ w'.host.connections.length ≤ 1 ∧
        (∀ x ∈ trace', (x.occurrence E 0).isSome = true ∨ x.move = .work) ∧
        account E 0 trace' = account E i trace ∧ w'.view 0 = w.view i := by
  obtain ⟨trace', n', w', h⟩ := run.twin few i
  exact ⟨trace', n', w', h.run, h.fewer, h.alone, h.only, h.account, h.view⟩

/--
Two connections have all their deadlines at the same instant. One of them is closed while a reader of the other one
sleeps, and the worker takes what is left of both together. One entry of the reader's connection has fired, one is
about to, and one is pending.
-/
theorem neighbour_isolated
    : ∃ trace n w, TracedRun Metered.engine trace n w ∧ n < UInt64.size ∧
        w.host.service.queue.entries = [(⟨9, 4⟩, 1)] ∧ w.host.service.batch = [(⟨5, 3⟩, 1)] ∧
        ∃ trace' n' w', TracedRun Metered.engine trace' n' w' ∧ w'.host.connections.length ≤ 1 ∧
          account Metered.engine 0 trace' = account Metered.engine 1 trace ∧ w'.view 0 = w.view 1 := by
  have run := TracedRun.replayed (E := Metered.engine) 0
    [.opened "a" {}, .opened "b" {}, .own 0 (.act (.request (.setDeadline .both (some 5)))),
      .own 1 (.act (.request (.setDeadline .both (some 5)))), .own 0 .reset, .own 1 .reset, .own 0 .reset,
      .own 1 .reset, .own 1 (.act (.enter 7 (.read 3))), .own 1 (.act (.run 7)), .own 0 (.act (.request .close)),
      .own 0 .reset, .wait 5, .work, .own 1 (.act (.request (.setDeadline (.one .writing) (some 9)))), .own 1 .reset,
      .work, .own 0 .reset, .work] (by decide +kernel)
  obtain ⟨trace', n', w', run', _, halone, _, haccount, hview⟩ := run.isolated (by decide +kernel) 1
  exact ⟨_, _, _, run, by decide +kernel, by decide +kernel, by decide +kernel, trace', n', w', run', halone, haccount,
    hview⟩

end Midway

end BlockingStream

import BlockingStream.Proofs.Fate

/-!
This module contains how long the worker of a timer service sleeps, whatever its users and the clock do meanwhile.
It never sleeps past the first entry: an entry that comes in front of all others ends its sleep, and the cancelling
of the entry that it sleeps for only makes it wake up too early. So an entry that is due waits for nothing but the
work that the worker has already taken on.
-/

namespace BlockingStream.Timer

variable {α : Type} {start w w' : Clocked α} {trace : List (Event α)} {x : Event α} {action : TimerAction α}
  {fired? : Option (Key × α)} {e : Key × α} {wakeAt : Option Instant}

namespace Service

variable {s s' : Service α} {due now : Instant} {a : α} {fired : Option (Key × α)}

/--
The service has ended, and its worker does not sleep any more.
-/
structure Ended (s : Service α) : Prop where
  shutdown : s.shutdown = true
  up : ∀ wakeAt, s.worker ≠ .asleep wakeAt

/--
How many steps the worker still makes until it has looked at the queue.
-/
def lookWithin (s : Service α) : Nat :=
  match s.worker with
  | .awake => 1
  | .firing batch => batch.length + 2
  | .asleep _ => 2
  | .stopped => 0

theorem ended_stop (s : Service α) : s.stop.Ended where
  shutdown := by
    unfold stop
    rw [shutdown_notify]
  up := worker_notify_ne _

theorem Watchful.asleep_cases (h : s.Watchful) (hasleep : s.worker = .asleep wakeAt)
    : wakeAt = none ∧ s.queue.entries = [] ∨
      ∃ wake, wakeAt = some wake ∧ ∀ e ∈ s.queue.entries, wake ≤ e.1.deadline := by
  cases wakeAt with
  | none =>
    left
    refine ⟨rfl, List.eq_nil_iff_forall_not_mem.2 ?_⟩
    intro e he
    obtain ⟨due, hdue, _⟩ := h.wakes none hasleep e he
    contradiction
  | some wake =>
    right
    refine ⟨wake, rfl, ?_⟩
    intro e he
    obtain ⟨due, hdue, hle⟩ := h.wakes (some wake) hasleep e he
    cases hdue
    exact hle

theorem asleep_of_schedule (h : (s.schedule due a).2.worker = .asleep wakeAt) : s.worker = .asleep wakeAt := by
  simp only [schedule] at h
  split at h
  . exact absurd h (worker_notify_ne _ wakeAt)
  . exact h

theorem becomesHead_of_first (hfirst : ∀ e ∈ s.queue.entries, due < e.1.deadline) : s.becomesHead due = true := by
  unfold becomesHead Queue.head
  cases hentries : s.queue.entries with
  | nil => rfl
  | cons first rest =>
    rw [hentries] at hfirst
    simpa using hfirst first List.mem_cons_self

theorem worker_schedule_ne (hfirst : ∀ e ∈ s.queue.entries, due < e.1.deadline) (a : α) (wakeAt : Option Instant)
    : (s.schedule due a).2.worker ≠ .asleep wakeAt := by
  simp only [schedule, becomesHead_of_first hfirst, if_true]
  exact worker_notify_ne _ wakeAt

theorem limit_of_scan (h : (s.scan now).worker = .asleep wakeAt)
    : s.shutdown = false ∧ (s.scan now).queue.head = wakeAt := by
  cases hopen : s.shutdown with
  | true =>
    rw [scan, hopen] at h
    contradiction
  | false =>
    refine ⟨rfl, ?_⟩
    rcases scan_cases now hopen with ⟨_, hscan⟩ | hscan
    . rw [hscan] at h ⊢
      injection h
    . rw [hscan] at h
      contradiction

theorem lookWithin_notify_le (s : Service α) : s.notify.lookWithin ≤ s.lookWithin := by
  unfold notify
  split
  . next wakeAt hworker => simp [lookWithin, hworker]
  . exact Nat.le_refl _

theorem lookWithin_schedule_le (due : Instant) (a : α) (s : Service α)
    : (s.schedule due a).2.lookWithin ≤ s.lookWithin := by
  simp only [schedule]
  split
  . exact lookWithin_notify_le _
  . exact Nat.le_refl _

theorem Watchful.lookWithin_pos (h : s.Watchful) : 0 < s.lookWithin := by
  unfold lookWithin
  split
  . exact Nat.one_pos
  . exact Nat.succ_pos _
  . exact Nat.two_pos
  . next hworker => exact absurd hworker h.running

theorem lookWithin_of_step (h : s.step now = some (fired, s'))
    : s.worker = .awake ∧ s' = s.scan now ∨ s'.lookWithin + 1 ≤ s.lookWithin := by
  unfold step at h
  split at h
  . next hworker =>
    cases h
    exact Or.inl ⟨hworker, rfl⟩
  . next hworker =>
    cases h
    simp [lookWithin, hworker]
  . next hworker =>
    cases h
    simp [lookWithin, hworker]
  . next hworker =>
    split at h
    . cases h
      simp [lookWithin, hworker]
    . contradiction
  . contradiction

end Service

namespace Event

def works (x : Event α) : Bool :=
  match x.action with
  | .work => true
  | _ => false

/--
The worker looks at the queue, finds nothing that is due, and goes to sleep until the first entry falls due.
-/
structure FallsAsleep (x : Event α) (wakeAt : Option Instant) : Prop where
  scans : x.scans = true
  asleep : x.after.service.worker = .asleep wakeAt
  limit : x.after.service.queue.head = wakeAt

theorem shutdown_of_scans (h : x.scans = true) : x.before.service.shutdown = false := by
  unfold scans at h
  split at h
  . simpa using h
  . contradiction

theorem mem_left : e ∈ x.left ↔ e ∈ x.cancelled ∨ e ∈ x.cleared ∨ e ∈ x.taken := by
  simp [left]

theorem mem_taken_of_scans (hscans : x.scans = true) (hordered : Queue.Ordered x.before.service.queue.entries)
    (he : e ∈ x.before.service.queue.entries) (hdue : e.1.deadline ≤ x.before.clock)
    : e ∈ x.taken := by
  rw [taken, hscans, if_pos rfl, (Queue.popDue_eq_filter hordered _).1, List.mem_filter, decide_eq_true_eq]
  exact ⟨he, hdue⟩

end Event

namespace Clocked

theorem step_work (w : Clocked α)
    : w.step .work = (w.service.step w.clock).map fun (fired?, service) => (fired?, { w with service }) := by
  simp only [step]
  cases w.service.step w.clock <;> rfl

theorem service_of_work (h : w.step .work = some (fired?, w'))
    : w.service.step w.clock = some (fired?, w'.service) := by
  rw [step_work, Option.map_eq_some_iff] at h
  obtain ⟨_, hstep, heq⟩ := h
  cases heq
  exact hstep

theorem watchful_or_stop_of_step (h : w.step action = some (fired?, w')) (hwatchful : w.service.Watchful)
    : w'.service.Watchful ∨ action = .stop ∧ w'.service.Ended := by
  cases action with
  | schedule due a =>
    cases h
    exact Or.inl hwatchful.schedule
  | cancel key =>
    cases h
    exact Or.inl hwatchful.cancel
  | stop =>
    cases h
    exact Or.inr ⟨rfl, Service.ended_stop _⟩
  | work =>
    left
    rcases Service.of_step_eq_some (service_of_work h) with ⟨_, _, hs⟩ | ⟨_, rest, _, _, hs⟩ | ⟨_, _, hs⟩
    . rw [hs]
      exact hwatchful.scan
    . rw [hs]
      exact hwatchful.firing rest
    . rw [hs]
      exact hwatchful.awake
  | stir =>
    cases h
    exact Or.inl (Service.watchful_notify hwatchful.open_ hwatchful.running hwatchful.ordered)
  | wait ms =>
    cases h
    exact Or.inl hwatchful

theorem asleep_of_step (h : w.step action = some (fired?, w')) (hasleep : w'.service.worker = .asleep wakeAt)
    : w.service.worker = .asleep wakeAt ∨ (Event.mk w action fired? w').FallsAsleep wakeAt := by
  cases action with
  | schedule due a =>
    cases h
    exact Or.inl (Service.asleep_of_schedule hasleep)
  | work =>
    right
    rcases Service.of_step_eq_some (service_of_work h) with ⟨_, hawake, hs⟩ | ⟨_, rest, _, _, hs⟩ | ⟨_, _, hs⟩
    . have hscan := hasleep
      rw [hs] at hscan
      obtain ⟨hopen, hlimit⟩ := Service.limit_of_scan hscan
      rw [← hs] at hlimit
      exact ⟨by simp [Event.scans, hawake, hopen], hasleep, hlimit⟩
    . rw [hs] at hasleep
      contradiction
    . rw [hs] at hasleep
      contradiction
  | stop =>
    cases h
    exact absurd hasleep (Service.worker_notify_ne _ wakeAt)
  | stir =>
    cases h
    exact absurd hasleep (Service.worker_notify_ne _ wakeAt)
  | _ =>
    cases h
    exact Or.inl hasleep

theorem ended_of_step (h : w.step action = some (fired?, w')) (hended : w.service.Ended) : w'.service.Ended where
  shutdown := (shutdown_of_step h hended.shutdown).1
  up := by
    intro wakeAt hasleep
    rcases asleep_of_step h hasleep with hbefore | hfalls
    . exact hended.up wakeAt hbefore
    . have hopen : w.service.shutdown = false := Event.shutdown_of_scans hfalls.scans
      rw [hended.shutdown] at hopen
      contradiction

theorem left_or_queued_of_step (h : w.step action = some (fired?, w')) (he : e ∈ w.service.queue.entries)
    : e ∈ (Event.mk w action fired? w').left ∨ e.1 ∈ w'.service.queue.entries.map Prod.fst := by
  -- with the numbers used up, another entry could have been scheduled under the same key
  rw [Event.mem_left]
  cases action with
  | schedule due a =>
    cases h
    right
    rw [Service.queue_schedule]
    by_cases hkey : e.1 = ⟨due, w.service.queue.nextSeq⟩
    . rw [hkey]
      exact List.mem_map_of_mem (Queue.mem_insert_self _ a _)
    . exact List.mem_map_of_mem (Queue.mem_insert_of_ne he hkey)
  | cancel key =>
    cases h
    by_cases hkey : e.1 = key
    . left
      simp [Event.cancelled, he, hkey]
    . right
      exact List.mem_map_of_mem (Queue.mem_cancel.2 ⟨he, hkey⟩)
  | stop => exact Or.inl (Or.inr (Or.inl he))
  | work =>
    obtain ⟨_, _, ⟨hscans, _, _, _, hqueue, _⟩ | ⟨_, hqueue, _⟩⟩ := of_work_eq_some h
    . rw [hqueue, Event.taken, hscans, if_pos rfl]
      exact (Queue.mem_popDue w.clock he).imp (Or.inr ∘ Or.inr) List.mem_map_of_mem
    . rw [hqueue]
      exact Or.inr (List.mem_map_of_mem he)
  | stir =>
    cases h
    rw [Service.queue_notify]
    exact Or.inr (List.mem_map_of_mem he)
  | wait ms =>
    cases h
    exact Or.inr (List.mem_map_of_mem he)

theorem lookWithin_of_step (h : w.step action = some (fired?, w')) (hopen : w.service.shutdown = false)
    : (Event.mk w action fired? w').scans = true ∨
      w'.service.lookWithin + (if (Event.mk w action fired? w').works then 1 else 0) ≤ w.service.lookWithin := by
  cases action with
  | schedule due a =>
    cases h
    exact Or.inr (Service.lookWithin_schedule_le due a _)
  | work =>
    rcases Service.lookWithin_of_step (service_of_work h) with ⟨hawake, _⟩ | hcloser
    . left
      simp [Event.scans, hawake, hopen]
    . exact Or.inr hcloser
  | stop =>
    cases h
    exact Or.inr (Service.lookWithin_notify_le _)
  | stir =>
    cases h
    exact Or.inr (Service.lookWithin_notify_le _)
  | _ =>
    cases h
    exact Or.inr (Nat.le_refl _)

end Clocked

theorem Run.watchful_or_ended (run : Run start trace w) (hstart : start.service.Watchful ∨ start.service.Ended)
    : w.service.Watchful ∨ w.service.Ended := by
  induction run with
  | nil => exact hstart
  | cons h _ ih =>
    apply ih
    rcases hstart with hwatchful | hended
    . exact (Clocked.watchful_or_stop_of_step h hwatchful).imp id And.right
    . exact Or.inr (Clocked.ended_of_step h hended)

theorem Run.asleep_since (run : Run start trace w) (hasleep : w.service.worker = .asleep wakeAt)
    : start.service.worker = .asleep wakeAt ∨ ∃ x ∈ trace, x.FallsAsleep wakeAt := by
  induction run with
  | nil => exact Or.inl hasleep
  | cons h _ ih =>
    rcases ih hasleep with hmiddle | ⟨x, hx, hfalls⟩
    . apply (Clocked.asleep_of_step h hmiddle).imp id
      intro hfalls
      exact ⟨_, List.mem_cons_self, hfalls⟩
    . exact Or.inr ⟨x, List.mem_cons_of_mem _ hx, hfalls⟩

theorem Run.leaves_of_due (run : Run start trace w) (hwatchful : start.service.Watchful)
    (he : e ∈ start.service.queue.entries) (hdue : e.1.deadline ≤ start.clock)
    (hlook : start.service.lookWithin ≤ trace.countP Event.works)
    : e.1 ∈ (trace.flatMap Event.left).map Prod.fst := by
  induction run generalizing e with
  | nil => exact absurd hlook (Nat.not_le.2 hwatchful.lookWithin_pos)
  | @cons start middle w action fired? trace h _ ih =>
    rw [List.flatMap_cons, List.map_append, List.mem_append]
    rcases Clocked.left_or_queued_of_step h he with hleft | hqueued
    . exact Or.inl (List.mem_map_of_mem hleft)
    . rcases Clocked.lookWithin_of_step h hwatchful.open_ with hscans | hcloser
      . left
        apply List.mem_map_of_mem
        apply Event.mem_left.2
        exact Or.inr (Or.inr (Event.mem_taken_of_scans hscans hwatchful.ordered he hdue))
      . rcases Clocked.watchful_or_stop_of_step h hwatchful with hmiddle | ⟨rfl, _⟩
        . right
          obtain ⟨e', he', hkey⟩ := List.mem_map.1 hqueued
          rw [List.countP_cons] at hlook
          rw [← hkey]
          apply ih hmiddle he'
          . rw [hkey]
            exact Int.le_trans hdue (Clocked.clock_le_of_step h)
          . lia
        . -- the end of the service clears all that is queued
          left
          apply List.mem_map_of_mem
          exact Event.mem_left.2 (Or.inr (Or.inl he))

theorem Run.asleep_after_first {before after : List (Event α)} (run : Run start (before ++ x :: after) w)
    (hnew : e ∈ x.scheduled)
    (hfirst : ∀ e' ∈ x.before.service.queue.entries, e.1.deadline < e'.1.deadline)
    : (∀ wakeAt, x.after.service.worker ≠ .asleep wakeAt) ∧
      ∀ wakeAt, w.service.worker = .asleep wakeAt → ∃ y ∈ after, y.FallsAsleep wakeAt := by
  obtain ⟨middle, _, hrest⟩ := run.of_append
  cases hrest with
  | @cons _ next _ action _ _ h hafter =>
    have hup : ∀ wakeAt, next.service.worker ≠ .asleep wakeAt := by
      cases action with
      | schedule due a =>
        cases h
        rw [Event.scheduled, List.mem_singleton] at hnew
        subst hnew
        exact Service.worker_schedule_ne hfirst a
      | _ => contradiction
    refine ⟨hup, ?_⟩
    intro wakeAt hasleep
    rcases hafter.asleep_since hasleep with hnext | hfalls
    . exact absurd hnext (hup wakeAt)
    . exact hfalls

section Fresh

variable {clock : Instant}

/--
While the worker sleeps, the service has not ended, and all that was taken has fired. Its sleep was limited by the
entry that came first when it last looked at the queue. This entry may be gone, but without a limit nothing is queued,
and else nothing falls due before the limit. A new entry in front of all others ends the sleep of the worker, and if
the worker sleeps again, it has looked at the queue since. As long as the service has not ended, an entry that is due
finds a worker that can go on, and leaves the queue before the worker has made more steps than those to its next look.
-/
theorem Run.never_oversleeps (run : Run { clock } trace w)
    : (∀ wakeAt, w.service.worker = .asleep wakeAt →
        w.service.shutdown = false ∧ w.service.batch = [] ∧ taken trace = fired trace ∧
        (∃ x ∈ trace, x.FallsAsleep wakeAt) ∧
        (wakeAt = none ∧ w.service.queue.entries = [] ∨
          ∃ wake, wakeAt = some wake ∧ ∀ e ∈ w.service.queue.entries, wake ≤ e.1.deadline)) ∧
      (∀ before x after e, trace = before ++ x :: after → e ∈ x.scheduled →
        (∀ e' ∈ x.before.service.queue.entries, e.1.deadline < e'.1.deadline) →
        (∀ wakeAt, x.after.service.worker ≠ .asleep wakeAt) ∧
        ∀ wakeAt, w.service.worker = .asleep wakeAt → ∃ y ∈ after, y.FallsAsleep wakeAt) ∧
      ∀ e ∈ w.service.queue.entries, e.1.deadline ≤ w.clock → w.service.shutdown = false →
        (w.step .work).isSome = true ∧
        ∀ rest last, Run w rest last → w.service.lookWithin ≤ rest.countP Event.works →
          e.1 ∈ (cancelled rest ++ (cleared rest ++ taken rest)).map Prod.fst := by
  have hstate := run.watchful_or_ended (Or.inl Service.Watchful.init)
  refine ⟨?_, ?_, ?_⟩
  . intro wakeAt hasleep
    have hbatch : w.service.batch = [] := by simp [Service.batch, hasleep]
    have hfired := run.taken_eq
    rw [hbatch, List.append_nil] at hfired
    have hsince : ∃ x ∈ trace, x.FallsAsleep wakeAt := by
      rcases run.asleep_since hasleep with hstart | hfalls
      . contradiction
      . exact hfalls
    rcases hstate with hwatchful | hended
    . exact ⟨hwatchful.open_, hbatch, hfired, hsince, hwatchful.asleep_cases hasleep⟩
    . exact absurd hasleep (hended.up wakeAt)
  . rintro before x after e rfl hnew hfirst
    exact run.asleep_after_first hnew hfirst
  . intro e he hdue hopen
    rcases hstate with hwatchful | hended
    . constructor
      . rw [Clocked.step_work, Option.isSome_map]
        exact hwatchful.isSome_step (Or.inl ⟨he, hdue⟩)
      . intro rest last hrest hlook
        have hleft := hrest.leaves_of_due hwatchful he hdue hlook
        exact ((flatMap_left_perm rest).map Prod.fst).subset hleft
    . rw [hended.shutdown] at hopen
      contradiction

/--
The worker sleeps until 9, is woken by an entry at 5 and sleeps until 5, when that entry is cancelled. An entry at 7
does not wake it, and as soon as it is due the worker can go on, and takes it with its second step.
-/
theorem stale_sleep_never_oversleeps
    : ∃ before x after w rest last, Run (α := Nat) { clock := 0 } (before ++ x :: after) w ∧ Run w rest last ∧
        x.before.service.worker = .asleep (some 9) ∧ x.scheduled = [(⟨5, 1⟩, 20)] ∧
        (∀ wakeAt, x.after.service.worker ≠ .asleep wakeAt) ∧ (∃ y ∈ after, y.FallsAsleep (some 5)) ∧
        cancelled after = [(⟨5, 1⟩, 20)] ∧ w.service.worker = .asleep (some 5) ∧ w.clock = 8 ∧
        w.service.queue.entries = [(⟨7, 2⟩, 30), (⟨9, 0⟩, 10)] ∧ (w.step .work).isSome = true ∧
        rest.length = 2 ∧ ⟨7, 2⟩ ∈ (cancelled rest ++ (cleared rest ++ taken rest)).map Prod.fst := by
  have run : Run { clock := 0 } _ _ := Run.replayed
    [.schedule 9 10, .work, .schedule 5 20, .work, .schedule 7 30, .cancel ⟨5, 1⟩, .wait 8] (by decide +kernel)
  obtain ⟨hsleep, hfirst, hdue⟩ := run.never_oversleeps
  obtain ⟨hopen, _⟩ := hsleep (some 5) rfl
  obtain ⟨hup, hagain⟩ := hfirst _ _ _ (⟨5, 1⟩, 20) (List.take_append_drop 2 _).symm (by decide +kernel)
    (by decide +kernel)
  obtain ⟨hstep, hleaves⟩ := hdue (⟨7, 2⟩, 30) (by decide +kernel) (by decide +kernel) hopen
  have hleft := hleaves _ _ (.replayed [.work, .work] (by decide +kernel)) (by decide +kernel)
  rw [← List.take_append_drop 2 (Prod.fst _)] at run
  exact ⟨_, _, _, _, _, _, run, .replayed [.work, .work] (by decide +kernel), rfl, by decide +kernel, hup,
    hagain (some 5) rfl, by decide +kernel, rfl, rfl, by decide +kernel, hstep, rfl, hleft⟩

end Fresh

end BlockingStream.Timer

import BlockingStream.Timer.Service

/-!
This module contains the properties of a timer service: its queue is kept in order, an entry that nobody
cancels is queued until the worker takes it, and the worker never sleeps past an entry.
-/

namespace BlockingStream.Timer

namespace Key

variable {a b c : Key}

theorem before_iff
    : a.before b = true ↔ a.deadline < b.deadline ∨ a.deadline = b.deadline ∧ a.seq.toNat < b.seq.toNat := by
  simp [before, UInt64.lt_iff_toNat_lt]

theorem before_trans (hab : a.before b = true) (hbc : b.before c = true) : a.before c = true := by
  rw [before_iff] at *
  lia

theorem deadline_le_of_before (h : a.before b = true) : a.deadline ≤ b.deadline := by
  rw [before_iff] at h
  lia

theorem eq_of_not_before (hab : a.before b = false) (hba : b.before a = false) : a = b := by
  rw [← Bool.not_eq_true, before_iff] at hab hba
  have hdeadline : a.deadline = b.deadline := by lia
  have hseq : a.seq = b.seq := by
    apply UInt64.toNat_inj.1
    lia
  cases a
  cases b
  simp_all

end Key

namespace Queue

variable {α : Type} {key : Key} {a : α} {entries : List (Key × α)} {e : Key × α} {q : Queue α} {now due : Instant}

def Ordered (entries : List (Key × α)) : Prop := entries.Pairwise fun a b => a.1.before b.1 = true

theorem mem_of_mem_insert (h : e ∈ insert key a entries) : e = (key, a) ∨ e ∈ entries := by
  induction entries with
  | nil =>
    left
    exact List.mem_singleton.1 h
  | cons first rest ih =>
    unfold insert at h
    split at h
    . exact List.mem_cons.1 h
    . split at h
      . rcases List.mem_cons.1 h with h | h
        . right
          rw [h]
          exact List.mem_cons_self
        . exact (ih h).imp id (List.mem_cons_of_mem first)
      . exact (List.mem_cons.1 h).imp id (List.mem_cons_of_mem first)

theorem mem_insert_of_ne (h : e ∈ entries) (hne : e.1 ≠ key) : e ∈ insert key a entries := by
  induction entries with
  | nil => contradiction
  | cons first rest ih =>
    unfold insert
    split
    . exact List.mem_cons_of_mem _ h
    . next hbefore =>
      split
      . rcases List.mem_cons.1 h with h | h
        . rw [h]
          exact List.mem_cons_self
        . exact List.mem_cons_of_mem first (ih h)
      . next hafter =>
        rcases List.mem_cons.1 h with h | h
        . -- neither comes first, so the key of the entry is the new one
          rw [Bool.not_eq_true] at hbefore hafter
          rw [h] at hne
          exact absurd (Key.eq_of_not_before hafter hbefore) hne
        . exact List.mem_cons_of_mem _ h

theorem ordered_insert (h : Ordered entries) : Ordered (insert key a entries) := by
  unfold Ordered at *
  induction entries with
  | nil => simp [insert]
  | cons first rest ih =>
    obtain ⟨hfirst, hrest⟩ := List.pairwise_cons.1 h
    unfold insert
    split
    . next hbefore =>
      apply List.pairwise_cons.2
      refine ⟨?_, h⟩
      intro e he
      rcases List.mem_cons.1 he with he | he
      . rw [he]
        exact hbefore
      . exact Key.before_trans hbefore (hfirst e he)
    . next hbefore =>
      split
      . next hafter =>
        apply List.pairwise_cons.2
        refine ⟨?_, ih hrest⟩
        intro e he
        rcases mem_of_mem_insert he with he | he
        . rw [he]
          exact hafter
        . exact hfirst e he
      . next hafter =>
        rw [Bool.not_eq_true] at hbefore hafter
        have := Key.eq_of_not_before hafter hbefore
        apply List.pairwise_cons.2
        refine ⟨?_, hrest⟩
        intro e he
        rw [← this]
        exact hfirst e he

theorem ordered_cancel (h : Ordered q.entries) : Ordered (q.cancel key).entries :=
  h.filter _

theorem ordered_popDue (h : Ordered q.entries) : Ordered (q.popDue now).2.entries :=
  h.sublist (List.dropWhile_sublist _)

theorem head_le (h : Ordered q.entries) (he : e ∈ q.entries)
    : ∃ due, q.head = some due ∧ due ≤ e.1.deadline := by
  unfold head
  unfold Ordered at h
  cases hentries : q.entries with
  | nil =>
    rw [hentries] at he
    contradiction
  | cons first rest =>
    rw [hentries] at h he
    refine ⟨first.1.deadline, rfl, ?_⟩
    rcases List.mem_cons.1 he with he | he
    . apply Int.le_of_eq
      rw [he]
    . apply Key.deadline_le_of_before
      exact List.rel_of_pairwise_cons h he

theorem mem_popDue (now : Instant) (h : e ∈ q.entries)
    : e ∈ (q.popDue now).1 ∨ e ∈ (q.popDue now).2.entries := by
  rw [← q.popDue_append now] at h
  exact List.mem_append.1 h

theorem filter_of_ahead {first : Key × α} (h : Ordered (first :: entries)) (hahead : due < first.1.deadline)
    : (first :: entries).filter (fun e => decide (e.1.deadline ≤ due)) = [] ∧
      (first :: entries).filter (fun e => decide (due < e.1.deadline)) = first :: entries := by
  have hall : ∀ e ∈ first :: entries, due < e.1.deadline := by
    intro e he
    apply Int.lt_of_lt_of_le hahead
    rcases List.mem_cons.1 he with rfl | he
    . exact Int.le_refl _
    . exact Key.deadline_le_of_before (List.rel_of_pairwise_cons h he)
  constructor
  . rw [List.filter_eq_nil_iff]
    intro e he
    rw [decide_eq_true_eq, Int.not_le]
    exact hall e he
  . rw [List.filter_eq_self]
    intro e he
    rw [decide_eq_true_eq]
    exact hall e he

theorem popDue_eq_filter (h : Ordered q.entries) (now : Instant)
    : (q.popDue now).1 = q.entries.filter (fun e => decide (e.1.deadline ≤ now)) ∧
      (q.popDue now).2.entries = q.entries.filter (fun e => decide (now < e.1.deadline)) := by
  -- what is due comes first, so that the worker takes all of it
  unfold popDue
  dsimp only
  generalize q.entries = entries at h
  induction entries with
  | nil => exact ⟨rfl, rfl⟩
  | cons first rest ih =>
    by_cases hdue : first.1.deadline ≤ now
    . obtain ⟨htaken, hleft⟩ := ih (List.pairwise_cons.1 h).2
      have hpast : ¬ now < first.1.deadline := Int.not_lt.2 hdue
      simp [hdue, hpast, htaken, hleft]
    . obtain ⟨hnone, hall⟩ := filter_of_ahead h (Int.not_le.1 hdue)
      rw [hnone, hall]
      simp [hdue]

theorem filter_append_filter (h : Ordered entries) (now : Instant)
    : entries.filter (fun e => decide (e.1.deadline ≤ now)) ++ entries.filter (fun e => decide (now < e.1.deadline)) =
      entries := by
  obtain ⟨htaken, hleft⟩ := popDue_eq_filter (q := { entries }) h now
  have happend := popDue_append now { entries : Queue α }
  rw [htaken, hleft] at happend
  exact happend

theorem insert_eq_filter (h : Ordered entries) (hnew : ∀ e ∈ entries, e.1.seq.toNat < key.seq.toNat)
    : insert key a entries =
      entries.filter (fun e => decide (e.1.deadline ≤ key.deadline)) ++
        (key, a) :: entries.filter (fun e => decide (key.deadline < e.1.deadline)) := by
  -- the new entry has the greatest number so far
  induction entries with
  | nil => rfl
  | cons first rest ih =>
    have hseq := hnew first List.mem_cons_self
    unfold insert
    by_cases hdue : first.1.deadline ≤ key.deadline
    . have hbefore : first.1.before key = true := by
        rw [Key.before_iff]
        lia
      have hafter : ¬ key.before first.1 = true := by
        rw [Key.before_iff]
        lia
      have hpast : ¬ key.deadline < first.1.deadline := Int.not_lt.2 hdue
      have hrest := ih (List.pairwise_cons.1 h).2 fun e he => hnew e (List.mem_cons_of_mem first he)
      rw [if_neg hafter, if_pos hbefore, hrest]
      simp [hdue, hpast]
    . have hafter : key.before first.1 = true := by
        rw [Key.before_iff]
        lia
      obtain ⟨hnone, hall⟩ := filter_of_ahead h (Int.not_le.1 hdue)
      rw [if_pos hafter, hnone, hall, List.nil_append]

end Queue

namespace Service

variable {α : Type} {s s' : Service α} {key : Key} {a : α} {e : Key × α} {now due : Instant}
  {fired : Option (Key × α)}

/--
The entries that the worker has taken and not fired yet.
-/
def batch (s : Service α) : List (Key × α) :=
  match s.worker with
  | .firing batch => batch
  | _ => []

@[simp]
theorem queue_notify (s : Service α) : s.notify.queue = s.queue := by
  unfold notify
  split <;> rfl

@[simp]
theorem shutdown_notify (s : Service α) : s.notify.shutdown = s.shutdown := by
  unfold notify
  split <;> rfl

@[simp]
theorem batch_notify (s : Service α) : s.notify.batch = s.batch := by
  unfold notify
  split
  . next h => simp [batch, h]
  . rfl

@[simp]
theorem queue_schedule (due : Instant) (a : α) (s : Service α)
    : (s.schedule due a).2.queue = (s.queue.schedule due a).2 := by
  simp only [schedule]
  split
  . rw [queue_notify]
  . rfl

@[simp]
theorem batch_schedule (due : Instant) (a : α) (s : Service α) : (s.schedule due a).2.batch = s.batch := by
  simp only [schedule]
  split
  . rw [batch_notify]
    rfl
  . rfl

/--
The service is at work, its queue is in order, and its worker sleeps no longer than until the first entry
falls due.
-/
structure Watchful (s : Service α) : Prop where
  open_ : s.shutdown = false
  running : s.worker ≠ .stopped
  ordered : Queue.Ordered s.queue.entries
  wakes : ∀ wakeAt, s.worker = .asleep wakeAt →
    ∀ e ∈ s.queue.entries, ∃ due, wakeAt = some due ∧ due ≤ e.1.deadline

theorem Watchful.init : Watchful ({} : Service α) where
  open_ := rfl
  running := by simp
  ordered := List.Pairwise.nil
  wakes := by simp

theorem worker_notify_ne (s : Service α) (wakeAt : Option Instant) : s.notify.worker ≠ .asleep wakeAt := by
  unfold notify
  split
  . simp
  . next h => exact h wakeAt

theorem watchful_notify (hopen : s.shutdown = false) (hrunning : s.worker ≠ .stopped)
    (hordered : Queue.Ordered s.queue.entries)
    : s.notify.Watchful where
  open_ := by
    rw [shutdown_notify]
    exact hopen
  running := by
    unfold notify
    split
    . simp
    . exact hrunning
  ordered := by
    rw [queue_notify]
    exact hordered
  wakes := by
    intro wakeAt hasleep
    exact absurd hasleep (worker_notify_ne s wakeAt)

theorem Watchful.cancel (h : s.Watchful) : (s.cancel key).Watchful where
  open_ := h.open_
  running := h.running
  ordered := Queue.ordered_cancel h.ordered
  wakes := by
    intro wakeAt hasleep e he
    exact h.wakes wakeAt hasleep e (Queue.mem_cancel.1 he).1

theorem Watchful.schedule (h : s.Watchful) : (s.schedule due a).2.Watchful := by
  have hordered : Queue.Ordered (s.queue.schedule due a).2.entries := Queue.ordered_insert h.ordered
  simp only [Service.schedule]
  split
  . exact watchful_notify h.open_ h.running hordered
  . next hhead =>
    refine ⟨h.open_, h.running, hordered, ?_⟩
    intro wakeAt hasleep e he
    rcases Queue.mem_of_mem_insert he with rfl | he
    . -- the worker sleeps no longer than until the first entry, which the new one does not precede
      unfold becomesHead at hhead
      cases hentries : s.queue.entries with
      | nil => simp [Queue.head, hentries] at hhead
      | cons first rest =>
        obtain ⟨wake, hwake, hle⟩ := h.wakes wakeAt hasleep first (by simp [hentries])
        simp only [Queue.head, hentries, List.head?_cons, Option.map_some, decide_eq_true_eq] at hhead
        refine ⟨wake, hwake, ?_⟩
        dsimp only
        lia
    . exact h.wakes wakeAt hasleep e he

theorem of_step_eq_some (h : s.step now = some (fired, s'))
    : fired = none ∧ s.worker = .awake ∧ s' = s.scan now ∨
      (∃ e rest, s.worker = .firing (e :: rest) ∧ fired = some e ∧ s' = { s with worker := .firing rest }) ∨
      fired = none ∧ s.batch = [] ∧ s' = { s with worker := .awake } := by
  unfold step at h
  split at h
  . next hworker =>
    cases h
    exact Or.inl ⟨rfl, hworker, rfl⟩
  . next e rest hworker =>
    cases h
    exact Or.inr (Or.inl ⟨e, rest, hworker, rfl, rfl⟩)
  . next hworker =>
    cases h
    exact Or.inr (Or.inr ⟨rfl, by simp [batch, hworker], rfl⟩)
  . next hworker =>
    split at h
    . cases h
      exact Or.inr (Or.inr ⟨rfl, by simp [batch, hworker], rfl⟩)
    . contradiction
  . contradiction

theorem scan_cases (now : Instant) (h : s.shutdown = false)
    : (s.queue.popDue now).1 = [] ∧
        s.scan now =
          { s with
            queue := (s.queue.popDue now).2
            worker := .asleep (s.queue.popDue now).2.head } ∨
      s.scan now =
        { s with queue := (s.queue.popDue now).2, worker := .firing (s.queue.popDue now).1 } := by
  unfold scan
  rcases hpop : s.queue.popDue now with ⟨taken, queue⟩
  cases taken with
  | nil => exact Or.inl ⟨rfl, by simp [h]⟩
  | cons e rest => exact Or.inr (by simp [h])

theorem deadline_le_of_mem_batch_scan (h : s.shutdown = false) (he : e ∈ (s.scan now).batch)
    : e.1.deadline ≤ now := by
  rcases scan_cases now h with ⟨_, hscan⟩ | hscan
  . rw [hscan] at he
    contradiction
  . rw [hscan] at he
    exact Queue.deadline_le_of_mem_popDue he

theorem mem_scan (h : s.shutdown = false) (he : e ∈ s.queue.entries)
    : e ∈ (s.scan now).queue.entries ∨ e ∈ (s.scan now).batch := by
  rcases scan_cases now h with ⟨hnone, hscan⟩ | hscan
  . rw [hscan]
    rcases Queue.mem_popDue now he with he | he
    . rw [hnone] at he
      contradiction
    . exact Or.inl he
  . rw [hscan]
    exact (Queue.mem_popDue now he).symm

theorem nextSeq_scan (now : Instant) (h : s.shutdown = false)
    : (s.scan now).queue.nextSeq = s.queue.nextSeq := by
  rcases scan_cases now h with ⟨_, hscan⟩ | hscan
  . rw [hscan]
    rfl
  . rw [hscan]
    rfl

theorem scan_eq_filter (hopen : s.shutdown = false) (hordered : Queue.Ordered s.queue.entries) (now : Instant)
    : (s.scan now).queue.entries = s.queue.entries.filter (fun e => decide (now < e.1.deadline)) ∧
      (s.scan now).batch = s.queue.entries.filter (fun e => decide (e.1.deadline ≤ now)) := by
  obtain ⟨htaken, hleft⟩ := Queue.popDue_eq_filter hordered now
  rcases scan_cases now hopen with ⟨hnone, hscan⟩ | hscan
  . rw [hscan, ← htaken, hnone]
    exact ⟨hleft, rfl⟩
  . rw [hscan]
    exact ⟨hleft, htaken⟩

theorem Watchful.scan (h : s.Watchful) : (s.scan now).Watchful := by
  have hordered : Queue.Ordered (s.queue.popDue now).2.entries := Queue.ordered_popDue h.ordered
  rcases scan_cases now h.open_ with ⟨_, hscan⟩ | hscan
  . rw [hscan]
    refine ⟨h.open_, by simp, hordered, ?_⟩
    intro wakeAt hasleep e he
    injection hasleep with hasleep
    obtain ⟨due, hhead, hle⟩ := Queue.head_le hordered he
    exact ⟨due, hasleep.symm.trans hhead, hle⟩
  . rw [hscan]
    exact ⟨h.open_, by simp, hordered, by simp⟩

theorem Watchful.firing (h : s.Watchful) (batch : List (Key × α)) : Watchful { s with worker := .firing batch } :=
  ⟨h.open_, by simp, h.ordered, by simp⟩

theorem Watchful.awake (h : s.Watchful) : Watchful { s with worker := .awake } :=
  ⟨h.open_, by simp, h.ordered, by simp⟩

theorem Watchful.isSome_step (h : s.Watchful)
    (he : e ∈ s.queue.entries ∧ e.1.deadline ≤ now ∨ e ∈ s.batch)
    : (s.step now).isSome = true := by
  unfold Service.step
  cases hworker : s.worker with
  | awake => rfl
  | firing batch => cases batch <;> rfl
  | asleep wakeAt =>
    rcases he with ⟨he, hdue⟩ | he
    . obtain ⟨due, rfl, hle⟩ := h.wakes wakeAt hworker e he
      have hover : sleepIsOver now (some due) = true := by
        simp only [sleepIsOver, decide_eq_true_eq]
        lia
      simp [hover]
    . -- a worker that sleeps has fired all that it took
      simp [batch, hworker] at he
  | stopped => exact absurd hworker h.running

end Service

end BlockingStream.Timer

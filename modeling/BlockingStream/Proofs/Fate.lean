import Mathlib.Data.List.Perm.Basic
import BlockingStream.Proofs.Timer

/-!
This module contains what becomes of the entries of a timer service, whatever its users, its worker and the clock do
and in whatever order. An entry stays in the queue until somebody cancels it, the service ends or the worker takes it,
and only one of these ever happens to it. The worker takes an entry when it is due, together with all that are due
before it, and fires what it has taken in the same order.
-/

namespace BlockingStream

/--
What can happen to a timer service. Whoever knows a key can cancel it, at any time and as often as it likes.
-/
inductive TimerAction (α : Type) where
  | schedule (deadline : Instant) (a : α)
  | cancel (key : Timer.Key)
  | stop
  | work
  /-- The worker wakes up for no reason. -/
  | stir
  | wait (ms : Nat)
  deriving DecidableEq

namespace Timer

/--
A timer service together with the clock that its worker looks at.
-/
structure Clocked (α : Type) where
  service : Service α := {}
  clock : Instant

/--
One step of a run: the state it was taken in, what was done, the entry that fired, and the state after it.
-/
structure Event (α : Type) where
  before : Clocked α
  action : TimerAction α
  fired : Option (Key × α)
  after : Clocked α

variable {α : Type}

namespace Clocked

/--
A step, if it can be made now, and the entry that fires in it.
-/
def step (w : Clocked α) : TimerAction α → Option (Option (Key × α) × Clocked α)
  | .schedule deadline a => some (none, { w with service := (w.service.schedule deadline a).2 })
  | .cancel key => some (none, { w with service := w.service.cancel key })
  | .stop => some (none, { w with service := w.service.stop })
  | .work =>
    match w.service.step w.clock with
    | some (fired, service) => some (fired, { w with service })
    | none => none
  | .stir => some (none, { w with service := w.service.notify })
  | .wait ms => some (none, { w with clock := w.clock + ms })

def replay (w : Clocked α) : List (TimerAction α) → Option (List (Event α) × Clocked α)
  | [] => some ([], w)
  | a :: rest =>
    match w.step a with
    | some (fired, after) =>
      match after.replay rest with
      | some (trace, last) => some (⟨w, a, fired, after⟩ :: trace, last)
      | none => none
    | none => none

end Clocked

/--
The runs from a state, with their events and the state at their end.
-/
inductive Run : Clocked α → List (Event α) → Clocked α → Prop where
  | nil (w : Clocked α) : Run w [] w
  | cons {w w' last : Clocked α} {a : TimerAction α} {fired : Option (Key × α)} {trace : List (Event α)} :
      w.step a = some (fired, w') → Run w' trace last → Run w (⟨w, a, fired, w'⟩ :: trace) last

namespace Event

def scheduled (x : Event α) : List (Key × α) :=
  match x.action with
  | .schedule deadline a => [((x.before.service.schedule deadline a).1, a)]
  | _ => []

/--
The entries that a cancel finds in the queue.
-/
def cancelled (x : Event α) : List (Key × α) :=
  match x.action with
  | .cancel key => x.before.service.queue.entries.filter (·.1 = key)
  | _ => []

/--
The entries that are still queued when the service ends.
-/
def cleared (x : Event α) : List (Key × α) :=
  match x.action with
  | .stop => x.before.service.queue.entries
  | _ => []

/--
The worker looks at the queue, and is not told that the service has ended.
-/
def scans (x : Event α) : Bool :=
  match x.action, x.before.service.worker with
  | .work, .awake => !x.before.service.shutdown
  | _, _ => false

def taken (x : Event α) : List (Key × α) :=
  if x.scans then (x.before.service.queue.popDue x.before.clock).1 else []

def left (x : Event α) : List (Key × α) := x.cancelled ++ (x.cleared ++ x.taken)

end Event

def scheduled (trace : List (Event α)) : List (Key × α) := trace.flatMap Event.scheduled

def cancelled (trace : List (Event α)) : List (Key × α) := trace.flatMap Event.cancelled

def cleared (trace : List (Event α)) : List (Key × α) := trace.flatMap Event.cleared

def taken (trace : List (Event α)) : List (Key × α) := trace.flatMap Event.taken

def fired (trace : List (Event α)) : List (Key × α) := trace.filterMap Event.fired

variable {start w w' : Clocked α} {trace : List (Event α)} {a : TimerAction α} {fired? : Option (Key × α)}
  {e e₁ e₂ : Key × α} {n : Nat}

namespace Queue

/--
The numbers of the entries are smaller than the one that the next entry gets.
-/
structure Numbered (n : Nat) (q : Queue α) : Prop where
  next : q.nextSeq.toNat = n
  older : ∀ e ∈ q.entries, e.1.seq.toNat < n
  ordered : Ordered q.entries

variable {q q' : Queue α}

theorem Numbered.sublist (h : q.Numbered n) (hseq : q'.nextSeq = q.nextSeq)
    (hsub : q'.entries.Sublist q.entries)
    : q'.Numbered n where
  next := by
    rw [hseq]
    exact h.next
  older e he := h.older e (hsub.subset he)
  ordered := h.ordered.sublist hsub

theorem Numbered.schedule (h : q.Numbered n) (few : n + 1 < UInt64.size) (due : Instant) (a : α)
    : (q.schedule due a).2.Numbered (n + 1) where
  next := by
    change (q.nextSeq + 1).toNat = n + 1
    rw [UInt64.toNat_add, h.next]
    exact Nat.mod_eq_of_lt few
  older e he := by
    rcases mem_of_mem_insert he with rfl | he
    . rw [h.next]
      exact Nat.lt_succ_self n
    . exact Nat.lt_succ_of_lt (h.older e he)
  ordered := ordered_insert h.ordered

theorem Numbered.perm_schedule (h : q.Numbered n) (due : Instant) (a : α)
    : (q.entries ++ [((q.schedule due a).1, a)]).Perm (q.schedule due a).2.entries := by
  have hnew : ∀ e ∈ q.entries, e.1.seq.toNat < q.nextSeq.toNat := by
    rw [h.next]
    exact h.older
  change List.Perm _ (insert ⟨due, q.nextSeq⟩ a q.entries)
  rw [insert_eq_filter h.ordered hnew]
  have hsplit : q.entries.Perm
      (q.entries.filter (fun e => decide (e.1.deadline ≤ due)) ++
        q.entries.filter (fun e => decide (due < e.1.deadline))) := by
    have hnot : (fun e : Key × α => decide (due < e.1.deadline)) = fun e => !decide (e.1.deadline ≤ due) := by
      funext e
      rw [← decide_not, decide_eq_decide, Int.not_le]
    rw [hnot]
    exact (List.filter_append_perm _ _).symm
  exact List.perm_append_comm.trans ((hsplit.cons _).trans List.perm_middle.symm)

theorem pair_sublist {entries : List (Key × α)} (h : Ordered entries) (h₁ : e₁ ∈ entries) (h₂ : e₂ ∈ entries)
    (hbefore : e₁.1.before e₂.1 = true)
    : [e₁, e₂].Sublist entries := by
  induction entries with
  | nil => contradiction
  | cons first rest ih =>
    obtain ⟨hfirst, hrest⟩ := List.pairwise_cons.1 h
    rcases List.mem_cons.1 h₁ with rfl | hmem₁
    . rcases List.mem_cons.1 h₂ with rfl | hmem₂
      . rw [Key.before_iff] at hbefore
        lia
      . exact (List.singleton_sublist.2 hmem₂).cons_cons _
    . rcases List.mem_cons.1 h₂ with rfl | hmem₂
      . -- the first entry comes before all others
        have hafter := hfirst e₁ hmem₁
        rw [Key.before_iff] at hbefore hafter
        lia
      . exact (ih hrest hmem₁ hmem₂).cons _

end Queue

namespace Clocked

theorem of_work_eq_some (h : w.step .work = some (fired?, w'))
    : w'.clock = w.clock ∧ w'.service.shutdown = w.service.shutdown ∧
      ((Event.mk w .work fired? w').scans = true ∧ w.service.shutdown = false ∧ fired? = none ∧
          w.service.batch = [] ∧ w'.service.queue = (w.service.queue.popDue w.clock).2 ∧
          w'.service.batch = (w.service.queue.popDue w.clock).1 ∨
        (Event.mk w .work fired? w').scans = false ∧ w'.service.queue = w.service.queue ∧
          w.service.batch = fired?.toList ++ w'.service.batch) := by
  unfold step at h
  dsimp only at h
  unfold Service.step at h
  unfold Event.scans Service.batch
  cases hworker : w.service.worker with
  | awake =>
    rw [hworker] at h
    cases h
    cases hopen : w.service.shutdown with
    | true => simp [hopen, Service.scan]
    | false =>
      rcases Service.scan_cases w.clock hopen with ⟨hnone, hscan⟩ | hscan
      . rw [hscan]
        simp [hopen, hnone]
      . rw [hscan]
        simp [hopen]
  | firing batch =>
    rw [hworker] at h
    cases batch with
    | nil =>
      cases h
      simp
    | cons e rest =>
      cases h
      simp
  | asleep wakeAt =>
    rw [hworker] at h
    dsimp only at h
    split at h
    . next hover =>
      split at hover
      . cases hover
        cases h
        simp
      . contradiction
    . contradiction
  | stopped =>
    rw [hworker] at h
    contradiction

theorem perm_of_step (h : w.step a = some (fired?, w')) (hnumbered : w.service.queue.Numbered n)
    : (w.service.queue.entries ++ (Event.mk w a fired? w').scheduled).Perm
        (w'.service.queue.entries ++ (Event.mk w a fired? w').left) := by
  unfold Event.left
  cases a with
  | schedule due a =>
    cases h
    simp only [Event.scheduled, Event.cancelled, Event.cleared, Event.taken, Event.scans, Bool.false_eq_true, if_false,
      List.append_nil, Service.queue_schedule]
    exact hnumbered.perm_schedule due a
  | cancel key =>
    cases h
    have hsplit := List.filter_append_perm (fun e : Key × α => decide (e.1 ≠ key)) w.service.queue.entries
    simp only [decide_not, Bool.not_not] at hsplit
    simp only [Event.scheduled, Event.cancelled, Event.cleared, Event.taken, Event.scans, Bool.false_eq_true, if_false,
      List.append_nil, Service.cancel, Queue.cancel, decide_not]
    exact hsplit.symm
  | stop =>
    cases h
    simp [Event.scheduled, Event.cancelled, Event.cleared, Event.taken, Event.scans, Service.stop]
  | work =>
    obtain ⟨_, _, ⟨hscans, _, _, _, hqueue, _⟩ | ⟨hscans, hqueue, _⟩⟩ := of_work_eq_some h
    . rw [hqueue, ← w.service.queue.popDue_append w.clock]
      simp only [Event.scheduled, Event.cancelled, Event.cleared, Event.taken, hscans, if_true, List.append_nil,
        List.nil_append]
      exact List.perm_append_comm
    . rw [hqueue]
      simp [Event.scheduled, Event.cancelled, Event.cleared, Event.taken, hscans]
  | stir =>
    cases h
    simp [Event.scheduled, Event.cancelled, Event.cleared, Event.taken, Event.scans]
  | wait ms =>
    cases h
    simp [Event.scheduled, Event.cancelled, Event.cleared, Event.taken, Event.scans]

theorem numbered_of_step (h : w.step a = some (fired?, w')) (hnumbered : w.service.queue.Numbered n)
    (few : n + (Event.mk w a fired? w').scheduled.length < UInt64.size)
    : w'.service.queue.Numbered (n + (Event.mk w a fired? w').scheduled.length) := by
  cases a with
  | schedule due a =>
    cases h
    rw [Service.queue_schedule]
    exact hnumbered.schedule few due a
  | cancel key =>
    cases h
    exact hnumbered.sublist rfl List.filter_sublist
  | stop =>
    cases h
    unfold Service.stop
    rw [Service.queue_notify]
    exact hnumbered.sublist rfl (List.nil_sublist _)
  | work =>
    obtain ⟨_, _, ⟨_, _, _, _, hqueue, _⟩ | ⟨_, hqueue, _⟩⟩ := of_work_eq_some h
    . rw [hqueue]
      exact hnumbered.sublist rfl (List.dropWhile_sublist _)
    . rw [hqueue]
      exact hnumbered
  | stir =>
    cases h
    rw [Service.queue_notify]
    exact hnumbered
  | wait ms =>
    cases h
    exact hnumbered

theorem batch_of_step (h : w.step a = some (fired?, w'))
    : w.service.batch ++ (Event.mk w a fired? w').taken = fired?.toList ++ w'.service.batch := by
  cases a with
  | work =>
    unfold Event.taken
    obtain ⟨_, _, ⟨hscans, _, rfl, hnone, _, hbatch⟩ | ⟨hscans, _, hbatch⟩⟩ := of_work_eq_some h
    . rw [hscans, hnone, hbatch]
      rfl
    . rw [hscans, hbatch]
      exact List.append_nil _
  | schedule due a =>
    cases h
    rw [Service.batch_schedule]
    exact List.append_nil _
  | cancel key =>
    cases h
    exact List.append_nil _
  | stop =>
    cases h
    unfold Service.stop
    rw [Service.batch_notify]
    exact List.append_nil _
  | stir =>
    cases h
    rw [Service.batch_notify]
    exact List.append_nil _
  | wait ms =>
    cases h
    exact List.append_nil _

theorem clock_le_of_step (h : w.step a = some (fired?, w')) : w.clock ≤ w'.clock := by
  cases a with
  | work =>
    exact Int.le_of_eq (of_work_eq_some h).1.symm
  | wait ms =>
    cases h
    exact Int.le_add_of_nonneg_right (Int.natCast_nonneg ms)
  | _ =>
    cases h
    exact Int.le_refl _

theorem deadline_le_of_mem_taken (he : e ∈ (Event.mk w a fired? w').taken) : e.1.deadline ≤ w.clock := by
  unfold Event.taken at he
  split at he
  . exact Queue.deadline_le_of_mem_popDue he
  . contradiction

theorem shutdown_of_step (h : w.step a = some (fired?, w')) (hshutdown : w.service.shutdown = true)
    : w'.service.shutdown = true ∧ (Event.mk w a fired? w').taken = [] := by
  cases a with
  | work =>
    obtain ⟨_, hsame, ⟨_, hopen, _⟩ | ⟨hscans, _⟩⟩ := of_work_eq_some h
    . rw [hopen] at hshutdown
      contradiction
    . rw [hsame, Event.taken, hscans]
      exact ⟨hshutdown, rfl⟩
  | schedule due a =>
    cases h
    refine ⟨?_, rfl⟩
    simp only [Service.schedule]
    split
    . rw [Service.shutdown_notify]
      exact hshutdown
    . exact hshutdown
  | stop =>
    cases h
    refine ⟨?_, rfl⟩
    unfold Service.stop
    rw [Service.shutdown_notify]
  | stir =>
    cases h
    rw [Service.shutdown_notify]
    exact ⟨hshutdown, rfl⟩
  | _ =>
    cases h
    exact ⟨hshutdown, rfl⟩

theorem shutdown_of_mem_cleared (h : w.step a = some (fired?, w')) (he : e ∈ (Event.mk w a fired? w').cleared)
    : w'.service.shutdown = true := by
  cases a with
  | stop =>
    cases h
    unfold Service.stop
    rw [Service.shutdown_notify]
  | _ => contradiction

end Clocked

/-!
What a whole run does to the entries.
-/

theorem Run.of_replay (actions : List (TimerAction α)) (h : start.replay actions = some (trace, w))
    : Run start trace w := by
  induction actions generalizing start trace with
  | nil =>
    cases h
    exact .nil w
  | cons a rest ih =>
    unfold Clocked.replay at h
    split at h
    . next hstep =>
      split at h
      . next hrest =>
        cases h
        exact .cons hstep (ih hrest)
      . contradiction
    . contradiction

theorem Run.replayed (actions : List (TimerAction α)) (h : (start.replay actions).isSome = true)
    : Run start ((start.replay actions).get h).1 ((start.replay actions).get h).2 :=
  .of_replay actions (Option.some_get h).symm

theorem Run.of_append {before after : List (Event α)} (run : Run start (before ++ after) w)
    : ∃ middle, Run start before middle ∧ Run middle after w := by
  induction before generalizing start with
  | nil => exact ⟨start, .nil start, run⟩
  | cons x before ih =>
    cases run with
    | cons h run =>
      obtain ⟨middle, hbefore, hafter⟩ := ih run
      exact ⟨middle, .cons h hbefore, hafter⟩

theorem Run.numbered (run : Run start trace w) (hstart : start.service.queue.Numbered n)
    (few : n + (scheduled trace).length < UInt64.size)
    : w.service.queue.Numbered (n + (scheduled trace).length) := by
  induction run generalizing n with
  | nil => exact hstart
  | cons h _ ih =>
    rw [scheduled, List.flatMap_cons, List.length_append, ← Nat.add_assoc] at few ⊢
    exact ih (Clocked.numbered_of_step h hstart (Nat.lt_of_le_of_lt (Nat.le_add_right _ _) few)) few

theorem append_append_perm (l m k : List (Key × α)) : (l ++ m ++ k).Perm (l ++ k ++ m) := by
  rw [List.append_assoc, List.append_assoc]
  exact List.perm_append_comm.append_left l

theorem Run.perm_left (run : Run start trace w) (hstart : start.service.queue.Numbered n)
    (few : n + (scheduled trace).length < UInt64.size)
    : (start.service.queue.entries ++ scheduled trace).Perm
        (w.service.queue.entries ++ trace.flatMap Event.left) := by
  induction run generalizing n with
  | nil => exact List.Perm.refl _
  | @cons start middle w a fired? trace h _ ih =>
    rw [scheduled, List.flatMap_cons, List.length_append, ← Nat.add_assoc] at few
    have hmiddle := Clocked.numbered_of_step h hstart (Nat.lt_of_le_of_lt (Nat.le_add_right _ _) few)
    rw [scheduled, List.flatMap_cons, List.flatMap_cons, ← List.append_assoc]
    calc start.service.queue.entries ++ Event.scheduled ⟨start, a, fired?, middle⟩ ++ scheduled trace
      List.Perm _ (middle.service.queue.entries ++ Event.left ⟨start, a, fired?, middle⟩ ++ scheduled trace) :=
        (Clocked.perm_of_step h hstart).append_right _
      List.Perm _ (middle.service.queue.entries ++ scheduled trace ++ Event.left ⟨start, a, fired?, middle⟩) :=
        append_append_perm _ _ _
      List.Perm _ (w.service.queue.entries ++ trace.flatMap Event.left ++ Event.left ⟨start, a, fired?, middle⟩) :=
        (ih hmiddle few).append_right _
      List.Perm _ (w.service.queue.entries ++ (Event.left ⟨start, a, fired?, middle⟩ ++ trace.flatMap Event.left)) :=
        (append_append_perm _ _ _).trans (List.Perm.of_eq (List.append_assoc _ _ _))

theorem flatMap_left_perm (trace : List (Event α))
    : (trace.flatMap Event.left).Perm (cancelled trace ++ (cleared trace ++ taken trace)) := by
  unfold Event.left
  refine (List.flatMap_append_perm trace _ _).symm.trans (List.Perm.append_left _ ?_)
  exact (List.flatMap_append_perm trace _ _).symm

theorem Run.perm (run : Run start trace w) (hstart : start.service.queue.Numbered n)
    (few : n + (scheduled trace).length < UInt64.size)
    : (start.service.queue.entries ++ scheduled trace).Perm
        (w.service.queue.entries ++ (cancelled trace ++ (cleared trace ++ taken trace))) :=
  (run.perm_left hstart few).trans ((flatMap_left_perm trace).append_left _)

theorem fired_cons (x : Event α) (trace : List (Event α)) : fired (x :: trace) = x.fired.toList ++ fired trace := by
  unfold fired
  cases h : x.fired <;> simp [h]

theorem Run.batch (run : Run start trace w)
    : start.service.batch ++ taken trace = fired trace ++ w.service.batch := by
  induction run with
  | nil => exact List.append_nil _
  | cons h _ ih =>
    rw [taken, List.flatMap_cons, fired_cons, ← List.append_assoc, Clocked.batch_of_step h, List.append_assoc,
      List.append_assoc, ← ih]
    rfl

theorem Run.deadline_le (run : Run start trace w) (hstart : ∀ e ∈ start.service.batch, e.1.deadline ≤ start.clock)
    : ∀ x ∈ trace, ∀ e, e ∈ x.taken ∨ x.fired = some e → e.1.deadline ≤ x.before.clock := by
  induction run with
  | nil => simp
  | @cons start middle w a fired? trace h _ ih =>
    have hdue : ∀ e ∈ fired?.toList ++ middle.service.batch, e.1.deadline ≤ start.clock := by
      rw [← Clocked.batch_of_step h]
      intro e he
      rcases List.mem_append.1 he with he | he
      . exact hstart e he
      . exact Clocked.deadline_le_of_mem_taken he
    intro x hx e he
    rcases List.mem_cons.1 hx with rfl | hx
    . rcases he with he | he
      . exact Clocked.deadline_le_of_mem_taken he
      . apply hdue e
        exact List.mem_append_left _ (Option.mem_toList.2 he)
    . refine ih ?_ x hx e he
      intro e he
      exact Int.le_trans (hdue e (List.mem_append_right _ he)) (Clocked.clock_le_of_step h)

theorem Run.taken_eq_nil (run : Run start trace w) (hstart : start.service.shutdown = true)
    : taken trace = [] := by
  induction run with
  | nil => rfl
  | cons h _ ih =>
    obtain ⟨hshutdown, hnone⟩ := Clocked.shutdown_of_step h hstart
    rw [taken, List.flatMap_cons, hnone]
    exact ih hshutdown

theorem Run.seq_scheduled (run : Run start trace w) (hstart : start.service.queue.Numbered n)
    (few : n + (scheduled trace).length < UInt64.size)
    : (scheduled trace).map (fun e => e.1.seq.toNat) = List.range' n (scheduled trace).length := by
  induction run generalizing n with
  | nil => rfl
  | @cons start middle w a fired? trace h _ ih =>
    rw [scheduled, List.flatMap_cons, List.length_append, ← Nat.add_assoc] at few
    have hrest := ih (Clocked.numbered_of_step h hstart (Nat.lt_of_le_of_lt (Nat.le_add_right _ _) few)) few
    have hfirst : (Event.scheduled ⟨start, a, fired?, middle⟩).map (fun e => e.1.seq.toNat) =
        List.range' n (Event.scheduled ⟨start, a, fired?, middle⟩).length := by
      cases a with
      | schedule due a =>
        have hseq : ((start.service.schedule due a).1.seq).toNat = n := hstart.next
        simp [Event.scheduled, hseq]
      | _ => rfl
    rw [scheduled, List.flatMap_cons, List.map_append, List.length_append, ← List.range'_append_1, hfirst]
    exact congrArg _ hrest

theorem Run.nodup_scheduled (run : Run start trace w) (hstart : start.service.queue.Numbered n)
    (few : n + (scheduled trace).length < UInt64.size)
    : ((scheduled trace).map Prod.fst).Nodup := by
  have hseq : ((scheduled trace).map fun e => e.1.seq.toNat).Nodup := by
    rw [run.seq_scheduled hstart few]
    exact List.nodup_range'
  have hof : ((scheduled trace).map Prod.fst).map (fun key : Key => key.seq.toNat) =
      (scheduled trace).map fun e => e.1.seq.toNat := List.map_map
  rw [← hof] at hseq
  exact List.Pairwise.of_map (fun key : Key => key.seq.toNat) (fun k₁ k₂ h heq => h (by rw [heq])) hseq

theorem Run.mem_of_taken (run : Run start trace w) (hstart : start.service.queue.Numbered n)
    (few : n + (scheduled trace).length < UInt64.size) (hold : e.1.seq.toNat < n) (he : e ∈ taken trace)
    : e ∈ start.service.queue.entries := by
  -- what was scheduled since has a number that was not used before
  have hleft : e ∈ w.service.queue.entries ++ (cancelled trace ++ (cleared trace ++ taken trace)) := by simp [he]
  rw [← (run.perm hstart few).mem_iff] at hleft
  rcases List.mem_append.1 hleft with he | he
  . exact he
  . have hseq := List.mem_map_of_mem (f := fun e : Key × α => e.1.seq.toNat) he
    rw [run.seq_scheduled hstart few, List.mem_range'_1] at hseq
    exact absurd hold (Nat.not_lt.2 hseq.1)

theorem Clocked.pair_sublist_taken (hordered : Queue.Ordered w.service.queue.entries)
    (h₁ : e₁ ∈ w.service.queue.entries) (hbefore : e₁.1.before e₂.1 = true)
    (htaken : e₂ ∈ (Event.mk w a fired? w').taken)
    : [e₁, e₂].Sublist (Event.mk w a fired? w').taken := by
  unfold Event.taken at htaken ⊢
  split at htaken
  . next hscans =>
    rw [if_pos hscans]
    rw [(Queue.popDue_eq_filter hordered w.clock).1] at htaken ⊢
    apply Queue.pair_sublist (hordered.sublist List.filter_sublist) _ htaken hbefore
    have hdue := (List.mem_filter.1 htaken).2
    rw [decide_eq_true_eq] at hdue
    apply List.mem_filter.2
    rw [decide_eq_true_eq]
    exact ⟨h₁, Int.le_trans (Key.deadline_le_of_before hbefore) hdue⟩
  . contradiction

theorem Run.pair_sublist_taken (run : Run start trace w) (hstart : start.service.queue.Numbered n)
    (few : n + (scheduled trace).length < UInt64.size) (h₁ : e₁ ∈ start.service.queue.entries)
    (h₂ : e₂ ∈ start.service.queue.entries) (hbefore : e₁.1.before e₂.1 = true) (htaken : e₂ ∈ taken trace)
    : [e₁, e₂].Sublist (taken trace) ∨ e₁ ∈ cancelled trace := by
  -- the earlier one stands in front of the later one until it leaves the queue
  induction run generalizing n with
  | nil => contradiction
  | @cons start middle w a fired? trace h run ih =>
    rw [scheduled, List.flatMap_cons, List.length_append, ← Nat.add_assoc] at few
    have hmiddle := Clocked.numbered_of_step h hstart (Nat.lt_of_le_of_lt (Nat.le_add_right _ _) few)
    have hold : e₂.1.seq.toNat < n := hstart.older e₂ h₂
    rw [taken, List.flatMap_cons] at htaken ⊢
    rw [cancelled, List.flatMap_cons]
    rcases List.mem_append.1 htaken with htaken | htaken
    . left
      exact (Clocked.pair_sublist_taken hstart.ordered h₁ hbefore htaken).trans (List.sublist_append_left _ _)
    . have h₁' : e₁ ∈ middle.service.queue.entries ++ Event.left ⟨start, a, fired?, middle⟩ := by
        rw [← (Clocked.perm_of_step h hstart).mem_iff]
        exact List.mem_append_left _ h₁
      unfold Event.left at h₁'
      simp only [List.mem_append] at h₁'
      rcases h₁' with h₁' | hcancelled | hcleared | htaken₁
      . have h₂' := run.mem_of_taken hmiddle few (Nat.lt_of_lt_of_le hold (Nat.le_add_right _ _)) htaken
        rcases ih hmiddle few h₁' h₂' htaken with hpair | hcancelled
        . exact Or.inl (hpair.trans (List.sublist_append_right _ _))
        . exact Or.inr (List.mem_append_right _ hcancelled)
      . exact Or.inr (List.mem_append_left _ hcancelled)
      . -- once the service has ended, nothing is taken
        have hnone := run.taken_eq_nil (Clocked.shutdown_of_mem_cleared h hcleared)
        unfold taken at hnone
        rw [hnone] at htaken
        contradiction
      . left
        exact (List.singleton_sublist.2 htaken₁).append (List.singleton_sublist.2 htaken)

/-!
Runs of a service that has just been started.
-/

theorem Queue.Numbered.init : ({} : Queue α).Numbered 0 where
  next := rfl
  older _ he := nomatch he
  ordered := List.Pairwise.nil

section Fresh

variable {clock : Instant} {before after : List (Event α)} {x : Event α}

theorem Run.nodup_fates (run : Run { clock } trace w) (few : (scheduled trace).length < UInt64.size)
    : (w.service.queue.entries ++ (cancelled trace ++ (cleared trace ++ taken trace))).Nodup := by
  rw [← Nat.zero_add (scheduled trace).length] at few
  have hnodup : (scheduled trace).Nodup :=
    List.Pairwise.of_map Prod.fst (fun _ _ => mt (congrArg Prod.fst)) (run.nodup_scheduled Queue.Numbered.init few)
  exact (run.perm Queue.Numbered.init few).nodup_iff.1 hnodup

theorem Run.not_mem_taken (run : Run { clock } trace w) (few : (scheduled trace).length < UInt64.size)
    (he : e ∈ w.service.queue.entries ∨ e ∈ cancelled trace)
    : e ∉ taken trace := by
  obtain ⟨_, hnodup, hqueued⟩ := List.nodup_append.1 (run.nodup_fates few)
  obtain ⟨_, _, hcancelled⟩ := List.nodup_append.1 hnodup
  intro htaken
  rcases he with he | he
  . exact hqueued e he e (by simp [htaken]) rfl
  . exact hcancelled e he e (by simp [htaken]) rfl

theorem Run.taken_eq (run : Run { clock } trace w) : taken trace = fired trace ++ w.service.batch := run.batch

theorem Event.action_of_scans (h : x.scans = true) : x.action = .work := by
  unfold scans at h
  split at h
  . assumption
  . contradiction

theorem Event.cancelled_of_scans (h : x.scans = true) : x.cancelled = [] := by
  rw [cancelled, action_of_scans h]

theorem Run.at_event (run : Run { clock } (before ++ x :: after) w)
    (few : (scheduled (before ++ x :: after)).length < UInt64.size)
    : Run { clock } before x.before ∧ x.before.step x.action = some (x.fired, x.after) ∧
        Run x.before (x :: after) w ∧ (scheduled before).length < UInt64.size ∧
        x.before.service.queue.Numbered (scheduled before).length ∧
        (scheduled before).length + (scheduled (x :: after)).length < UInt64.size := by
  obtain ⟨middle, hbefore, hafter⟩ := run.of_append
  rw [scheduled, List.flatMap_append, List.length_append] at few
  have fewer := Nat.lt_of_le_of_lt (Nat.le_add_right _ _) few
  have hnumbered := hbefore.numbered Queue.Numbered.init (by rw [Nat.zero_add]; exact fewer)
  rw [Nat.zero_add] at hnumbered
  cases hafter with
  | cons h rest => exact ⟨hbefore, h, .cons h rest, fewer, hnumbered, few⟩

theorem Run.ahead_of_scan (run : Run { clock } (before ++ x :: after) w)
    (few : (scheduled (before ++ x :: after)).length < UInt64.size) (hscans : x.scans = true)
    (he : e ∈ x.after.service.queue.entries)
    : x.before.clock < e.1.deadline := by
  obtain ⟨_, hstep, _, _, hnumbered, _⟩ := run.at_event few
  rw [Event.action_of_scans hscans] at hstep
  obtain ⟨_, _, ⟨_, _, _, _, hqueue, _⟩ | ⟨hidle, _⟩⟩ := Clocked.of_work_eq_some hstep
  . rw [hqueue, (Queue.popDue_eq_filter hnumbered.ordered _).2, List.mem_filter, decide_eq_true_eq] at he
    exact he.2
  . have hsame : Event.mk x.before .work x.fired x.after = x := by rw [← Event.action_of_scans hscans]
    rw [hsame, hscans] at hidle
    contradiction

theorem Run.pair_taken_of_scan (run : Run { clock } (before ++ x :: after) w)
    (few : (scheduled (before ++ x :: after)).length < UInt64.size) (hscans : x.scans = true)
    (h₁ : e₁ ∈ x.before.service.queue.entries) (h₂ : e₂ ∈ x.before.service.queue.entries)
    (hbefore : e₁.1.before e₂.1 = true) (htaken : e₂ ∈ taken (before ++ x :: after))
    : [e₁, e₂].Sublist (taken (before ++ x :: after)) ∨ e₁ ∈ cancelled after := by
  obtain ⟨hrun, _, hrest, fewer, hnumbered, hfew⟩ := run.at_event few
  unfold taken at htaken ⊢
  rw [List.flatMap_append] at htaken ⊢
  rcases List.mem_append.1 htaken with htaken | htaken
  . exact absurd htaken (hrun.not_mem_taken fewer (Or.inl h₂))
  . rcases hrest.pair_sublist_taken hnumbered hfew h₁ h₂ hbefore htaken with hpair | hcancelled
    . exact Or.inl (hpair.trans (List.sublist_append_right _ _))
    . rw [cancelled, List.flatMap_cons, Event.cancelled_of_scans hscans] at hcancelled
      exact Or.inr hcancelled

theorem Run.pair_fired (run : Run { clock } trace w) (few : (scheduled trace).length < UInt64.size)
    (h : [e₁, e₂].Sublist (taken trace)) (hfired : e₂ ∈ fired trace)
    : [e₁, e₂].Sublist (fired trace) := by
  have hnodup := (run.nodup_fates few).sublist
    ((List.sublist_append_right _ _).trans ((List.sublist_append_right _ _).trans (List.sublist_append_right _ _)))
  rw [run.taken_eq] at h hnodup
  have hpending : e₂ ∉ w.service.batch := fun he => (List.nodup_append.1 hnodup).2.2 e₂ hfired e₂ he rfl
  obtain ⟨l₁, l₂, hpair, h₁, h₂⟩ := List.sublist_append_iff.1 h
  cases l₂ with
  | nil =>
    rw [List.append_nil] at hpair
    rw [hpair]
    exact h₁
  | cons first rest =>
    -- the pair ends with an entry that is not pending
    have hlast : e₂ ∈ first :: rest := by
      have hlast := congrArg List.getLast? hpair
      rw [List.getLast?_append_of_ne_nil _ (List.cons_ne_nil _ _)] at hlast
      exact List.mem_of_getLast? hlast.symm
    exact absurd (h₂.subset hlast) hpending

/--
Every entry that was ever scheduled has one fate: it is still queued, it was cancelled there or cleared when the
service ended, or the worker took it and has fired it once, or is about to. Nothing fires before its deadline, and
no entry that was cancelled in time fires at all. When the worker has looked at the queue, nothing that is due is
left in it. Of two entries that it finds there, it takes and fires the earlier one first, unless that is cancelled
before the other is taken.
-/
theorem Run.one_fate (run : Run { clock } trace w) (few : (scheduled trace).length < UInt64.size)
    : (w.service.queue.entries ++ (cancelled trace ++ (cleared trace ++ taken trace))).Perm (scheduled trace) ∧
      ((scheduled trace).map Prod.fst).Nodup ∧
      taken trace = fired trace ++ w.service.batch ∧
      (∀ x ∈ trace, ∀ e, e ∈ x.taken ∨ x.fired = some e → e.1.deadline ≤ x.before.clock) ∧
      (∀ x ∈ trace, ∀ e ∈ x.before.service.queue.entries, x.action = .cancel e.1 → e ∉ fired trace) ∧
      ∀ before x after, trace = before ++ x :: after → x.scans = true →
        (∀ e ∈ x.after.service.queue.entries, x.before.clock < e.1.deadline) ∧
        ∀ e₁ ∈ x.before.service.queue.entries, ∀ e₂ ∈ x.before.service.queue.entries, e₁.1.before e₂.1 = true →
          (e₂ ∈ x.taken → [e₁, e₂].Sublist x.taken) ∧
          (e₂ ∈ taken trace → [e₁, e₂].Sublist (taken trace) ∨ e₁ ∈ cancelled after) ∧
          (e₂ ∈ fired trace → [e₁, e₂].Sublist (fired trace) ∨ e₁ ∈ cancelled after) := by
  have few' : 0 + (scheduled trace).length < UInt64.size := by rwa [Nat.zero_add]
  refine ⟨(run.perm Queue.Numbered.init few').symm, run.nodup_scheduled Queue.Numbered.init few', run.taken_eq,
    run.deadline_le (fun _ he => nomatch he), ?_, ?_⟩
  . intro x hx e he hcancel hfired
    apply run.not_mem_taken few (e := e) (Or.inr _)
    . rw [run.taken_eq]
      exact List.mem_append_left _ hfired
    . apply List.mem_flatMap.2
      refine ⟨x, hx, ?_⟩
      simp [Event.cancelled, hcancel, he]
  . rintro before x after rfl hscans
    refine ⟨fun e he => run.ahead_of_scan few hscans he, ?_⟩
    intro e₁ h₁ e₂ h₂ hbefore
    have htaken := run.pair_taken_of_scan few hscans h₁ h₂ hbefore
    refine ⟨?_, htaken, ?_⟩
    . obtain ⟨_, _, _, _, hnumbered, _⟩ := run.at_event few
      exact Clocked.pair_sublist_taken hnumbered.ordered h₁ hbefore
    . intro hfired
      have hmem : e₂ ∈ taken (before ++ x :: after) := by
        rw [run.taken_eq]
        exact List.mem_append_left _ hfired
      rcases htaken hmem with hpair | hcancelled
      . exact Or.inl (run.pair_fired few hpair hfired)
      . exact Or.inr hcancelled

/--
Of three entries that are due at one look, two share an instant, and one of these is cancelled in vain, since it has
been taken. Another entry is cancelled in time, and one is scheduled while the worker fires. The service ends with
an entry about to fire and one that is cleared.
-/
theorem mixed_fates
    : ∃ trace w, Run (α := Nat) { clock := 0 } trace w ∧ (scheduled trace).length < UInt64.size ∧
        fired trace = [(⟨3, 2⟩, 30), (⟨5, 0⟩, 10), (⟨5, 1⟩, 20)] ∧ taken trace = fired trace ++ [(⟨4, 4⟩, 50)] ∧
        cancelled trace = [(⟨5, 3⟩, 40)] ∧ (⟨5, 3⟩, 40) ∉ fired trace ∧ cleared trace = [(⟨9, 5⟩, 60)] ∧
        (w.service.queue.entries ++ (cancelled trace ++ (cleared trace ++ taken trace))).Perm (scheduled trace) := by
  have run : Run { clock := 0 } _ _ := Run.replayed
    [.schedule 5 10, .schedule 5 20, .work, .schedule 3 30, .schedule 5 40, .cancel ⟨5, 3⟩, .wait 5, .work, .work,
      .cancel ⟨5, 0⟩, .work, .schedule 4 50, .work, .work, .work, .schedule 9 60, .stop] (by decide +kernel)
  obtain ⟨hperm, _, htaken, _, hcancelled, _⟩ := run.one_fate (by decide +kernel)
  have hnever := hcancelled _ (List.getElem_mem (n := 5) (by decide +kernel)) (⟨5, 3⟩, 40) (by decide +kernel)
    (by decide +kernel)
  exact ⟨_, _, run, by decide +kernel, by decide +kernel, by decide +kernel, by decide +kernel, hnever,
    by decide +kernel, hperm⟩

end Fresh

end Timer

end BlockingStream

import BlockingStream.Time

/-!
This module contains the queue of deadlines that are still to come. Entries are kept in the order in
which they fall due; entries of the same instant keep the order in which they were scheduled.
-/

namespace BlockingStream.Timer

/--
The place of an entry in the queue: when it falls due, and a number that tells entries of the same
instant apart.
-/
structure Key where
  deadline : Instant
  seq : UInt64
  deriving DecidableEq, Repr

def Key.before (a b : Key) : Bool :=
  a.deadline < b.deadline || (a.deadline == b.deadline && a.seq < b.seq)

/--
The queue, with the number that the next entry gets. Numbers start again from zero after the last one.
-/
structure Queue (α : Type) where
  entries : List (Key × α) := []
  nextSeq : UInt64 := 0
  deriving Repr

namespace Queue

variable {α : Type}

def insert (key : Key) (a : α) : List (Key × α) → List (Key × α)
  -- an entry with the same key is replaced
  | [] => [(key, a)]
  | entry :: rest =>
    if key.before entry.1 then (key, a) :: entry :: rest
    else if entry.1.before key then entry :: insert key a rest
    else (key, a) :: rest

theorem mem_insert_self (key : Key) (a : α) (entries : List (Key × α)) :
    (key, a) ∈ insert key a entries := by
  induction entries with
  | nil => simp [insert]
  | cons e rest ih =>
    unfold insert
    repeat' split
    all_goals simp_all

def head (q : Queue α) : Option Instant := q.entries.head?.map (·.1.deadline)

def schedule (deadline : Instant) (a : α) (q : Queue α) : Key × Queue α :=
  let key := ⟨deadline, q.nextSeq⟩
  (key, { entries := insert key a q.entries, nextSeq := q.nextSeq + 1 })

def cancel (key : Key) (q : Queue α) : Queue α :=
  { q with entries := q.entries.filter (·.1 ≠ key) }

@[simp]
theorem mem_cancel {key : Key} {q : Queue α} {e : Key × α} :
    e ∈ (q.cancel key).entries ↔ e ∈ q.entries ∧ e.1 ≠ key := by
  simp [cancel]

def popDue (now : Instant) (q : Queue α) : List (Key × α) × Queue α :=
  let due := fun (entry : Key × α) => decide (entry.1.deadline ≤ now)
  (q.entries.takeWhile due, { q with entries := q.entries.dropWhile due })

theorem popDue_append (now : Instant) (q : Queue α) :
    (q.popDue now).1 ++ (q.popDue now).2.entries = q.entries :=
  List.takeWhile_append_dropWhile

theorem deadline_le_of_mem_popDue {now : Instant} {q : Queue α} {e : Key × α}
    (h : e ∈ (q.popDue now).1) : e.1.deadline ≤ now := by
  have due := List.all_takeWhile (p := fun (e : Key × α) => decide (e.1.deadline ≤ now)) (l := q.entries)
  simpa using List.all_eq_true.1 due e h

def pending (q : Queue α) : Nat := q.entries.length

end Queue

end BlockingStream.Timer

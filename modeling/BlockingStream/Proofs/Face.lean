import BlockingStream.Proofs.Move
import BlockingStream.Proofs.Ownership

/-!
This module contains what a connection sees of the timer queue that it shares with others: its own entries, in the
order of the queue, each through the alarm that remembers it. The numbers in the keys do not matter for that.

What a connection does depends on nothing else, and leaves alone what the others see.
-/

namespace BlockingStream

/--
A connection with what it sees of the timer queue: the instants that its alarms remember, and in the order of the
queue its own entries, each with the alarm that remembers it.
-/
@[ext]
structure Face (σ : Type) where
  monitor : Monitor σ
  handle : Bool
  notifiers : Nat
  armed : Direction → Option Instant
  agenda : List (Instant × Option Direction)

def AlarmRequest.amend (r : AlarmRequest) (agenda : List (Instant × Option Direction))
    : List (Instant × Option Direction) :=
  let rest := agenda.filter (·.2 ≠ some r.direction)
  match r.deadline with
  | none => rest
  | some due => rest.filter (·.1 ≤ due) ++ (due, some r.direction) :: rest.filter (due < ·.1)

def Face.reset {σ : Type} (r : AlarmRequest) (f : Face σ) : Face σ :=
  { f with
    armed := fun d => if d = r.direction then r.deadline else f.armed d
    agenda := r.amend f.agenda }

theorem filter_swap {α : Type} (p q : α → Bool) (l : List α) : (l.filter p).filter q = (l.filter q).filter p := by
  rw [List.filter_filter, List.filter_filter]
  apply List.filter_congr
  intro a _
  exact Bool.and_comm _ _

namespace Connection

variable {σ : Type} {E : Engine σ} {c c' : Connection σ} {service service' : Timer.Service Nat} {i j : Nat}
  {r : AlarmRequest} {k : Timer.Key} {d : Direction}

/--
The alarm that remembers a key.
-/
def direction? (c : Connection σ) (k : Timer.Key) : Option Direction :=
  if c.key .reading = some k then some .reading
  else if c.key .writing = some k then some .writing
  else none

def entries (i : Nat) (service : Timer.Service Nat) : List (Timer.Key × Nat) :=
  service.queue.entries.filter (·.2 = i)

def face (i : Nat) (service : Timer.Service Nat) (c : Connection σ) : Face σ where
  monitor := c.monitor
  handle := c.handle
  notifiers := c.notifiers
  armed d := (c.key d).map (·.deadline)
  agenda := (entries i service).map fun e => (e.1.deadline, c.direction? e.1)

/--
No key is used twice, neither among the alarms of a connection nor for the next entry.
-/
structure Marked (service : Timer.Service Nat) (c : Connection σ) : Prop where
  ordered : Timer.Queue.Ordered service.queue.entries
  fresh : ∀ e ∈ service.queue.entries, e.1.seq.toNat < service.queue.nextSeq.toNat
  older : ∀ d k, c.key d = some k → k.seq.toNat < service.queue.nextSeq.toNat
  distinct : ∀ d d' k, c.key d = some k → c.key d' = some k → d = d'

theorem face_congr (h : entries i service' = entries i service) : c.face i service' = c.face i service := by
  rw [face, h, face]

theorem direction?_eq_some_iff (hdistinct : ∀ d d' k, c.key d = some k → c.key d' = some k → d = d')
    : c.direction? k = some d ↔ c.key d = some k := by
  unfold direction?
  cases d with
  | reading =>
    constructor
    . intro h
      split at h
      . assumption
      . split at h <;> simp at h
    . intro h
      rw [if_pos h]
  | writing =>
    constructor
    . intro h
      split at h
      . simp at h
      . split at h
        . assumption
        . simp at h
    . intro h
      have hother : c.key .reading ≠ some k := fun hread => by cases hdistinct _ _ k hread h
      rw [if_neg hother, if_pos h]

theorem direction?_reset (hold : c.key r.direction ≠ some k) (hnew : k.seq ≠ service.queue.nextSeq)
    : (c.reset i r service).1.direction? k = c.direction? k := by
  have hkey : ∀ d, (c.reset i r service).1.key d = some k ↔ c.key d = some k := by
    intro d
    rw [key_reset]
    split
    . next heq =>
      subst heq
      constructor
      . intro h
        obtain ⟨due, _, rfl⟩ := Option.map_eq_some_iff.1 h
        exact absurd rfl hnew
      . intro h
        exact absurd h hold
    . rfl
  unfold direction?
  simp only [hkey]

theorem direction?_reset_self (h : c.Marked service) {due : Instant} (hdue : r.deadline = some due)
    : (c.reset i r service).1.direction? ⟨due, service.queue.nextSeq⟩ = some r.direction := by
  have hself : (c.reset i r service).1.key r.direction = some ⟨due, service.queue.nextSeq⟩ := by
    rw [key_reset, if_pos rfl, hdue, Option.map_some]
  unfold direction?
  cases hr : r.direction with
  | reading =>
    rw [hr] at hself
    rw [if_pos hself]
  | writing =>
    rw [hr] at hself
    have hother : (c.reset i r service).1.key .reading ≠ some ⟨due, service.queue.nextSeq⟩ := by
      rw [key_reset, hr, if_neg (by simp)]
      intro hold
      exact absurd (h.older _ _ hold) (Nat.lt_irrefl _)
    rw [if_neg hother, if_pos hself]

theorem entries_withdraw (d : Direction) (c : Connection σ) (service : Timer.Service Nat)
    : (c.withdraw d service).queue.entries = service.queue.entries.filter (fun e => decide (c.key d ≠ some e.1)) := by
  unfold withdraw
  cases hkey : c.key d with
  | none => exact (List.filter_eq_self.2 fun e _ => by simp).symm
  | some key =>
    apply List.filter_congr
    intro e _
    rw [decide_eq_decide, Ne, Ne, Option.some.injEq, eq_comm]

theorem queue_reset (hordered : Timer.Queue.Ordered service.queue.entries)
    (hfresh : ∀ e ∈ service.queue.entries, e.1.seq.toNat < service.queue.nextSeq.toNat)
    : (c.reset i r service).2.queue.entries =
        let rest := service.queue.entries.filter (fun e => decide (c.key r.direction ≠ some e.1))
        match r.deadline with
        | none => rest
        | some due =>
          rest.filter (fun e => decide (e.1.deadline ≤ due)) ++
            (⟨due, service.queue.nextSeq⟩, i) :: rest.filter (fun e => decide (due < e.1.deadline)) := by
  rw [service_reset]
  cases r.deadline with
  | none => exact entries_withdraw _ c service
  | some due =>
    have hnew : ∀ e ∈ service.queue.entries.filter (fun e => decide (c.key r.direction ≠ some e.1)),
        e.1.seq.toNat < service.queue.nextSeq.toNat := fun e he => hfresh e (List.mem_filter.1 he).1
    dsimp only
    rw [Timer.Service.queue_schedule, Timer.Queue.schedule, nextSeq_withdraw, entries_withdraw]
    apply Timer.Queue.insert_eq_filter
    . exact hordered.sublist List.filter_sublist
    . exact hnew

theorem entries_reset_of_ne (h : c.Marked service) (hj : j ≠ i)
    (hother : ∀ k, (k, j) ∈ service.queue.entries → ∀ d, c.key d ≠ some k)
    : entries j (c.reset i r service).2 = entries j service := by
  have hrest : (service.queue.entries.filter (fun e => decide (c.key r.direction ≠ some e.1))).filter
      (fun e => decide (e.2 = j)) = entries j service := by
    rw [List.filter_filter]
    apply List.filter_congr
    rintro ⟨k, j'⟩ he
    by_cases hj' : j' = j
    . subst hj'
      simp [hother k he]
    . simp [hj']
  unfold entries at hrest ⊢
  rw [queue_reset h.ordered h.fresh]
  cases r.deadline with
  | none => exact hrest
  | some due =>
    dsimp only
    rw [List.filter_append, List.filter_cons_of_neg (by simpa using hj.symm), ← List.filter_append,
      Timer.Queue.filter_append_filter (h.ordered.sublist List.filter_sublist)]
    exact hrest

theorem agenda_reset (h : c.Marked service)
    : ((c.reset i r service).1.face i (c.reset i r service).2).agenda = r.amend (c.face i service).agenda := by
  -- what the connection sees of the entries that are not cancelled
  have hkept : ((c.face i service).agenda.filter fun x => decide (x.2 ≠ some r.direction)) =
      ((entries i service).filter fun e => decide (c.key r.direction ≠ some e.1)).map fun e =>
        (e.1.deadline, (c.reset i r service).1.direction? e.1) := by
    unfold face
    rw [List.filter_map]
    have hcancelled : ∀ e : Timer.Key × Nat,
        decide (c.direction? e.1 ≠ some r.direction) = decide (c.key r.direction ≠ some e.1) := by
      intro e
      rw [decide_eq_decide, Ne, Ne, direction?_eq_some_iff h.distinct]
    simp only [Function.comp_def, hcancelled]
    apply List.map_congr_left
    intro e he
    obtain ⟨hmem, hold⟩ := List.mem_filter.1 he
    have hnew : e.1.seq ≠ service.queue.nextSeq := by
      intro heq
      have hlt := h.fresh e (List.mem_filter.1 hmem).1
      rw [heq] at hlt
      exact absurd hlt (Nat.lt_irrefl _)
    rw [direction?_reset (of_decide_eq_true hold) hnew]
  unfold AlarmRequest.amend
  rw [hkept]
  unfold face entries
  rw [queue_reset h.ordered h.fresh]
  cases hdue : r.deadline with
  | none =>
    dsimp only
    rw [filter_swap]
  | some due =>
    dsimp only
    rw [List.filter_append, List.filter_cons_of_pos (by simp), List.map_append, List.map_cons,
      direction?_reset_self h hdue, List.filter_map, List.filter_map,
      filter_swap fun e : Timer.Key × Nat => decide (e.1.deadline ≤ due),
      filter_swap fun e : Timer.Key × Nat => decide (due < e.1.deadline),
      filter_swap fun e : Timer.Key × Nat => decide (c.key r.direction ≠ some e.1)]
    rfl

theorem face_reset (h : c.Marked service)
    : (c.reset i r service).1.face i (c.reset i r service).2 = (c.face i service).reset r := by
  obtain ⟨hmonitor, hhandle, hnotifiers⟩ := reset_frame i r c service
  apply Face.ext hmonitor hhandle hnotifiers
  . funext d
    change ((c.reset i r service).1.key d).map (·.deadline) = if d = r.direction then r.deadline else _
    rw [key_reset]
    split
    . cases r.deadline <;> rfl
    . rfl
  . exact agenda_reset h

variable {clock : Instant} {owed : List AlarmRequest} {m : OwnMove} {t : Turn σ}

theorem service_turn (ht : c.turn E clock i service owed m = some t)
    : t.service = service ∨ ∃ r, t.service = (c.reset i r service).2 := by
  unfold turn at ht
  cases m with
  | act a =>
    dsimp only at ht
    split at ht
    . split at ht
      . cases ht
        exact Or.inl rfl
      . contradiction
    . contradiction
  | disarm =>
    dsimp only at ht
    split at ht
    . contradiction
    . cases ht
      exact Or.inr ⟨_, rfl⟩
  | reset =>
    dsimp only at ht
    split at ht
    . contradiction
    . cases ht
      exact Or.inr ⟨_, rfl⟩
  | _ =>
    dsimp only at ht
    split at ht
    . cases ht
      exact Or.inl rfl
    . contradiction

theorem batch_turn (ht : c.turn E clock i service owed m = some t) : t.service.batch = service.batch := by
  rcases service_turn ht with hsame | ⟨r, hreset⟩
  . rw [hsame]
  . rw [hreset, batch_reset]

theorem entries_turn_of_ne (h : c.Marked service) (hj : j ≠ i)
    (hother : ∀ k, (k, j) ∈ service.queue.entries → ∀ d, c.key d ≠ some k)
    (ht : c.turn E clock i service owed m = some t)
    : entries j t.service = entries j service := by
  rcases service_turn ht with hsame | ⟨r, hreset⟩
  . rw [hsame]
  . rw [hreset]
    exact entries_reset_of_ne h hj hother

theorem turn_congr (h : c.Marked service) (h' : c'.Marked service') (hface : c'.face j service' = c.face i service)
    (ht : c.turn E clock i service owed m = some t)
    : ∃ t', c'.turn E clock j service' owed m = some t' ∧ t'.step = t.step ∧ t'.owed = t.owed ∧
        t'.scheduled = t.scheduled ∧ t'.connection.face j t'.service = t.connection.face i t.service := by
  have hmonitor : c'.monitor = c.monitor := congrArg Face.monitor hface
  have hhandle : c'.handle = c.handle := congrArg Face.handle hface
  have hnotifiers : c'.notifiers = c.notifiers := congrArg Face.notifiers hface
  -- the keys stay as they are while the rest changes
  have hset : ∀ (monitor : Monitor σ) (handle : Bool) (notifiers : Nat),
      face j service' { c' with monitor, handle, notifiers } =
        face i service { c with monitor, handle, notifiers } := by
    intro monitor handle notifiers
    exact congrArg (fun f : Face σ => ({ f with monitor, handle, notifiers } : Face σ)) hface
  have hreset : ∀ r, (c'.reset j r service').1.face j (c'.reset j r service').2 =
      (c.reset i r service).1.face i (c.reset i r service).2 := by
    intro r
    rw [face_reset h, face_reset h', hface]
  unfold turn at ht ⊢
  cases m with
  | act a =>
    have hpermits : Host.permits c' a = Host.permits c a := by
      unfold Host.permits
      rw [hhandle, hnotifiers]
    dsimp only at ht ⊢
    rw [hpermits, hmonitor]
    split at ht
    . next hmay =>
      rw [if_pos hmay]
      split at ht
      . next s hs =>
        cases ht
        rw [hhandle, hnotifiers]
        exact ⟨_, rfl, rfl, rfl, rfl, hset s.monitor c.handle c.notifiers⟩
      . contradiction
    . contradiction
  | drop =>
    dsimp only at ht ⊢
    rw [hmonitor, hhandle, hnotifiers]
    split at ht
    . next hmay =>
      cases ht
      rw [if_pos hmay]
      exact ⟨_, rfl, rfl, rfl, rfl, hset (c.monitor.close E).monitor false c.notifiers⟩
    . contradiction
  | addNotifier =>
    have hlive : c'.alive = c.alive := by
      unfold alive
      rw [hhandle, hnotifiers]
    dsimp only at ht ⊢
    rw [hlive, hmonitor, hhandle, hnotifiers]
    split at ht
    . next halive =>
      cases ht
      rw [if_pos halive]
      exact ⟨_, rfl, rfl, rfl, rfl, hset c.monitor c.handle (c.notifiers + 1)⟩
    . contradiction
  | dropNotifier =>
    dsimp only at ht ⊢
    rw [hmonitor, hhandle, hnotifiers]
    split at ht
    . next hsome =>
      cases ht
      rw [if_pos hsome]
      exact ⟨_, rfl, rfl, rfl, rfl, hset c.monitor c.handle (c.notifiers - 1)⟩
    . contradiction
  | disarm =>
    dsimp only at ht ⊢
    split at ht
    . contradiction
    . next r rest =>
      cases ht
      exact ⟨_, rfl, rfl, rfl, rfl, hreset _⟩
  | reset =>
    dsimp only at ht ⊢
    split at ht
    . contradiction
    . next r rest =>
      cases ht
      exact ⟨_, rfl, rfl, rfl, rfl, hreset _⟩

end Connection

end BlockingStream

import BlockingStream.Proofs.Run
import BlockingStream.Proofs.Step

/-!
This module contains what the past of a connection decides about it: the facts that hold, the failure that is
kept, the deadlines in force and, by these, the error that a transfer reports.
-/

namespace BlockingStream

/--
All that was done to a connection, in order.
-/
abbrev History := List Action

namespace Action

def failure? : Action → Option EngineCode
  | .upcall (.error code) => some code
  | _ => none

/--
The deadline that an action gives to a direction, if it gives one. Taking a deadline back counts as well.
-/
def deadline? (d : Direction) : Action → Option (Option Instant)
  | .request (.setDeadline .both deadline) => some deadline
  | .request (.setDeadline (.one d') deadline) => if d' = d then some deadline else none
  | _ => none

/--
The action may have a part in the error of a write.
-/
def concernsWrites : Action → Bool
  | .upcall .eof | .request (.setDeadline (.one .reading) _) => false
  | _ => true

def isNeutral : Action → Bool
  | .upcall .connected | .upcall .eof | .upcall (.error _) | .upcall .destroyed => false
  | .request .close | .request (.setDeadline _ _) => false
  | _ => true

end Action

namespace History

variable {h : History} {a : Action} {d : Direction}

def firstFailure (h : History) : Option EngineCode := h.findSome? Action.failure?

def latestDeadline (d : Direction) (h : History) : Option Instant :=
  (h.reverse.findSome? (Action.deadline? d)).getD none

theorem firstFailure_append_singleton (h : History) (a : Action)
    : firstFailure (h ++ [a]) = h.firstFailure.or a.failure? := by
  rw [firstFailure, List.findSome?_append, List.findSome?_singleton]
  rfl

theorem firstFailure_eq_none_iff : h.firstFailure = none ↔ ∀ code, .upcall (.error code) ∉ h := by
  rw [firstFailure, List.findSome?_eq_none_iff]
  constructor
  . intro hnone code hmem
    have := hnone _ hmem
    contradiction
  . intro hnone a ha
    unfold Action.failure?
    split
    . next code => exact absurd ha (hnone code)
    . rfl

theorem latestDeadline_append_singleton (d : Direction) (h : History) (a : Action)
    : latestDeadline d (h ++ [a]) = (a.deadline? d).getD (h.latestDeadline d) := by
  unfold latestDeadline
  rw [List.reverse_append, List.reverse_singleton, List.singleton_append, List.findSome?_cons]
  cases a.deadline? d <;> rfl

def commonError (d : Direction) (now : Instant) (h : History) : Option StreamError :=
  match h.firstFailure with
  | some code => some (.engine code)
  | none =>
    if .upcall .destroyed ∈ h then some .destroyed
    else if .request .close ∈ h then some .closed
    else
      match h.latestDeadline d with
      | some due => if due ≤ now then some .deadlineExceeded else none
      | none => none

def writeError (now : Instant) (h : History) : Option StreamError := h.commonError .writing now

theorem findSome?_filter {β : Type} {p : Action → Bool} {f : Action → Option β} (hf : ∀ a, p a = false → f a = none)
    (l : List Action)
    : (l.filter p).findSome? f = l.findSome? f := by
  have hskip : (fun a => if p a = true then f a else none) = f := by
    funext a
    cases hp : p a with
    | true => rfl
    | false => exact (hf a hp).symm
  rw [← List.head?_filterMap, List.filterMap_filter, hskip, List.head?_filterMap]

theorem writeError_filter (now : Instant) (h : History)
    : writeError now (h.filter Action.concernsWrites) = h.writeError now := by
  have hfailure : firstFailure (h.filter Action.concernsWrites) = h.firstFailure := by
    apply findSome?_filter
    intro a ha
    unfold Action.concernsWrites at ha
    split at ha <;> first | rfl | contradiction
  have hdeadline : latestDeadline .writing (h.filter Action.concernsWrites) = h.latestDeadline .writing := by
    unfold latestDeadline
    rw [← List.filter_reverse, findSome?_filter]
    intro a ha
    unfold Action.concernsWrites at ha
    split at ha <;> first | rfl | contradiction
  have hmem : ∀ a, a.concernsWrites = true → (a ∈ h.filter Action.concernsWrites ↔ a ∈ h) := by
    intro a ha
    rw [List.mem_filter, and_iff_left ha]
  simp only [writeError, commonError, hfailure, hdeadline, hmem (.upcall .destroyed) rfl,
    hmem (.request .close) rfl]

/--
The error of a read that leaves so many bytes to be read.
-/
def readError (left : Nat) (now : Instant) (h : History) : Option StreamError :=
  if .upcall .eof ∈ h ∧ left = 0 then some .endOfStream else h.commonError .reading now

end History

namespace Conn

variable {σ : Type} {c c' : Conn} {a : Action} {h : History}

/--
The facts after an action: those from before, and what the action adds.
-/
structure Follows (a : Action) (c c' : Conn) : Prop where
  connected : c'.connected = true ↔ c.connected = true ∨ a = .upcall .connected
  eof : c'.eof = true ↔ c.eof = true ∨ a = .upcall .eof
  destroyed : c'.destroyed = true ↔ c.destroyed = true ∨ a = .upcall .destroyed
  closed : c'.closed = true ↔ c.closed = true ∨ a = .request .close
  failure : c'.failure = c.failure.or a.failure?
  deadline (d : Direction) : c'.deadline d = (a.deadline? d).getD (c.deadline d)

theorem Follows.of_calm (calm : Calm c c') (ha : a.isNeutral = true) : Follows a c c' := by
  have hconnected : a ≠ .upcall .connected := by
    rintro rfl
    contradiction
  have heof : a ≠ .upcall .eof := by
    rintro rfl
    contradiction
  have hdestroyed : a ≠ .upcall .destroyed := by
    rintro rfl
    contradiction
  have hclosed : a ≠ .request .close := by
    rintro rfl
    contradiction
  have hfailure : a.failure? = none := by
    unfold Action.failure?
    split
    . contradiction
    . rfl
  have hdeadline : ∀ d, a.deadline? d = none := by
    intro d
    unfold Action.deadline?
    split
    . contradiction
    . contradiction
    . rfl
  refine ⟨?_, ?_, ?_, ?_, ?_, ?_⟩
  . simp [calm.connected, hconnected]
  . simp [calm.eof, heof]
  . simp [calm.destroyed, hdestroyed]
  . simp [calm.closed, hclosed]
  . simp [calm.failure, hfailure]
  . intro d
    simp [calm.deadline d, hdeadline d]

theorem follows_close (E : Engine σ) (c : Conn) (s : σ) : Follows (.request .close) c (c.close E s).2.1 := by
  by_cases hclosed : c.closed = true
  . rw [close_of_closed E hclosed]
    refine ⟨?_, ?_, ?_, ?_, ?_, fun d => rfl⟩ <;> simp [hclosed, Action.failure?]
  . rw [Bool.not_eq_true] at hclosed
    obtain ⟨attached, engine, hclose⟩ := close_of_open E hclosed s
    rw [hclose]
    refine ⟨?_, ?_, ?_, ?_, ?_, fun d => by cases d <;> rfl⟩ <;> simp [Action.failure?]

/--
The facts are those that a past decides.
-/
structure Reflects (h : History) (c : Conn) : Prop where
  connected : c.connected = true ↔ .upcall .connected ∈ h
  eof : c.eof = true ↔ .upcall .eof ∈ h
  destroyed : c.destroyed = true ↔ .upcall .destroyed ∈ h
  closed : c.closed = true ↔ .request .close ∈ h
  failure : c.failure = h.firstFailure
  deadline (d : Direction) : c.deadline d = h.latestDeadline d

theorem Reflects.init (E : Engine σ) (s : σ) : Reflects [] (Conn.init E s).1 where
  connected := by simp [Conn.init]
  eof := by simp [Conn.init]
  destroyed := by simp [Conn.init]
  closed := by simp [Conn.init]
  failure := rfl
  deadline d := by cases d <;> rfl

theorem Reflects.snoc (hc : c.Reflects h) (hfollows : Follows a c c') : c'.Reflects (h ++ [a]) where
  connected := by
    rw [hfollows.connected, hc.connected, List.mem_append, List.mem_singleton]
    exact or_congr_right eq_comm
  eof := by
    rw [hfollows.eof, hc.eof, List.mem_append, List.mem_singleton]
    exact or_congr_right eq_comm
  destroyed := by
    rw [hfollows.destroyed, hc.destroyed, List.mem_append, List.mem_singleton]
    exact or_congr_right eq_comm
  closed := by
    rw [hfollows.closed, hc.closed, List.mem_append, List.mem_singleton]
    exact or_congr_right eq_comm
  failure := by
    rw [hfollows.failure, hc.failure, History.firstFailure_append_singleton]
  deadline d := by
    rw [hfollows.deadline, hc.deadline, History.latestDeadline_append_singleton]

theorem Reflects.congr (hc : c.Reflects h) (calm : Calm c c') : c'.Reflects h where
  connected := by
    rw [calm.connected]
    exact hc.connected
  eof := by
    rw [calm.eof]
    exact hc.eof
  destroyed := by
    rw [calm.destroyed]
    exact hc.destroyed
  closed := by
    rw [calm.closed]
    exact hc.closed
  failure := calm.failure.trans hc.failure
  deadline d := (calm.deadline d).trans (hc.deadline d)

theorem Reflects.commonError (hc : c.Reflects h) (d : Direction) (now : Instant)
    : c.commonError (c.deadline d) now = h.commonError d now := by
  unfold Conn.commonError History.commonError
  rw [hc.failure, hc.deadline]
  cases h.firstFailure with
  | some code => rfl
  | none =>
    simp only [hc.destroyed, hc.closed]
    cases h.latestDeadline d with
    | some due => simp only [deadlinePassed_some]
    | none => simp

theorem Reflects.writeError (hc : c.Reflects h) (now : Instant) : c.writeError now = h.writeError now :=
  hc.commonError .writing now

theorem Reflects.readError (hc : c.Reflects h) (now : Instant)
    : c.readError now = h.readError c.inbound.length now := by
  unfold Conn.readError History.readError
  have hcommon := hc.commonError .reading now
  simp only [Conn.deadline] at hcommon
  simp only [hcommon, Bool.and_eq_true, hc.eof, List.isEmpty_iff, List.length_eq_zero_iff]

end Conn

namespace Monitor

variable {σ : Type} {E : Engine σ} {m : Monitor σ} {trace : List (Moment σ)} {now : Instant} {a : Action}
  {s : Step σ}

def history (trace : List (Moment σ)) : History := trace.map Moment.action

theorem history_snoc (trace : List (Moment σ)) (x : Moment σ)
    : history (trace ++ [x]) = history trace ++ [x.action] := by
  simp [history]

theorem follows_upcall (m : Monitor σ) (u : Upcall)
    : Conn.Follows (.upcall u) m.conn (m.upcall u).monitor.conn := by
  cases u with
  | error code =>
    change Conn.Follows _ _ (m.fail code).monitor.conn
    unfold fail Conn.fail
    cases hfailure : m.conn.failure with
    | some first =>
      -- only the first failure is kept
      refine ⟨?_, ?_, ?_, ?_, ?_, fun d => rfl⟩ <;> simp [hfailure]
    | none =>
      refine ⟨?_, ?_, ?_, ?_, ?_, fun d => by cases d <;> rfl⟩ <;>
        simp [absorb, broadcast, hfailure, Action.failure?]
  | _ =>
    refine ⟨?_, ?_, ?_, ?_, ?_, fun d => by cases d <;> rfl⟩ <;>
      simp [upcall, absorb, receive, broadcast, Conn.receive, Conn.destroy, Action.failure?]

theorem conn_close (E : Engine σ) (m : Monitor σ)
    : (m.close E).monitor.conn = (m.conn.close E m.engine).2.1 ∧
      (m.close E).monitor.engine = (m.conn.close E m.engine).2.2 := by
  unfold close
  dsimp only
  split <;> exact ⟨rfl, rfl⟩

theorem follows_request (E : Engine σ) (m : Monitor σ) (r : Request)
    : Conn.Follows (.request r) m.conn (m.request E r).monitor.conn := by
  cases r with
  | close =>
    change Conn.Follows _ _ (m.close E).monitor.conn
    rw [(conn_close E m).1]
    apply Conn.follows_close
  | setDeadline scope deadline =>
    cases scope with
    | both =>
      refine ⟨?_, ?_, ?_, ?_, ?_, fun d => by cases d <;> rfl⟩ <;>
        simp [request, setDeadline, broadcast, Action.failure?]
    | one direction =>
      cases direction <;> refine ⟨?_, ?_, ?_, ?_, ?_, fun d => by cases d <;> rfl⟩ <;>
        simp [request, setDeadline, broadcast, Action.failure?]
  | remoteAddr => exact .of_calm (Conn.calm_remoteAddr E m.conn m.engine) rfl
  | localAddr => exact .of_calm (Conn.calm_ownAddr E m.conn m.engine) rfl
  | _ => exact .of_calm (Conn.Calm.refl m.conn) rfl

theorem follows_of_step (h : m.step E now a = some s) : Conn.Follows a m.conn s.monitor.conn := by
  cases a with
  | enter id call =>
    obtain ⟨_, rfl⟩ := of_enter_eq_some h
    exact .of_calm (Conn.Calm.refl m.conn) rfl
  | run id =>
    obtain ⟨t, _, _, rfl⟩ := of_run_eq_some h
    exact .of_calm (calm_round E now m t) rfl
  | stir id =>
    obtain ⟨_, _, _, rfl⟩ := of_stir_eq_some h
    exact .of_calm (Conn.Calm.refl m.conn) rfl
  | request r =>
    obtain ⟨_, rfl⟩ := of_locked_eq_some h
    apply follows_request
  | upcall u =>
    obtain ⟨_, rfl⟩ := of_locked_eq_some h
    apply follows_upcall
  | alarm =>
    obtain ⟨_, rfl⟩ := of_locked_eq_some h
    exact .of_calm (Conn.Calm.refl m.conn) rfl
  | grant n =>
    cases h
    exact .of_calm (Conn.Calm.refl m.conn) rfl

theorem Run.reflects {label : String} {engine : σ} (run : Run E (init E label engine) trace m)
    : m.conn.Reflects (history trace) := by
  induction run with
  | nil => exact Conn.Reflects.init E engine
  | snoc _ h ih =>
    rw [history_snoc]
    exact ih.snoc (follows_of_step h)

end Monitor

end BlockingStream

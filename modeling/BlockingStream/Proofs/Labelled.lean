import BlockingStream.Proofs.Handle
import BlockingStream.Proofs.Refusal

/-!
This module contains the proof that what a connection tells about itself names the connection by its label, with one
exception: the warning that the engine has claimed to take more than it was offered, which names nobody.
-/

namespace BlockingStream

namespace Log.Event

/--
The event tells which connection it is about.
-/
def names (label : String) (e : Event) : Bool := e.field? "conn" = some (.text label)

end Log.Event

/--
The warning about an engine that claims to have taken more than it was offered.
-/
def EngineCall.warning? : EngineCall → Option Log.Event
  | .write offered reply =>
    if offered.length < reply then
      some
        { level := .warn, target := Log.engineTarget
          message := "engine accepted more bytes than offered; clamping"
          fields := [("accepted", .count reply), ("offered", .count offered.length)] }
    else none
  | _ => none

namespace Monitor

variable {σ : Type} {E : Engine σ} {now : Instant} {a : Action} {id : Nat} {t : Thread}

@[simp]
theorem names_event (m : Monitor σ) (level : Log.Level) (target message : String)
    (fields : List (String × Log.Value))
    : (m.event level target message fields).names m.label = true := by
  simp [event, Log.Event.names, Log.Event.field?]

def unnamed (label : String) (events : List Log.Event) : List Log.Event := events.filter fun e => !e.names label

theorem unnamed_events_request (E : Engine σ) (m : Monitor σ) (r : Request)
    : unnamed m.label (m.request E r).events = [] := by
  cases r with
  | close =>
    simp only [request, close]
    split <;> simp [unnamed]
  | setDeadline scope deadline =>
    cases scope with
    | both => simp [request, setDeadline, unnamed]
    | one direction => cases direction <;> simp [request, setDeadline, unnamed]
  | _ => rfl

theorem unnamed_events_upcall (m : Monitor σ) (u : Upcall) : unnamed m.label (m.upcall u).events = [] := by
  cases u with
  | data bytes =>
    simp only [upcall, receive, absorb]
    split <;> simp [unnamed]
  | error code =>
    simp only [upcall, fail, absorb]
    split <;> simp [unnamed]
  | _ => simp [upcall, absorb, unnamed]

theorem unnamed_offerEvents {c : Conn} {s : σ} {data : Bytes} (E : Engine σ) (label : String) (hdata : data ≠ [])
    (herror : c.writeError now = none) (hattached : c.attached = true)
    : unnamed label (offerEvents (c.offer E data now s).1) =
        (EngineCall.write data (E.write data s).1).warning?.toList := by
  have hempty : data.isEmpty = false := by simp [hdata]
  simp only [Conn.offer, herror, hempty, hattached, Bool.false_eq_true, if_false, if_true, EngineCall.warning?]
  split <;> rfl

theorem unnamed_append_event (m : Monitor σ) (events : List Log.Event) (level : Log.Level) (target message : String)
    (fields : List (String × Log.Value))
    : unnamed m.label (events ++ [m.event level target message fields]) = unnamed m.label events := by
  simp [unnamed]

theorem unnamed_events_round (E : Engine σ) (now : Instant) (m : Monitor (σ × List EngineCall)) (t : Thread)
    : ∃ call? : Option EngineCall, (m.round E.recorded now t).engine.2 = m.engine.2 ++ call?.toList ∧
        unnamed m.label (m.round E.recorded now t).events = (call?.bind EngineCall.warning?).toList := by
  cases hcall : t.call with
  | awaitConnect =>
    rw [round_of_connect hcall]
    exact ⟨none, (List.append_nil _).symm, rfl⟩
  | readInto buffer =>
    rw [round_of_read hcall]
    have hevents : unnamed m.label (m.readRound E.recorded now t buffer.length).events = [] := by
      unfold readRound
      dsimp only
      split <;> simp [unnamed]
    rw [hevents, (readRound_cases E.recorded now m t buffer.length).2.1]
    simp only [Conn.read, Conn.hintDrained]
    split
    . exact ⟨some .readDrained, rfl, rfl⟩
    . exact ⟨none, (List.append_nil _).symm, rfl⟩
  | write data =>
    rw [round_of_write hcall]
    rcases writeRound_cases E.recorded now m t with ⟨_, _, _, hround⟩ | ⟨hrest, herror, hattached, hround⟩
    . rw [hround]
      exact ⟨none, (List.append_nil _).symm, unnamed_append_event m [] ..⟩
    . have hoffer := unnamed_offerEvents (s := m.engine) E.recorded m.label hrest herror hattached
      refine ⟨some (.write t.rest (E.write t.rest m.engine.1).1), ?_, ?_⟩
      . rw [hround]
        dsimp only
        split <;> rfl
      . rw [hround]
        dsimp only
        split
        . exact (unnamed_append_event m _ ..).trans hoffer
        . exact hoffer

variable {m : Monitor (σ × List EngineCall)} {s : Step (σ × List EngineCall)}

theorem unnamed_events_of_step (h : m.step E.recorded now a = some s)
    : unnamed m.label s.events = (Moment.mk m now a s).calls.filterMap EngineCall.warning? := by
  by_cases hran : ∃ id, a = .run id
  . obtain ⟨id, rfl⟩ := hran
    obtain ⟨t, _, _, rfl⟩ := of_run_eq_some h
    obtain ⟨call?, hcalls, hevents⟩ := unnamed_events_round E now m t
    rw [calls_eq call? hcalls]
    refine hevents.trans ?_
    cases call? with
    | none => rfl
    | some call => cases hwarning : call.warning? <;> simp [hwarning]
  . -- nothing is offered to the engine in any other step
    have hcalls : (Moment.mk m now a s).calls.filterMap EngineCall.warning? = [] := by
      rw [List.filterMap_eq_nil_iff]
      intro call hcall
      have hadmits := admits_of_mem_calls h hcall
      cases call with
      | write offered reply => exact absurd hadmits.2.1 hran
      | _ => rfl
    rw [hcalls]
    cases a with
    | enter id call =>
      obtain ⟨_, rfl⟩ := of_enter_eq_some h
      rfl
    | run id => exact absurd ⟨id, rfl⟩ hran
    | stir id =>
      obtain ⟨_, _, _, rfl⟩ := of_stir_eq_some h
      rfl
    | request r =>
      obtain ⟨_, rfl⟩ := of_locked_eq_some h
      apply unnamed_events_request
    | upcall u =>
      obtain ⟨_, rfl⟩ := of_locked_eq_some h
      apply unnamed_events_upcall
    | alarm =>
      obtain ⟨_, rfl⟩ := of_locked_eq_some h
      rfl
    | grant n =>
      cases h
      rfl

variable {label : String} {engine : σ} {trace : List (Moment (σ × List EngineCall))}

theorem Run.label_eq {σ : Type} {E : Engine σ} {start m : Monitor σ} {trace : List (Moment σ)}
    (run : Run E start trace m)
    : m.label = start.label :=
  run.invariant (P := fun m => m.label = start.label) rfl fun hlabel h => (label_of_step h).trans hlabel

/--
All that a connection tells, from its opening on, names it by its label, except for the warning about an engine that
claims to have taken more than it was offered. There is just one such warning for each such reply, and none of them
tells which connection it is about.
-/
theorem RecordedRun.unnamed_events (run : RecordedRun E label engine trace m)
    : (∀ h : Host (σ × List EngineCall), ∀ e ∈ (h.openConnection E.recorded label (engine, [])).events,
        e.names label = true) ∧
      ∀ x ∈ trace,
        (x.step.events.filter fun e => !e.names label) = x.calls.filterMap EngineCall.warning? ∧
        ∀ e ∈ x.calls.filterMap EngineCall.warning?, e.field? "conn" = none := by
  constructor
  . intro h e he
    rw [List.mem_singleton.1 he]
    exact names_event (init E.recorded label (engine, [])) ..
  . intro x hx
    constructor
    . obtain ⟨before, after, rfl⟩ := List.append_of_mem hx
      obtain ⟨hbefore, hstep, _⟩ := Run.of_split run
      have hevents := unnamed_events_of_step hstep
      rw [hbefore.label_eq] at hevents
      exact hevents
    . intro e he
      obtain ⟨call, _, hwarning⟩ := List.mem_filterMap.1 he
      unfold EngineCall.warning? at hwarning
      split at hwarning
      . split at hwarning
        . cases hwarning
          rfl
        . contradiction
      . contradiction

/--
The engine claims to have taken three bytes of two. What is told about that would be the same for any other connection.
-/
theorem overclaim_unnamed
    : ∃ trace m x e, RecordedRun Scripted.engine "a" { replies := [3] } trace m ∧ x ∈ trace ∧ e ∈ x.step.events ∧
        e.level = .warn ∧ e.names "a" = false ∧ e.field? "conn" = none := by
  have run : RecordedRun Scripted.engine "a" { replies := [3] } _ _ := Run.of_replay
    [(0, .enter 0 (.write [1, 2])), (0, .run 0)] rfl
  exact ⟨_, _, _, _, run, List.mem_of_getElem? (i := 1) rfl, List.mem_of_getElem? (i := 0) rfl, rfl, by decide,
    by decide⟩

/--
The engine claims too much for the second of two offers, reports a second failure, and delivers data after the close.
-/
theorem late_data_named
    : ∃ trace m, RecordedRun Scripted.engine "a" { replies := [1, 7] } trace m ∧
        (∀ x ∈ trace, (x.step.events.filter fun e => !e.names "a") = x.calls.filterMap EngineCall.warning?) ∧
        (trace.map fun x => x.step.events.map (·.names "a")) =
          [[], [], [false, true], [true], [true], [true], [true, true]] := by
  have run : RecordedRun Scripted.engine "a" { replies := [1, 7] } _ _ := Run.of_replay
    [(0, .enter 0 (.write [1, 2, 3])), (0, .run 0), (0, .run 0), (1, .upcall (.error ⟨"ECONNRESET"⟩)),
      (2, .upcall (.error ⟨"ETIMEDOUT"⟩)), (3, .request .close), (4, .upcall (.data [5]))] rfl
  exact ⟨_, _, run, fun x hx => ((RecordedRun.unnamed_events run).2 x hx).1, by decide⟩

end Monitor

end BlockingStream

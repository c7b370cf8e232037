import BlockingStream.Proofs.Handle
import BlockingStream.Proofs.Lifetime
import BlockingStream.Proofs.Outbound

/-!
This module contains the proof that a write is all or error: it returns with all of its buffer handed over, or
with less and the error that was found by its last check. Each check either ends the call or offers the engine
what is left, and a write that is not stopped soon sleeps or returns.
-/

namespace BlockingStream

namespace EngineCall

/--
The call hands over nothing.
-/
def isIdle (call : EngineCall) : Bool := call.handedOver.isEmpty

theorem countP_not_isIdle_le (calls : List EngineCall)
    : (calls.countP fun call => !call.isIdle) ≤ (stream calls).length := by
  induction calls with
  | nil => exact Nat.le_refl 0
  | cons call rest ih =>
    have hcons : stream (call :: rest) = call.handedOver ++ stream rest := List.flatMap_cons
    rw [List.countP_cons, hcons, List.length_append]
    cases hidle : call.isIdle with
    | true =>
      rw [Bool.not_true, if_neg Bool.false_ne_true]
      omega
    | false =>
      have : call.handedOver.length ≠ 0 := by
        intro hzero
        rw [isIdle, List.eq_nil_of_length_eq_zero hzero] at hidle
        contradiction
      rw [Bool.not_false, if_pos rfl]
      omega

end EngineCall

namespace Monitor

section

variable {σ : Type} {E : Engine σ} {start m : Monitor σ} {trace : List (Moment σ)} {t : Thread} {id : Nat}
  {data : Bytes}

theorem rest_writeRound {now : Instant} (h : (m.writeRound E now t).thread.outcome? = none)
    : (m.writeRound E now t).thread.rest ≠ [] := by
  rcases writeRound_cases E now m t with ⟨error, _, _, hround⟩ | ⟨_, _, _, hround⟩
  . rw [hround] at h
    contradiction
  . rw [hround] at h ⊢
    dsimp only at h ⊢
    split at h
    . contradiction
    . next hpart =>
      rw [if_neg hpart]
      simp only [Thread.handOver, ne_eq, List.drop_eq_nil_iff]
      omega

theorem Run.rest_ne_nil {label : String} {engine : σ} (run : Run E (init E label engine) trace m)
    (ht : m.thread? id = some t) (hcall : t.call = .write data) (hdata : data ≠ []) (hunderway : t.outcome? = none)
    : t.rest ≠ [] := by
  induction run generalizing t with
  | nil => contradiction
  | snoc run h ih =>
    rcases of_thread?_step h ht with ⟨_, u, hu, hmay, rfl, _⟩ | ⟨_, _, call, _, rfl⟩ | ⟨_, u, hu, hstays⟩
    . rw [call_round] at hcall
      rw [round_of_write hcall] at hunderway ⊢
      exact rest_writeRound hunderway
    . have : call = .write data := by cases call <;> exact hcall
      rw [this]
      exact hdata
    . rw [hstays.rest]
      exact ih hu (hstays.call.symm.trans hcall) (hstays.outcome?.symm.trans hunderway)

theorem holding_of_writeRound {now : Instant} (houtcome : (m.writeRound E now t).thread.outcome? = none)
    (hawake : (m.writeRound E now t).thread.isAsleep = false)
    : (m.writeRound E now t).thread.isHolding = true ∧
        (m.writeRound E now t).thread.rest.length < t.rest.length := by
  rcases writeRound_cases E now m t with ⟨error, _, _, hround⟩ | ⟨hrest, _, _, hround⟩
  . rw [hround] at houtcome
    contradiction
  . have hlen := List.length_pos_iff.2 hrest
    rw [hround] at houtcome hawake ⊢
    dsimp only at houtcome hawake ⊢
    generalize min (E.write t.rest m.engine).1 t.rest.length = n at houtcome hawake ⊢
    by_cases hall : n = t.rest.length
    . rw [if_pos hall] at houtcome
      contradiction
    . rw [if_neg hall] at hawake ⊢
      by_cases hzero : n = 0
      . rw [if_pos hzero] at hawake
        contradiction
      . rw [if_neg hzero]
        refine ⟨rfl, ?_⟩
        simp only [Thread.handOver, List.length_drop]
        omega

theorem replay_write (E : Engine σ) {m : Monitor σ} {t : Thread} (ht : m.thread? id = some t)
    (hcall : t.call = .write data) (hmay : m.mayRun t = true) (now : Nat → Instant)
    : ∃ k ≤ t.rest.length, ∃ more m',
        m.replay E ((List.range (k + 1)).map fun i => (now i, .run id)) = some (more, m') ∧
        ∃ t', m'.thread? id = some t' ∧ (t'.isAsleep = true ∨ t'.outcome? ≠ none) := by
  -- each round takes at least one byte, or is the last
  obtain ⟨s, hs, ht', _⟩ := step_of_mayRun E (now 0) ht hmay
  rw [round_of_write hcall] at ht'
  by_cases hends : (m.writeRound E (now 0) t).thread.isAsleep = true ∨
      (m.writeRound E (now 0) t).thread.outcome? ≠ none
  . refine ⟨0, Nat.zero_le _, [⟨m, now 0, .run id, s⟩], s.monitor, ?_, _, ht', hends⟩
    simp [replay, hs]
  . -- it keeps the lock, and has less left
    rw [not_or, Bool.not_eq_true, Decidable.not_not] at hends
    obtain ⟨hholding, hless⟩ := holding_of_writeRound hends.2 hends.1
    have hcall' : (m.writeRound E (now 0) t).thread.call = .write data := by
      rw [← round_of_write hcall, call_round]
      exact hcall
    obtain ⟨k, hk, more, m', hreplay, hsettled⟩ :=
      replay_write E ht' hcall' (by simp [mayRun, hholding]) fun i => now (i + 1)
    refine ⟨k + 1, by omega, ⟨m, now 0, .run id, s⟩ :: more, m', ?_, hsettled⟩
    rw [List.range_succ_eq_map, List.map_cons, List.map_map]
    simp only [replay, hs, Function.comp_def, hreplay]
termination_by t.rest.length

end

variable {σ : Type} {E : Engine σ} {start m : Monitor (σ × List EngineCall)}
  {trace : List (Moment (σ × List EngineCall))} {t : Thread} {now : Instant} {a : Action} {id : Nat}
  {s : Step (σ × List EngineCall)} {data : Bytes} {label : String} {engine : σ}

/--
The calls on the engine that a thread has made.
-/
def callsBy (id : Nat) (trace : List (Moment (σ × List EngineCall))) : List EngineCall :=
  trace.flatMap fun x => if x.action = .run id then x.calls else []

def handedBy (id : Nat) (trace : List (Moment (σ × List EngineCall))) : Nat :=
  (EngineCall.stream (callsBy id trace)).length

theorem callsBy_append (id : Nat) (before after : List (Moment (σ × List EngineCall)))
    : callsBy id (before ++ after) = callsBy id before ++ callsBy id after :=
  List.flatMap_append

theorem callsBy_eq_nil (h : ∀ x ∈ trace, x.action ≠ .run id) : callsBy id trace = [] := by
  unfold callsBy
  rw [List.flatMap_eq_nil_iff]
  intro x hx
  exact if_neg (h x hx)

theorem handedBy_append (id : Nat) (before after : List (Moment (σ × List EngineCall)))
    : handedBy id (before ++ after) = handedBy id before + handedBy id after := by
  rw [handedBy, callsBy_append, EngineCall.stream_append, List.length_append]
  rfl

theorem handedBy_cons {x : Moment (σ × List EngineCall)} (hran : x.action = .run id)
    : handedBy id (x :: trace) = (EngineCall.stream x.calls).length + handedBy id trace := by
  rw [handedBy, callsBy, List.flatMap_cons, if_pos hran, EngineCall.stream_append, List.length_append]
  rfl

theorem handedBy_singleton_of_ne (ha : a ≠ .run id) : handedBy id [⟨m, now, a, s⟩] = 0 := by
  unfold handedBy
  rw [callsBy_eq_nil]
  . rfl
  . simp [ha]

theorem write_of_step (hholds : m.conn.HoldsEngine) (h : m.step E.recorded now (.run id) = some s)
    (ht : m.thread? id = some t) (hcall : t.call = .write data) (hrest : t.rest ≠ [])
    : let x : Moment (σ × List EngineCall) := ⟨m, now, .run id, s⟩
      (∃ e, m.conn.writeError now = some e ∧ x.calls = [] ∧
        s.monitor.thread? id = some { t with status := .returned (.write ⟨t.taken, some e⟩) }) ∨
      ∃ reply, m.conn.writeError now = none ∧ x.calls = [.write t.rest reply] ∧
        let n := min reply t.rest.length
        s.monitor.thread? id = some
          { t.handOver n with
            status :=
              if n = t.rest.length then .returned (.write ⟨t.taken + n, none⟩)
              else if n = 0 then .asleep else .holding } := by
  dsimp only
  rcases thread?_of_step h id with ⟨_, u, hu, hmay, ht', _, hengine⟩ | ⟨hother, _⟩ | ⟨hother, _⟩
  . rw [ht] at hu
    cases hu
    rw [round_of_write hcall] at ht' hengine
    rcases writeRound_cases E.recorded now m t with ⟨error, hsome, horigin, hround⟩ | ⟨_, herror, _, hround⟩
    . left
      rw [hround] at ht' hengine
      have hcalls : (Moment.mk m now (.run id) s).calls = [] := by
        apply calls_eq none
        rw [hengine]
        exact (List.append_nil _).symm
      rcases horigin with rfl | ⟨hnone, hattached, _⟩
      . obtain ⟨e, he⟩ := Option.ne_none_iff_exists'.1 (hsome.resolve_left hrest)
        rw [he] at ht'
        exact ⟨e, he, hcalls, ht'⟩
      . -- an engine that is gone has left its mark
        rw [hholds.attached_of_writeError hnone] at hattached
        contradiction
    . right
      rw [hround] at ht' hengine
      refine ⟨(E.write t.rest m.engine.1).1, herror, ?_, ?_⟩
      . apply calls_eq (some (.write t.rest (E.write t.rest m.engine.1).1))
        rw [hengine]
        dsimp only
        split <;> rfl
      . rw [ht']
        dsimp only [Engine.recorded]
        split <;> rfl
  . exact absurd rfl hother
  . exact absurd rfl hother

theorem RecordedRun.length_accepted (run : RecordedRun E label engine trace m) (ht : m.thread? id = some t)
    : t.accepted.length = handedBy id trace := by
  induction run generalizing t with
  | nil => contradiction
  | @snoc trace m now a s run h ih =>
    rw [handedBy_append]
    rcases of_thread?_step h ht with ⟨rfl, u, hu, _, rfl, _, hengine⟩ | ⟨hother, hnone, call, _, rfl⟩ |
      ⟨hother, u, hu, hstays⟩
    . have hbalanced := RecordedRun.balanced run
      have hmax : m.conn.bytesWritten ≤ maxCount := by
        rw [hbalanced.written]
        apply countUp_le_maxCount
      obtain ⟨chunk, hstream, _, haccepted, _⟩ := chunk_round E now (hbalanced.accounted u (of_thread? hu).1) hmax
      rw [← hengine, engine_of_step h, EngineCall.stream_append] at hstream
      have hchunk := List.append_cancel_left hstream
      rw [haccepted, List.length_append, ih hu, handedBy_cons rfl, hchunk]
      rfl
    . -- it has just entered, and was never there before
      have hnever : handedBy id trace = 0 := by
        rw [handedBy, callsBy_eq_nil (Run.not_ran run hnone)]
        rfl
      rw [hnever, handedBy_singleton_of_ne hother, Thread.accepted_enter]
      rfl
    . rw [handedBy_singleton_of_ne hother, hstays.accepted_eq]
      exact ih hu

theorem RecordedRun.taken_eq (run : RecordedRun E label engine trace m) (ht : m.thread? id = some t)
    (hcall : t.call = .write data)
    : t.taken = handedBy id trace := by
  rw [← run.length_accepted ht, (run.balanced.accounted t (of_thread? ht).1).length_accepted hcall]

theorem RecordedRun.rest_eq (run : RecordedRun E label engine trace m) (ht : m.thread? id = some t)
    (hcall : t.call = .write data)
    : t.taken ≤ data.length ∧ t.rest = data.drop t.taken := by
  have haccounted := run.balanced.accounted t (of_thread? ht).1
  unfold Thread.Accounted at haccounted
  rw [hcall] at haccounted
  exact ⟨haccounted.1, haccounted.2.1⟩

theorem RecordedRun.check {before after : List (Moment (σ × List EngineCall))}
    {x : Moment (σ × List EngineCall)} (run : RecordedRun E label engine (before ++ x :: after) m)
    (ht : m.thread? id = some t) (hcall : t.call = .write data) (hdata : data ≠ []) (hran : x.action = .run id)
    : let k := handedBy id before
      k < data.length ∧
      ((∃ e, (history before).writeError x.now = some e ∧ x.calls = [] ∧
          x.outcome? = some (.write ⟨k, some e⟩)) ∨
        ∃ reply, (history before).writeError x.now = none ∧ x.calls = [.write (data.drop k) reply] ∧
          x.outcome? = if data.length ≤ k + reply then some (.write ⟨data.length, none⟩) else none) := by
  obtain ⟨u, t', hu, hmay, ht', hcall'⟩ := Run.exists_of_ran run hran
  rw [ht] at ht'
  cases ht'
  rw [hcall] at hcall'
  have hcall : u.call = .write data := hcall'.symm
  obtain ⟨hbefore, h, _⟩ := Run.of_split run
  obtain ⟨m', now, a, s⟩ := x
  dsimp only at hran
  subst hran
  have htaken := RecordedRun.taken_eq hbefore hu hcall
  obtain ⟨_, hrest⟩ := RecordedRun.rest_eq hbefore hu hcall
  have hleft := Run.rest_ne_nil hbefore hu hcall hdata (outcome?_of_mayRun hmay)
  have hreflects := (Run.reflects hbefore).writeError now
  have hlt : handedBy id before < data.length := by
    rw [hrest, ne_eq, List.drop_eq_nil_iff] at hleft
    omega
  refine ⟨hlt, ?_⟩
  rcases write_of_step (Run.holdsEngine hbefore) h hu hcall hleft with ⟨e, he, hcalls, ht'⟩ |
    ⟨reply, he, hcalls, ht'⟩
  . left
    refine ⟨e, hreflects.symm.trans he, hcalls, ?_⟩
    simp [Moment.outcome?, Moment.after, ht', Thread.outcome?, htaken]
  . right
    refine ⟨reply, hreflects.symm.trans he, ?_, ?_⟩
    . rw [hcalls, hrest, htaken]
    . have hlen : u.rest.length = data.length - handedBy id before := by
        rw [hrest, List.length_drop, htaken]
      simp only [Moment.outcome?, Moment.after, ht', Option.bind_some, Thread.outcome?, hlen]
      by_cases hall : data.length ≤ handedBy id before + reply
      . have hmin : min reply (data.length - handedBy id before) = data.length - handedBy id before := by omega
        have hsum : u.taken + (data.length - handedBy id before) = data.length := by omega
        simp [hmin, hall, hsum]
      . have hmin : min reply (data.length - handedBy id before) ≠ data.length - handedBy id before := by omega
        simp only [hmin, hall, if_false]
        by_cases hzero : min reply (data.length - handedBy id before) = 0 <;> simp [hzero]

theorem countP_isIdle_of_step {u : Thread} (hholds : m.conn.HoldsEngine)
    (h : m.step E.recorded now (.run id) = some s) (hu : m.thread? id = some u) (hcall : u.call = .write data)
    (hrest : u.rest ≠ []) (ht : s.monitor.thread? id = some t)
    : (callsBy id [⟨m, now, .run id, s⟩]).countP EngineCall.isIdle ≤ 1 ∧
        (t.isAsleep = false → (callsBy id [⟨m, now, .run id, s⟩]).countP EngineCall.isIdle = 0) := by
  have hcalls : callsBy id [⟨m, now, .run id, s⟩] = (Moment.mk m now (.run id) s).calls := by simp [callsBy]
  rw [hcalls]
  rcases write_of_step hholds h hu hcall hrest with ⟨e, _, hcalls, _⟩ | ⟨reply, _, hcalls, ht'⟩
  . rw [hcalls]
    exact ⟨Nat.zero_le 1, fun _ => rfl⟩
  . rw [hcalls]
    refine ⟨List.countP_le_length, ?_⟩
    intro hawake
    rw [ht] at ht'
    injection ht' with ht'
    rw [ht'] at hawake
    have hpos := List.length_pos_iff.2 hrest
    have hreply : reply ≠ 0 := by
      rintro rfl
      rw [Nat.zero_min, if_neg (by omega), if_pos rfl] at hawake
      contradiction
    simp [EngineCall.isIdle, EngineCall.handedOver, hreply, hrest]

theorem RecordedRun.countP_isIdle_le {before mid : List (Moment (σ × List EngineCall))}
    (run : RecordedRun E label engine (before ++ mid) m) (ht : m.thread? id = some t)
    (hcall : t.call = .write data) (hdata : data ≠ [])
    (hawake : ∀ x ∈ mid, ∀ u, x.before.thread? id = some u → u.isAsleep = false)
    : (callsBy id mid).countP EngineCall.isIdle ≤ 1 ∧
        (t.isAsleep = false → (callsBy id mid).countP EngineCall.isIdle = 0) := by
  generalize htrace : before ++ mid = trace at run
  induction run generalizing mid t with
  | nil => contradiction
  | @snoc trace m now a s run h ih =>
    rcases List.eq_nil_or_concat mid with rfl | ⟨rest, x, rfl⟩
    . exact ⟨Nat.zero_le 1, fun _ => rfl⟩
    . rw [List.concat_eq_append] at htrace hawake ⊢
      rw [← List.append_assoc] at htrace
      obtain ⟨hfront, hx⟩ := List.append_inj' htrace rfl
      injection hx with hx
      subst hx
      have hrest : ∀ x ∈ rest, ∀ u, x.before.thread? id = some u → u.isAsleep = false :=
        fun x hx => hawake x (List.mem_append_left _ hx)
      have hlast := hawake ⟨m, now, a, s⟩ (List.mem_append_right _ (List.mem_singleton_self _))
      rw [callsBy_append, List.countP_append]
      rcases of_thread?_step h ht with ⟨rfl, u, hu, hmay, rfl, _⟩ | ⟨hother, hnone, _⟩ | ⟨hother, u, hu, hstays⟩
      . -- nothing came to nothing before, or it would be asleep
        rw [call_round] at hcall
        rw [(ih hu hcall hrest hfront).2 (hlast u hu), Nat.zero_add]
        have hleft := Run.rest_ne_nil run hu hcall hdata (outcome?_of_mayRun hmay)
        exact countP_isIdle_of_step (Run.holdsEngine run) h hu hcall hleft ht
      . have hnever := callsBy_eq_nil fun x hx => Run.not_ran run hnone x (hfront ▸ List.mem_append_right _ hx)
        rw [hnever, callsBy_eq_nil (by simp [hother])]
        exact ⟨Nat.zero_le 1, fun _ => rfl⟩
      . have hbefore := (ih hu (hstays.call.symm.trans hcall) hrest hfront).2 (hlast u hu)
        rw [hbefore, callsBy_eq_nil (by simp [hother])]
        exact ⟨Nat.zero_le 1, fun _ => rfl⟩

theorem RecordedRun.returned_of_writeError {before after : List (Moment (σ × List EngineCall))}
    {x : Moment (σ × List EngineCall)} {e : StreamError} (run : RecordedRun E label engine (before ++ x :: after) m)
    (ht : m.thread? id = some t) (hcall : t.call = .write data) (hdata : data ≠ []) (hran : x.action = .run id)
    (he : (history before).writeError x.now = some e)
    : x.calls = [] ∧ x.outcome? = some (.write ⟨handedBy id before, some e⟩) ∧ callsBy id after = [] := by
  obtain ⟨_, hcheck⟩ := run.check ht hcall hdata hran
  obtain ⟨_, _, hafter⟩ := Run.of_split run
  rcases hcheck with ⟨e', he', hcalls, houtcome⟩ | ⟨_, hnone, _⟩
  . rw [he] at he'
    cases he'
    obtain ⟨u, hu, houtcome'⟩ := of_outcome?_eq_some hran houtcome
    exact ⟨hcalls, houtcome, callsBy_eq_nil (hafter.outcome_kept hu houtcome').2⟩
  . rw [he] at hnone
    contradiction

theorem RecordedRun.offers_of_writeError {before after : List (Moment (σ × List EngineCall))}
    {x : Moment (σ × List EngineCall)} (run : RecordedRun E label engine (before ++ x :: after) m)
    (ht : m.thread? id = some t) (hcall : t.call = .write data) (hdata : data ≠ []) (hran : x.action = .run id)
    (hnone : (history before).writeError x.now = none)
    : ∃ reply, x.calls = [.write (data.drop (handedBy id before)) reply] := by
  obtain ⟨_, ⟨e, he, _⟩ | ⟨reply, _, hcalls, _⟩⟩ := run.check ht hcall hdata hran
  . rw [hnone] at he
    contradiction
  . exact ⟨reply, hcalls⟩

theorem RecordedRun.outcome_cases {outcome : Outcome} (run : RecordedRun E label engine trace m)
    (ht : m.thread? id = some t) (hcall : t.call = .write data) (hdata : data ≠ [])
    (houtcome : t.outcome? = some outcome)
    : ∃ before x after, trace = before ++ x :: after ∧ x.action = .run id ∧ (∀ y ∈ after, y.action ≠ .run id) ∧
        (outcome = .write ⟨data.length, none⟩ ∧ handedBy id trace = data.length ∧
            (history before).writeError x.now = none ∨
          ∃ e, outcome = .write ⟨handedBy id trace, some e⟩ ∧ handedBy id trace < data.length ∧
            (history before).writeError x.now = some e) := by
  obtain ⟨before, x, after, rfl, hran, hlast, hidle⟩ := Run.exists_of_returned run ht houtcome
  refine ⟨before, x, after, rfl, hran, hidle, ?_⟩
  obtain ⟨hlt, hcheck⟩ := run.check ht hcall hdata hran
  have hhanded : handedBy id (before ++ x :: after) = handedBy id before + (EngineCall.stream x.calls).length := by
    rw [handedBy_append, handedBy_cons hran, handedBy, handedBy, callsBy_eq_nil hidle]
    rfl
  rw [hhanded]
  rw [hlast] at hcheck
  rcases hcheck with ⟨e, he, hcalls, houtcome'⟩ | ⟨reply, hnone, hcalls, houtcome'⟩
  . right
    injection houtcome' with houtcome'
    rw [hcalls]
    exact ⟨e, houtcome', hlt, he⟩
  . left
    split at houtcome'
    . injection houtcome' with houtcome'
      refine ⟨houtcome', ?_, hnone⟩
      rw [hcalls]
      simp only [EngineCall.stream, EngineCall.handedOver, List.flatMap_cons, List.flatMap_nil, List.append_nil,
        List.length_take, List.length_drop]
      omega
    . contradiction

theorem RecordedRun.countP_awake_le {before mid after : List (Moment (σ × List EngineCall))}
    (run : RecordedRun E label engine (before ++ mid ++ after) m) (ht : m.thread? id = some t)
    (hcall : t.call = .write data) (hdata : data ≠ [])
    (hawake : ∀ x ∈ mid, ∀ u, x.before.thread? id = some u → u.isAsleep = false)
    : ((callsBy id mid).countP fun call => !call.isIdle) ≤ (data.drop (handedBy id before)).length ∧
        (callsBy id mid).countP EngineCall.isIdle ≤ 1 := by
  have htaken := run.taken_eq ht hcall
  obtain ⟨hle, _⟩ := run.rest_eq ht hcall
  rw [handedBy_append, handedBy_append] at htaken
  constructor
  . have hcount : _ ≤ handedBy id mid := EngineCall.countP_not_isIdle_le (callsBy id mid)
    rw [List.length_drop]
    omega
  . obtain ⟨middle, hbefore, hafter⟩ := Run.of_append run
    cases hu : middle.thread? id with
    | none =>
      rw [callsBy_eq_nil fun x hx => hbefore.not_ran hu x (List.mem_append_right _ hx)]
      exact Nat.zero_le 1
    | some u =>
      obtain ⟨v, hv, hcallv⟩ := hafter.call_kept hu
      rw [ht] at hv
      cases hv
      exact (RecordedRun.countP_isIdle_le hbefore hu (hcallv.symm.trans hcall) hdata hawake).1

/--
A write of something is all or error. Each of its checks finds the error that all that has happened decides and
returns with it, or offers what the engine has not taken yet. So the call returns with all bytes and no error, or
with fewer and the error of its last check. Between two sleeps it makes no more offers that come to something
than it has bytes left, and one other at most, and a write that gets the lock sleeps or returns.
-/
theorem RecordedRun.write_all_or_error (run : RecordedRun E label engine trace m) (ht : m.thread? id = some t)
    (hcall : t.call = .write data) (hdata : data ≠ [])
    : (∀ before x after, trace = before ++ x :: after → x.action = .run id →
        handedBy id before < data.length ∧
        (∀ e, (history before).writeError x.now = some e →
          x.calls = [] ∧ x.outcome? = some (.write ⟨handedBy id before, some e⟩) ∧ callsBy id after = []) ∧
        ((history before).writeError x.now = none →
          ∃ reply, x.calls = [.write (data.drop (handedBy id before)) reply])) ∧
      (∀ outcome, t.outcome? = some outcome →
        ∃ before x after, trace = before ++ x :: after ∧ x.action = .run id ∧
          (∀ y ∈ after, y.action ≠ .run id) ∧
          (outcome = .write ⟨data.length, none⟩ ∧ handedBy id trace = data.length ∧
              (history before).writeError x.now = none ∨
            ∃ e, outcome = .write ⟨handedBy id trace, some e⟩ ∧ handedBy id trace < data.length ∧
              (history before).writeError x.now = some e)) ∧
      (∀ now, History.writeError now ((history trace).filter Action.concernsWrites) =
        (history trace).writeError now) ∧
      t.rest = data.drop (handedBy id trace) ∧
      (∀ now, (m.conn.offer E.recorded t.rest now m.engine).1.count ≤ t.rest.length) ∧
      (∀ before mid after, trace = before ++ mid ++ after →
        (∀ x ∈ mid, ∀ u, x.before.thread? id = some u → u.isAsleep = false) →
        ((callsBy id mid).countP fun call => !call.isIdle) ≤ (data.drop (handedBy id before)).length ∧
        (callsBy id mid).countP EngineCall.isIdle ≤ 1) ∧
      (m.mayRun t = true → ∀ now : Nat → Instant,
        ∃ k ≤ t.rest.length, ∃ more m',
          m.replay E.recorded ((List.range (k + 1)).map fun i => (now i, .run id)) = some (more, m') ∧
          ∃ t', m'.thread? id = some t' ∧ (t'.isAsleep = true ∨ t'.outcome? ≠ none)) := by
  have htaken := run.taken_eq ht hcall
  obtain ⟨_, hrest⟩ := run.rest_eq ht hcall
  refine ⟨?_, ?_, ?_, ?_, ?_, ?_, ?_⟩
  . rintro before x after rfl hran
    refine ⟨(run.check ht hcall hdata hran).1, ?_, ?_⟩
    . intro e he
      exact run.returned_of_writeError ht hcall hdata hran he
    . intro hnone
      exact run.offers_of_writeError ht hcall hdata hran hnone
  . intro outcome houtcome
    exact run.outcome_cases ht hcall hdata houtcome
  . intro now
    apply History.writeError_filter
  . rw [hrest, htaken]
  . intro now
    apply Conn.count_offer_le
  . rintro before mid after rfl hawake
    exact run.countP_awake_le ht hcall hdata hawake
  . intro hmay now
    exact replay_write E.recorded ht hcall hmay now

/--
A writer of four bytes gets rid of one, sleeps, is woken at the end of the input, gets rid of two more and is
stopped by its deadline. The deadline for reading has passed long before.
-/
theorem stopped_write_all_or_error
    : ∃ trace m t, RecordedRun Scripted.engine "a" { replies := [1, 0, 2] } trace m ∧ m.thread? 0 = some t ∧
        t.call = .write [1, 2, 3, 4] ∧ t.outcome? = some (.write ⟨3, some .deadlineExceeded⟩) ∧
        callsBy 0 trace = [.write [1, 2, 3, 4] 1, .write [2, 3, 4] 0, .write [2, 3, 4] 2] ∧
        t.rest = List.drop (handedBy 0 trace) [1, 2, 3, 4] ∧
        ∃ before x after, trace = before ++ x :: after ∧ x.action = .run 0 ∧ (∀ y ∈ after, y.action ≠ .run 0) ∧
          (history before).writeError x.now = some .deadlineExceeded := by
  have run : RecordedRun Scripted.engine "a" { replies := [1, 0, 2] } _ _ := Run.of_replay
    [(0, .request (.setDeadline (.one .writing) (some 7))), (0, .request (.setDeadline (.one .reading) (some 1))),
      (1, .enter 0 (.write [1, 2, 3, 4])), (2, .run 0), (2, .run 0), (3, .upcall .eof), (4, .run 0),
      (7, .run 0)] rfl
  have allOrError := RecordedRun.write_all_or_error run (show thread? _ 0 = some _ from rfl) rfl (by decide)
  obtain ⟨before, x, after, htrace, hran, hidle, hcases⟩ := allOrError.2.1 (.write ⟨3, some .deadlineExceeded⟩) rfl
  refine ⟨_, _, _, run, rfl, rfl, rfl, rfl, allOrError.2.2.2.1, before, x, after, htrace, hran, hidle, ?_⟩
  rcases hcases with ⟨houtcome, _⟩ | ⟨e, houtcome, _, he⟩
  . injection houtcome with houtcome
    injection houtcome with _ herror
    contradiction
  . injection houtcome with houtcome
    injection houtcome with _ herror
    rw [he, herror]

end Monitor

end BlockingStream

import BlockingStream.Bridge.Basic
import BlockingStream.Proofs.Handle
import BlockingStream.Proofs.Terminal

/-!
This module contains what one end of a bridge hands over: whatever its writes get rid of is put into its outlet at once,
and so is its close, as long as it is not closed.
-/

namespace BlockingStream

namespace Side

@[simp]
theorem other_ne (side : Side) : side.other ≠ side := by
  cases side <;> simp [other]

@[simp]
theorem ne_other (side : Side) : side ≠ side.other := side.other_ne.symm

theorem eq_or_eq_other (S T : Side) : S = T ∨ S = T.other := by
  cases S <;> cases T <;> simp [other]

theorem eq_of_index {S T : Side} (h : S.index = T.index) : S = T := by
  cases S <;> cases T <;> first | rfl | contradiction

end Side

/--
The bytes that a write hands over in this step: those of its rest that count as taken from now on.
-/
def Moment.handed {σ : Type} (x : Moment σ) : Bytes :=
  match x.action with
  | .run id =>
    match x.before.thread? id, x.after.thread? id with
    | some t, some t' => t.rest.take (t'.taken - t.taken)
    | _, _ => []
  | _ => []

def Moment.upcall? {σ : Type} (x : Moment σ) : Option Upcall :=
  match x.action with
  | .upcall u => some u
  | _ => none

namespace Monitor

section

variable {σ : Type} {E : Engine σ} {m : Monitor σ} {now : Instant} {id : Nat} {t : Thread} {s : Step σ}

theorem handed_run (ht : m.thread? id = some t) (h : m.step E now (.run id) = some s)
    : (Moment.mk m now (.run id) s).handed = t.rest.take ((m.round E now t).thread.taken - t.taken) := by
  rcases thread?_of_step h id with ⟨_, u, hu, _, hafter, _⟩ | ⟨hother, _⟩ | ⟨hother, _⟩
  . rw [ht] at hu
    cases hu
    simp only [Moment.handed, ht, Moment.after, hafter]
  . exact absurd rfl hother
  . exact absurd rfl hother

theorem ended_of_delivery {x : Moment σ} {d : Conn.Delivery} (h : x.before.step E x.now x.action = some x.step)
    (hd : x.delivery? = some d) (herror : d.error = some .endOfStream)
    : x.after.conn.eof = true ∧ x.after.conn.inbound = [] := by
  obtain ⟨m, now, a, s⟩ := x
  cases a with
  | run id =>
    obtain ⟨t, ht, _⟩ := of_run_eq_some h
    by_cases hread : ∃ buffer, t.call = .readInto buffer
    . obtain ⟨buffer, hcall⟩ := hread
      obtain ⟨hconn, hreturned | ⟨hnone, _⟩⟩ := read_run ht hcall h
      . simp only [Moment.delivery?, hreturned, Option.some.injEq] at hd
        rw [Moment.after, hconn]
        rw [← hd] at herror
        rcases (m.conn.read E buffer.length now m.engine).2.1.readError_cases now with
          ⟨heof, hinbound, _⟩ | ⟨_, hcommon⟩
        . exact ⟨heof, hinbound⟩
        . exact absurd (Conn.rank_lt_of_commonError (hcommon.symm.trans herror)) (Nat.lt_irrefl _)
      . simp [Moment.delivery?, hnone] at hd
    . rw [(delivery?_run_of_ne ht (fun buffer hcall => hread ⟨buffer, hcall⟩) h).1] at hd
      contradiction
  | _ => contradiction

end

variable {m : Monitor Outlet} {side : Side} {now : Instant} {a : Action} {s : Step Outlet}

/--
What a step puts into an outlet, if anything: either what a write hands over, or the close. Both need an open
connection.
-/
inductive Sends (side : Side) (x : Moment Outlet) : List Packet → Prop where
  | nothing : x.handed = [] → Sends side x []
  | data {id : Nat} : x.action = .run id → x.before.conn.closed = false → Sends side x [.data side x.handed]
  | close :
      x.action = .request .close → x.before.conn.closed = false → x.after.conn.closed = true → x.handed = [] →
      Sends side x [.close side]

theorem sends_run {id : Nat} (hengine : m.engine = { side }) (h : m.step Outlet.engine now (.run id) = some s)
    : s.monitor.engine.side = side ∧ Sends side ⟨m, now, .run id, s⟩ s.monitor.engine.outgoing := by
  obtain ⟨t, ht, _, hs⟩ := of_run_eq_some h
  have hafter : s.monitor.engine = (m.round Outlet.engine now t).engine := by rw [hs]; rfl
  have hhanded := handed_run ht h
  -- a round that takes nothing from its thread and leaves the outlet alone
  have hidle : (m.round Outlet.engine now t).engine = m.engine → (m.round Outlet.engine now t).thread.taken = t.taken →
      s.monitor.engine.side = side ∧ Sends side ⟨m, now, .run id, s⟩ s.monitor.engine.outgoing := by
    intro hsame htaken
    rw [hafter, hsame, hengine]
    refine ⟨rfl, .nothing ?_⟩
    rw [hhanded, htaken, Nat.sub_self, List.take_zero]
  cases hcall : t.call with
  | awaitConnect =>
    apply hidle
    . rw [round_of_connect hcall]
      rfl
    . rw [round_of_connect hcall]
      rfl
  | readInto buffer =>
    obtain ⟨_, hread, hthread⟩ := readRound_cases Outlet.engine now m t buffer.length
    apply hidle
    . rw [round_of_read hcall, hread]
      simp only [Conn.read, Conn.hintDrained]
      split <;> rfl
    . rw [round_of_read hcall, hthread]
  | write data =>
    rw [round_of_write hcall] at hafter hhanded hidle
    rcases writeRound_cases Outlet.engine now m t with ⟨error, _, _, hround⟩ | ⟨_, herror, _, hround⟩
    . rw [hround] at hidle
      exact hidle rfl rfl
    . -- the outlet takes whatever it is offered
      have hall : min (Outlet.engine.write t.rest m.engine).1 t.rest.length = t.rest.length := Nat.min_self _
      dsimp only at hround
      rw [hall, if_pos rfl] at hround
      rw [hround] at hafter hhanded
      have hrest : (Moment.mk m now (.run id) s).handed = t.rest := by
        rw [hhanded]
        simp [finishWrite, Thread.handOver]
      rw [hafter, hengine]
      refine ⟨rfl, ?_⟩
      have hsends : Sends side ⟨m, now, .run id, s⟩ [.data side (Moment.mk m now (.run id) s).handed] :=
        .data rfl (Conn.commonError_eq_none_iff.1 herror).2.2.1
      rw [hrest] at hsends
      exact hsends

theorem sends_close (hengine : m.engine = { side }) (h : m.step Outlet.engine now (.request .close) = some s)
    : s.monitor.engine.side = side ∧ Sends side ⟨m, now, .request .close, s⟩ s.monitor.engine.outgoing := by
  obtain ⟨_, rfl⟩ := of_locked_eq_some h
  obtain ⟨hconn, hafter⟩ := conn_close Outlet.engine m
  change (m.close Outlet.engine).monitor.engine.side = side ∧
    Sends side ⟨m, now, .request .close, m.close Outlet.engine⟩ (m.close Outlet.engine).monitor.engine.outgoing
  have hclosed := Conn.closed_close Outlet.engine m.conn m.engine
  rw [← hconn] at hclosed
  rw [hafter]
  unfold Conn.close
  split
  . rw [hengine]
    exact ⟨rfl, .nothing rfl⟩
  . next hopen =>
    rw [Bool.not_eq_true] at hopen
    repeat' split
    all_goals rw [hengine]
    . exact ⟨rfl, .nothing rfl⟩
    . exact ⟨rfl, .close rfl hopen hclosed rfl⟩
    . exact ⟨rfl, .nothing rfl⟩

theorem sends_of_step (hengine : m.engine = { side }) (h : m.step Outlet.engine now a = some s)
    : s.monitor.engine.side = side ∧ Sends side ⟨m, now, a, s⟩ s.monitor.engine.outgoing := by
  have hidle : s.monitor.engine = m.engine → (Moment.mk m now a s).handed = [] →
      s.monitor.engine.side = side ∧ Sends side ⟨m, now, a, s⟩ s.monitor.engine.outgoing := by
    intro hsame hhanded
    rw [hsame, hengine]
    exact ⟨rfl, .nothing hhanded⟩
  cases a with
  | run id => exact sends_run hengine h
  | request r =>
    cases r with
    | close => exact sends_close hengine h
    | setDeadline scope deadline =>
      obtain ⟨_, rfl⟩ := of_locked_eq_some h
      apply hidle _ rfl
      cases scope with
      | both => rfl
      | one direction => cases direction <;> rfl
    | remoteAddr | localAddr =>
      obtain ⟨_, rfl⟩ := of_locked_eq_some h
      apply hidle _ rfl
      simp only [request, Conn.remoteAddr, Conn.ownAddr]
      split <;> rfl
    | _ =>
      obtain ⟨_, rfl⟩ := of_locked_eq_some h
      exact hidle rfl rfl
  | upcall u =>
    obtain ⟨_, rfl⟩ := of_locked_eq_some h
    exact hidle (engine_upcall m u) rfl
  | enter id call =>
    obtain ⟨_, rfl⟩ := of_enter_eq_some h
    exact hidle rfl rfl
  | stir id =>
    obtain ⟨_, _, _, rfl⟩ := of_stir_eq_some h
    exact hidle rfl rfl
  | alarm =>
    obtain ⟨_, rfl⟩ := of_locked_eq_some h
    exact hidle rfl rfl
  | grant n =>
    cases h
    exact hidle rfl rfl

end Monitor

end BlockingStream

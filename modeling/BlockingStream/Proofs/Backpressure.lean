import BlockingStream.Proofs.Directions
import BlockingStream.Proofs.Handle

/-!
This module contains the account of the credit of a metered engine: none of it is lost while writers compete for it,
and no writer sleeps on credit that it could have, except for what was granted since somebody was told last.

Credit is granted without the lock of the connection and wakes nobody. So a sleeping writer found the credit used up
in its own round, and whatever is there since then comes from a grant that no broadcast has followed.
-/

namespace BlockingStream

namespace Engine

variable {σ : Type}

/--
No call on the engine takes the property away. Room that appears inside the engine may.
-/
structure Keeps (E : Engine σ) (P : σ → Prop) : Prop where
  write (data : Bytes) {s : σ} : P s → P (E.write data s).2
  close {s : σ} : P s → P (E.close s)
  peerAddr {s : σ} : P s → P (E.peerAddr s).2
  localAddr {s : σ} : P s → P (E.localAddr s).2
  readDrained {s : σ} : P s → P (E.readDrained s)

end Engine

namespace Moment

variable {σ : Type}

/--
The step signals all sleepers. A close does so only once, and a failure only if it is the first one.
-/
def broadcasts (x : Moment σ) : Bool :=
  match x.action with
  | .request .close => !x.before.conn.closed
  | .request (.setDeadline _ _) => true
  | .upcall (.error _) => x.before.conn.failure.isNone
  | .upcall _ => true
  | .alarm => true
  | _ => false

def granted (x : Moment σ) : Nat :=
  match x.action with
  | .grant n => n
  | _ => 0

end Moment

namespace Metered

theorem keeps_balance (total : Nat)
    : engine.Keeps fun s => ∃ credit, s.credit = some credit ∧ credit + s.written.length = total where
  write data {s} h := by
    obtain ⟨credit, hcredit, htotal⟩ := h
    have hle : (s.write data).1 ≤ credit := by
      simp only [write, hcredit]
      apply Nat.min_le_left
    have hdata := s.write_le data
    refine ⟨credit - (s.write data).1, write_credit hcredit data, ?_⟩
    change _ + (s.write data).2.written.length = total
    rw [write_written, List.length_append, List.length_take]
    omega
  close h := h
  peerAddr h := h
  localAddr h := h
  readDrained h := h

theorem keeps_exhausted : engine.Keeps fun s => s.credit = some 0 where
  write data {s} h := by
    change (s.write data).2.credit = some 0
    rw [write_credit h, Nat.zero_sub]
  close h := h
  peerAddr h := h
  localAddr h := h
  readDrained h := h

theorem keeps_unlimited : engine.Keeps fun s => s.credit = none where
  write data {s} h := by
    change (s.write data).2.credit = none
    simp only [write, h]
  close h := h
  peerAddr h := h
  localAddr h := h
  readDrained h := h

end Metered

namespace Engine

open Monitor

variable {σ : Type} {E : Engine σ} {P : σ → Prop} {m : Monitor σ} {now : Instant} {a : Action} {s : Step σ}

theorem Keeps.round (keeps : E.Keeps P) (hP : P m.engine) (now : Instant) (t : Thread)
    : P (m.round E now t).engine := by
  cases hcall : t.call with
  | awaitConnect =>
    rw [round_of_connect hcall]
    exact hP
  | readInto buffer =>
    rw [round_of_read hcall, (readRound_cases E now m t buffer.length).2.1]
    unfold Conn.read Conn.hintDrained
    dsimp only
    split
    . exact keeps.readDrained hP
    . exact hP
  | write data =>
    rw [round_of_write hcall]
    rcases writeRound_cases E now m t with ⟨_, _, _, hround⟩ | ⟨_, _, _, hround⟩
    . rw [hround]
      exact hP
    . rw [hround]
      dsimp only
      split <;> exact keeps.write t.rest hP

theorem Keeps.request (keeps : E.Keeps P) (hP : P m.engine) (r : Request) : P (m.request E r).monitor.engine := by
  cases r with
  | close =>
    change P (m.close E).monitor.engine
    rw [(conn_close E m).2]
    unfold Conn.close
    repeat' split
    all_goals first | exact hP | exact keeps.close hP
  | setDeadline scope deadline =>
    cases scope with
    | both => exact hP
    | one direction => cases direction <;> exact hP
  | remoteAddr =>
    simp only [Monitor.request, Conn.remoteAddr]
    split
    . exact keeps.peerAddr hP
    . exact hP
  | localAddr =>
    simp only [Monitor.request, Conn.ownAddr]
    split
    . exact keeps.localAddr hP
    . exact hP
  | _ => exact hP

theorem Keeps.step (keeps : E.Keeps P) (h : m.step E now a = some s) (hnone : ∀ n, a ≠ .grant n) (hP : P m.engine)
    : P s.monitor.engine := by
  cases a with
  | enter id call =>
    obtain ⟨_, rfl⟩ := of_enter_eq_some h
    exact hP
  | run id =>
    obtain ⟨t, _, _, rfl⟩ := of_run_eq_some h
    exact keeps.round hP now t
  | stir id =>
    obtain ⟨_, _, _, rfl⟩ := of_stir_eq_some h
    exact hP
  | request r =>
    obtain ⟨_, rfl⟩ := of_locked_eq_some h
    exact keeps.request hP r
  | upcall u =>
    obtain ⟨_, rfl⟩ := of_locked_eq_some h
    rw [engine_upcall]
    exact hP
  | alarm =>
    obtain ⟨_, rfl⟩ := of_locked_eq_some h
    exact hP
  | grant n => exact absurd rfl (hnone n)

end Engine

namespace Monitor

section

variable {σ : Type} {E : Engine σ} {m : Monitor σ} {t : Thread} {now : Instant} {a : Action} {s : Step σ}

theorem monitor_of_broadcasts (h : m.step E now a = some s) (hx : (Moment.mk m now a s).broadcasts = true)
    : ∃ conn engine, s.monitor = { m with conn, engine }.broadcast := by
  unfold Moment.broadcasts at hx
  cases a with
  | request r =>
    obtain ⟨_, rfl⟩ := of_locked_eq_some h
    cases r with
    | close =>
      dsimp only at hx
      rw [Bool.not_eq_true'] at hx
      obtain ⟨attached, engine, hclose⟩ := Conn.close_of_open E hx m.engine
      refine ⟨{ m.conn with closed := true, attached }, engine, ?_⟩
      simp [request, close, hclose]
    | setDeadline scope deadline =>
      cases scope with
      | both => exact ⟨_, _, rfl⟩
      | one direction => cases direction <;> exact ⟨_, _, rfl⟩
    | _ => contradiction
  | upcall u =>
    obtain ⟨_, rfl⟩ := of_locked_eq_some h
    cases u with
    | error code =>
      dsimp only at hx
      rw [Option.isNone_iff_eq_none] at hx
      refine ⟨{ m.conn with failure := some code }, m.engine, ?_⟩
      simp [upcall, fail, Conn.fail, hx, absorb]
    | _ => exact ⟨_, _, rfl⟩
  | alarm =>
    obtain ⟨_, rfl⟩ := of_locked_eq_some h
    exact ⟨m.conn, m.engine, rfl⟩
  | _ => contradiction

theorem not_broadcasts_of_asleep (h : m.step E now a = some s) (ht : t ∈ s.monitor.threads)
    (hasleep : t.isAsleep = true)
    : (Moment.mk m now a s).broadcasts = false := by
  rw [← Bool.not_eq_true]
  intro hx
  obtain ⟨conn, engine, hm⟩ := monitor_of_broadcasts h hx
  rw [hm] at ht
  rw [isAsleep_of_mem_broadcast ht] at hasleep
  contradiction

end

variable {start m : Monitor Metered} {trace : List (Moment Metered)} {t : Thread} {now : Instant} {data : Bytes}
  {credit : Option Nat}

def granted : List (Moment Metered) → Nat
  | [] => 0
  | x :: rest => x.granted + granted rest

theorem granted_snoc (trace : List (Moment Metered)) (x : Moment Metered)
    : granted (trace ++ [x]) = granted trace + x.granted := by
  induction trace with
  | nil => exact Nat.add_comm _ _
  | cons y rest ih =>
    rw [List.cons_append, granted, granted, ih, Nat.add_assoc]

theorem exhausted_of_round_asleep (hcall : t.call = .write data)
    (h : (m.round Metered.engine now t).thread.isAsleep = true)
    : m.engine.credit = some 0 := by
  rw [round_of_write hcall, Thread.isAsleep_iff] at h
  rcases writeRound_cases Metered.engine now m t with ⟨_, _, _, hround⟩ | ⟨hrest, _, _, hround⟩
  . rw [hround] at h
    contradiction
  . have hlen : 0 < t.rest.length := List.length_pos_iff.2 hrest
    have hengine : Metered.engine.write = Metered.write := rfl
    rw [hround, hengine] at h
    dsimp only at h
    split at h
    . contradiction
    . split at h
      . next hzero =>
        -- nothing was taken of something
        have hreply : (m.engine.write t.rest).1 = 0 := by omega
        cases hcredit : m.engine.credit with
        | none =>
          simp only [Metered.write, hcredit] at hreply
          omega
        | some credit =>
          simp only [Metered.write, hcredit] at hreply
          rw [show credit = 0 by omega]
      . contradiction

theorem Fresh.engine_eq (fresh : start.Fresh credit) : start.engine.credit = credit ∧ start.engine.written = [] := by
  obtain ⟨_, _, _, rfl⟩ := fresh
  exact ⟨rfl, rfl⟩

theorem Fresh.awake (fresh : start.Fresh credit) : ∀ t ∈ start.threads, t.isAsleep = false := by
  obtain ⟨_, _, _, rfl⟩ := fresh
  intro t ht
  contradiction

theorem asleep_writer_of_step {a : Action} {s : Step Metered} (h : m.step Metered.engine now a = some s)
    (ht : t ∈ s.monitor.threads) (hcall : t.call = .write data) (hasleep : t.isAsleep = true)
    : t ∈ m.threads ∨ m.engine.credit = some 0 ∧ s.monitor.engine.credit = some 0 := by
  obtain ⟨_, ⟨hslept, _⟩ | ⟨_, u, _, rfl, hengine⟩⟩ := asleep_of_step h ht hasleep
  . exact Or.inl hslept
  . right
    rw [call_round] at hcall
    have hexhausted := exhausted_of_round_asleep hcall hasleep
    rw [hengine]
    exact ⟨hexhausted, Metered.keeps_exhausted.round hexhausted now u⟩

theorem Run.balance (run : Run Metered.engine start trace m) {total : Nat}
    (hstart : ∃ credit, start.engine.credit = some credit ∧ credit + start.engine.written.length = total)
    (few : total + granted trace ≤ Metered.maxCredit)
    : ∃ credit, m.engine.credit = some credit ∧ credit + m.engine.written.length = total + granted trace := by
  induction run with
  | nil => exact hstart
  | @snoc trace m now a s _ h ih =>
    rw [granted_snoc] at few ⊢
    have hbefore := ih (by omega)
    by_cases hgrant : ∃ n, a = .grant n
    . obtain ⟨n, rfl⟩ := hgrant
      obtain ⟨credit, hcredit, htotal⟩ := hbefore
      cases h
      dsimp only [Moment.granted] at few ⊢
      refine ⟨credit + n, ?_, ?_⟩
      . -- the maximum is out of reach
        have hbelow : min (credit + n) Metered.maxCredit = credit + n := by omega
        simp [Metered.engine, Metered.grant, hcredit, hbelow]
      . change credit + n + m.engine.written.length = _
        omega
    . have hnone : ∀ n, a ≠ .grant n := fun n heq => hgrant ⟨n, heq⟩
      have hzero : (Moment.mk m now a s).granted = 0 := by
        unfold Moment.granted
        split
        . next n heq => exact absurd heq (hnone n)
        . rfl
      rw [hzero, Nat.add_zero]
      exact (Metered.keeps_balance _).step h hnone hbefore

theorem Run.unlimited (run : Run Metered.engine start trace m) (hstart : start.engine.credit = none)
    : m.engine.credit = none := by
  apply run.invariant hstart
  intro m now a s hbefore h
  by_cases hgrant : ∃ n, a = .grant n
  . obtain ⟨n, rfl⟩ := hgrant
    cases h
    simp [Metered.engine, Metered.grant, hbefore]
  . exact Metered.keeps_unlimited.step h (fun n heq => hgrant ⟨n, heq⟩) hbefore

theorem Run.unlimited_awake (run : Run Metered.engine start trace m) (hstart : start.engine.credit = none)
    (hawake : ∀ t ∈ start.threads, t.isAsleep = false)
    : ∀ t ∈ m.threads, ∀ data, t.call = .write data → t.isAsleep = false := by
  induction run with
  | nil =>
    intro t ht _ _
    exact hawake t ht
  | snoc run h ih =>
    intro t ht data hcall
    rw [← Bool.not_eq_true]
    intro hasleep
    rcases asleep_writer_of_step h ht hcall hasleep with hslept | ⟨hexhausted, _⟩
    . rw [ih t hslept data hcall] at hasleep
      contradiction
    . rw [run.unlimited hstart] at hexhausted
      contradiction

theorem Run.granted_since_broadcast (run : Run Metered.engine start trace m)
    (hawake : ∀ t ∈ start.threads, t.isAsleep = false) (ht : t ∈ m.threads) (hcall : t.call = .write data)
    (hasleep : t.isAsleep = true) (hcredit : m.engine.credit ≠ some 0)
    : ∃ before x after n, trace = before ++ x :: after ∧ x.action = .grant n ∧ 0 < n ∧
        ∀ y ∈ after, y.broadcasts = false := by
  induction run with
  | nil =>
    rw [hawake t ht] at hasleep
    contradiction
  | @snoc trace m now a s run h ih =>
    rcases asleep_writer_of_step h ht hcall hasleep with hslept | ⟨_, hexhausted⟩
    . by_cases hexhausted : m.engine.credit = some 0
      . -- the credit has just come
        by_cases hgrant : ∃ n, a = .grant n
        . obtain ⟨n, rfl⟩ := hgrant
          refine ⟨trace, _, [], n, rfl, rfl, ?_, by simp⟩
          apply Nat.pos_of_ne_zero
          rintro rfl
          apply hcredit
          cases h
          simp [Metered.engine, Metered.grant, hexhausted]
        . exact absurd (Metered.keeps_exhausted.step h (fun n heq => hgrant ⟨n, heq⟩) hexhausted) hcredit
      . obtain ⟨before, x, after, n, rfl, hx, hpos, hquiet⟩ := ih hslept hexhausted
        refine ⟨before, x, after ++ [⟨m, now, a, s⟩], n, by simp, hx, hpos, ?_⟩
        intro y hy
        rcases List.mem_append.1 hy with hy | hy
        . exact hquiet y hy
        . rw [List.mem_singleton.1 hy]
          exact not_broadcasts_of_asleep h ht hasleep
    . exact absurd hexhausted hcredit

theorem Run.exhausted_or_awake (run : Run Metered.engine start trace m)
    {before after : List (Moment Metered)} {x : Moment Metered} (htrace : trace = before ++ x :: after)
    (hx : x.broadcasts = true) (hnone : ∀ y ∈ after, ∀ n, y.action ≠ .grant n)
    : (∀ t ∈ m.threads, ∀ data, t.call = .write data → t.isAsleep = false) ∨ m.engine.credit = some 0 := by
  subst htrace
  obtain ⟨_, h, since⟩ := run.of_split
  have hawake : ∀ t ∈ x.after.threads, t.isAsleep = false := by
    intro t ht
    rw [← Bool.not_eq_true]
    intro hasleep
    have := not_broadcasts_of_asleep h ht hasleep
    rw [hx] at this
    contradiction
  by_cases hcredit : m.engine.credit = some 0
  . exact Or.inr hcredit
  . left
    intro t ht data hcall
    rw [← Bool.not_eq_true]
    intro hasleep
    obtain ⟨_, y, _, n, rfl, hy, _⟩ := since.granted_since_broadcast hawake ht hcall hasleep hcredit
    exact hnone y (by simp) n hy

/--
What is left of the credit and what was written is all that was ever granted. A writer that sleeps although there is
credit does so since before a grant that nobody was told of. Once somebody was, and nothing was granted since, the
writers have all they can take, whether or not they have all run yet. Nobody sleeps if the credit is unlimited.
-/
theorem Run.backpressure_exact (run : Run Metered.engine start trace m) (fresh : start.Fresh credit)
    : (∀ c, credit = some c → c + granted trace < UInt64.size →
        ∃ left, m.engine.credit = some left ∧ left + m.engine.written.length = c + granted trace) ∧
      (∀ t ∈ m.threads, ∀ data, t.call = .write data → t.isAsleep = true →
        ∀ left, m.engine.credit = some left → 0 < left →
          ∃ before x after n, trace = before ++ x :: after ∧ x.action = .grant n ∧ 0 < n ∧
            ∀ y ∈ after, y.broadcasts = false) ∧
      (∀ before x after, trace = before ++ x :: after → x.action = .upcall .writable →
        (∀ y ∈ after, ∀ n, y.action ≠ .grant n) →
          (∀ t ∈ m.threads, ∀ data, t.call = .write data → t.isAsleep = false) ∨ m.engine.credit = some 0) ∧
      (credit = none → ∀ t ∈ m.threads, ∀ data, t.call = .write data → t.isAsleep = false) := by
  obtain ⟨hcredit, hwritten⟩ := fresh.engine_eq
  refine ⟨?_, ?_, ?_, ?_⟩
  . rintro c rfl few
    apply run.balance ⟨c, hcredit, by simp [hwritten]⟩
    unfold Metered.maxCredit
    omega
  . intro t ht data hcall hasleep left hleft hpos
    apply run.granted_since_broadcast fresh.awake ht hcall hasleep
    rw [hleft]
    rintro heq
    cases heq
    contradiction
  . intro before x after htrace hx hnone
    apply run.exhausted_or_awake htrace _ hnone
    simp [Moment.broadcasts, hx]
  . rintro rfl
    exact run.unlimited_awake hcredit fresh.awake

/--
Two writers want five bytes together. The third byte goes to one of them when they are told of it, and both sleep again.
A grant that they are not told of leaves them asleep.
-/
theorem short_backpressure_exact
    : ∃ start before x after last m m', start.Fresh (some 2) ∧ Run Metered.engine start (before ++ x :: after) m ∧
        x.action = .upcall .writable ∧ last.action = .grant 9 ∧
        Run Metered.engine start (before ++ x :: after ++ [last]) m' ∧
        m.threads.map Thread.isAsleep = [true, true] ∧ m'.threads.map Thread.isAsleep = [true, true] ∧
        m.engine.credit = some 0 ∧ (∃ left, m.engine.credit = some left ∧ left + m.engine.written.length = 3) ∧
        ∃ before' y after' n, before ++ x :: after ++ [last] = before' ++ y :: after' ∧ y.action = .grant n ∧
          0 < n ∧ ∀ z ∈ after', z.broadcasts = false := by
  have fresh : (init Metered.engine "a" { credit := some 2 }).Fresh (some 2) := ⟨_, _, _, rfl⟩
  have run : Run Metered.engine (init Metered.engine "a" { credit := some 2 }) ([_, _, _, _, _, _] ++ _ :: _) _ :=
    Run.of_replay
      [(0, .enter 0 (.write [1, 2, 3])), (0, .enter 1 (.write [4, 5])), (1, .run 0), (1, .run 0), (2, .run 1),
        (3, .grant 1), (4, .upcall .writable), (5, .run 1), (5, .run 1), (6, .run 0)] rfl
  have more := run.snoc (show Monitor.step Metered.engine 7 _ (.grant 9) = some _ from rfl)
  obtain ⟨hbalance, _, htold, _⟩ := run.backpressure_exact fresh
  obtain ⟨_, hsince, _, _⟩ := more.backpressure_exact fresh
  have hcredit := (htold _ _ _ rfl rfl (by simp)).resolve_left fun hawake =>
    Bool.noConfusion (hawake _ (List.mem_of_getElem? (i := 0) rfl) _ rfl)
  exact ⟨_, _, _, _, _, _, _, fresh, run, rfl, rfl, more, rfl, rfl, hcredit, hbalance 2 rfl (by decide),
    hsince _ (List.mem_of_getElem? (i := 0) rfl) _ rfl rfl 9 rfl (by decide)⟩

end Monitor

end BlockingStream

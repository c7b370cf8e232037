import BlockingStream.Monitor.Round

/-!
This module contains what the single attempts on a connection have to do with the facts that a sleeper waits
for: an attempt that comes to nothing shows that none of them holds, and no attempt makes one of them hold.
-/

namespace BlockingStream

def Call.direction? : Call → Option Direction
  | .awaitConnect => none
  | .readInto _ => some .reading
  | .write _ => some .writing

def Outcome.error? : Outcome → Option StreamError
  | .connect (.error e) => some e
  | .connect (.ok _) => none
  | .read d => d.error
  | .write w => w.error

namespace Conn

variable {σ : Type} {c c' : Conn} {now : Instant}

def deadline (c : Conn) : Direction → Option Instant
  | .reading => c.readDeadline
  | .writing => c.writeDeadline

def Blocks (c : Conn) (call : Call) : Prop :=
  c.failure = none ∧ c.destroyed = false ∧ c.closed = false ∧
    match call with
    | .awaitConnect => c.connected = false
    | .readInto _ => c.inbound = [] ∧ c.eof = false
    | .write _ => True

/--
The two states agree in everything that a sleeper waits for, except that input may have been read.
-/
structure Calm (c c' : Conn) : Prop where
  failure : c'.failure = c.failure
  destroyed : c'.destroyed = c.destroyed
  closed : c'.closed = c.closed
  connected : c'.connected = c.connected
  eof : c'.eof = c.eof
  deadline (d : Direction) : c'.deadline d = c.deadline d
  inbound : c.inbound = [] → c'.inbound = []

theorem Calm.refl (c : Conn) : Calm c c where
  failure := rfl
  destroyed := rfl
  closed := rfl
  connected := rfl
  eof := rfl
  deadline _ := rfl
  inbound h := h

theorem Calm.blocks {call : Call} (calm : Calm c c') (h : c.Blocks call) : c'.Blocks call := by
  unfold Blocks at *
  rw [calm.failure, calm.destroyed, calm.closed, calm.connected, calm.eof]
  obtain ⟨failure, destroyed, closed, rest⟩ := h
  refine ⟨failure, destroyed, closed, ?_⟩
  cases call with
  | awaitConnect => exact rest
  | readInto buffer => exact ⟨calm.inbound rest.1, rest.2⟩
  | write data => trivial

theorem commonError_eq_none_iff {deadline : Option Instant}
    : c.commonError deadline now = none ↔
      c.failure = none ∧ c.destroyed = false ∧ c.closed = false ∧ deadlinePassed deadline now = false := by
  unfold commonError
  cases c.failure <;> cases c.destroyed <;> cases c.closed <;> simp

theorem connectResult_eq_none_iff : c.connectResult = none ↔ c.Blocks .awaitConnect := by
  unfold connectResult Blocks phase
  cases c.failure <;> cases c.destroyed <;> cases c.closed <;> cases c.connected <;> cases c.eof <;> simp

theorem readError_eq_none_iff
    : c.readError now = none ↔
      (c.eof = true → c.inbound ≠ []) ∧ c.commonError c.readDeadline now = none := by
  unfold readError
  split
  . next h =>
    simp only [Bool.and_eq_true, List.isEmpty_iff] at h
    simp [h.1, h.2]
  . next h =>
    simp only [Bool.and_eq_true, List.isEmpty_iff, not_and] at h
    simp only [ne_eq, iff_and_self]
    intro _
    exact h

theorem calm_read (E : Engine σ) (len : Nat) (now : Instant) (c : Conn) (s : σ)
    : Calm c (c.read E len now s).2.1 where
  failure := rfl
  destroyed := rfl
  closed := rfl
  connected := rfl
  eof := rfl
  deadline d := by cases d <;> rfl
  inbound h := by simp [read, h]

theorem calm_recordWritten (n : Nat) (c : Conn) : Calm c (c.recordWritten n) where
  failure := rfl
  destroyed := rfl
  closed := rfl
  connected := rfl
  eof := rfl
  deadline d := by cases d <;> rfl
  inbound h := h

theorem close_of_open (E : Engine σ) (h : c.closed = false) (s : σ)
    : ∃ attached engine, c.close E s = (true, { c with closed := true, attached }, engine) := by
  unfold close
  simp only [h, Bool.false_eq_true, if_false]
  split
  . exact ⟨_, _, rfl⟩
  . split
    . exact ⟨_, _, rfl⟩
    . exact ⟨_, _, rfl⟩

theorem calm_remoteAddr (E : Engine σ) (c : Conn) (s : σ) : Calm c (c.remoteAddr E s).2.1 := by
  unfold remoteAddr
  split
  . exact ⟨rfl, rfl, rfl, rfl, rfl, fun d => by cases d <;> rfl, fun h => h⟩
  . exact Calm.refl c

theorem calm_ownAddr (E : Engine σ) (c : Conn) (s : σ) : Calm c (c.ownAddr E s).2.1 := by
  unfold ownAddr
  split
  . exact ⟨rfl, rfl, rfl, rfl, rfl, fun d => by cases d <;> rfl, fun h => h⟩
  . exact Calm.refl c

theorem blocks_of_read {E : Engine σ} {buffer : Bytes} {s : σ} (hlen : buffer.length ≠ 0)
    (hdata : (c.read E buffer.length now s).1.data = []) (herror : (c.read E buffer.length now s).1.error = none)
    : c.Blocks (.readInto buffer) ∧ deadlinePassed c.readDeadline now = false := by
  have hempty : c.inbound = [] := by
    have := length_read_data E buffer.length now c s
    rw [hdata] at this
    apply List.eq_nil_of_length_eq_zero
    simp only [List.length_nil] at this
    omega
  simp only [read, readError_eq_none_iff, commonError_eq_none_iff] at herror
  obtain ⟨heof, failure, destroyed, closed, deadline⟩ := herror
  refine ⟨⟨failure, destroyed, closed, hempty, ?_⟩, deadline⟩
  rw [hempty] at heof
  simpa using heof

theorem offer_cases (E : Engine σ) (data : Bytes) (hdata : data ≠ []) (now : Instant) (c : Conn) (s : σ)
    : (∃ e, c.writeError now = some e ∧ c.offer E data now s = (.refused e, s)) ∨
      (c.writeError now = none ∧ c.attached = false ∧ c.offer E data now s = (.refused .destroyed, s)) ∨
      (c.writeError now = none ∧ c.attached = true ∧ (c.offer E data now s).1.error? = none ∧
        (c.offer E data now s).1.count = min (E.write data s).1 data.length ∧
        (c.offer E data now s).2 = (E.write data s).2) := by
  unfold offer
  cases herror : c.writeError now with
  | some e => simp
  | none =>
    have hempty : data.isEmpty = false := by simp [hdata]
    cases hattached : c.attached with
    | false => simp [hempty]
    | true =>
      rcases hwrite : E.write data s with ⟨reply, s'⟩
      simp only [hempty, Bool.false_eq_true, if_false, if_true]
      refine Or.inr (Or.inr ⟨trivial, trivial, ?_⟩)
      by_cases hover : data.length < reply
      . simp only [hover, if_true, Offer.error?, Offer.count]
        refine ⟨trivial, ?_, trivial⟩
        omega
      . simp only [hover, if_false, Offer.error?, Offer.count]
        refine ⟨trivial, ?_, trivial⟩
        omega

end Conn

end BlockingStream

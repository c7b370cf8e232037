import BlockingStream.Engine.Metered
import BlockingStream.Proofs.History

/-!
This module contains the proof that the two directions of a connection do not interfere: what the writes report and
hand over depends on nothing that only concerns reading, and the other way round.

A direction sees a part of the state. What does not concern it leaves this part alone, and what concerns it changes
this part, and answers, in a way that depends on nothing else. So a sequence of operations has the same effect on a
direction as the operations in it that concern this direction.
-/

namespace BlockingStream

/--
What is done to a connection that nobody waits on. An attempt to read or to write is made at once, and counted.
-/
inductive Operation where
  | read (len : Nat) (now : Instant)
  | write (data : Bytes) (now : Instant)
  | request (r : Request)
  | upcall (u : Upcall)
  | grant (n : Nat)
  deriving DecidableEq

namespace Operation

def ends : Operation → Bool
  | .upcall (.error _) | .upcall .destroyed | .request .close => true
  | _ => false

def concerns (d : Direction) : Operation → Bool
  | .read _ _ | .upcall (.data _) | .upcall .eof => d = .reading
  | .write _ _ | .grant _ => d = .writing
  | .request (.setDeadline .both _) => true
  | .request (.setDeadline (.one d') _) => d' = d
  | op => op.ends

end Operation

namespace Monitor

variable {σ : Type}

/--
What is left of a monitor after an operation.
-/
def perform (E : Engine σ) (m : Monitor σ) : Operation → Monitor σ
  | .read len now =>
    let (_, conn, engine) := m.conn.read E len now m.engine
    { m with conn, engine }
  | .write data now =>
    let (offer, engine) := m.conn.offer E data now m.engine
    { m with conn := m.conn.recordWritten offer.count, engine }
  | .request r => (m.request E r).monitor
  | .upcall u => (m.upcall u).monitor
  | .grant n => { m with engine := E.grant n m.engine }

/--
What an attempt to read delivers, if this is one.
-/
def delivery? (E : Engine σ) (m : Monitor σ) : Operation → Option Conn.Delivery
  | .read len now => some (m.conn.read E len now m.engine).1
  | _ => none

/--
What becomes of an attempt to write, if this is one.
-/
def offer? (E : Engine σ) (m : Monitor σ) : Operation → Option Conn.Offer
  | .write data now => some (m.conn.offer E data now m.engine).1
  | _ => none

def performAll (E : Engine σ) (m : Monitor σ) (ops : List Operation) : Monitor σ := ops.foldl (perform E) m

/--
What the operations of a sequence answer, one after the other.
-/
def answers {β : Type} (E : Engine σ) (answer : Monitor σ → Operation → Option β) (m : Monitor σ)
    : List Operation → List β
  | [] => []
  | op :: rest => (answer m op).toList ++ (m.perform E op).answers E answer rest

/--
A part of the state, and the answers of some operations, depend only on the operations that concern them.
-/
structure Separate {V β : Type} (E : Engine σ) (view : Monitor σ → V) (answer : Monitor σ → Operation → Option β)
    (concerned : Operation → Bool) : Prop where
  frame : ∀ m op, concerned op = false → view (m.perform E op) = view m ∧ answer m op = none
  congr : ∀ m m' op, concerned op = true → view m' = view m →
    view (m'.perform E op) = view (m.perform E op) ∧ answer m' op = answer m op

variable {V β : Type} {E : Engine σ} {view : Monitor σ → V} {answer : Monitor σ → Operation → Option β}
  {concerned : Operation → Bool} {m m' : Monitor σ}

theorem Separate.filter (h : Separate E view answer concerned) (ops : List Operation) (hview : view m' = view m)
    : view (m'.performAll E (ops.filter concerned)) = view (m.performAll E ops) ∧
      m'.answers E answer (ops.filter concerned) = m.answers E answer ops := by
  induction ops generalizing m m' with
  | nil => exact ⟨hview, rfl⟩
  | cons op rest ih =>
    cases hop : concerned op with
    | false =>
      obtain ⟨hsame, hnone⟩ := h.frame m op hop
      rw [List.filter_cons_of_neg (by simp [hop]), answers, hnone]
      exact ih (hview.trans hsame.symm)
    | true =>
      obtain ⟨hstep, hanswer⟩ := h.congr m m' op hop hview
      obtain ⟨hfinal, hanswers⟩ := ih hstep
      rw [List.filter_cons_of_pos hop, answers, answers, hanswer, hanswers]
      exact ⟨hfinal, rfl⟩

theorem Separate.eq_of_filter_eq (h : Separate E view answer concerned) {ops ops' : List Operation}
    (hview : view m' = view m) (hops : ops'.filter concerned = ops.filter concerned)
    : view (m'.performAll E ops') = view (m.performAll E ops) ∧
      m'.answers E answer ops' = m.answers E answer ops := by
  -- both are compared with the run from `m` of nothing but the operations that concern the part
  obtain ⟨hfinal, hanswers⟩ := h.filter ops (Eq.refl (view m))
  obtain ⟨hfinal', hanswers'⟩ := h.filter ops' hview.symm
  rw [← hfinal, ← hanswers, ← hfinal', ← hanswers', hops]
  exact ⟨rfl, rfl⟩

end Monitor

/--
What ends a connection for both directions.
-/
structure Ending where
  failure : Option EngineCode
  destroyed : Bool
  closed : Bool
  attached : Bool

/--
What the writes see.
-/
structure Outgoing where
  ending : Ending
  deadline : Option Instant
  bytesWritten : Nat
  written : Bytes
  credit : Option Nat

/--
What the reads see.
-/
structure Incoming where
  ending : Ending
  deadline : Option Instant
  eof : Bool
  inbound : Bytes
  bytesRead : Nat
  drains : Nat

theorem Metered.write_congr {s s' : Metered} (hwritten : s'.written = s.written) (hcredit : s'.credit = s.credit)
    (data : Bytes)
    : (s'.write data).1 = (s.write data).1 ∧ (s'.write data).2.written = (s.write data).2.written ∧
        (s'.write data).2.credit = (s.write data).2.credit := by
  unfold write
  rw [hcredit, hwritten]
  cases s.credit <;> exact ⟨rfl, rfl, rfl⟩

theorem Metered.drains_write (s : Metered) (data : Bytes) : (s.write data).2.drains = s.drains := by
  unfold write
  cases s.credit <;> rfl

namespace Conn

def ending (c : Conn) : Ending := ⟨c.failure, c.destroyed, c.closed, c.attached⟩

variable {c c' : Conn} {s s' : Metered}

theorem ending_eq_iff
    : c'.ending = c.ending ↔ c'.failure = c.failure ∧ c'.destroyed = c.destroyed ∧ c'.closed = c.closed ∧
        c'.attached = c.attached :=
  Ending.mk.injEq .. ▸ Iff.rfl

theorem commonError_congr (hending : c'.ending = c.ending) (deadline : Option Instant) (now : Instant)
    : c'.commonError deadline now = c.commonError deadline now := by
  obtain ⟨hfailure, hdestroyed, hclosed, -⟩ := ending_eq_iff.1 hending
  simp only [commonError, hfailure, hdestroyed, hclosed]

theorem readError_congr (hending : c'.ending = c.ending) (hdeadline : c'.readDeadline = c.readDeadline)
    (heof : c'.eof = c.eof) (hinbound : c'.inbound = c.inbound) (now : Instant)
    : c'.readError now = c.readError now := by
  rw [readError, readError, hdeadline, heof, hinbound, commonError_congr hending]

theorem mayHint_congr (hending : c'.ending = c.ending) : c'.mayHint = c.mayHint := by
  obtain ⟨hfailure, hdestroyed, hclosed, hattached⟩ := ending_eq_iff.1 hending
  simp only [mayHint, hfailure, hdestroyed, hclosed, hattached]

theorem offer_congr (hending : c'.ending = c.ending) (hdeadline : c'.writeDeadline = c.writeDeadline)
    (hwritten : s'.written = s.written) (hcredit : s'.credit = s.credit) (data : Bytes) (now : Instant)
    : (c'.offer Metered.engine data now s').1 = (c.offer Metered.engine data now s).1 ∧
        (c'.offer Metered.engine data now s').2.written = (c.offer Metered.engine data now s).2.written ∧
        (c'.offer Metered.engine data now s').2.credit = (c.offer Metered.engine data now s).2.credit := by
  obtain ⟨-, -, -, hattached⟩ := ending_eq_iff.1 hending
  obtain ⟨hreply, hwritten', hcredit'⟩ := Metered.write_congr hwritten hcredit data
  have herror : c'.writeError now = c.writeError now := by
    rw [writeError, writeError, hdeadline, commonError_congr hending]
  have hengine : Metered.engine.write = Metered.write := rfl
  unfold offer
  rw [herror, hattached, hengine]
  dsimp only
  rw [hreply]
  repeat' split
  all_goals first | exact ⟨rfl, hwritten', hcredit'⟩ | exact ⟨rfl, hwritten, hcredit⟩

theorem drains_offer (c : Conn) (s : Metered) (data : Bytes) (now : Instant)
    : (c.offer Metered.engine data now s).2.drains = s.drains := by
  unfold offer
  dsimp only
  repeat' split
  all_goals first | exact Metered.drains_write s data | rfl

theorem hintDrained_congr (hending : c'.ending = c.ending) (hinbound : c'.inbound = c.inbound)
    (hdrains : s'.drains = s.drains) (moved : Bytes)
    : (c'.hintDrained Metered.engine moved s').drains = (c.hintDrained Metered.engine moved s).drains := by
  unfold hintDrained
  rw [mayHint_congr hending, hinbound]
  cases !moved.isEmpty && c.inbound.isEmpty && c.mayHint with
  | false => exact hdrains
  | true => exact congrArg (· + 1) hdrains

theorem read_congr (hending : c'.ending = c.ending) (hdeadline : c'.readDeadline = c.readDeadline)
    (heof : c'.eof = c.eof) (hinbound : c'.inbound = c.inbound) (hdrains : s'.drains = s.drains) (len : Nat)
    (now : Instant)
    : (c'.read Metered.engine len now s').1 = (c.read Metered.engine len now s).1 ∧
        (c'.read Metered.engine len now s').2.2.drains = (c.read Metered.engine len now s).2.2.drains := by
  unfold read
  rw [hinbound]
  constructor
  . apply congrArg (Delivery.mk _)
    apply readError_congr
    . exact hending
    . exact hdeadline
    . exact heof
    . rfl
  . apply hintDrained_congr
    . exact hending
    . rfl
    . exact hdrains

theorem ending_close_congr (hending : c'.ending = c.ending) (s s' : Metered)
    : (c'.close Metered.engine s').2.1.ending = (c.close Metered.engine s).2.1.ending := by
  obtain ⟨hfailure, hdestroyed, hclosed, hattached⟩ := ending_eq_iff.1 hending
  unfold close
  rw [hdestroyed, hclosed, hattached]
  repeat' split
  all_goals simp [ending, hfailure, hdestroyed, hclosed, hattached]

theorem close_frame (c : Conn) (s : Metered)
    : (∃ closed attached, (c.close Metered.engine s).2.1 = { c with closed, attached }) ∧
        ∃ closes, (c.close Metered.engine s).2.2 = { s with closes } := by
  unfold close
  repeat' split
  all_goals exact ⟨⟨_, _, rfl⟩, ⟨_, rfl⟩⟩

end Conn

namespace Monitor

def outgoing (m : Monitor Metered) : Outgoing :=
  ⟨m.conn.ending, m.conn.writeDeadline, m.conn.bytesWritten, m.engine.written, m.engine.credit⟩

def incoming (m : Monitor Metered) : Incoming :=
  ⟨m.conn.ending, m.conn.readDeadline, m.conn.eof, m.conn.inbound, m.conn.bytesRead, m.engine.drains⟩

variable {m m' : Monitor Metered}

theorem outgoing_eq_iff
    : m'.outgoing = m.outgoing ↔ m'.conn.ending = m.conn.ending ∧ m'.conn.writeDeadline = m.conn.writeDeadline ∧
        m'.conn.bytesWritten = m.conn.bytesWritten ∧ m'.engine.written = m.engine.written ∧
        m'.engine.credit = m.engine.credit :=
  Outgoing.mk.injEq .. ▸ Iff.rfl

theorem incoming_eq_iff
    : m'.incoming = m.incoming ↔ m'.conn.ending = m.conn.ending ∧ m'.conn.readDeadline = m.conn.readDeadline ∧
        m'.conn.eof = m.conn.eof ∧ m'.conn.inbound = m.conn.inbound ∧ m'.conn.bytesRead = m.conn.bytesRead ∧
        m'.engine.drains = m.engine.drains :=
  Incoming.mk.injEq .. ▸ Iff.rfl

theorem views_question (m : Monitor Metered) {r : Request} (hclose : r ≠ .close)
    (hdeadline : ∀ scope deadline, r ≠ .setDeadline scope deadline)
    : (m.perform Metered.engine (.request r)).outgoing = m.outgoing ∧
        (m.perform Metered.engine (.request r)).incoming = m.incoming := by
  cases r with
  | close => contradiction
  | setDeadline scope deadline => exact absurd rfl (hdeadline scope deadline)
  | remoteAddr =>
    simp only [perform, request, Conn.remoteAddr]
    split <;> exact ⟨rfl, rfl⟩
  | localAddr =>
    simp only [perform, request, Conn.ownAddr]
    split <;> exact ⟨rfl, rfl⟩
  | _ => exact ⟨rfl, rfl⟩

theorem perform_of_ends (m : Monitor Metered) {op : Operation} (hends : op.ends = true)
    : (∃ failure destroyed closed attached,
          (m.perform Metered.engine op).conn = { m.conn with failure, destroyed, closed, attached }) ∧
        ∃ closes, (m.perform Metered.engine op).engine = { m.engine with closes } := by
  cases op with
  | request r =>
    cases r with
    | close =>
      obtain ⟨hconn, hengine⟩ := conn_close Metered.engine m
      obtain ⟨⟨closed, attached, hclosed⟩, closes, hcloses⟩ := Conn.close_frame m.conn m.engine
      exact ⟨⟨_, _, closed, attached, hconn.trans hclosed⟩, closes, hengine.trans hcloses⟩
    | _ => contradiction
  | upcall u =>
    cases u with
    | error code =>
      simp only [perform, upcall, fail, Conn.fail]
      cases m.conn.failure <;> exact ⟨⟨_, _, _, _, rfl⟩, _, rfl⟩
    | destroyed => exact ⟨⟨_, _, _, _, rfl⟩, _, rfl⟩
    | _ => contradiction
  | _ => contradiction

theorem ending_perform_congr {op : Operation} (hends : op.ends = true) (hending : m'.conn.ending = m.conn.ending)
    : (m'.perform Metered.engine op).conn.ending = (m.perform Metered.engine op).conn.ending := by
  cases op with
  | request r =>
    cases r with
    | close =>
      change (m'.close Metered.engine).monitor.conn.ending = (m.close Metered.engine).monitor.conn.ending
      rw [(conn_close Metered.engine m').1, (conn_close Metered.engine m).1]
      exact Conn.ending_close_congr hending m.engine m'.engine
    | _ => contradiction
  | upcall u =>
    obtain ⟨hfailure, hdestroyed, hclosed, hattached⟩ := Conn.ending_eq_iff.1 hending
    cases u with
    | error code =>
      simp only [perform, upcall, fail, Conn.fail, hfailure]
      cases m.conn.failure with
      | none => exact Conn.ending_eq_iff.2 ⟨rfl, hdestroyed, hclosed, hattached⟩
      | some first => exact hending
    | destroyed => exact Conn.ending_eq_iff.2 ⟨hfailure, rfl, hclosed, rfl⟩
    | _ => contradiction
  | _ => contradiction

theorem outgoing_congr_of_ends {op : Operation} (hends : op.ends = true) (hview : m'.outgoing = m.outgoing)
    : (m'.perform Metered.engine op).outgoing = (m.perform Metered.engine op).outgoing := by
  obtain ⟨hending, hrest⟩ := outgoing_eq_iff.1 hview
  obtain ⟨⟨_, _, _, _, hconn⟩, _, hengine⟩ := perform_of_ends m hends
  obtain ⟨⟨_, _, _, _, hconn'⟩, _, hengine'⟩ := perform_of_ends m' hends
  refine outgoing_eq_iff.2 ⟨ending_perform_congr hends hending, ?_⟩
  rw [hconn, hengine, hconn', hengine']
  exact hrest

theorem incoming_congr_of_ends {op : Operation} (hends : op.ends = true) (hview : m'.incoming = m.incoming)
    : (m'.perform Metered.engine op).incoming = (m.perform Metered.engine op).incoming := by
  obtain ⟨hending, hrest⟩ := incoming_eq_iff.1 hview
  obtain ⟨⟨_, _, _, _, hconn⟩, _, hengine⟩ := perform_of_ends m hends
  obtain ⟨⟨_, _, _, _, hconn'⟩, _, hengine'⟩ := perform_of_ends m' hends
  refine incoming_eq_iff.2 ⟨ending_perform_congr hends hending, ?_⟩
  rw [hconn, hengine, hconn', hengine']
  exact hrest

theorem separate_outgoing : Separate Metered.engine outgoing (offer? Metered.engine) (·.concerns .writing) where
  frame m op hop := by
    cases op with
    | read len now =>
      refine ⟨?_, rfl⟩
      simp only [perform, Conn.read, Conn.hintDrained]
      split <;> rfl
    | request r =>
      refine ⟨?_, rfl⟩
      cases r with
      | close => contradiction
      | setDeadline scope deadline =>
        cases scope with
        | both => contradiction
        | one direction =>
          cases direction with
          | reading => rfl
          | writing => contradiction
      | _ => refine (views_question m ?_ ?_).1 <;> simp
    | upcall u =>
      refine ⟨?_, rfl⟩
      cases u with
      | error code => contradiction
      | destroyed => contradiction
      | _ => rfl
    | _ => contradiction
  congr m m' op hop hview := by
    obtain ⟨hending, hdeadline, hbytes, hwritten, hcredit⟩ := outgoing_eq_iff.1 hview
    cases op with
    | write data now =>
      obtain ⟨hoffer, hwritten', hcredit'⟩ := Conn.offer_congr hending hdeadline hwritten hcredit data now
      refine ⟨outgoing_eq_iff.2 ⟨hending, hdeadline, ?_, hwritten', hcredit'⟩, congrArg some hoffer⟩
      simp only [perform, Conn.recordWritten, hoffer, hbytes]
    | grant n =>
      have hgrant := congrArg (Option.map fun credit => min (credit + n) Metered.maxCredit) hcredit
      exact ⟨outgoing_eq_iff.2 ⟨hending, hdeadline, hbytes, hwritten, hgrant⟩, rfl⟩
    | request r =>
      refine ⟨?_, rfl⟩
      cases r with
      | close => exact outgoing_congr_of_ends rfl hview
      | setDeadline scope deadline =>
        apply outgoing_eq_iff.2
        cases scope with
        | both => exact ⟨hending, rfl, hbytes, hwritten, hcredit⟩
        | one direction =>
          cases direction with
          | reading => contradiction
          | writing => exact ⟨hending, rfl, hbytes, hwritten, hcredit⟩
      | _ => contradiction
    | upcall u =>
      refine ⟨?_, rfl⟩
      cases u with
      | error code => exact outgoing_congr_of_ends rfl hview
      | destroyed => exact outgoing_congr_of_ends rfl hview
      | _ => contradiction
    | _ => contradiction

theorem separate_incoming : Separate Metered.engine incoming (delivery? Metered.engine) (·.concerns .reading) where
  frame m op hop := by
    cases op with
    | write data now =>
      have hdrains := Conn.drains_offer m.conn m.engine data now
      exact ⟨incoming_eq_iff.2 ⟨rfl, rfl, rfl, rfl, rfl, hdrains⟩, rfl⟩
    | request r =>
      refine ⟨?_, rfl⟩
      cases r with
      | close => contradiction
      | setDeadline scope deadline =>
        cases scope with
        | both => contradiction
        | one direction =>
          cases direction with
          | reading => contradiction
          | writing => rfl
      | _ => refine (views_question m ?_ ?_).2 <;> simp
    | upcall u =>
      refine ⟨?_, rfl⟩
      cases u with
      | connected => rfl
      | writable => rfl
      | _ => contradiction
    | grant n => exact ⟨rfl, rfl⟩
    | read len now => contradiction
  congr m m' op hop hview := by
    obtain ⟨hending, hdeadline, heof, hinbound, hbytes, hdrains⟩ := incoming_eq_iff.1 hview
    cases op with
    | read len now =>
      obtain ⟨hdelivery, hdrains'⟩ := Conn.read_congr hending hdeadline heof hinbound hdrains len now
      refine ⟨incoming_eq_iff.2 ⟨hending, hdeadline, heof, ?_, ?_, hdrains'⟩, congrArg some hdelivery⟩
      . simp only [perform, Conn.read, hinbound]
      . simp only [perform, Conn.read, hinbound, hbytes]
    | request r =>
      refine ⟨?_, rfl⟩
      cases r with
      | close => exact incoming_congr_of_ends rfl hview
      | setDeadline scope deadline =>
        apply incoming_eq_iff.2
        cases scope with
        | both => exact ⟨hending, rfl, heof, hinbound, hbytes, hdrains⟩
        | one direction =>
          cases direction with
          | reading => exact ⟨hending, rfl, heof, hinbound, hbytes, hdrains⟩
          | writing => contradiction
      | _ => contradiction
    | upcall u =>
      refine ⟨?_, rfl⟩
      cases u with
      | data bytes =>
        exact incoming_eq_iff.2 ⟨hending, hdeadline, heof, congrArg (· ++ bytes) hinbound, hbytes, hdrains⟩
      | eof => exact incoming_eq_iff.2 ⟨hending, hdeadline, rfl, hinbound, hbytes, hdrains⟩
      | error code => exact incoming_congr_of_ends rfl hview
      | destroyed => exact incoming_congr_of_ends rfl hview
      | _ => contradiction
    | _ => contradiction

/--
A new connection over an engine that has taken nothing yet and has this credit.
-/
def Fresh (credit : Option Nat) (m : Monitor Metered) : Prop :=
  ∃ label peer localAddr, m = init Metered.engine label { credit, peer, localAddr }

variable {credit : Option Nat}

theorem Fresh.outgoing_eq (h : m.Fresh credit) (h' : m'.Fresh credit) : m'.outgoing = m.outgoing := by
  obtain ⟨_, _, _, rfl⟩ := h
  obtain ⟨_, _, _, rfl⟩ := h'
  rfl

theorem Fresh.incoming_eq (h : m.Fresh credit) (h' : m'.Fresh credit) : m'.incoming = m.incoming := by
  obtain ⟨_, _, _, rfl⟩ := h
  obtain ⟨_, _, _, rfl⟩ := h'
  rfl

/--
Whatever is done for reading, the writes report and hand over the same, and whatever is done for writing, the reads
deliver and report the same.
-/
theorem Fresh.directions_separate (h : m.Fresh credit) (h' : m'.Fresh credit) (ops ops' : List Operation)
    : (ops'.filter (·.concerns .writing) = ops.filter (·.concerns .writing) →
        m'.answers Metered.engine (offer? Metered.engine) ops' =
          m.answers Metered.engine (offer? Metered.engine) ops ∧
        (m'.performAll Metered.engine ops').engine.written = (m.performAll Metered.engine ops).engine.written ∧
        (m'.performAll Metered.engine ops').engine.credit = (m.performAll Metered.engine ops).engine.credit ∧
        (m'.performAll Metered.engine ops').conn.bytesWritten =
          (m.performAll Metered.engine ops).conn.bytesWritten) ∧
      (ops'.filter (·.concerns .reading) = ops.filter (·.concerns .reading) →
        m'.answers Metered.engine (delivery? Metered.engine) ops' =
          m.answers Metered.engine (delivery? Metered.engine) ops ∧
        (m'.performAll Metered.engine ops').conn.inbound = (m.performAll Metered.engine ops).conn.inbound ∧
        (m'.performAll Metered.engine ops').conn.bytesRead = (m.performAll Metered.engine ops).conn.bytesRead ∧
        (m'.performAll Metered.engine ops').engine.drains = (m.performAll Metered.engine ops).engine.drains) := by
  constructor
  . intro hops
    obtain ⟨hfinal, hanswers⟩ := separate_outgoing.eq_of_filter_eq (Fresh.outgoing_eq h h') hops
    obtain ⟨_, _, hbytes, hwritten, hcredit⟩ := outgoing_eq_iff.1 hfinal
    exact ⟨hanswers, hwritten, hcredit, hbytes⟩
  . intro hops
    obtain ⟨hfinal, hanswers⟩ := separate_incoming.eq_of_filter_eq (Fresh.incoming_eq h h') hops
    obtain ⟨_, _, _, hinbound, hbytes, hdrains⟩ := incoming_eq_iff.1 hfinal
    exact ⟨hanswers, hinbound, hbytes, hdrains⟩

/--
The first write finds room for two bytes, the second for one more, and the third is too late. So it is on another
connection whose reads have hit the end of the stream and a deadline of their own in the meantime. The reads of the
first connection are also those of one whose only write comes too late, so that nothing is handed over.
-/
theorem busy_directions_separate
    : ∃ ops ops' ops'' : List Operation, ∃ m m' : Monitor Metered, m.Fresh (some 2) ∧ m'.Fresh (some 2) ∧
        ops'.filter (·.concerns .writing) = ops.filter (·.concerns .writing) ∧
        ops''.filter (·.concerns .reading) = ops.filter (·.concerns .reading) ∧
        m.answers Metered.engine (offer? Metered.engine) ops =
          [.taken 2, .taken 1, .refused .deadlineExceeded] ∧
        m'.answers Metered.engine (offer? Metered.engine) ops' =
          [.taken 2, .taken 1, .refused .deadlineExceeded] ∧
        m.answers Metered.engine (delivery? Metered.engine) ops =
          [⟨[7], none⟩, ⟨[8], none⟩, ⟨[], some .deadlineExceeded⟩] ∧
        m'.answers Metered.engine (delivery? Metered.engine) ops'' =
          [⟨[7], none⟩, ⟨[8], none⟩, ⟨[], some .deadlineExceeded⟩] ∧
        (m'.performAll Metered.engine ops').engine.written = [1, 2, 3] ∧
        (m'.performAll Metered.engine ops'').engine.written = [] ∧
        (m'.performAll Metered.engine ops'').engine.drains = 1 := by
  let m := init Metered.engine "a" { credit := some 2 }
  let m' := init Metered.engine "b" { credit := some 2, peer := .loopback 1 }
  let ops : List Operation :=
    [.upcall .connected, .write [1, 2, 3] 0, .upcall (.data [7, 8]), .read 1 1, .grant 1, .write [3] 2, .read 1 2,
      .request (.setDeadline .both (some 9)), .write [4] 9, .read 1 9]
  let ops' : List Operation :=
    [.write [1, 2, 3] 0, .request (.setDeadline (.one .reading) (some 1)), .read 5 1, .upcall .eof, .read 5 1,
      .grant 1, .write [3] 2, .request (.setDeadline .both (some 9)), .request .remoteAddr, .write [4] 9]
  let ops'' : List Operation :=
    [.upcall (.data [7, 8]), .request (.setDeadline (.one .writing) (some 0)), .write [5, 6] 0, .read 1 1, .read 1 2,
      .request (.setDeadline .both (some 9)), .read 1 9]
  have hfresh : m.Fresh (some 2) := ⟨_, _, _, rfl⟩
  have hfresh' : m'.Fresh (some 2) := ⟨_, _, _, rfl⟩
  have hwriting : ops'.filter (·.concerns .writing) = ops.filter (·.concerns .writing) := rfl
  have hreading : ops''.filter (·.concerns .reading) = ops.filter (·.concerns .reading) := rfl
  obtain ⟨hoffers, hwritten, _⟩ := (Fresh.directions_separate hfresh hfresh' ops ops').1 hwriting
  obtain ⟨hdeliveries, _, _, hdrains⟩ := (Fresh.directions_separate hfresh hfresh' ops ops'').2 hreading
  have hfirst : m.answers Metered.engine (offer? Metered.engine) ops =
      [.taken 2, .taken 1, .refused .deadlineExceeded] := by
    unfold m ops
    decide +kernel
  have hlater : m.answers Metered.engine (delivery? Metered.engine) ops =
      [⟨[7], none⟩, ⟨[8], none⟩, ⟨[], some .deadlineExceeded⟩] := by
    unfold m ops
    decide +kernel
  have hall : (m.performAll Metered.engine ops).engine.written = [1, 2, 3] := by
    unfold m ops
    decide +kernel
  have hnothing : (m'.performAll Metered.engine ops'').engine.written = [] := by
    unfold m' ops''
    decide +kernel
  have honce : (m.performAll Metered.engine ops).engine.drains = 1 := by
    unfold m ops
    decide +kernel
  exact ⟨ops, ops', ops'', m, m', hfresh, hfresh', hwriting, hreading, hfirst, hoffers.trans hfirst, hlater,
    hdeliveries.trans hlater, hwritten.trans hall, hnothing, hdrains.trans honce⟩

end Monitor

end BlockingStream

import BlockingStream.Proofs.Bridge

/-!
This module contains the proof that a bridge carries the streams of both ends as they are. What an end was ever to be
told is a list that only grows, of which the carrier has reported the front part: the bytes in it are those that the
other end has handed over, and no bytes come after the end of the stream.
-/

namespace BlockingStream

namespace Bridge

variable {b b' : Bridge} {move : Move} {side : Side} {events : List Log.Event} {trace : List Event}
  {m m' : Side → Monitor Outlet}

/--
What happened at one end.
-/
def account (side : Side) (trace : List Event) : List (Moment Outlet) := trace.filterMap (·.moment? side)

/--
The bytes that one end has read.
-/
def delivered (side : Side) (trace : List Event) : Bytes := Monitor.delivered (account side trace)

/--
The bytes that the writes of one end have handed over.
-/
def handed (side : Side) (trace : List Event) : Bytes := (account side trace).flatMap Moment.handed

/--
What the carrier has told one end.
-/
def told (side : Side) (trace : List Event) : List Upcall := (account side trace).filterMap Moment.upcall?

def toward (side : Side) (reports : List (Side × Upcall)) : List Upcall :=
  reports.filterMap fun r => if r.1 = side then some r.2 else none

theorem account_snoc (side : Side) (trace : List Event) (x : Event)
    : account side (trace ++ [x]) = account side trace ++ (x.moment? side).toList := by
  cases h : x.moment? side <;> simp [account, h]

@[simp]
theorem toward_nil (side : Side) : toward side [] = [] := rfl

@[simp]
theorem toward_cons (T side : Side) (u : Upcall) (reports : List (Side × Upcall))
    : toward side ((T, u) :: reports) = if T = side then u :: toward side reports else toward side reports := by
  by_cases h : T = side <;> simp [toward, h]

theorem toward_append (side : Side) (reports more : List (Side × Upcall))
    : toward side (reports ++ more) = toward side reports ++ toward side more :=
  List.filterMap_append

def sent (side : Side) (trace : List Event) (b : Bridge) : List Upcall := told side trace ++ toward side b.due

theorem Quiet.account {x : Event} (quiet : Quiet m x m') (side : Side) (trace : List Event)
    : account side (trace ++ [x]) = account side trace := by
  rw [account_snoc, quiet.moment, Option.toList_none, List.append_nil]

theorem Moves.account {x : Event} {y : Moment Outlet} (moves : Moves side m x y m') (trace : List Event)
    : account side (trace ++ [x]) = account side trace ++ [y] ∧
      account side.other (trace ++ [x]) = account side.other trace := by
  rw [account_snoc, account_snoc, moves.moment, moment?_eq_none moves.silent]
  exact ⟨rfl, List.append_nil _⟩

theorem Moves.sent {x : Event} {y : Moment Outlet} (moves : Moves side m x y m') (T : Side) (trace : List Event)
    : sent T (trace ++ [x]) x.after =
        sent T trace x.before ++ toward T (y.after.engine.outgoing.flatMap Packet.reports) := by
  -- what an end puts into its outlet is added at the end, and what the carrier takes and reports is only moved
  obtain ⟨hown, hother⟩ := moves.account trace
  obtain ⟨rest, hbefore, hafter⟩ := moves.due
  unfold Bridge.sent told
  rw [hbefore, hafter, toward_append, toward_append]
  by_cases hT : T = side
  . subst hT
    rw [hown]
    cases h : y.upcall? <;> simp [toward, h]
  . obtain rfl : T = side.other := (T.eq_or_eq_other side).resolve_left hT
    rw [hother]
    cases y.upcall? <;> simp [toward, Ne.symm hT]

def Ends (upcalls : List Upcall) : Prop :=
  ∀ before after, upcalls = before ++ .eof :: after → after.flatMap Upcall.payload = []

theorem Ends.of_not_mem {upcalls : List Upcall} (h : .eof ∉ upcalls) : Ends upcalls := by
  rintro before after rfl
  simp at h

theorem Ends.append {upcalls more : List Upcall} (ends : Ends upcalls) (heof : .eof ∉ more)
    (hmore : more.flatMap Upcall.payload = [])
    : Ends (upcalls ++ more) := by
  intro before after h
  rcases List.append_eq_append_iff.1 h with ⟨rest, _, hrest⟩ | ⟨rest, rfl, hrest⟩
  . rw [hrest] at heof
    simp at heof
  . cases rest with
    | nil =>
      rw [List.nil_append] at hrest
      rw [← hrest] at heof
      simp at heof
    | cons u rest =>
      rw [List.cons_append] at hrest
      obtain ⟨rfl, rfl⟩ := List.cons.inj hrest
      rw [List.flatMap_append, ends before rest rfl, hmore, List.append_nil]

theorem Ends.snoc_eof {upcalls : List Upcall} (h : .eof ∉ upcalls) : Ends (upcalls ++ [.eof]) := by
  intro before after heq
  rcases List.eq_nil_or_concat after with rfl | ⟨rest, u, rfl⟩
  . rfl
  . -- the end of the stream would have been sent before
    rw [List.concat_eq_append, ← List.cons_append, ← List.append_assoc] at heq
    obtain ⟨rfl, _⟩ := List.append_inj' heq rfl
    simp at h

/--
What one end has read, and can still read, is what it was told.
-/
structure Received (side : Side) (trace : List Event) (m : Side → Monitor Outlet) : Prop where
  counted : (m side).conn.bytesRead ≤ maxCount
  input : delivered side trace ++ (m side).conn.inbound = (told side trace).flatMap Upcall.payload
  eof : (m side).conn.eof = true → .eof ∈ told side trace

theorem Received.congr {trace' : List Event} (received : Received side trace m)
    (haccount : account side trace' = account side trace) (hconn : (m' side).conn = (m side).conn)
    : Received side trace' m' := by
  refine ⟨?_, ?_, ?_⟩
  . rw [hconn]
    exact received.counted
  . rw [delivered, told, haccount, hconn]
    exact received.input
  . rw [told, haccount, hconn]
    exact received.eof

theorem Received.moves {x : Event} {y : Moment Outlet} (received : Received side trace m)
    (moves : Moves side m x y m')
    : Received side (trace ++ [x]) m' := by
  obtain ⟨n, now, a, s⟩ := y
  obtain ⟨haccount, _⟩ := moves.account trace
  have hs := moves.step
  obtain rfl : n = m side := moves.before
  obtain ⟨hbytes, hcount⟩ := Monitor.step_conserves received.counted hs
  have hfollows := Monitor.follows_of_step hs
  have hpayload : (Moment.mk (m side) now a s).payload =
      (Moment.mk (m side) now a s).upcall?.toList.flatMap Upcall.payload := by
    cases a <;> simp [Moment.payload, Moment.upcall?]
  have htold : told side (trace ++ [x]) = told side trace ++ (Moment.mk (m side) now a s).upcall?.toList := by
    rw [told, haccount, List.filterMap_append]
    cases h : (Moment.mk (m side) now a s).upcall? <;> simp [told, h]
  refine ⟨?_, ?_, ?_⟩
  . rw [moves.conn]
    dsimp only [Moment.after]
    rw [hcount]
    apply countUp_le_maxCount
  . rw [delivered, haccount, Monitor.delivered_snoc, moves.conn, htold, List.flatMap_append, List.append_assoc]
    dsimp only [Moment.after]
    rw [hbytes, hpayload, ← List.append_assoc, ← received.input]
    rfl
  . rw [moves.conn, htold]
    intro heof
    rcases hfollows.eof.1 heof with heof | rfl
    . exact List.mem_append_left _ (received.eof heof)
    . exact List.mem_append_right _ (List.mem_singleton_self _)

/--
What one end hands over is sent to the other, and no more of it once the stream has ended.
-/
structure Carried (side : Side) (trace : List Event) (b : Bridge) (m : Side → Monitor Outlet) : Prop where
  payload : (sent side.other trace b).flatMap Upcall.payload = handed side trace
  ends : Ends (sent side.other trace b)
  closed : .eof ∈ sent side.other trace b → (m side).conn.closed = true
  closes : (m side).conn.closed = true → ∃ x ∈ trace, x.action? side = some (.request .close)

theorem Carried.closes_snoc {x : Event} (carried : Carried side trace b m)
    (hcloses : (m' side).conn.closed = true →
      (m side).conn.closed = true ∨ x.action? side = some (.request .close))
    (h : (m' side).conn.closed = true)
    : ∃ z ∈ trace ++ [x], z.action? side = some (.request .close) := by
  rcases hcloses h with h | h
  . obtain ⟨z, hz, hclose⟩ := carried.closes h
    exact ⟨z, List.mem_append_left _ hz, hclose⟩
  . exact ⟨x, List.mem_append_right _ (List.mem_singleton_self x), h⟩

theorem Carried.grow {x : Event} (carried : Carried side trace b m) (more : List Upcall)
    (hsent : sent side.other (trace ++ [x]) b' = sent side.other trace b ++ more)
    (heof : .eof ∉ more) (hmore : more.flatMap Upcall.payload = [])
    (hhanded : handed side (trace ++ [x]) = handed side trace)
    (hclosed : (m side).conn.closed = true → (m' side).conn.closed = true)
    (hcloses : (m' side).conn.closed = true →
      (m side).conn.closed = true ∨ x.action? side = some (.request .close))
    : Carried side (trace ++ [x]) b' m' := by
  refine ⟨?_, ?_, ?_, ?_⟩
  . rw [hsent, hhanded, List.flatMap_append, hmore, List.append_nil, carried.payload]
  . rw [hsent]
    exact carried.ends.append heof hmore
  . rw [hsent]
    intro hmem
    exact hclosed (carried.closed ((List.mem_append.1 hmem).resolve_right heof))
  . exact carried.closes_snoc hcloses

theorem handed_congr {trace' : List Event} (haccount : account side trace' = account side trace)
    : handed side trace' = handed side trace := by
  rw [handed, haccount]
  rfl

theorem Carried.quiet {x : Event} (carried : Carried side trace x.before m) (quiet : Quiet m x m')
    : Carried side (trace ++ [x]) x.after m' := by
  apply carried.grow [] _ List.not_mem_nil rfl (handed_congr (quiet.account side trace))
  . rw [quiet.conn]
    exact id
  . rw [quiet.conn]
    exact Or.inl
  . rw [sent, told, quiet.account, quiet.due, List.append_nil]
    rfl

theorem toward_self_of_sends {y : Moment Outlet} {packets : List Packet} (sends : Monitor.Sends side y packets)
    : toward side (packets.flatMap Packet.reports) = [] ∨
      toward side (packets.flatMap Packet.reports) = [.destroyed] := by
  cases sends with
  | nothing _ => exact Or.inl rfl
  | data _ _ => exact Or.inl (by simp [Packet.reports])
  | close _ _ _ _ => exact Or.inr (by simp [Packet.reports])

theorem Carried.other {x : Event} {y : Moment Outlet} (carried : Carried side trace x.before m)
    (stands : x.before.Stands m) (moves : Moves side.other m x y m')
    : Carried side (trace ++ [x]) x.after m' := by
  have haccount := (moves.account trace).2
  have hconn := moves.other
  rw [Side.other_other] at haccount hconn
  have hmore := toward_self_of_sends (moves.sends stands)
  apply carried.grow _ (moves.sent side.other trace) _ _ (handed_congr haccount)
  . rw [hconn]
    exact id
  . rw [hconn]
    exact Or.inl
  . rcases hmore with hmore | hmore <;> simp [hmore]
  . rcases hmore with hmore | hmore <;> simp [hmore, Upcall.payload]

theorem Carried.own {x : Event} {y : Moment Outlet} (carried : Carried side trace x.before m)
    (stands : x.before.Stands m) (moves : Moves side m x y m')
    : Carried side (trace ++ [x]) x.after m' := by
  have hfollows := moves.follows
  have hhanded : handed side (trace ++ [x]) = handed side trace ++ y.handed := by
    rw [handed, (moves.account trace).1, List.flatMap_append]
    simp [handed]
  have hopen : y.before.conn.closed = false → .eof ∉ sent side.other trace x.before := by
    intro hopen hmem
    rw [moves.before, carried.closed hmem] at hopen
    contradiction
  have hcloses : (m' side).conn.closed = true →
      (m side).conn.closed = true ∨ x.action? side = some (.request .close) := by
    intro h
    rw [moves.action]
    exact (hfollows.closed.1 h).imp_right (congrArg some)
  have hsent := moves.sent side.other trace
  have hsends := moves.sends stands
  generalize y.after.engine.outgoing = packets at hsends hsent
  cases hsends with
  | nothing hnothing =>
    rw [hnothing, List.append_nil] at hhanded
    exact carried.grow _ hsent (by simp) rfl hhanded (fun h => hfollows.closed.2 (Or.inl h)) hcloses
  | data _ hunclosed =>
    have hmore : toward side.other ([Packet.data side y.handed].flatMap Packet.reports) = [.data y.handed] := by
      simp [Packet.reports]
    rw [hmore] at hsent
    have hnever : .eof ∉ sent side.other (trace ++ [x]) x.after := by
      rw [hsent]
      simpa using hopen hunclosed
    refine ⟨?_, .of_not_mem hnever, fun hmem => absurd hmem hnever, carried.closes_snoc hcloses⟩
    rw [hsent, hhanded, List.flatMap_append, carried.payload]
    simp [Upcall.payload]
  | close haction hunclosed hclosed hnothing =>
    have hmore : toward side.other ([Packet.close side].flatMap Packet.reports) = [.eof] := by
      simp [Packet.reports]
    rw [hmore] at hsent
    rw [hnothing, List.append_nil] at hhanded
    refine ⟨?_, ?_, ?_, carried.closes_snoc hcloses⟩
    . rw [hsent, hhanded, List.flatMap_append, carried.payload]
      simp [Upcall.payload]
    . rw [hsent]
      exact .snoc_eof (hopen hunclosed)
    . intro _
      rw [moves.conn]
      exact hclosed

theorem stands_init (label : Side → String)
    : Stands (init label).1 fun side => Monitor.init Outlet.engine (label side) { side } where
  monitors := rfl
  engine _ := rfl

theorem received_init (label : Side → String) (side : Side)
    : Received side [] fun side => Monitor.init Outlet.engine (label side) { side } where
  counted := Nat.zero_le _
  input := rfl
  eof h := by contradiction

theorem carried_init (label : Side → String) (side : Side)
    : Carried side [] (init label).1 fun side => Monitor.init Outlet.engine (label side) { side } := by
  have hsent : sent side.other [] (init label).1 = [.connected] := by cases side <;> rfl
  refine ⟨?_, ?_, ?_, ?_⟩
  . rw [hsent]
    rfl
  . rw [hsent]
    exact .of_not_mem (by simp)
  . rw [hsent]
    simp
  . intro h
    contradiction

/--
What holds at the ends and between them at any time.
-/
structure Sound (trace : List Event) (b : Bridge) (m : Side → Monitor Outlet) : Prop where
  stands : b.Stands m
  received (side : Side) : Received side trace m
  carried (side : Side) : Carried side trace b m

theorem Sound.quiet {x : Event} (sound : Sound trace x.before m) (stands : x.after.Stands m') (quiet : Quiet m x m')
    : Sound (trace ++ [x]) x.after m' where
  stands := stands
  received side := (sound.received side).congr (quiet.account side trace) (quiet.conn side)
  carried side := (sound.carried side).quiet quiet

theorem Sound.moves {x : Event} {y : Moment Outlet} (sound : Sound trace x.before m) (stands : x.after.Stands m')
    (moves : Moves side m x y m')
    : Sound (trace ++ [x]) x.after m' := by
  obtain ⟨_, haccount⟩ := moves.account trace
  refine ⟨stands, ?_, ?_⟩
  . intro T
    rcases T.eq_or_eq_other side with rfl | rfl
    . exact (sound.received T).moves moves
    . exact (sound.received side.other).congr haccount moves.other
  . intro T
    rcases T.eq_or_eq_other side with rfl | rfl
    . exact (sound.carried T).own sound.stands moves
    . -- the step is that of the end which is sent to
      apply (sound.carried side.other).other (y := y) sound.stands
      rw [Side.other_other]
      exact moves

theorem Run.sound {label : Side → String} (run : Run label trace b) : ∃ m, Sound trace b m := by
  induction run with
  | start => exact ⟨_, stands_init label, received_init label, carried_init label⟩
  | step _ h ih =>
    obtain ⟨m, sound⟩ := ih
    obtain ⟨m', stands, quiet | ⟨_, _, moves⟩⟩ := sound.stands.step h
    . exact ⟨m', sound.quiet stands quiet⟩
    . exact ⟨m', sound.moves stands moves⟩

theorem Run.of_split {label : Side → String} {before after : List Event} {x : Event}
    (run : Run label (before ++ x :: after) b)
    : Run label before x.before ∧ ∃ events, x.before.step x.move = some (x.after, events) := by
  generalize htrace : before ++ x :: after = full at run
  induction run generalizing after with
  | start => simp at htrace
  | @step trace b b' move events run h ih =>
    rcases List.eq_nil_or_concat after with rfl | ⟨rest, z, rfl⟩
    . obtain ⟨rfl, heq⟩ := List.append_inj' htrace rfl
      cases heq
      exact ⟨run, events, h⟩
    . rw [List.concat_eq_append, ← List.cons_append, ← List.append_assoc] at htrace
      exact ih (List.append_inj' htrace rfl).1

def bytesFrom (sender : Side) : Packet → Bytes
  | .data side bytes => if side = sender then bytes else []
  | .close _ => []

/--
The bytes that one end has handed over and that did not arrive yet: those that the carrier has taken off the queue but
not reported, and those in the queue.
-/
def inFlight (sender : Side) (b : Bridge) : Bytes :=
  (toward sender.other b.reports).flatMap Upcall.payload ++ b.queue.flatMap (bytesFrom sender)

theorem payload_reports (sender : Side) (packet : Packet)
    : (toward sender.other packet.reports).flatMap Upcall.payload = bytesFrom sender packet := by
  cases packet with
  | data side bytes => cases side <;> cases sender <;> simp [Packet.reports, bytesFrom, Side.other, Upcall.payload]
  | close side => cases side <;> cases sender <;> simp [Packet.reports, bytesFrom, Side.other, Upcall.payload]

theorem inFlight_eq (sender : Side) (b : Bridge)
    : b.inFlight sender = (toward sender.other b.due).flatMap Upcall.payload := by
  have hqueue : (toward sender.other (b.queue.flatMap Packet.reports)).flatMap Upcall.payload =
      b.queue.flatMap (bytesFrom sender) := by
    induction b.queue with
    | nil => rfl
    | cons packet queue ih =>
      rw [List.flatMap_cons, List.flatMap_cons, toward_append, List.flatMap_append, ih, payload_reports]
  rw [inFlight, due, toward_append, List.flatMap_append, hqueue]

theorem Sound.conserves (sound : Sound trace b m) (sender : Side)
    : delivered sender.other trace ++ (m sender.other).conn.inbound ++ b.inFlight sender = handed sender trace := by
  rw [(sound.received sender.other).input, inFlight_eq, ← List.flatMap_append]
  exact (sound.carried sender).payload

/--
What one end's read delivers in this event.
-/
def Event.delivery? (side : Side) (x : Event) : Option Conn.Delivery := (x.moment? side).bind Moment.delivery?

theorem told_append (side : Side) (trace more : List Event)
    : told side (trace ++ more) = told side trace ++ told side more := by
  simp [told, account]

theorem Sound.ended {x : Event} {d : Conn.Delivery} (sound : Sound trace x.before m)
    (h : x.before.step x.move = some (x.after, events)) (hd : x.delivery? side = some d)
    (herror : d.error = some .endOfStream)
    : ∃ m', Sound (trace ++ [x]) x.after m' ∧ x.action? side.other = none ∧ (m' side).conn.eof = true ∧
        (m' side).conn.inbound = [] := by
  obtain ⟨y, hy, hd⟩ := Option.bind_eq_some_iff.1 hd
  obtain ⟨m', stands, quiet | ⟨T, z, moves⟩⟩ := sound.stands.step h
  . have hnone : x.moment? side = none := quiet.moment side
    rw [hnone] at hy
    contradiction
  . rcases side.eq_or_eq_other T with rfl | rfl
    . obtain rfl : z = y := Option.some.inj (moves.moment.symm.trans hy)
      obtain ⟨heof, hinbound⟩ := Monitor.ended_of_delivery moves.step hd herror
      rw [← moves.conn] at heof hinbound
      exact ⟨m', sound.moves stands moves, moves.silent, heof, hinbound⟩
    . have hnone : x.moment? T.other = none := moment?_eq_none moves.silent
      rw [hnone] at hy
      contradiction

theorem Sound.payload_told {more : List Event} (sound : Sound (trace ++ more) b m)
    (heof : .eof ∈ told side.other trace)
    : (told side.other trace).flatMap Upcall.payload = handed side (trace ++ more) := by
  have carried := sound.carried side
  have hends := carried.ends
  have hpayload := carried.payload
  rw [sent, told_append, List.append_assoc] at hends hpayload
  obtain ⟨before, after, htold⟩ := List.append_of_mem heof
  rw [htold] at hends hpayload ⊢
  have hnothing := hends before (after ++ (told side.other more ++ toward side.other b.due)) (by simp)
  rw [List.flatMap_append, List.append_eq_nil_iff] at hnothing
  rw [← hpayload]
  symm
  rw [List.flatMap_append, hnothing.2, List.append_nil]

/--
Bytes are carried from each end to the other without loss, repetition or change of order: what the receiver has read,
what is there for it to read, and what is still in flight is what the writes of the sender have handed over. The
receiver is told of the end of the stream only after the sender has closed, and when it has read all that the sender
hands over in the whole run.
-/
theorem Run.streams_carried {label : Side → String} (run : Run label trace b) (sender : Side)
    : (∃ c, b.host.connections[sender.other.index]? = some c ∧
        delivered sender.other trace ++ c.monitor.conn.inbound ++ b.inFlight sender = handed sender trace) ∧
      ∀ before x after d, trace = before ++ x :: after → x.delivery? sender.other = some d →
        d.error = some .endOfStream →
        (∃ y ∈ before, y.action? sender = some (.request .close)) ∧
          delivered sender.other (before ++ [x]) = handed sender trace := by
  obtain ⟨m, sound⟩ := run.sound
  constructor
  . have hm := sound.stands.getElem? sender.other
    rw [Host.monitors, List.getElem?_map] at hm
    obtain ⟨c, hc, hmonitor⟩ := Option.map_eq_some_iff.1 hm
    refine ⟨c, hc, ?_⟩
    rw [hmonitor]
    exact sound.conserves sender
  . rintro before x after d rfl hd herror
    obtain ⟨hbefore, events, hstep⟩ := run.of_split
    obtain ⟨m₀, sound₀⟩ := hbefore.sound
    obtain ⟨m', sound', hsilent, heof, hinbound⟩ := sound₀.ended hstep hd herror
    rw [Side.other_other] at hsilent
    have received := sound'.received sender.other
    have htold := received.eof heof
    constructor
    . have hclosed := (sound'.carried sender).closed (List.mem_append_left _ htold)
      obtain ⟨y, hy, hclose⟩ := (sound'.carried sender).closes hclosed
      rcases List.mem_append.1 hy with hy | hy
      . exact ⟨y, hy, hclose⟩
      . rw [List.mem_singleton.1 hy, hsilent] at hclose
        contradiction
    . have hinput := received.input
      rw [hinbound, List.append_nil] at hinput
      have htrace : before ++ x :: after = before ++ [x] ++ after := List.append_cons ..
      rw [htrace] at sound ⊢
      rw [hinput]
      exact sound.payload_told htold

def replay (b : Bridge) : List Move → Option (List Event × Bridge)
  | [] => some ([], b)
  | move :: rest =>
    match b.step move with
    | some (after, _) =>
      match after.replay rest with
      | some (trace, last) => some (⟨b, move, after⟩ :: trace, last)
      | none => none
    | none => none

theorem Run.replay {label : Side → String} {more : List Event} (moves : List Move) (run : Run label trace b)
    (h : b.replay moves = some (more, b'))
    : Run label (trace ++ more) b' := by
  induction moves generalizing trace b more with
  | nil =>
    cases h
    rw [List.append_nil]
    exact run
  | cons move rest ih =>
    unfold Bridge.replay at h
    split at h
    . next hmove =>
      split at h
      . next hrest =>
        cases h
        have hrun := ih (run.step hmove) hrest
        rw [List.append_assoc] at hrun
        exact hrun
      . contradiction
    . contradiction

theorem Run.replayed (label : Side → String) (moves : List Move) (h : ((init label).1.replay moves).isSome = true)
    : Run label (((init label).1.replay moves).get h).1 (((init label).1.replay moves).get h).2 :=
  Run.start.replay moves (Option.some_get h).symm

theorem eq_take_append (past : List Event) (i : Nat) (h : i < past.length)
    : past = past.take i ++ past[i] :: past.drop (i + 1) := by
  rw [List.getElem_cons_drop, List.take_append_drop]

/--
Both ends write, and the dialer closes while its bytes are still on their way. The acceptor goes on to write, then
reads the last bytes together with the end of the stream, and what it has written arrives at the closed end.
-/
theorem late_streams_carried
    : ∃ trace b before x after, Run Side.name trace b ∧ trace = before ++ x :: after ∧
        x.delivery? .acceptor = some ⟨[3], some .endOfStream⟩ ∧
        (∃ y ∈ before, y.action? .dialer = some (.request .close)) ∧
        delivered .acceptor (before ++ [x]) = handed .dialer trace ∧ handed .dialer trace = [1, 2, 3] ∧
        b.host.monitors.map (·.conn.inbound) = [[9], []] ∧ b.inFlight .acceptor = [7] ∧
        ∃ c, b.host.connections[Side.dialer.index]? = some c ∧
          delivered .dialer trace ++ c.monitor.conn.inbound ++ b.inFlight .acceptor = handed .acceptor trace := by
  have run := Run.replayed Side.name
    [.host (.act 0 (.enter 0 (.write [1, 2]))), .host (.act 0 (.run 0)), .report,
      .host (.act 1 (.enter 0 (.read 8))), .host (.act 1 (.run 0)), .host (.act 0 (.enter 1 (.write [3]))),
      .host (.act 0 (.run 1)), .report, .take, .report, .host (.act 1 (.run 0)), .take,
      .host (.act 0 (.request .close)), .report, .take, .report, .host (.act 1 (.enter 1 (.write [8, 9]))),
      .host (.act 1 (.run 1)), .host (.act 1 (.enter 2 (.read 8))), .host (.act 1 (.run 2)), .report, .take, .report,
      .host (.act 0 (.enter 2 (.read 1))), .host (.act 0 (.run 2)), .host (.act 1 (.enter 3 (.write [7]))),
      .host (.act 1 (.run 3)), .take] (by decide +kernel)
  obtain ⟨hclosed, hread⟩ := (run.streams_carried .dialer).2 _ _ _ ⟨[3], some .endOfStream⟩
    (eq_take_append _ 19 (by decide +kernel)) (by decide +kernel) rfl
  exact ⟨_, _, _, _, _, run, eq_take_append _ 19 (by decide +kernel), by decide +kernel, hclosed, hread,
    by decide +kernel, by decide +kernel, by decide +kernel, (run.streams_carried .acceptor).1⟩

end Bridge

end BlockingStream

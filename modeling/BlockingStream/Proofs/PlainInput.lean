import BlockingStream.Proofs.ReadOutcome
import BlockingStream.Proofs.Stage
import BlockingStream.Proofs.Terminal

/-!
This module contains the proof that reading through the view as a plain byte stream neither loses input nor ends
early.

The view hides the error that comes with the last bytes. But this error is still there, or a greater one, when the
next read finds nothing to read, so that a loop over such reads ends where it should.
-/

namespace BlockingStream

namespace Conn

theorem Advances.readError_of_nil {c c' : Conn} {now : Instant} {e : StreamError} (h : Advances c c')
    (he : c.readError now = some e) (hterminal : e.isTerminal = true) (hempty : c'.inbound = []) (now' : Instant)
    : ∃ e', c'.readError now' = some e' ∧ e.rank ≤ e'.rank :=
  (h.readError_iff he hterminal).2 fun _ => hempty

end Conn

namespace Conn.Delivery

variable {d : Delivery} {e : StreamError}

theorem toIo_of_data (h : d.data ≠ []) : d.toIo = .ok d.data := by
  simp [toIo, h]

theorem toIo_of_error (hdata : d.data = []) (he : d.error = some e)
    : d.toIo = if e = .endOfStream then .ok [] else .error e.toIoError := by
  cases e <;> simp [toIo, hdata, he]

theorem data_toIo (d : Delivery) : d.toIo.toOption.getD [] = d.data := by
  by_cases hdata : d.data = []
  . rw [hdata]
    cases he : d.error with
    | none => simp [toIo, hdata, he, Except.toOption]
    | some e =>
      rw [toIo_of_error hdata he]
      split <;> rfl
  . rw [toIo_of_data hdata]
    rfl

end Conn.Delivery

namespace Moment

variable {σ : Type}

/--
What a read returned in this step, in the view as a plain byte stream.
-/
def plainRead? (x : Moment σ) : Option (Except IoError Bytes) := x.delivery?.map Conn.Delivery.toIo

theorem delivery?_eq_some_iff {x : Moment σ} {d : Conn.Delivery}
    : x.delivery? = some d ↔ x.outcome? = some (.read d) := by
  unfold delivery?
  split
  . next d' houtcome => simp [houtcome]
  . next hother => exact iff_of_false (by simp) (hother d)

end Moment

/--
A read to the end has collected these bytes so far, or in the end.
-/
def Stage.Collects (data : Bytes) : Stage → Prop
  | .between task | .inside task _ => task = .readToEnd data.reverse
  | .finished result => ∃ error, result = .readToEnd data error

namespace Task

variable {d : Conn.Delivery} {data : Bytes}

theorem follow_readToEnd_of_data (h : d.data ≠ [])
    : follow (.readToEnd data.reverse) (.read d) = .between (.readToEnd (data ++ d.data).reverse) := by
  obtain ⟨b, bs, hdata⟩ := List.exists_cons_of_ne_nil h
  have hplain := Conn.Delivery.toIo_of_data h
  rw [hdata] at hplain
  simp [follow, resume, hplain, hdata, reach, next]

theorem follow_readToEnd_of_error {e : StreamError} (hdata : d.data = []) (he : d.error = some e)
    : follow (.readToEnd data.reverse) (.read d) =
      .finished (.readToEnd data (if e = .endOfStream then none else some e.toIoError)) := by
  have hplain := Conn.Delivery.toIo_of_error hdata he
  by_cases hend : e = .endOfStream
  . rw [if_pos hend] at hplain ⊢
    simp [follow, resume, hplain]
  . rw [if_neg hend] at hplain ⊢
    simp [follow, resume, hplain]

end Task

namespace Monitor

section

variable {σ : Type} {E : Engine σ} {start m : Monitor σ} {before after trace : List (Moment σ)} {x y : Moment σ}
  {d : Conn.Delivery} {e : StreamError} {label : String} {engine : σ} {buffer data : Bytes}

/--
The bytes that the reads of a run have returned, in the view as a plain byte stream.
-/
def received (trace : List (Moment σ)) : Bytes :=
  (trace.filterMap Moment.plainRead?).flatMap fun result => result.toOption.getD []

theorem received_eq_delivered (trace : List (Moment σ)) : received trace = delivered trace := by
  have hplain : trace.filterMap Moment.plainRead? = (trace.filterMap Moment.delivery?).map Conn.Delivery.toIo := by
    rw [List.map_filterMap]
    rfl
  rw [received, delivered, hplain, List.flatMap_map]
  simp only [Conn.Delivery.data_toIo]

theorem delivery?_of_call? (h : x.before.step E x.now x.action = some x.step)
    (hcall : x.call? = some (.readInto buffer))
    : let r := x.before.conn.read E buffer.length x.now x.before.engine
      x.after.conn = r.2.1 ∧
        x.delivery? = if r.1.data = [] ∧ buffer.length ≠ 0 ∧ r.1.error = none then none else some r.1 := by
  obtain ⟨id, t, hran, ht, hread⟩ := Moment.of_call?_eq_some hcall
  obtain ⟨m, now, a, s⟩ := x
  dsimp only at hran h ht ⊢
  subst hran
  refine ⟨(read_run ht hread h).1, ?_⟩
  rw [delivery?_run ht h, round_of_read hread, (readRound_cases E now m t buffer.length).2.2]
  dsimp only
  by_cases hidle :
      (m.conn.read E buffer.length now m.engine).1.data = [] ∧ buffer.length ≠ 0 ∧
        (m.conn.read E buffer.length now m.engine).1.error = none
  . rw [if_pos hidle, if_pos hidle]
    rfl
  . rw [if_neg hidle, if_neg hidle]
    rfl

theorem of_delivery?_eq_some (h : x.before.step E x.now x.action = some x.step) (hx : x.delivery? = some d)
    : ∃ buffer, x.call? = some (.readInto buffer) ∧
        d = (x.before.conn.read E buffer.length x.now x.before.engine).1 := by
  obtain ⟨m, now, a, s⟩ := x
  cases a with
  | run id =>
    obtain ⟨t, ht, _, _⟩ := of_run_eq_some h
    by_cases hread : ∃ buffer, t.call = .readInto buffer
    . obtain ⟨buffer, hcall⟩ := hread
      have hcall? : (Moment.mk m now (.run id) s).call? = some (.readInto buffer) := by
        simp [Moment.call?, ht, hcall]
      refine ⟨buffer, hcall?, ?_⟩
      rw [(delivery?_of_call? h hcall?).2] at hx
      split at hx
      . contradiction
      . exact (Option.some.inj hx).symm
    . have hnone := (delivery?_run_of_ne ht (fun buffer hcall => hread ⟨buffer, hcall⟩) h).1
      rw [hnone] at hx
      contradiction
  | _ => contradiction

theorem inbound_of_plainRead? (h : x.before.step E x.now x.action = some x.step)
    (hx : x.plainRead? = some (.ok []) ∨ ∃ error, x.plainRead? = some (.error error))
    : x.after.conn.inbound = x.before.conn.inbound := by
  have hnothing : ∃ result, x.plainRead? = some result ∧ result.toOption.getD [] = [] := by
    rcases hx with hx | ⟨error, hx⟩ <;> exact ⟨_, hx, rfl⟩
  obtain ⟨result, hresult, hdata⟩ := hnothing
  obtain ⟨d, hd, rfl⟩ := Option.map_eq_some_iff.1 hresult
  obtain ⟨buffer, hcall, rfl⟩ := of_delivery?_eq_some h hd
  have happend := Conn.read_append E buffer.length x.now x.before.conn x.before.engine
  rw [Conn.Delivery.data_toIo] at hdata
  rw [hdata, List.nil_append] at happend
  rw [(delivery?_of_call? h hcall).1, happend]

theorem plainRead?_of_empty (h : x.before.step E x.now x.action = some x.step)
    (hcall : x.call? = some (.readInto buffer)) (hlen : buffer.length ≠ 0) (hempty : x.before.conn.inbound = [])
    : x.after.conn.inbound = [] ∧
      x.plainRead? =
        (x.after.conn.readError x.now).map fun e => if e = .endOfStream then .ok [] else .error e.toIoError := by
  obtain ⟨hconn, hdelivery⟩ := delivery?_of_call? h hcall
  have hdata : (x.before.conn.read E buffer.length x.now x.before.engine).1.data = [] := by
    simp [Conn.read, hempty]
  have herror : (x.before.conn.read E buffer.length x.now x.before.engine).1.error = x.after.conn.readError x.now := by
    rw [hconn]
    rfl
  constructor
  . rw [hconn]
    simp [Conn.read, hempty]
  . rw [Moment.plainRead?, hdelivery]
    cases he : x.after.conn.readError x.now with
    | none =>
      rw [if_pos ⟨hdata, hlen, herror.trans he⟩]
      rfl
    | some e =>
      rw [if_neg fun hidle => Option.some_ne_none e (he.symm.trans (herror.symm.trans hidle.2.2))]
      rw [Option.map_some, Option.map_some, Conn.Delivery.toIo_of_error hdata (herror.trans he)]

theorem plainRead?_of_input (h : x.before.step E x.now x.action = some x.step)
    (hcall : x.call? = some (.readInto buffer)) (hlen : buffer.length ≠ 0) (hinput : x.before.conn.inbound ≠ [])
    : ∃ data, data ≠ [] ∧ x.plainRead? = some (.ok data) := by
  obtain ⟨_, hdelivery⟩ := delivery?_of_call? h hcall
  have hdata : (x.before.conn.read E buffer.length x.now x.before.engine).1.data ≠ [] := by
    simp [Conn.read, hlen, hinput]
  refine ⟨_, hdata, ?_⟩
  rw [Moment.plainRead?, hdelivery, if_neg fun hidle => hdata hidle.1, Option.map_some,
    Conn.Delivery.toIo_of_data hdata]

theorem Run.plainRead?_eq_end_iff (run : Run E (init E label engine) (before ++ x :: after) m)
    (hcall : x.call? = some (.readInto buffer)) (hlen : buffer.length ≠ 0)
    : x.plainRead? = some (.ok []) ↔ .upcall .eof ∈ history before ∧ x.before.conn.inbound = [] := by
  obtain ⟨run, h, _⟩ := run.of_split
  by_cases hempty : x.before.conn.inbound = []
  . obtain ⟨hafter, hplain⟩ := plainRead?_of_empty h hcall hlen hempty
    have heof : x.after.conn.eof = x.before.conn.eof := by
      rw [(delivery?_of_call? h hcall).1]
      rfl
    rw [hplain, ← run.reflects.eof, ← heof, and_iff_left hempty]
    rcases x.after.conn.readError_cases x.now with ⟨hend, _, herror⟩ | ⟨hmore, hcommon⟩
    . rw [herror]
      exact iff_of_true rfl hend
    . refine iff_of_false ?_ fun hend => hmore ⟨hend, hafter⟩
      rw [hcommon]
      intro hok
      obtain ⟨e, he, hok⟩ := Option.map_eq_some_iff.1 hok
      split at hok
      . next heq =>
        rw [heq] at he
        exact absurd (Conn.rank_lt_of_commonError he) (Nat.lt_irrefl _)
      . contradiction
  . refine iff_of_false ?_ fun hend => hempty hend.2
    obtain ⟨data, hdata, hplain⟩ := plainRead?_of_input h hcall hlen hempty
    rw [hplain]
    intro hok
    cases hok
    contradiction

theorem Run.hidden_error_shows (run : Run E (init E label engine) (before ++ x :: after) m)
    (hx : x.outcome? = some (.read ⟨data, some e⟩)) (hterminal : e.isTerminal = true)
    : (∀ t ∈ m.threads, ∀ buffer, t.call = .readInto buffer → t.isAsleep = false) ∧
      ∀ y ∈ after, ∀ buffer, y.call? = some (.readInto buffer) → buffer.length ≠ 0 →
        (∃ more, more ≠ [] ∧ y.plainRead? = some (.ok more)) ∨
        ∃ e' : StreamError, e.rank ≤ e'.rank ∧
          y.plainRead? = some (if e' = .endOfStream then .ok [] else .error e'.toIoError) := by
  obtain ⟨hbefore, h, hafter⟩ := run.of_split
  obtain ⟨buffer, hcall, hread⟩ := of_delivery?_eq_some h (Moment.delivery?_eq_some_iff.2 hx)
  have he : x.after.conn.readError x.now = some e := by
    rw [(delivery?_of_call? h hcall).1]
    exact (congrArg Conn.Delivery.error hread).symm
  constructor
  . intro t ht buffer hcall
    rw [← Bool.not_eq_true]
    intro hasleep
    obtain ⟨hfailure, hdestroyed, hclosed, hblocks⟩ := run.blocks (by simp [init]) t ht hasleep
    rw [hcall] at hblocks
    obtain ⟨hempty, heof⟩ := hblocks
    obtain ⟨e', he', hrank⟩ := hafter.advances.readError_of_nil he hterminal hempty 0
    rcases m.conn.readError_cases 0 with ⟨hend, _⟩ | ⟨_, hcommon⟩
    . rw [hend] at heof
      contradiction
    . -- what a deadline brings about does not weigh as much
      have hterminal' : e'.isTerminal = true := by
        rw [StreamError.isTerminal_iff_rank_pos] at hterminal ⊢
        omega
      have hlasting := Conn.lastingError_of_commonError (hcommon.symm.trans he') hterminal'
      rw [Conn.lastingError_eq_none_iff.2 ⟨hfailure, hdestroyed, hclosed⟩] at hlasting
      contradiction
  . intro y hy buffer hcall hlen
    obtain ⟨mid, rest, rfl⟩ := List.append_of_mem hy
    obtain ⟨hmid, h', _⟩ := hafter.of_split
    by_cases hempty : y.before.conn.inbound = []
    . right
      obtain ⟨hnothing, hplain⟩ := plainRead?_of_empty h' hcall hlen hempty
      have hsince : Run E x.after (mid ++ [y]) y.after := hmid.snoc h'
      obtain ⟨e', he', hrank⟩ := hsince.advances.readError_of_nil he hterminal hnothing y.now
      refine ⟨e', hrank, ?_⟩
      rw [hplain, he', Option.map_some]
    . left
      exact plainRead?_of_input h' hcall hlen hempty

end

section

variable {σ : Type} {E : Engine σ} {start m : Monitor σ} {before trace : List (Moment σ)} {x : Moment σ}
  {stage : Stage} {id : Nat} {outcome : Outcome} {data : Bytes} {label : String} {engine : σ}

theorem Serves.readToEnd_cases (hserves : x.before.Serves .reading (.inside (.readToEnd data.reverse) id))
    (h : x.before.step E x.now x.action = some x.step) (hran : x.action = .run id)
    (houtcome : x.outcome? = some outcome)
    : ∃ d, x.delivery? = some d ∧
        (Task.follow (.readToEnd data.reverse) outcome = .between (.readToEnd (data ++ d.data).reverse) ∨
          d.data = [] ∧ x.before.conn.inbound = [] ∧ ∃ e, x.after.conn.readError x.now = some e ∧
            Task.follow (.readToEnd data.reverse) outcome =
              .finished (.readToEnd data (if e = .endOfStream then none else some e.toIoError))) := by
  obtain ⟨call, hcall, hasks⟩ := hserves.call? hran
  obtain ⟨buffer, rfl, hlen⟩ := Task.asks_readToEnd hasks
  obtain ⟨hconn, hdelivery⟩ := delivery?_of_call? h hcall
  obtain ⟨id', t, hran', ht, hread⟩ := Moment.of_call?_eq_some hcall
  -- a read returns what its last attempt yields
  have hd : ∃ d, outcome = .read d := by
    obtain ⟨m, now, a, s⟩ := x
    dsimp only at hran' h ht
    subst hran'
    rcases (read_run ht hread h).2 with hreturned | ⟨hnone, _⟩
    . exact ⟨_, Option.some.inj (houtcome.symm.trans hreturned)⟩
    . rw [houtcome] at hnone
      contradiction
  obtain ⟨d, rfl⟩ := hd
  have hreturned := Moment.delivery?_eq_some_iff.2 houtcome
  refine ⟨d, hreturned, ?_⟩
  rw [hdelivery] at hreturned
  split at hreturned
  . contradiction
  . next hidle =>
    cases hreturned
    by_cases hdata : (x.before.conn.read E buffer.length x.now x.before.engine).1.data = []
    . right
      obtain ⟨e, he⟩ := Option.ne_none_iff_exists'.1 fun hnone => hidle ⟨hdata, hlen, hnone⟩
      refine ⟨hdata, ?_, e, ?_, Task.follow_readToEnd_of_error hdata he⟩
      . simpa [Conn.read, hlen] using hdata
      . rw [hconn]
        exact he
    . exact Or.inl (Task.follow_readToEnd_of_data hdata)

theorem Serves.collects (hserves : x.before.Serves .reading stage) (h : x.before.step E x.now x.action = some x.step)
    (hcollects : stage.Collects data)
    : (stage.advance x).Collects (data ++ (x.delivery?.map (·.data)).getD []) := by
  rcases stage.advance_cases x with ⟨task, id, call, rfl, hx, _, hadvance⟩ |
    ⟨task, id, outcome, rfl, hran, houtcome, hadvance⟩ | hadvance
  . have hnone : x.delivery? = none := by simp [Moment.delivery?, Moment.outcome?, hx]
    rw [hadvance, hnone, Option.map_none, Option.getD_none, List.append_nil]
    exact hcollects
  . obtain rfl : task = .readToEnd data.reverse := hcollects
    obtain ⟨d, hd, hfollow | ⟨hdata, _, _, _, hfollow⟩⟩ := hserves.readToEnd_cases h hran houtcome
    . rw [hadvance, hfollow, hd]
      rfl
    . rw [hadvance, hfollow, hd, Option.map_some, hdata, Option.getD_some, List.append_nil]
      exact ⟨_, rfl⟩
  . cases hd : x.delivery? with
    | none =>
      rw [hadvance, Option.map_none, Option.getD_none, List.append_nil]
      exact hcollects
    | some d =>
      -- a read that returns takes the task further
      obtain ⟨buffer, hcall, _⟩ := of_delivery?_eq_some h hd
      obtain ⟨task, id, rfl, _, hfollow⟩ :=
        hserves.of_outcome? h hcall rfl (Moment.delivery?_eq_some_iff.1 hd)
      exact absurd (hfollow.symm.trans hadvance) (task.follow_ne_inside _ _ _)

theorem Run.collects (run : Run E start trace m) (hidle : start.IdleIn .reading)
    (halone : (Task.readToEnd []).AloneIn .reading trace)
    : ((Task.readToEnd []).stage trace).Collects (delivered trace) := by
  induction run with
  | nil => rfl
  | snoc run h ih =>
    rw [Task.stage_snoc, delivered_snoc]
    exact (run.serves hidle halone.of_append).collects h (ih halone.of_append)

theorem Run.read_to_end (run : Run E (init E label engine) before start) (since : Run E start trace m)
    (hidle : start.IdleIn .reading) (halone : (Task.readToEnd []).AloneIn .reading trace)
    : (∃ data, ((Task.readToEnd []).stage trace).Collects data ∧
        data ++ m.conn.inbound = start.conn.inbound ++ arrived trace) ∧
      ∀ result, (Task.readToEnd []).stage trace = .finished result →
        ∃ pre x post e, trace = pre ++ x :: post ∧ x.before.conn.inbound = [] ∧
          (history (before ++ pre)).readError 0 x.now = some e ∧
          result = .readToEnd (start.conn.inbound ++ arrived pre)
            (if e = .endOfStream then none else some e.toIoError) := by
  have hmax := run.counted.1
  refine ⟨⟨delivered trace, since.collects hidle halone, (since.conserves_since hmax).1⟩, ?_⟩
  intro result hfinished
  obtain ⟨pre, x, post, task, id, outcome, rfl, hinside, hran, houtcome, hfollow⟩ :=
    Task.exists_of_finished hfinished Stage.noConfusion
  obtain ⟨hpre, h, _⟩ := since.of_split
  have hserves := hpre.serves hidle halone.of_append
  have hcollects := hpre.collects hidle halone.of_append
  rw [hinside] at hserves hcollects
  obtain rfl : task = .readToEnd (delivered pre).reverse := hcollects
  obtain ⟨d, _, hgoes | ⟨_, hempty, e, he, hends⟩⟩ := hserves.readToEnd_cases h hran houtcome
  . rw [hfollow] at hgoes
    contradiction
  . refine ⟨pre, x, post, e, rfl, hempty, ?_, ?_⟩
    . rw [hran] at h
      obtain ⟨t, _, _, hstep⟩ := of_run_eq_some h
      have calm : x.before.conn.Calm x.after.conn := by
        rw [Moment.after, hstep]
        exact calm_round E x.now x.before t
      have hreflects := ((run.append hpre).reflects.congr calm).readError x.now
      rw [he, calm.inbound hempty] at hreflects
      exact hreflects.symm
    . have hconserves := (hpre.conserves_since hmax).1
      rw [hempty, List.append_nil] at hconserves
      rw [hfollow, hconserves] at hends
      injection hends

/--
What the reads return as a plain byte stream, followed by what is still there to read, is what has arrived. A read of
nothing has consumed nothing, and it is the end of the stream exactly if the peer has finished and all is read. A
terminal error that a read has hidden behind its bytes shows in the next read that finds none. So a read to the end
that nobody interferes with collects all that is there, up to the end or the error that it reports.
-/
theorem Run.plain_reads_exact (run : Run E (init E label engine) trace m)
    : received trace ++ m.conn.inbound = arrived trace ∧
      (∀ x ∈ trace, (x.plainRead? = some (.ok []) ∨ ∃ error, x.plainRead? = some (.error error)) →
        x.after.conn.inbound = x.before.conn.inbound) ∧
      (∀ before x after, trace = before ++ x :: after → ∀ buffer, x.call? = some (.readInto buffer) →
        buffer.length ≠ 0 →
        (x.plainRead? = some (.ok []) ↔ .upcall .eof ∈ history before ∧ x.before.conn.inbound = [])) ∧
      (∀ before x after, trace = before ++ x :: after → ∀ data e, x.outcome? = some (.read ⟨data, some e⟩) →
        data ≠ [] → e.isTerminal = true →
        x.plainRead? = some (.ok data) ∧
        (∀ t ∈ m.threads, ∀ buffer, t.call = .readInto buffer → t.isAsleep = false) ∧
        ∀ y ∈ after, ∀ buffer, y.call? = some (.readInto buffer) → buffer.length ≠ 0 →
          (∃ more, more ≠ [] ∧ y.plainRead? = some (.ok more)) ∨
          ∃ e' : StreamError, e.rank ≤ e'.rank ∧
            y.plainRead? = some (if e' = .endOfStream then .ok [] else .error e'.toIoError)) ∧
      (∀ before start during, trace = before ++ during → Run E (init E label engine) before start →
        Run E start during m → start.IdleIn .reading → (Task.readToEnd []).AloneIn .reading during →
        (∃ data, ((Task.readToEnd []).stage during).Collects data ∧
          data ++ m.conn.inbound = start.conn.inbound ++ arrived during) ∧
        ∀ result, (Task.readToEnd []).stage during = .finished result →
          ∃ pre x post e, during = pre ++ x :: post ∧ x.before.conn.inbound = [] ∧
            (history (before ++ pre)).readError 0 x.now = some e ∧
            result = .readToEnd (start.conn.inbound ++ arrived pre)
              (if e = .endOfStream then none else some e.toIoError)) := by
  refine ⟨?_, ?_, ?_, ?_, ?_⟩
  . rw [received_eq_delivered]
    exact run.conserves.1
  . intro x hx
    exact inbound_of_plainRead? (run.of_mem hx)
  . rintro before x after rfl buffer hcall hlen
    exact run.plainRead?_eq_end_iff hcall hlen
  . rintro before x after rfl data e houtcome hdata hterminal
    refine ⟨?_, run.hidden_error_shows houtcome hterminal⟩
    rw [Moment.plainRead?, Moment.delivery?_eq_some_iff.2 houtcome, Option.map_some, Conn.Delivery.toIo_of_data hdata]
  . rintro before start during rfl hbefore since hidle halone
    exact hbefore.read_to_end since hidle halone

/--
A read to the end gets the last byte together with the end of the stream, which it does not see. Then a byte arrives
late and the connection is closed. So it gets this byte, too, before it sees the end.
-/
theorem late_plain_reads_exact
    : ∃ before start during m, Run Metered.engine (init Metered.engine "a" {}) before start ∧
        Run Metered.engine start during m ∧ start.conn.inbound = [1, 2] ∧ arrived during = [3] ∧
        (Task.readToEnd []).AloneIn .reading during ∧
        (Task.readToEnd []).stage during = .finished (.readToEnd [1, 2, 3] none) ∧
        received (before ++ during) ++ m.conn.inbound = arrived (before ++ during) ∧
        ∃ pre x post e, during = pre ++ x :: post ∧ x.before.conn.inbound = [] ∧
          (history (before ++ pre)).readError 0 x.now = some e ∧
          TaskResult.readToEnd [1, 2, 3] none =
            .readToEnd (start.conn.inbound ++ arrived pre) (if e = .endOfStream then none else some e.toIoError) := by
  have run : Run Metered.engine (init Metered.engine "a" {}) _
      ((init Metered.engine "a" {}).upcall (.data [1, 2])).monitor :=
    Run.of_replay [(0, .upcall (.data [1, 2]))] rfl
  have since : Run Metered.engine ((init Metered.engine "a" {}).upcall (.data [1, 2])).monitor _ _ := Run.of_replay
    [(1, .enter 0 (.read 1)), (1, .run 0), (1, .upcall .eof), (2, .enter 1 (.read 8)), (2, .run 1),
      (3, .upcall (.data [3])), (3, .request .close), (4, .enter 2 (.read 8)), (4, .run 2), (5, .enter 3 (.read 8)),
      (5, .run 3)] rfl
  obtain ⟨hreceived, _, _, _, hend⟩ := (run.append since).plain_reads_exact
  obtain ⟨_, hfinished⟩ := hend _ _ _ rfl run since (by intro t ht; contradiction) rfl
  exact ⟨_, _, _, _, run, since, rfl, by decide +kernel, rfl, rfl, hreceived, hfinished _ rfl⟩

end

end Monitor

end BlockingStream

import BlockingStream.Proofs.Settings
import BlockingStream.Timer.Thread

/-!
This module contains the proof of what becomes of a timer service that is started from accepted settings. Whether a name
is accepted does not depend on the NUL characters in it, and the start stops the program just if there is one.
-/

namespace BlockingStream

theorem Text.Legible.insert {before after : String} (h : Text.Legible (before ++ after)) (s : String)
    : Text.Legible (before ++ s ++ after) := by
  obtain ⟨c, hmem, hc⟩ := h
  refine ⟨c, ?_, hc⟩
  simp only [String.toList_append, List.mem_append] at hmem ⊢
  exact hmem.imp_left Or.inl

namespace Config

variable {c : Config} {supply : ThreadSupply} {α : Type}

theorem startTimers_of_nul (h : '\x00' ∈ c.timerThreadName.toList) : c.startTimers supply α = .panicked := by
  have hname : isThreadName c.timerThreadName = false := by simpa [isThreadName] using h
  simp [startTimers, hname]

theorem startTimers_of_not_nul (h : '\x00' ∉ c.timerThreadName.toList)
    : c.startTimers supply α = match supply with
      | .ok () => .started {}
      | .error reason => .failed reason := by
  have hname : isThreadName c.timerThreadName = true := by simpa [isThreadName] using h
  cases supply <;> simp [startTimers, hname]

theorem startTimers_eq_panicked_iff : c.startTimers supply α = .panicked ↔ '\x00' ∈ c.timerThreadName.toList := by
  by_cases hnul : '\x00' ∈ c.timerThreadName.toList
  . simp [startTimers_of_nul hnul, hnul]
  . rw [startTimers_of_not_nul hnul]
    cases supply <;> simp [hnul]

theorem startTimers_eq_failed_iff {reason : String}
    : c.startTimers supply α = .failed reason ↔ '\x00' ∉ c.timerThreadName.toList ∧ supply = .error reason := by
  by_cases hnul : '\x00' ∈ c.timerThreadName.toList
  . simp [startTimers_of_nul hnul, hnul]
  . rw [startTimers_of_not_nul hnul]
    cases supply <;> simp [hnul]

theorem startTimers_eq_started_iff {service : Timer.Service α}
    : c.startTimers supply α = .started service ↔
      '\x00' ∉ c.timerThreadName.toList ∧ supply = .ok () ∧ service = {} := by
  by_cases hnul : '\x00' ∈ c.timerThreadName.toList
  . simp [startTimers_of_nul hnul, hnul]
  . rw [startTimers_of_not_nul hnul]
    cases supply <;> simp [hnul, eq_comm]

theorem nul_mem_of_ofReader {read : Toml.Reader} [Toml.LawfulReader read] {text : String} {d : Toml.Document}
    (h : ofReader read text = .ok c) (hread : read text = .ok d)
    : '\x00' ∈ c.timerThreadName.toList ↔
      ∃ name, (Field.timerThreadName.name, .string name) ∈ d.entries ∧ '\x00' ∈ name.toList := by
  -- there is none in the name that is used where the text gives none
  rw [ofReader_of_ok hread] at h
  obtain ⟨hassign, _⟩ := ofEntries_eq_ok_iff.1 h
  obtain ⟨_, hamends⟩ := (assignAll_eq_ok_iff (Toml.LawfulReader.nodup hread) _).1 hassign
  constructor
  . intro hnul
    by_cases hgiven : ∃ value, (Field.timerThreadName.name, value) ∈ d.entries
    . obtain ⟨value, hmem⟩ := hgiven
      obtain rfl := hamends.given hmem
      exact ⟨c.timerThreadName, hmem, hnul⟩
    . rw [not_exists] at hgiven
      have hdefault := hamends.omitted hgiven
      simp only [value, Toml.Value.string.injEq] at hdefault
      rw [hdefault] at hnul
      exact absurd hnul (by decide)
  . rintro ⟨name, hmem, hnul⟩
    have hname := hamends.given hmem
    simp only [value, Toml.Value.string.injEq] at hname
    rwa [hname]

/--
With accepted settings a timer service is started, or there is a reason why not, or the program stops. It stops just if
there is a NUL in the name of the thread, which is accepted at every place of every accepted name, and which a text can
give.
-/
theorem startTimers_exact (h : c.validate = .ok c) (supply : ThreadSupply) (α : Type)
    : (c.startTimers supply α = .panicked ↔ '\x00' ∈ c.timerThreadName.toList) ∧
      (∀ reason, c.startTimers supply α = .failed reason ↔
        '\x00' ∉ c.timerThreadName.toList ∧ supply = .error reason) ∧
      (∀ service, c.startTimers supply α = .started service ↔
        '\x00' ∉ c.timerThreadName.toList ∧ supply = .ok () ∧ service = {}) ∧
      (∀ before after, before ++ after = c.timerThreadName →
        let named := { c with timerThreadName := before ++ "\x00" ++ after }
        named.validate = .ok named ∧ named.startTimers supply α = .panicked) ∧
      ∀ (read : Toml.Reader) [Toml.LawfulReader read] text d, ofReader read text = .ok c → read text = .ok d →
        (c.startTimers supply α = .panicked ↔
          ∃ name, (Field.timerThreadName.name, .string name) ∈ d.entries ∧ '\x00' ∈ name.toList) := by
  refine ⟨startTimers_eq_panicked_iff, fun _ => startTimers_eq_failed_iff, fun _ => startTimers_eq_started_iff, ?_, ?_⟩
  . intro before after hname
    rw [validate_eq_ok_iff, forall_accepts_iff, ← hname] at h
    obtain ⟨_, hlabel, hcapacity, hlegible⟩ := h
    constructor
    . rw [validate_eq_ok_iff, forall_accepts_iff]
      exact ⟨rfl, hlabel, hcapacity, hlegible.insert _⟩
    . apply startTimers_of_nul
      simp
  . intro read _ text d htext hread
    rw [startTimers_eq_panicked_iff, nul_mem_of_ofReader htext hread]

theorem first_startTimers_exact
    : validate {} = .ok {} ∧ startTimers {} (.ok ()) Unit = .started {} ∧
      startTimers {} (.error "no threads left") Unit = .failed "no threads left" := by
  refine ⟨rfl, ?_, ?_⟩
  . exact ((startTimers_exact rfl (.ok ()) Unit).2.2.1 _).2 ⟨by decide, rfl, rfl⟩
  . exact ((startTimers_exact rfl (.error "no threads left") Unit).2.1 _).2 ⟨by decide, rfl⟩

/--
A name with a NUL is accepted, and then stops the program, whatever the system would answer.
-/
theorem accepted_nul_panics
    : (∀ (read : Toml.Reader) text d, read text = .ok d →
        d.entries = [(Field.timerThreadName.name, .string "a\x00b")] →
        ofReader read text = .ok { timerThreadName := "a\x00b" }) ∧
      validate { timerThreadName := "a\x00b" } = .ok { timerThreadName := "a\x00b" } ∧
      ∀ supply, startTimers { timerThreadName := "a\x00b" } supply Unit = .panicked := by
  refine ⟨?_, by rfl, ?_⟩
  . intro read text d hread hentries
    rw [ofReader_of_ok hread, hentries]
    rfl
  . intro supply
    exact startTimers_of_nul (by decide)

-- an escape in a text is enough
example : ofText "timer_thread_name = \"a\\u0000b\"" = .ok { timerThreadName := "a\x00b" } := by rfl

end Config

end BlockingStream

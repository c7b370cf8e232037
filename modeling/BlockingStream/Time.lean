/-!
This module contains the clock that deadlines are measured on.
-/

namespace BlockingStream

/--
A reading of the monotone clock, in milliseconds from an arbitrary origin. Deadlines before the
origin are as good as any other.
-/
abbrev Instant := Int

/--
A deadline has passed as soon as the clock shows it. No deadline never passes.
-/
def deadlinePassed (deadline : Option Instant) (now : Instant) : Bool :=
  match deadline with
  | some d => decide (d ≤ now)
  | none => false

@[simp]
theorem deadlinePassed_none (now : Instant) : deadlinePassed none now = false := rfl

@[simp]
theorem deadlinePassed_some (d now : Instant) :
    deadlinePassed (some d) now = true ↔ d ≤ now := by
  simp [deadlinePassed]

end BlockingStream

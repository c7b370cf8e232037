import BlockingStream.Engine.Basic

/-!
This module contains an engine in memory that takes bytes as long as its credit lasts.
-/

namespace BlockingStream

/--
An engine that keeps what it took and counts what else it was asked. Without a credit it takes
everything.
-/
structure Metered where
  credit : Option Nat := none
  written : Bytes := []
  closes : Nat := 0
  drains : Nat := 0
  peer : Address := .v4 192 0 2 7 6881
  localAddr : Address := .loopback 42069
  deriving DecidableEq, Repr

namespace Metered

def maxCredit : Nat := UInt64.size - 1

def write (data : Bytes) (m : Metered) : Nat × Metered :=
  match m.credit with
  | none => (data.length, { m with written := m.written ++ data })
  | some credit =>
    let n := min credit data.length
    (n, { m with credit := some (credit - n), written := m.written ++ data.take n })

theorem write_le (data : Bytes) (m : Metered) : (m.write data).1 ≤ data.length := by
  cases h : m.credit with
  | none => simp [write, h]
  | some credit =>
    simp only [write, h]
    exact Nat.min_le_right ..

theorem write_written (data : Bytes) (m : Metered) :
    (m.write data).2.written = m.written ++ data.take (m.write data).1 := by
  cases h : m.credit <;> simp [write, h]

theorem write_credit {m : Metered} {credit : Nat} (h : m.credit = some credit) (data : Bytes) :
    (m.write data).2.credit = some (credit - (m.write data).1) := by
  simp [write, h]

def grant (n : Nat) (m : Metered) : Metered :=
  -- an engine without a credit needs none
  { m with credit := m.credit.map fun credit => min (credit + n) maxCredit }

def engine : Engine Metered where
  write := write
  close m := { m with closes := m.closes + 1 }
  peerAddr m := (some m.peer, m)
  localAddr m := (some m.localAddr, m)
  readDrained m := { m with drains := m.drains + 1 }
  grant := grant

end Metered

end BlockingStream

/-!
This module contains socket addresses and their text.
-/

namespace BlockingStream

/--
The address of a socket: the address of its machine, which is four octets or eight groups of sixteen bits,
and the number of the socket there. The scope of a long address is 0 where there is none.
-/
inductive Address where
  | v4 (a b c d : UInt8) (socket : UInt16)
  | v6 (groups : List UInt16) (scope : UInt32) (socket : UInt16)
  deriving DecidableEq, Repr

namespace Address

def loopback (socket : UInt16) : Address := .v4 127 0 0 1 socket

def dotted (a b c d : UInt8) : String :=
  ".".intercalate ([a, b, c, d].map toString)

def group (g : UInt16) : String := String.ofList (Nat.toDigits 16 g.toNat)

def zeroRun (groups : List UInt16) : Nat := (groups.takeWhile (· == 0)).length

def longestZeroRun (groups : List UInt16) : Nat × Nat :=
  (List.range groups.length).foldl
    (fun best i =>
      let run := zeroRun (groups.drop i)
      if best.2 < run then (i, run) else best)
    (0, 0)

def groupsText (groups : List UInt16) : String :=
  -- an embedded short address is written with points
  match groups with
  | [0, 0, 0, 0, 0, 0xFFFF, hi, lo] =>
    "::ffff:" ++ dotted (hi >>> 8).toUInt8 hi.toUInt8 (lo >>> 8).toUInt8 lo.toUInt8
  | groups =>
    let join (gs : List UInt16) := ":".intercalate (gs.map group)
    let (start, len) := longestZeroRun groups
    if 1 < len then join (groups.take start) ++ "::" ++ join (groups.drop (start + len))
    else join groups

def text : Address → String
  | .v4 a b c d socket => dotted a b c d ++ ":" ++ toString socket
  | .v6 groups scope socket =>
    let zone := if scope = 0 then "" else "%" ++ toString scope
    "[" ++ groupsText groups ++ zone ++ "]:" ++ toString socket

def decimal? (max : Nat) (cs : List Char) : Option Nat :=
  if cs.isEmpty || !cs.all Char.isDigit then none
  else
    let n := cs.foldl (fun n c => n * 10 + (c.toNat - 48)) 0
    if n ≤ max then some n else none

def octet? (cs : List Char) : Option UInt8 :=
  if 1 < cs.length && cs.head? == some '0' then none
  else (decimal? 255 cs).map Nat.toUInt8

def octets? (cs : List Char) : Option (UInt8 × UInt8 × UInt8 × UInt8) :=
  match (String.ofList cs).splitOn "." with
  | [a, b, c, d] => do
    pure (← octet? a.toList, ← octet? b.toList, ← octet? c.toList, ← octet? d.toList)
  | _ => none

def hexDigit? (c : Char) : Option Nat :=
  if c.isDigit then some (c.toNat - 48)
  else if 'a' ≤ c && c ≤ 'f' then some (c.toNat - 87)
  else if 'A' ≤ c && c ≤ 'F' then some (c.toNat - 55)
  else none

def group? (cs : List Char) : Option UInt16 :=
  if cs.isEmpty || 4 < cs.length then none
  else do
    let digits ← cs.mapM hexDigit?
    pure (digits.foldl (fun n d => n * 16 + d) 0).toUInt16

def groups? (s : String) : Option (List UInt16) :=
  if s.isEmpty then some []
  else go (s.splitOn ":")
where
  go : List String → Option (List UInt16)
    | [] => some []
    | [last] =>
      match group? last.toList with
      | some g => some [g]
      | none => do
        let (a, b, c, d) ← octets? last.toList
        pure [a.toUInt16 <<< 8 ||| b.toUInt16, c.toUInt16 <<< 8 ||| d.toUInt16]
    | g :: rest => do pure ((← group? g.toList) :: (← go rest))

def longGroups? (s : String) : Option (List UInt16) :=
  match s.splitOn "::" with
  | [whole] => do
    let gs ← groups? whole
    if gs.length = 8 then pure gs else none
  | [front, back] => do
    let front ← groups? front
    let back ← groups? back
    let shown := front.length + back.length
    if shown < 8 then pure (front ++ List.replicate (8 - shown) 0 ++ back) else none
  | _ => none

def ofText? (s : String) : Option Address :=
  match s.toList with
  | '[' :: rest =>
    match (String.ofList rest).splitOn "]:" with
    | [inside, socket] => do
      let socket ← decimal? 65535 socket.toList
      match inside.splitOn "%" with
      | [groups] => pure (.v6 (← longGroups? groups) 0 socket.toUInt16)
      | [groups, scope] =>
        let scope ← decimal? 4294967295 scope.toList
        pure (.v6 (← longGroups? groups) scope.toUInt32 socket.toUInt16)
      | _ => none
    | _ => none
  | _ =>
    match s.splitOn ":" with
    | [host, socket] => do
      let (a, b, c, d) ← octets? host.toList
      pure (.v4 a b c d (← decimal? 65535 socket.toList).toUInt16)
    | _ => none

end Address

end BlockingStream

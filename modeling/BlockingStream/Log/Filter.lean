import BlockingStream.Log.Event
import BlockingStream.Pattern.Whole
import BlockingStream.Text.Cut

/-!
This module contains the choice of the events that are shown. A filter is a list of directives. Each one
gives a level to the events of some targets, and of the directives that concern an event the most specific
one decides.
-/

namespace BlockingStream.Log

structure Verbosity where
  level : Option Level
  deriving DecidableEq, Repr

namespace Verbosity

def all : List (String × Verbosity) :=
  [("off", ⟨none⟩), ("error", ⟨some .error⟩), ("warn", ⟨some .warn⟩), ("info", ⟨some .info⟩),
    ("debug", ⟨some .debug⟩), ("trace", ⟨some .trace⟩)]

def shows (v : Verbosity) (level : Level) : Bool :=
  match v.level with
  | some max => level.verbosity ≤ max.verbosity
  | none => false

def number? (cs : List Char) : Option Nat :=
  let digits :=
    match cs with
    | '+' :: rest => rest
    | cs => cs
  if digits.isEmpty || !digits.all Char.isDigit then none
  else some (digits.foldl (fun n c => n * 10 + (c.toNat - 48)) 0)

def ofText? (cs : List Char) : Option Verbosity :=
  match number? cs with
  | some n => all[n]?.map (·.2)
  | none => all.lookup (String.ofList (cs.map Char.toLower))

end Verbosity

inductive Fault where
  | malformed
  /-- A part of it would begin or end within a character, which stops the program. -/
  | tornCharacter
  deriving DecidableEq, Repr

/--
A condition on a field: it is there, or it has a value that looks like this.
-/
structure FieldMatch where
  name : String
  value : Option String
  deriving DecidableEq, Repr

namespace FieldMatch

def isExponent : List Char → Bool
  | [] => true
  | c :: rest =>
    let digits :=
      match rest with
      | '+' :: digits | '-' :: digits => digits
      | digits => digits
    (c = 'e' || c = 'E') && !digits.isEmpty && digits.all Char.isDigit

def isUnsigned (cs : List Char) : Bool :=
  let whole := cs.takeWhile Char.isDigit
  let (places, rest) :=
    match cs.dropWhile Char.isDigit with
    | '.' :: rest => (rest.takeWhile Char.isDigit, rest.dropWhile Char.isDigit)
    | rest => ([], rest)
  ((!whole.isEmpty || !places.isEmpty) && isExponent rest) ||
    ["inf", "infinity", "nan"].contains (String.ofList (cs.map Char.toLower))

def isNumber : List Char → Bool
  | '+' :: rest | '-' :: rest => isUnsigned rest
  | cs => isUnsigned cs

def ofText? (cs : List Char) : Option FieldMatch :=
  -- a value goes up to the next equals sign; what stands behind that does not count
  let name := String.ofList (cs.takeWhile (· ≠ '='))
  match cs.dropWhile (· ≠ '=') with
  | [] => if cs.isEmpty then none else some ⟨name, none⟩
  | _ :: rest =>
    let value := rest.takeWhile (· ≠ '=')
    if isNumber value || Pattern.isPattern value then some ⟨name, some (String.ofList value)⟩ else none

end FieldMatch

/--
A directive: the targets it concerns are those that begin with its own. It may ask for a span around the
event and for fields.
-/
structure Directive where
  target : Option String := none
  span : Option String := none
  fields : List FieldMatch := []
  verbosity : Verbosity := ⟨some .trace⟩
  deriving DecidableEq, Repr

namespace Directive

/--
Where the reading of a directive is. A part that is under way began at `start`. Places are counted in bytes.
-/
inductive Reading where
  | begin
  | levelOrTarget (start : Nat)
  | span (start : Nat)
  | field (start : Nat)
  | fields
  | target
  | level (start : Nat)
  deriving DecidableEq, Repr

def mayBegin (c : Char) : Bool := Text.isAlphanumeric c || c = '-' || c = ':' || c = '_'

def part (source : List Char) (start stop : Nat) : Except Fault String :=
  match Text.between? source start stop with
  | some cs => .ok (String.ofList cs)
  | none => .error .tornCharacter

def lastPart (source : List Char) (start : Nat) : Except Fault String :=
  match Text.from? source start with
  | some cs => .ok (String.ofList cs)
  | none => .error .tornCharacter

def take (source : List Char) (i : Nat) (c : Char) (d : Directive) (r : Reading) :
    Except Fault (Directive × Reading) :=
  -- places are counted in bytes, and parts are cut out of `source`
  let behind := i + c.utf8Size
  match r with
  | .begin =>
    if c = '[' then .ok (d, .span behind)
    else if mayBegin c then .ok (d, .levelOrTarget i)
    else .error .malformed
  | .levelOrTarget start =>
    if c = '=' then do .ok ({ d with target := some (← part source start i) }, .level behind)
    else if c = '[' then do .ok ({ d with target := some (← part source start i) }, .span behind)
    else .ok (d, r)
  | .span start =>
    if c = ']' then do .ok ({ d with span := some (← part source start i) }, .target)
    else if c = '\x7b' then do
      let name ← part source start i
      .ok ({ d with span := if name.isEmpty then none else some name }, .field behind)
    else .ok (d, r)
  | .field start =>
    if c = '\x7d' then do
      match FieldMatch.ofText? (← part source start i).toList with
      | some field => .ok ({ d with fields := d.fields ++ [field] }, .fields)
      | none => .error .malformed
    else .ok (d, r)
  | .fields => if c = ']' then .ok (d, .target) else .error .malformed
  | .target => if c = '=' then .ok (d, .level behind) else .error .malformed
  | .level _ => .ok (d, r)

def close (source : List Char) (d : Directive) : Reading → Except Fault Directive
  | .levelOrTarget start => do
    let text ← lastPart source start
    match Verbosity.ofText? text.toList with
    | some verbosity => .ok { d with verbosity }
    | none => .ok { d with target := some text }
  | .level start => do
    let text ← lastPart source start
    if text.isEmpty then .ok d
    else
      match Verbosity.ofText? text.toList with
      | some verbosity => .ok { d with verbosity }
      | none => .error .malformed
  | .target => .ok d
  | .begin | .span _ | .field _ | .fields => .error .malformed

def scan (source : List Char) : Nat → List Char → Directive → Reading → Except Fault Directive
  | _, [], d, r => close source d r
  | i, c :: cs, d, r => do
    let (d, r) ← take source i c d r
    scan source (i + c.utf8Size) cs d r

def trim (cs : List Char) : List Char :=
  ((cs.dropWhile Text.isBlankChar).reverse.dropWhile Text.isBlankChar).reverse

def ofText (source : List Char) : Except Fault Directive := scan source 0 (trim source) {} .begin

def isStatic (d : Directive) : Bool := d.span.isNone && d.fields.all (·.value.isNone)

def concerns (d : Directive) (e : Event) : Bool :=
  -- no event lies in a span
  d.isStatic &&
    (d.target.getD "").toList.isPrefixOf e.target.toList &&
    d.fields.all fun f => f.name == "message" || (e.field? f.name).isSome

def fieldNames (d : Directive) : List String := d.fields.map (·.name)

def targetSize (d : Directive) : Nat :=
  -- no target at all counts as less than the empty one
  match d.target with
  | some t => t.utf8ByteSize + 1
  | none => 0

def moreSpecific (a b : Directive) : Bool :=
  -- if neither the target nor the number of fields decides, the order of the field names does
  b.targetSize < a.targetSize ||
    (a.targetSize == b.targetSize &&
      (b.fieldNames.length < a.fieldNames.length ||
        (a.fieldNames.length == b.fieldNames.length && b.fieldNames < a.fieldNames)))

end Directive

structure Filter where
  directives : List Directive
  deriving DecidableEq, Repr

namespace Filter

def informative : Filter := ⟨[{ verbosity := ⟨some .info⟩ }]⟩

def ofText (text : String) : Except Fault Filter := do
  let parts := (text.splitOn ",").filter (!·.isEmpty)
  .ok ⟨← parts.mapM fun part => Directive.ofText part.toList⟩

/--
The filter that a setting of the environment asks for. Where there is none, or it is not written like one,
the informative events are shown. There is no filter if the reading stops the program.
-/
def ofSetting (setting : Option String) : Option Filter :=
  match setting.map ofText with
  | some (.ok filter) => some filter
  | some (.error .tornCharacter) => none
  | some (.error .malformed) | none => some informative

/--
The directive that decides about an event: the most specific one that concerns it, and the last of those
that are equally specific.
-/
def deciding (f : Filter) (e : Event) : Option Directive :=
  (f.directives.filter (·.concerns e)).foldl
    (fun best d =>
      match best with
      | some b => if b.moreSpecific d then some b else some d
      | none => some d)
    none

def shows (f : Filter) (e : Event) : Bool :=
  match f.deciding e with
  | some d => d.verbosity.shows e.level
  | none => false

end Filter

end BlockingStream.Log

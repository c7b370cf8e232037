import BlockingStream.Config.Basic
import BlockingStream.Toml.Document
import BlockingStream.Text.Quoted

/-!
This module contains the reading of settings from a TOML document. Entries are decoded in the order of the
document, and the first one that does not fit is reported. Only settings that were all decoded are checked
for usable values.
-/

namespace BlockingStream

inductive Mismatch where
  | unknown (key : String)
  | wrongType (field : Config.Field) (value : Toml.Value)
  /-- The value is of the right kind, but there is no such capacity. -/
  | outOfRange (field : Config.Field) (value : Int)
  deriving Repr

inductive ConfigError where
  /-- The text from `rest` on is no TOML. -/
  | malformed (rest : List Char)
  | mismatch (m : Mismatch)
  | invalid (field : Config.Field)
  deriving Repr

namespace Config

def Field.expected : Field → String
  | label | timerThreadName => "a string"
  | inboundCapacity => "usize"

def assign (c : Config) (key : String) (value : Toml.Value) : Except Mismatch Config :=
  match Field.ofName? key, value with
  | none, _ => .error (.unknown key)
  | some .label, .string s => .ok { c with label := s }
  | some .timerThreadName, .string s => .ok { c with timerThreadName := s }
  | some .inboundCapacity, .integer i =>
    if i < 0 then .error (.outOfRange .inboundCapacity i)
    else .ok { c with inboundCapacity := i.toNat }
  | some field, value => .error (.wrongType field value)

def decode (entries : Toml.Entries) : Except Mismatch Config :=
  entries.foldlM (fun c entry => c.assign entry.1 entry.2) {}

def validate (c : Config) : Except ConfigError Config :=
  match c.invalidField? with
  | some field => .error (.invalid field)
  | none => .ok c

theorem validate_eq_ok_iff (c d : Config) :
    c.validate = .ok d ↔ d = c ∧ ∀ field, c.accepts field = true := by
  rw [← invalidField?_eq_none_iff]
  unfold validate
  cases c.invalidField? <;> simp [eq_comm]

def ofEntries (entries : Toml.Entries) : Except ConfigError Config :=
  match decode entries with
  | .ok c => c.validate
  | .error m => .error (.mismatch m)

def ofReader (read : Toml.Reader) (text : String) : Except ConfigError Config :=
  match read text with
  | .ok d => ofEntries d.entries
  | .error rest => .error (.malformed rest)

def ofText (text : String) : Except ConfigError Config := ofReader Toml.Document.reader text

end Config

namespace Mismatch

def describe : Toml.Value → String
  | .string s => "string " ++ Text.quoted s
  | .integer i => "integer `" ++ toString i ++ "`"
  | .float x => "floating point `" ++ x.text ++ "`"
  | .boolean b => "boolean `" ++ (if b then "true" else "false") ++ "`"
  | .moment | .table _ _ => "map"
  | .array _ _ => "sequence"

def message : Mismatch → String
  | unknown key =>
    "unknown field `" ++ key ++ "`, expected one of " ++
      ", ".intercalate (Config.Field.all.map fun f => "`" ++ f.name ++ "`")
  | wrongType field value =>
    "invalid type: " ++ describe value ++ ", expected " ++ field.expected
  | outOfRange field value =>
    "invalid value: integer `" ++ toString value ++ "`, expected " ++ field.expected

def rest (m : Mismatch) (d : Toml.Document) : List Char :=
  match m with
  | unknown key => ((d.marks.lookup key).map (·.key)).getD []
  | wrongType field _ | outOfRange field _ => ((d.marks.lookup field.name).map (·.value)).getD []

end Mismatch

namespace ConfigError

def invalidMessage (field : Config.Field) : String :=
  "invalid value for `" ++ field.name ++ "`: " ++ field.complaint

/--
The first line of the text of an error in the settings that were read from `text`.
-/
def headline (text : String) (e : ConfigError) : String :=
  let cs := text.toList
  let parseError (rest : List Char) :=
    let p := Toml.Position.ofRest cs rest
    "invalid connection config: TOML parse error at line " ++ toString p.line ++ ", column " ++
      toString p.column
  match e with
  | malformed rest => parseError rest
  | mismatch m =>
    match Toml.Document.reader text with
    | .ok d => parseError (m.rest d)
    | .error rest => parseError rest
  | invalid field => invalidMessage field

end ConfigError

end BlockingStream

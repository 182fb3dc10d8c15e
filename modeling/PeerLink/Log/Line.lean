import PeerLink.Log.Level
import PeerLink.Text.Quoted

/-!
# Log lines

How an event of the log looks on the console: the time, a column for the part of the program that
speaks, a column for the level, the message, and the other fields as `name=value`.

Columns have a fixed width, counted in characters, so that messages start at the same place in
every line. Colours are written only where a terminal can show them.

## Main results

* `Log.length_column`: a column of a width is that long, whatever text it is given.
-/

namespace PeerLink.Log

/-- The value of a field, by how it was recorded. -/
inductive FieldValue
  /-- A text as such. -/
  | text (s : String)
  /-- What something shows of itself. -/
  | shown (s : String)
  /-- A text in its quoted form. -/
  | quoted (s : String)
  | number (n : Int)
  | flag (b : Bool)
  deriving DecidableEq, Repr, Inhabited

namespace FieldValue

/-- What a line shows of a value. -/
def render : FieldValue → String
  | text s | shown s => s
  | quoted s => Text.quote s
  | number n => toString n
  | flag b => if b then "true" else "false"

/-- A value as the name of a part of the program: a text stands as it is, and anything else loses
the quotes around what it shows. -/
def asComponent : FieldValue → String
  | text s => s
  | v => String.ofList (Text.trimChar '\x22' v.render.toList)

end FieldValue

/-- An event of the log: its level and its fields in the order in which they were recorded. -/
structure Record where
  level : Level
  fields : List (String × FieldValue)
  deriving DecidableEq, Repr, Inhabited

namespace Record

/-- The last value recorded for a field. -/
def last? (r : Record) (name : String) : Option FieldValue :=
  (r.fields.reverse.find? fun f => f.1 == name).map (·.2)

/-- The message; events without one have an empty message. -/
def message (r : Record) : String := ((r.last? "message").map FieldValue.render).getD ""

/-- The part of the program that speaks. -/
def component? (r : Record) : Option String := (r.last? "component").map FieldValue.asComponent

/-- The fields that have no place of their own. -/
def extra (r : Record) : List (String × FieldValue) :=
  r.fields.filter fun f => f.1 != "message" && f.1 != "component"

/-- The record of an entry: the part that speaks, then the message. -/
def ofEntry (e : LogEntry) : Record :=
  { level := e.level
    fields := (e.component.map fun c => ("component", .text c)).toList
      ++ [("message", .shown e.message)] }

end Record

/-! ## Columns -/

/-- The text, with blanks behind it up to a width. -/
def pad (width : Nat) (s : List Char) : List Char :=
  s ++ List.replicate (width - s.length) ' '

/-- The text in a column: padded if it fits, and cut short with an ellipsis if not. -/
def column (width : Nat) (s : List Char) : List Char :=
  if width < s.length then s.take (width - 1) ++ ['…'] else pad width s

theorem length_pad {width : Nat} {s : List Char} (h : s.length ≤ width) :
    (pad width s).length = width := by
  simp [pad]
  omega

theorem length_column {width : Nat} (h : 0 < width) (s : List Char) :
    (column width s).length = width := by
  unfold column
  split
  · simp
    omega
  · exact length_pad (by omega)

/-- The width of the column for the part that speaks. -/
def serviceWidth : Nat := 20

/-- The width of the column for the level. -/
def levelWidth : Nat := 9

/-- A sign for the level and its name. -/
def levelLabel : Level → String
  | .error => "✗ ERROR"
  | .warn => "⚠ WARN"
  | .info => "ℹ INFO"
  | .debug => "◦ DEBUG"
  | .trace => "◦ TRACE"

/-- The column for the level. -/
def levelColumn (l : Level) : List Char := pad levelWidth (levelLabel l).toList

theorem length_levelColumn (l : Level) : (levelColumn l).length = levelWidth := by
  cases l <;> decide

/-! ## Colours -/

/-- The colours of a line; `reset` ends the colour in force. -/
inductive Colour
  | reset
  | cyan
  | green
  | brightYellow
  | brightRed
  | brightGray
  deriving DecidableEq, Repr

/-- The number a terminal knows a colour by. -/
def Colour.code : Colour → Nat
  | .reset => 0
  | .cyan => 36
  | .green => 32
  | .brightYellow => 93
  | .brightRed => 91
  | .brightGray => 90

/-- The sequence that switches to a colour. -/
def Colour.sequence (c : Colour) : List Char :=
  ['\x1b', '['] ++ Nat.toDigits 10 c.code ++ ['m']

/-- The colour of a level. -/
def levelColour : Level → Colour
  | .error => .brightRed
  | .warn => .brightYellow
  | .info => .green
  | .debug | .trace => .brightGray

/-! ## Lines -/

/-- How lines are written: the name of the program, and whether there are colours. -/
structure LineFormat where
  service : String
  coloured : Bool
  deriving DecidableEq, Repr

namespace LineFormat

/-- The format for a kind of terminal: one that is named, and not as a dumb one, shows colours. -/
def forTerminal (service : String) (terminal : Option String) : LineFormat :=
  { service := service
    coloured := match terminal with
      | none => false
      | some t => t != "dumb" }

/-- The sequence for a colour where there are colours. -/
def paint (f : LineFormat) (c : Colour) : List Char := if f.coloured then c.sequence else []

/-- Who speaks: the program, or a part of it. -/
def speaker (f : LineFormat) : Option String → String
  | none => f.service
  | some component => "comm-" ++ component

/-- The column for who speaks. -/
def serviceColumn (f : LineFormat) (component : Option String) : List Char :=
  column serviceWidth (f.speaker component).toList

/-- The message and the other fields of an event. -/
def body (r : Record) : List Char :=
  r.message.toList ++ r.extra.flatMap fun (name, value) =>
    ' ' :: name.toList ++ '=' :: value.render.toList

/-- The line of an event, without the end of line. -/
def chars (f : LineFormat) (time : String) (r : Record) : List Char :=
  f.paint .cyan ++ ['['] ++ time.toList ++ [']', ' ', '['] ++ f.serviceColumn r.component?
    ++ [']', ' ', '['] ++ f.paint (levelColour r.level) ++ levelColumn r.level
    ++ f.paint .reset ++ [']', ' '] ++ body r ++ f.paint .reset

/-- The line of an event. -/
def line (f : LineFormat) (time : String) (r : Record) : String :=
  String.ofList (f.chars time r ++ ['\n'])

theorem length_serviceColumn (f : LineFormat) (component : Option String) :
    (f.serviceColumn component).length = serviceWidth :=
  length_column (by decide) _

end LineFormat

end PeerLink.Log

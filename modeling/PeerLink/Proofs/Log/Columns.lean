import PeerLink.Log.Line
import PeerLink.Log.Time

/-!
# The columns of a log line

A line without colours has three columns before its message: the time, the part that speaks, and
the level.  The last two have a fixed width, and so has the time while years have four digits.  So
the message begins at the same place in every line.

Colours change nothing of this.  A line with colours is the same line with four sequences put in,
which is shown by cutting the line without colours at the three places between its ends.

## Main results

* `Log.LineFormat.chars_eq` — a line is its two parts around the level, and its colours.
* `Log.LineFormat.isSequence_sequence` — a colour is an escape sequence.
* `Log.LineFormat.columns_are_aligned` — where the columns of a line are, and where its colours.
-/

namespace PeerLink.Log

namespace LineFormat

variable (f : LineFormat) (time : String) (r : Record)

/-! ## The parts of a line -/

/-- What stands before the level. -/
def front : List Char :=
  ['['] ++ time.toList ++ [']', ' ', '['] ++ f.serviceColumn r.component? ++ [']', ' ', '[']

/-- What stands behind the message: the fields without a place of their own. -/
def fieldsText : List Char :=
  r.extra.flatMap fun (name, value) => ' ' :: name.toList ++ '=' :: value.render.toList

/-- What stands behind the level. -/
def back : List Char := [']', ' '] ++ (r.message.toList ++ fieldsText r)

/-- Where the part that speaks begins, behind a time of some width. -/
def serviceStart (timeWidth : Nat) : Nat := timeWidth + 4

/-- Where the level begins. -/
def levelStart (timeWidth : Nat) : Nat := serviceStart timeWidth + serviceWidth + 3

/-- Where the message begins. -/
def messageStart (timeWidth : Nat) : Nat := levelStart timeWidth + levelWidth + 2

theorem chars_eq : f.chars time r =
    f.paint .cyan ++ f.front time r ++ f.paint (levelColour r.level) ++ levelColumn r.level ++
      f.paint .reset ++ back r ++ f.paint .reset := by
  simp only [chars, front, back, body, fieldsText, List.append_assoc]

theorem length_front : (f.front time r).length = levelStart time.length := by
  have hservice := f.length_serviceColumn r.component?
  have htime : time.toList.length = time.length := String.length_toList
  simp only [front, List.length_append, List.length_cons, List.length_nil, hservice, htime,
    levelStart, serviceStart]
  omega

/-! ## Columns -/

/-- A text is padded exactly if it fits. -/
theorem column_eq (width : Nat) (s : List Char) : column width s =
    if s.length ≤ width then s ++ List.replicate (width - s.length) ' '
    else s.take (width - 1) ++ ['…'] := by
  unfold column pad
  by_cases h : s.length ≤ width
  · rw [if_pos h, if_neg (Nat.not_lt.2 h)]
  · rw [if_neg h, if_pos (Nat.lt_of_not_le h)]

theorem front_eq : f.front time r =
    ('[' :: time.toList ++ [']', ' ', '[']) ++
      (f.serviceColumn r.component? ++ [']', ' ', '[']) := by
  simp [front]

theorem take_drop_front (rest : List Char) :
    ((f.front time r ++ rest).drop (serviceStart time.length)).take serviceWidth =
      f.serviceColumn r.component? := by
  have hlead : ('[' :: time.toList ++ [']', ' ', '[']).length = serviceStart time.length := by
    simp [serviceStart, String.length_toList]
  rw [front_eq, List.append_assoc, ← hlead, List.drop_left, List.append_assoc,
    ← f.length_serviceColumn r.component?, List.take_left]

/-! ## Cutting a line without colours -/

section Cuts

variable (service : String)

/-- The line without colours, as characters. -/
def bareLine : List Char := ((⟨service, false⟩ : LineFormat).line time r).toList

theorem bareLine_eq : bareLine time r service =
    (⟨service, false⟩ : LineFormat).front time r ++
      (levelColumn r.level ++ (back r ++ ['\n'])) := by
  simp [bareLine, line, chars_eq, paint]

theorem take_bareLine : (bareLine time r service).take (levelStart time.length) =
    (⟨service, false⟩ : LineFormat).front time r := by
  rw [bareLine_eq, ← length_front ⟨service, false⟩ time r, List.take_left]

theorem drop_bareLine : (bareLine time r service).drop (levelStart time.length) =
    levelColumn r.level ++ (back r ++ ['\n']) := by
  rw [bareLine_eq, ← length_front ⟨service, false⟩ time r, List.drop_left]

theorem level_of_bareLine :
    ((bareLine time r service).drop (levelStart time.length)).take levelWidth =
      levelColumn r.level := by
  rw [drop_bareLine, ← length_levelColumn r.level, List.take_left]

theorem behind_bareLine :
    (bareLine time r service).drop (levelStart time.length + levelWidth) = back r ++ ['\n'] := by
  rw [← List.drop_drop, drop_bareLine, ← length_levelColumn r.level, List.drop_left]

theorem message_of_bareLine : (bareLine time r service).drop (messageStart time.length) =
    r.message.toList ++ fieldsText r ++ ['\n'] := by
  have hback : (back r ++ ['\n']).drop 2 = r.message.toList ++ fieldsText r ++ ['\n'] := rfl
  rw [messageStart, ← List.drop_drop, behind_bareLine, hback]

theorem last_of_bareLine :
    (bareLine time r service).drop ((bareLine time r service).length - 1) = ['\n'] := by
  have hsplit : bareLine time r service =
      ((⟨service, false⟩ : LineFormat).front time r ++ levelColumn r.level ++ back r) ++
        ['\n'] := by
    rw [bareLine_eq]
    simp only [List.append_assoc]
  rw [hsplit, List.length_append, List.length_singleton, Nat.add_sub_cancel, List.drop_left]

theorem service_of_bareLine :
    ((bareLine time r service).drop (serviceStart time.length)).take serviceWidth =
      (⟨service, false⟩ : LineFormat).serviceColumn r.component? := by
  rw [bareLine_eq]
  exact take_drop_front ⟨service, false⟩ time r _

end Cuts

/-! ## The sequences of a line with colours -/

/-- The sequence that colours a level. -/
def levelPaint : Level → String
  | .error => "\x1b[91m"
  | .warn => "\x1b[93m"
  | .info => "\x1b[32m"
  | .debug | .trace => "\x1b[90m"

theorem sequence_levelColour (l : Level) : (levelColour l).sequence = (levelPaint l).toList := by
  cases l <;> decide

/-- A sequence that a terminal takes for a change of colour: an escape, a bracket, a number and
the letter m. -/
def IsSequence (s : List Char) : Prop :=
  ∃ number, number ≠ [] ∧ (∀ c ∈ number, c.isDigit = true) ∧
    s = '\x1b' :: '[' :: (number ++ ['m'])

theorem isSequence_sequence (c : Colour) : IsSequence c.sequence :=
  ⟨Nat.toDigits 10 c.code, Nat.toDigits_ne_nil,
    fun _ hd => Nat.isDigit_of_mem_toDigits (by decide) (by decide) hd, rfl⟩

theorem toList_line_coloured (service : String) :
    ((⟨service, true⟩ : LineFormat).line time r).toList =
      "\x1b[36m".toList ++ (⟨service, false⟩ : LineFormat).front time r ++
        (levelPaint r.level).toList ++ levelColumn r.level ++ "\x1b[0m".toList ++ back r ++
        "\x1b[0m".toList ++ ['\n'] := by
  have hfront : (⟨service, true⟩ : LineFormat).front time r =
      (⟨service, false⟩ : LineFormat).front time r := rfl
  have hcyan : Colour.cyan.sequence = "\x1b[36m".toList := by decide
  have hreset : Colour.reset.sequence = "\x1b[0m".toList := by decide
  simp only [line, chars_eq, paint, hfront, hcyan, hreset, sequence_levelColour, if_true,
    String.toList_ofList]

theorem isSequence_of_mem (l : Level) :
    ∀ s ∈ ["\x1b[36m", levelPaint l, "\x1b[0m"], IsSequence s.toList := by
  intro s hs
  rcases List.mem_cons.1 hs with rfl | hs
  · exact isSequence_sequence .cyan
  rcases List.mem_cons.1 hs with rfl | hs
  · rw [← sequence_levelColour]
    exact isSequence_sequence _
  · obtain rfl := List.mem_singleton.1 hs
    exact isSequence_sequence .reset

/-- A line with colours, as the line without them and what is put in. -/
theorem coloured_eq_bareLine (service : String) :
    ((⟨service, true⟩ : LineFormat).line time r).toList =
      "\x1b[36m".toList ++ (bareLine time r service).take (levelStart time.length) ++
        (levelPaint r.level).toList ++
        ((bareLine time r service).drop (levelStart time.length)).take levelWidth ++
        "\x1b[0m".toList ++
        ((bareLine time r service).drop (levelStart time.length + levelWidth)).dropLast ++
        "\x1b[0m".toList ++
        (bareLine time r service).drop ((bareLine time r service).length - 1) := by
  rw [take_bareLine, level_of_bareLine, behind_bareLine, last_of_bareLine, List.dropLast_concat]
  exact toList_line_coloured time r service

/-! ## The whole line -/

theorem forTerminal_eq (service : String) (terminal : Option String) :
    forTerminal service terminal =
      if terminal = none ∨ terminal = some "dumb" then ⟨service, false⟩ else ⟨service, true⟩ := by
  cases terminal with
  | none => rfl
  | some kind =>
      by_cases hdumb : kind = "dumb"
      · simp [forTerminal, hdumb]
      · simp [forTerminal, hdumb]

/-- Wherever a line goes, its columns are at the same places.  In a line without colours the
twenty characters behind the time are the name of whoever speaks, with blanks behind it if it fits
and cut short with an ellipsis if it does not; then comes the level, and the message begins at a
place that depends on the width of the time alone: behind 61 characters, while years have four
digits.  A terminal that is named, and not as a dumb one, is shown the same line with four
sequences put in: at the start, before and behind the level, and before the end of the line. -/
theorem columns_are_aligned (service : String) (terminal : Option String)
    (t : Std.Time.PlainDateTime) (r : Record) :
    let bare : LineFormat := ⟨service, false⟩
    let coloured : LineFormat := ⟨service, true⟩
    let time := timeText t
    let l := (bare.line time r).toList
    let name := (bare.speaker r.component?).toList
    forTerminal service terminal =
        (if terminal = none ∨ terminal = some "dumb" then bare else coloured) ∧
      (coloured.line time r).toList =
        "\x1b[36m".toList ++ l.take (levelStart time.length) ++ (levelPaint r.level).toList ++
          (l.drop (levelStart time.length)).take levelWidth ++ "\x1b[0m".toList ++
          (l.drop (levelStart time.length + levelWidth)).dropLast ++ "\x1b[0m".toList ++
          l.drop (l.length - 1) ∧
      (∀ s ∈ ["\x1b[36m", levelPaint r.level, "\x1b[0m"], IsSequence s.toList) ∧
      (l.drop (levelStart time.length)).take levelWidth = levelColumn r.level ∧
      l.drop (l.length - 1) = ['\n'] ∧
      l.drop (messageStart time.length) = r.message.toList ++ fieldsText r ++ ['\n'] ∧
      (0 ≤ t.date.year.toInt ∧ t.date.year.toInt ≤ 9999 →
        time.length = 23 ∧ l.drop 61 = r.message.toList ++ fieldsText r ++ ['\n']) ∧
      (l.drop (serviceStart time.length)).take 20 =
        (if name.length ≤ 20 then name ++ List.replicate (20 - name.length) ' '
          else name.take 19 ++ ['…']) := by
  intro bare coloured time l name
  have hmessage : l.drop (messageStart time.length) = r.message.toList ++ fieldsText r ++ ['\n'] :=
    message_of_bareLine time r service
  refine ⟨forTerminal_eq service terminal, coloured_eq_bareLine time r service,
    isSequence_of_mem r.level, level_of_bareLine time r service, last_of_bareLine time r service,
    hmessage, fun hyear => ?_, ?_⟩
  · have htime : time.length = 23 := length_timeText hyear
    rw [htime] at hmessage
    exact ⟨htime, hmessage⟩
  · exact (service_of_bareLine time r service).trans (column_eq serviceWidth name)

/-- A morning in the year 2024. -/
def morning : Std.Time.PlainDateTime :=
  ⟨.ofYearMonthDayClip 2024 5 1, ⟨8, 30, 0, 125000000⟩⟩

/-- A warning of a part of the program whose name is too long for its column. -/
def longWarning : Record where
  level := .warn
  fields := [("component", .text "session-supervisor"), ("message", .shown "peer gone"),
    ("sends", .number 3)]

theorem longWarning_is_aligned :
    (0 ≤ morning.date.year.toInt ∧ morning.date.year.toInt ≤ 9999) ∧
      (timeText morning).length = 23 ∧
      ((⟨"comm-node", false⟩ : LineFormat).line (timeText morning) longWarning).toList.drop 61 =
        "peer gone sends=3\n".toList := by
  have hyear : 0 ≤ morning.date.year.toInt ∧ morning.date.year.toInt ≤ 9999 := by decide
  obtain ⟨-, -, -, -, -, -, h, -⟩ := columns_are_aligned "comm-node" none morning longWarning
  have hmessage : longWarning.message.toList ++ fieldsText longWarning ++ ['\n'] =
      "peer gone sends=3\n".toList := by decide
  exact ⟨hyear, (h hyear).1, (h hyear).2.trans hmessage⟩

end LineFormat

end PeerLink.Log

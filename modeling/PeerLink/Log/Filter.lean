import PeerLink.Log.Level
import PeerLink.Text.Number
import PeerLink.Text.Space

/-!
# Log filters

A reader of the log names the least urgent level to be shown, by a word in any case or by a
number, or turns the log off. No name at all asks for everything. A comma may end the name, but
nothing except space may stand behind it.

## Main results

* `Log.Filter.shows_mono`: what shows a level also shows every more urgent one.
-/

namespace PeerLink.Log

/-- The least urgent level that is shown; none if the log is off. -/
structure Filter where
  least : Option Level
  deriving DecidableEq, Repr, Inhabited

/-- Why a name is no filter. -/
inductive FilterError
  | level
  /-- Something stands behind the comma. -/
  | form
  deriving DecidableEq, Repr

/-- The text of the cause. -/
def FilterError.message : FilterError → String
  | level =>
    "error parsing level filter: expected one of \"off\", \"error\", \"warn\", \"info\", "
      ++ "\"debug\", \"trace\", or a number 0-5"
  | form => "invalid filter directive"

namespace Filter

/-- Events of a level are shown. -/
def shows (f : Filter) (l : Level) : Bool := f.least.any fun least => l.rank ≤ least.rank

/-- The filters by number. -/
def numbered : List Filter :=
  [⟨none⟩, ⟨some .error⟩, ⟨some .warn⟩, ⟨some .info⟩, ⟨some .debug⟩, ⟨some .trace⟩]

/-- The filters by word. -/
def named : List (String × Filter) :=
  [("off", ⟨none⟩), ("error", ⟨some .error⟩), ("warn", ⟨some .warn⟩), ("info", ⟨some .info⟩),
    ("debug", ⟨some .debug⟩), ("trace", ⟨some .trace⟩)]

/-- The filter with a name. -/
def ofName? (name : String) : Option Filter :=
  match (Text.natural? 10 (UInt64.size - 1) name.toList).toOption.bind fun n => numbered[n]? with
  | some f => some f
  | none => (named.find? fun p => p.1 == name.map Char.toLower).map (·.2)

/-- The filter that a text asks for. -/
def parse (text : String) : Except FilterError Filter :=
  let name := text.toList.takeWhile (· != ',')
  let filter := if name.isEmpty then some ⟨some .trace⟩ else ofName? (String.ofList name)
  match filter, Text.trimEnd (text.toList.drop (name.length + 1)) with
  | none, _ => .error .level
  | some f, [] => .ok f
  | some _, _ :: _ => .error .form

theorem shows_mono {f : Filter} {l m : Level} (h : f.shows l = true) (hr : m.rank ≤ l.rank) :
    f.shows m = true := by
  cases f with
  | mk least =>
    cases least with
    | none => simp [shows] at h
    | some k =>
      simp only [shows, Option.any_some, decide_eq_true_eq] at h ⊢
      omega

end Filter

end PeerLink.Log

import PeerLink.Settings.Load

/-!
# Where each setting comes from

A setting is what the environment says, or else what the file holds, or else what it is from the
start.  The four settings that the environment can name are different ones, so each variable is
taken for itself: one that is no value of its setting is as good as one that is not set, and it
does not matter which is looked at first.  A file is taken as a whole or not at all.

The overrides are written here as updates of the one field each of them reaches.  That they do not
meddle with each other is then seen from the fields.

## Main results

* `Settings.override_eq` — all overrides as one update.
* `Settings.apply_comm` — overrides can be made in any order.
* `Settings.override_without` — an override that is no value is not missed.
* `Settings.settings_have_one_source` — where each setting comes from.
-/

namespace PeerLink.Settings

/-! ## The file -/

/-- The settings that a file holds, if it can be read and understood and has some. -/
def held? (read : Reading) (content : Option String) : Option Settings :=
  match content.map read with
  | some (.ok s?) => s?
  | _ => none

theorem ofFile_eq (read : Reading) (content : Option String) :
    ofFile read content = (held? read content).getD {} := by
  unfold ofFile held?
  cases content.map read with
  | none => rfl
  | some r =>
      cases r with
      | error reason => rfl
      | ok s? => cases s? <;> rfl

theorem held?_error {read : Reading} {text reason : String} (h : read text = .error reason) :
    held? read (some text) = none := by
  rw [held?, Option.map_some, h]

/-! ## The environment -/

/-- The variables by which the environment overrides settings. -/
inductive Variable
  | nodeId
  | listen
  | idleTimeoutMs
  | maxFrameSize
  deriving DecidableEq, Repr

/-- The variables in the order in which they are looked at. -/
def Variable.all : List Variable := [nodeId, listen, idleTimeoutMs, maxFrameSize]

namespace Environment

/-- The name that the environment gives the node, which is any text. -/
def nodeId? (env : Environment) : Option String := env.nodeId

/-- The address that the environment names. -/
def listen? (env : Environment) : Option Address := env.listen.bind Address.parse?

/-- The idle timeout that the environment names. -/
def idleTimeoutMs? (env : Environment) : Option Nat := env.idleTimeoutMs.bind number?

/-- The most bytes of a frame that the environment names. -/
def maxFrameSize? (env : Environment) : Option Nat := env.maxFrameSize.bind number?

/-- A variable is set, to a value of its setting. -/
def names (env : Environment) : Variable → Bool
  | .nodeId => env.nodeId?.isSome
  | .listen => env.listen?.isSome
  | .idleTimeoutMs => env.idleTimeoutMs?.isSome
  | .maxFrameSize => env.maxFrameSize?.isSome

/-- The environment in which a variable is not set. -/
def without (env : Environment) : Variable → Environment
  | .nodeId => { env with nodeId := none }
  | .listen => { env with listen := none }
  | .idleTimeoutMs => { env with idleTimeoutMs := none }
  | .maxFrameSize => { env with maxFrameSize := none }

/-- One of the overrides. -/
def apply (env : Environment) (s : Settings) : Variable → Settings
  | .nodeId => overrideNodeId env.nodeId s
  | .listen => overrideListen env.listen s
  | .idleTimeoutMs => overrideIdleTimeout env.idleTimeoutMs s
  | .maxFrameSize => overrideMaxFrameSize env.maxFrameSize s

end Environment

/-! ## Overrides -/

section

variable (env : Environment) (s : Settings)

theorem apply_nodeId : env.apply s .nodeId = { s with nodeId := env.nodeId?.getD s.nodeId } := by
  unfold Environment.apply overrideNodeId Environment.nodeId?
  cases env.nodeId <;> rfl

theorem apply_listen : env.apply s .listen = { s with listen := env.listen?.getD s.listen } := by
  unfold Environment.apply overrideListen Environment.listen?
  cases env.listen.bind Address.parse? <;> rfl

theorem apply_idleTimeoutMs : env.apply s .idleTimeoutMs =
    { s with idleTimeoutMs := env.idleTimeoutMs?.getD s.idleTimeoutMs } := by
  unfold Environment.apply overrideIdleTimeout Environment.idleTimeoutMs?
  cases env.idleTimeoutMs.bind number? <;> rfl

theorem apply_maxFrameSize : env.apply s .maxFrameSize =
    { s with session :=
      { s.session with maxFrameSize := env.maxFrameSize?.getD s.session.maxFrameSize } } := by
  unfold Environment.apply overrideMaxFrameSize Environment.maxFrameSize?
  cases env.maxFrameSize.bind number? <;> rfl

theorem override_eq_foldl : s.override env = Variable.all.foldl env.apply s := rfl

/-- All overrides together: each reaches a setting of its own. -/
theorem override_eq : s.override env =
    { s with
      nodeId := env.nodeId?.getD s.nodeId
      listen := env.listen?.getD s.listen
      idleTimeoutMs := env.idleTimeoutMs?.getD s.idleTimeoutMs
      session :=
        { s.session with maxFrameSize := env.maxFrameSize?.getD s.session.maxFrameSize } } := by
  simp only [override_eq_foldl, Variable.all, List.foldl_cons, List.foldl_nil, apply_nodeId,
    apply_listen, apply_idleTimeoutMs, apply_maxFrameSize]

/-- Overrides reach different settings, and what they make of them does not depend on the others. -/
theorem apply_comm (v w : Variable) :
    env.apply (env.apply s v) w = env.apply (env.apply s w) v := by
  cases v <;> cases w <;>
    simp only [apply_nodeId, apply_listen, apply_idleTimeoutMs, apply_maxFrameSize]

/-- Without a variable that says nothing, each of the others still says the same. -/
theorem override_without {v : Variable} (h : env.names v = false) :
    s.override (env.without v) = s.override env := by
  rw [override_eq, override_eq]
  cases v <;> rw [Environment.names, Option.isSome_eq_false_iff, Option.isNone_iff_eq_none] at h <;>
    rw [h] <;> rfl

end

/-! ## Loading -/

/-- A setting from the first of its sources that has it. -/
def chosen {α : Type} (said : Option α) (file : Option Settings) (setting : Settings → α) : α :=
  (said.or (file.map setting)).getD (setting {})

theorem chosen_eq {α : Type} (said : Option α) (file : Option Settings) (setting : Settings → α) :
    chosen said file setting = said.getD (setting (file.getD {})) := by
  cases said <;> cases file <;> rfl

/-- Whatever becomes of the file and whatever is in the environment, there are settings, and each
of them is what the environment says, or else what the file holds, or else what it is from the
start, and five of them the environment cannot name.  A variable that says nothing is
not missed, the order of the overrides does not matter, and a file that is not understood is as
good as none.  A variable says nothing if it is not set, or if it is to be a number and its text
is not one of decimal digits that fits into 64 bits. -/
theorem settings_have_one_source (read : Reading) (path : String) (content : Option String)
    (env : Environment) :
    let settings (content : Option String) (env : Environment) := (load read path content env).1
    let file := held? read content
    settings content env =
        { nodeId := chosen env.nodeId? file (·.nodeId)
          listen := chosen env.listen? file (·.listen)
          idleTimeoutMs := chosen env.idleTimeoutMs? file (·.idleTimeoutMs)
          sweepIntervalMs := chosen none file (·.sweepIntervalMs)
          connectTimeoutMs := chosen none file (·.connectTimeoutMs)
          session :=
            { maxFrameSize := chosen env.maxFrameSize? file (·.session.maxFrameSize)
              readBufferSize := chosen none file (·.session.readBufferSize)
              eventChannelCapacity := chosen none file (·.session.eventChannelCapacity)
              tcpNodelay := chosen none file (·.session.tcpNodelay) } } ∧
      (∀ v, env.names v = false → settings content (env.without v) = settings content env) ∧
      (∀ order : List Variable, order.Perm Variable.all →
        order.foldl env.apply (ofFile read content) = settings content env) ∧
      (∀ text reason, content = some text → read text = .error reason →
        settings content env = settings none env) ∧
      ∀ text n, number? text = some n ↔
        (∃ digits, (text.toList = digits ∨ text.toList = '+' :: digits) ∧
          Text.IsDecimal digits n) ∧ n ≤ 18446744073709551615 := by
  intro settings file
  refine ⟨?_, fun v hv => ?_, fun order horder => ?_, ?_, fun text n => number?_eq_some_iff⟩
  · change (load read path content env).1 = _
    simp only [load_fst, override_eq, ofFile_eq, chosen_eq, Option.getD_none, file]
  · exact override_without env (ofFile read content) hv
  · exact horder.foldl_eq' (fun v _ w _ s => apply_comm env s v w) (ofFile read content)
  · rintro text reason rfl hread
    change (load read path (some text) env).1 = (load read path none env).1
    rw [load_fst, load_fst, ofFile_eq, ofFile_eq, held?_error hread]
    rfl

/-- An address that is none leaves the idle timeout its say, and the file the other settings. -/
example : (load (fun _ => .ok (some { nodeId := "relay", idleTimeoutMs := 7 })) "node.yaml"
      (some "nodeId: relay") { listen := some "nowhere", idleTimeoutMs := some "5" }).1 =
    { nodeId := "relay", idleTimeoutMs := 5 } := by
  decide +kernel

end PeerLink.Settings

import PeerLink.Node.Start
import PeerLink.Proofs.Node.Roster
import PeerLink.Proofs.Node.Sweep
import PeerLink.Proofs.Session.Reports

/-!
# Settings that a node can run with

Three of a node's settings are sizes of things that its tasks make first: the event channel, the
ticker of the sweeping task, and the read buffer of each session.  A task that cannot make what it
needs is over before it has begun.  Loading passes these settings on as the file has them, so it
is the file alone that decides whether a node can run.  Neither the environment nor the arguments
reach them, and the values that stand in for a file are in their bounds.

## Main results

* `Settings.runs_iff` — a node can run if and only if its dimensions fit.
* `Settings.misfits` — what becomes of a node whose dimensions do not fit.
* `Settings.fit_load_iff` — the dimensions that loading gives are those of the file.
* `Settings.load_runs_iff` — which files give settings that a node can run with.
-/

namespace PeerLink

/-! ## Dimensions -/

/-- The sizes of what the tasks of a node make first. -/
structure Dimensions where
  /-- How many events may wait to be received. -/
  events : Nat
  /-- How often idle clients are looked for, in milliseconds. -/
  sweepMs : Nat
  /-- The first size of a read buffer. -/
  block : Nat
  deriving DecidableEq

/-- Everything can be made in its size. -/
structure Dimensions.Fit (d : Dimensions) : Prop where
  someEvents : 1 ≤ d.events
  events : d.events ≤ SessionConfig.maxCapacity
  sweeps : 1 ≤ d.sweepMs
  block : d.block ≤ SessionConfig.maxBlock

theorem SessionConfig.hasChannel_iff {c : SessionConfig} : c.hasChannel = true ↔
    1 ≤ c.eventChannelCapacity ∧ c.eventChannelCapacity ≤ maxCapacity := by
  simp only [hasChannel, Bool.and_eq_true, decide_eq_true_iff]
  exact Iff.rfl

theorem SessionConfig.hasBuffer_iff {c : SessionConfig} :
    c.hasBuffer = true ↔ c.readBufferSize ≤ maxBlock := by
  simp only [hasBuffer, decide_eq_true_iff]

namespace Settings

variable {s : Settings}

/-- The dimensions that the settings give a node. -/
def dimensions (s : Settings) : Dimensions where
  events := s.session.eventChannelCapacity
  sweepMs := s.sweepIntervalMs
  block := s.session.readBufferSize

theorem hasTicker_iff : s.hasTicker = true ↔ 1 ≤ s.sweepIntervalMs := by
  simp only [hasTicker, decide_eq_true_iff]
  change 0 < s.sweepIntervalMs * 1_000_000 ↔ _
  omega

theorem fit_iff : s.dimensions.Fit ↔
    s.session.hasChannel = true ∧ s.hasTicker = true ∧ s.session.hasBuffer = true := by
  rw [SessionConfig.hasChannel_iff, hasTicker_iff, SessionConfig.hasBuffer_iff]
  constructor
  · rintro ⟨hsome, hevents, hsweeps, hblock⟩
    exact ⟨⟨hsome, hevents⟩, hsweeps, hblock⟩
  · rintro ⟨⟨hsome, hevents⟩, hsweeps, hblock⟩
    exact ⟨hsome, hevents, hsweeps, hblock⟩

theorem fit_default : ({} : Settings).dimensions.Fit :=
  ⟨by decide, by decide, by decide, by decide⟩

@[simp] theorem dimensions_override (env : Environment) (s : Settings) :
    (s.override env).dimensions = s.dimensions := by
  have hnodeId (v : Option String) (s : Settings) :
      (overrideNodeId v s).dimensions = s.dimensions := by
    unfold overrideNodeId
    split <;> rfl
  have hlisten (v : Option String) (s : Settings) :
      (overrideListen v s).dimensions = s.dimensions := by
    unfold overrideListen
    split <;> rfl
  have hidle (v : Option String) (s : Settings) :
      (overrideIdleTimeout v s).dimensions = s.dimensions := by
    unfold overrideIdleTimeout
    split <;> rfl
  have hsize (v : Option String) (s : Settings) :
      (overrideMaxFrameSize v s).dimensions = s.dimensions := by
    unfold overrideMaxFrameSize
    split <;> rfl
  rw [override, hsize, hidle, hlisten, hnodeId]

@[simp] theorem dimensions_applyArguments (a : Node.Arguments) (s : Settings) :
    (Node.applyArguments a s).dimensions = s.dimensions := by
  unfold Node.applyArguments
  cases a.listen <;> cases a.idleTimeout <;> rfl

/-- No file, a file that is not understood and a file without settings are as good as one with
settings that fit. -/
theorem fit_ofFile_iff (read : Reading) (content : Option String) :
    (ofFile read content).dimensions.Fit ↔
      ∀ t, content.map read = some (.ok (some t)) → t.dimensions.Fit := by
  unfold ofFile
  split
  · rename_i t ht
    constructor
    · intro hfit t' ht'
      cases ht.symm.trans ht'
      exact hfit
    · intro hall
      exact hall t ht
  · rename_i hnone
    exact ⟨fun _ t ht => absurd ht (hnone t), fun _ => fit_default⟩

theorem fit_load_iff (read : Reading) (path : String) (content : Option String)
    (env : Environment) : (load read path content env).1.dimensions.Fit ↔
      ∀ t, content.map read = some (.ok (some t)) → t.dimensions.Fit := by
  rw [load_fst, dimensions_override, fit_ofFile_iff]

end Settings

/-! ## The event channel -/

namespace Node

theorem connect_eq_abort_iff (net : Network) (s : Settings) (peer : Address) :
    (connect net s peer).1 = abort ↔ s.session.hasChannel = false := by
  unfold connect
  cases s.session.hasChannel with
  | false => simp
  | true => cases net.connect peer <;> simp [abort, fail, abortExit, failureExit]

theorem listen_eq_abort_iff (net : Network) (s : Settings) :
    (listen net s).1 = abort ↔
      (∃ address, net.listen s.listen = .ok address) ∧ s.session.hasChannel = false := by
  unfold listen
  cases net.listen s.listen with
  | error fault => simp [abort, fail, abortExit, failureExit]
  | ok address => cases s.session.hasChannel <;> simp [abort]

end Node

/-! ## The sweeping task -/

namespace Listener

variable {σ : Type} [SessionHost σ] {l l' : Listener σ} {n : Nat}

theorem ended_of_step_iff {move : ListenerMove σ} (h : l.step move = some l') :
    l'.sweeping = .ended ↔ l.sweeping = .ended :=
  (sweepEffect_of_step h).ended_iff

theorem ended_of_run_iff {moves : List (ListenerMove σ)} (h : l.run moves = some l') :
    l'.sweeping = .ended ↔ l.sweeping = .ended := by
  induction moves generalizing l with
  | nil =>
      cases h
      rfl
  | cons move rest ih =>
      simp only [run, List.foldlM_cons, Option.bind_eq_bind, Option.bind_eq_some_iff] at h
      obtain ⟨l₁, hstep, hrest⟩ := h
      exact (ih hrest).trans (ended_of_step_iff hstep)

/-- A node that has begun to listen sweeps at every later moment, or at none. -/
theorem ended_of_start_iff {s : Settings} {clock : Duration} {moves : List (ListenerMove σ)}
    (h : (start s clock).run moves = some l) : l.sweeping = .ended ↔ s.hasTicker = false := by
  rw [ended_of_run_iff h]
  cases hticker : s.hasTicker <;> simp [start, hticker]

/-- Without a sweeping task a client stays in the table until its session or the node ends. -/
theorem leaves_of_ended (hended : l.sweeping = .ended) (hin : n ∈ l.table)
    {move : ListenerMove σ} (h : l.step move = some l') (hout : n ∉ l'.table) :
    move = .interrupt ∨
      move = .handle ∧ ∃ reason rest, l.channel = (n, .closed reason) :: rest := by
  have htakes : l.TakesOut move n := (effect_of_step h).takes_out hin hout
  cases htakes with
  | ended hchannel => exact .inr ⟨rfl, _, _, hchannel⟩
  | evicted htaking => cases hended.symm.trans htaking
  | interrupted => exact .inl rfl

end Listener

/-! ## The read buffer -/

namespace Run

variable {w : Run} {attempts : List Attempt} {label : String} {remote : Option Address}
  {config : SessionConfig} {now : Duration}

theorem Attempted.hasBuffer (h : Attempted (start label remote config now) w attempts) :
    w.session.config.hasBuffer = config.hasBuffer := by
  induction h with
  | none =>
      obtain ⟨journal, hsession⟩ := session_start label remote config now
      rw [hsession]
      rfl
  | step e _ he ih =>
      rw [config_of_step he]
      exact ih

/-- The first step of a reader that cannot make its buffer is its last. -/
theorem exists_read_of_start (label : String) (remote : Option Address) (now : Duration)
    (hbuffer : config.hasBuffer = false) :
    ∃ w, (start label remote config now).step? .read = some w ∧ w.session.reader = .ended := by
  obtain ⟨journal, hsession⟩ := session_start label remote config now
  have hunbegun : ({ config with
      maxFrameSize := Frame.effectiveLimit config.maxFrameSize } : SessionConfig).hasBuffer =
        false := hbuffer
  simp only [step?, read, hsession, Session.readerMove, hunbegun]
  exact ⟨_, rfl, rfl⟩

/-- A session whose reader cannot make its buffer takes nothing from the stream. -/
theorem Attempted.received_of_unbegun (h : Attempted (start label remote config now) w attempts)
    (hbuffer : config.hasBuffer = false) : w.received = [] := by
  induction h with
  | none => exact congrArg Inward.received (inward_start label remote config now)
  | step e h he ih =>
      rename_i w₁ w' attempts₁
      have hreader := h.told.reader_of_unbegun (h.hasBuffer.trans hbuffer)
      have hsame {k : Inward} (hk : w'.inward = k) (hnothing : k.received = []) :
          w'.received = [] :=
        (congrArg Inward.received hk).trans hnothing
      cases inwardEffect_of_step he with
      | receives bytes hr hk => rcases hreader with hr' | hr' <;> cases hr'.symm.trans hr
      | aside hk => exact hsame hk ih
      | begins hr _ hk | fails hr _ hk | needsMore hr hk | decodes f hr hk | reports f hr hk
      | leaves reason cause hr hk | closes reason stage stage' hr _ hk
      | closed reason effective hr hk | ends reason hr hk => exact hsame hk ih

end Run

/-! ## What can be run -/

namespace Settings

/-- No task of a node ends because of the settings. -/
structure Runs (s : Settings) : Prop where
  connects : ∀ net peer, (Node.connect net s peer).1 ≠ Node.abort
  listens : ∀ net, (Node.listen net s).1 ≠ Node.abort
  /-- The sweeping task goes on, whatever happens to the node. -/
  sweeps : ∀ (σ : Type) [SessionHost σ] (clock : Duration) (moves : List (ListenerMove σ))
    (l : Listener σ), (Listener.start s clock).run moves = some l → l.sweeping ≠ .ended
  /-- The reader of a session ends only after it has attempted to report the end. -/
  reads : ∀ label remote now w attempts,
    Run.Attempted (.start label remote s.session now) w attempts →
      w.session.reader = .ended → ∃ reason, .ended reason true ∈ attempts

/-- What becomes of a node whose dimensions do not fit. -/
structure Misfits (s : Settings) : Prop where
  /-- Without an event channel it ends before it connects, or when it has an address to listen
  on. -/
  channel : ¬ (1 ≤ s.session.eventChannelCapacity ∧
      s.session.eventChannelCapacity ≤ SessionConfig.maxCapacity) →
    (∀ net peer, Node.connect net s peer = (Node.abort, [])) ∧
      ∀ net address, net.listen s.listen = .ok address → (Node.listen net s).1 = Node.abort
  /-- Without a ticker it listens, but no client leaves the table for being idle. -/
  ticker : s.sweepIntervalMs = 0 →
    ∀ (σ : Type) [SessionHost σ] (clock : Duration) (moves : List (ListenerMove σ))
      (l : Listener σ), (Listener.start s clock).run moves = some l →
        l.sweeping = .ended ∧ ∀ n ∈ l.table, ∀ move l', l.step move = some l' → n ∉ l'.table →
          move = .interrupt ∨
            move = .handle ∧ ∃ reason rest, l.channel = (n, .closed reason) :: rest
  /-- Without a read buffer a session reads nothing and reports nothing, not even its end. -/
  buffer : SessionConfig.maxBlock < s.session.readBufferSize →
    ∀ label remote now w attempts,
      Run.Attempted (.start label remote s.session now) w attempts →
        (w.session.reader = .starting ∨ w.session.reader = .ended) ∧
          w.received = [] ∧ attempts = []

/-- A node can run with settings if and only if its dimensions fit, whatever they say besides. -/
theorem runs_iff (s : Settings) : s.Runs ↔ s.dimensions.Fit := by
  rw [fit_iff]
  constructor
  · intro h
    refine ⟨?_, ?_, ?_⟩
    · refine Bool.of_not_eq_false fun hchannel => ?_
      exact h.connects .isolated default ((Node.connect_eq_abort_iff _ s _).2 hchannel)
    · refine Bool.of_not_eq_false fun hticker => ?_
      have hrun : (Listener.start s default : Listener Run).run [] = some (.start s default) := rfl
      exact h.sweeps Run default [] _ hrun ((Listener.ended_of_start_iff hrun).2 hticker)
    · refine Bool.of_not_eq_false fun hbuffer => ?_
      -- The first step of the reader is its last.
      obtain ⟨w, hread, hended⟩ := Run.exists_read_of_start "" none default hbuffer
      have hattempted := Run.Attempted.step .read .none hread
      obtain ⟨reason, hmem⟩ := h.reads _ _ _ _ _ hattempted hended
      rw [hattempted.told.never hattempted.reached (hattempted.hasBuffer.trans hbuffer)] at hmem
      cases hmem
  · rintro ⟨hchannel, hticker, hbuffer⟩
    refine ⟨fun net peer habort => ?_, fun net habort => ?_, ?_, ?_⟩
    · rw [Node.connect_eq_abort_iff, hchannel] at habort
      cases habort
    · rw [Node.listen_eq_abort_iff, hchannel] at habort
      cases habort.2
    · intro σ _ clock moves l hrun hended
      rw [Listener.ended_of_start_iff hrun, hticker] at hended
      cases hended
    · intro label remote now w attempts h hended
      obtain ⟨-, reason, hattempts⟩ := h.told.ended hended (h.hasBuffer.trans hbuffer)
      refine ⟨reason, ?_⟩
      rw [hattempts]
      exact List.mem_append_right _ (List.mem_singleton_self _)

theorem misfits (s : Settings) : s.Misfits := by
  refine ⟨fun hunfit => ?_, fun hzero => ?_, fun hlarge => ?_⟩
  · have hchannel : s.session.hasChannel = false := by
      rw [← Bool.not_eq_true, SessionConfig.hasChannel_iff]
      exact hunfit
    refine ⟨fun net peer => by simp [Node.connect, hchannel], fun net address haddress => ?_⟩
    exact (Node.listen_eq_abort_iff net s).2 ⟨⟨address, haddress⟩, hchannel⟩
  · have hticker : s.hasTicker = false := by
      rw [← Bool.not_eq_true, hasTicker_iff, hzero]
      decide
    intro σ _ clock moves l hrun
    have hended := (Listener.ended_of_start_iff hrun).2 hticker
    exact ⟨hended, fun n hin move l' hstep hout => Listener.leaves_of_ended hended hin hstep hout⟩
  · have hbuffer : s.session.hasBuffer = false := by
      rw [← Bool.not_eq_true, SessionConfig.hasBuffer_iff]
      exact Nat.not_le.2 hlarge
    intro label remote now w attempts h
    have hunbegun := h.hasBuffer.trans hbuffer
    exact ⟨h.told.reader_of_unbegun hunbegun, h.received_of_unbegun hbuffer,
      h.told.never h.reached hunbegun⟩

/-- A node can run with the settings that were loaded if and only if the file gives it dimensions
that fit, or none.  Nothing in the environment or among the arguments can make up for a file that
does not, or spoil one that does. -/
theorem load_runs_iff (read : Reading) (path : String) (content : Option String)
    (env : Environment) :
    let s := (load read path content env).1
    (s.Runs ↔ ∀ t, content.map read = some (.ok (some t)) → t.dimensions.Fit) ∧
      (∀ a, (Node.applyArguments a s).Runs ↔ s.Runs) ∧ s.Misfits := by
  intro s
  refine ⟨?_, fun a => ?_, s.misfits⟩
  · rw [runs_iff, fit_load_iff]
  · rw [runs_iff, runs_iff, dimensions_applyArguments]

/-- A file that allows for no events, leaves no time between sweeps, and asks for a read buffer
that is too large. -/
def unfitFile : String :=
  "services:\n  comm:\n    sweep_interval_ms: 0\n    session:\n" ++
    "      event_channel_capacity: 0\n      read_buffer_size: 9223372036854775808\n"

/-- What is loaded from that file. -/
def unfitSettings : Settings :=
  (load (fun text => (parse text).mapError FileFault.message) "config.yaml" (some unfitFile) {}).1

/-- The file is loaded as it is, and a node cannot run with what it says. -/
theorem unfit_file_is_loaded :
    unfitSettings.session.eventChannelCapacity = 0 ∧ unfitSettings.sweepIntervalMs = 0 ∧
      unfitSettings.session.readBufferSize = SessionConfig.maxBlock + 1 ∧
      ¬ unfitSettings.Runs := by
  have hdimensions : unfitSettings.dimensions = ⟨0, 0, SessionConfig.maxBlock + 1⟩ := by
    decide +kernel
  generalize unfitSettings = s at hdimensions
  obtain ⟨hevents, hsweeps, hblock⟩ := Dimensions.mk.inj hdimensions
  refine ⟨hevents, hsweeps, hblock, fun hruns => ?_⟩
  have hsome := (s.runs_iff.1 hruns).sweeps
  rw [hdimensions] at hsome
  cases hsome

end Settings

end PeerLink

import FmSdrTuner.XdrServer.Snapshot
import FmSdrTuner.Control.MainLoop

/-! # The ranges of the server's fields

    The scan engine sizes its loops by what `consumeScanStart` returns, and
    the facade hands on what the callbacks are given; neither checks again.
    Here both dialects are run line by line against callbacks that answer
    as they like, one atomic store or callback at a time, while another
    thread takes the scan configuration field by field: no store leaves
    the range of its field, so none of the values seen anywhere does. -/

namespace FmSdrTuner

/-! ### Ranges -/

/-- The range of the field that is stored to. The frequency and the channel
    bandwidth have none: the FM-DX dialect does not restrict them. -/
def ServerStore.Ranged : ServerStore → Prop
  | .mode v => 0 ≤ v ∧ v ≤ 1
  | .volume v => 0 ≤ v ∧ v ≤ 100
  | .deemphasis v => 0 ≤ v ∧ v ≤ 2
  | .antenna v => 0 ≤ v ∧ v ≤ 9
  | .gain v => v = 0 ∨ v = 1 ∨ v = 10 ∨ v = 11
  | .agcMode v => 0 ≤ v ∧ v ≤ 3
  | .daa v => 0 ≤ v ∧ v ≤ 36 ∧ v % 6 = 0
  | .squelch v => 0 ≤ v ∧ v ≤ 100
  | .rotator v => -1 ≤ v ∧ v ≤ 1
  | .samplingInterval v => 0 ≤ v ∧ v ≤ 1000
  | .detector v => 0 ≤ v ∧ v ≤ 1
  | .scanStartKHz v => 64000 ≤ v ∧ v ≤ 108000
  | .scanStopKHz v => 64000 ≤ v ∧ v ≤ 108000
  | .scanStepKHz v => 5 ≤ v ∧ v ≤ 1000
  | .scanBandwidthHz v => 0 ≤ v ∧ v ≤ 400000
  | .scanAntenna v => 0 ≤ v ∧ v ≤ 9
  | .frequency _ | .bandwidth _ | .forceMono _ | .scanContinuous _
  | .scanStartPending | .scanCancelPending => True

/-- A callback is given values in the range of the field it goes with. -/
def Callback.Ranged : Callback → Prop
  | .volume v => (ServerStore.volume v).Ranged
  | .gain v => (ServerStore.gain v).Ranged
  | .agc v => (ServerStore.agcMode v).Ranged
  | .mode v => (ServerStore.mode v).Ranged
  | .deemphasis v => (ServerStore.deemphasis v).Ranged
  | .antenna v => (ServerStore.antenna v).Ranged
  | .squelch v => (ServerStore.squelch v).Ranged
  | .rotator v => (ServerStore.rotator v).Ranged
  | .alignment v => (ServerStore.daa v).Ranged
  | .sampling interval detector =>
      (ServerStore.samplingInterval interval).Ranged ∧ (ServerStore.detector detector).Ranged
  | .blendMode v => 0 ≤ v ∧ v ≤ 2
  | .freq _ | .bandwidth _ | .forceMono _ | .start | .stop => True

def Effect.Ranged : Effect → Prop
  | .store w => w.Ranged
  | .call c => c.Ranged

/-- One field of a scan configuration is in range. -/
def ScanField.Ranged (config : ScanConfig) : ScanField → Prop
  | .startKHz => (ServerStore.scanStartKHz config.startKHz).Ranged
  | .stopKHz => (ServerStore.scanStopKHz config.stopKHz).Ranged
  | .stepKHz => (ServerStore.scanStepKHz config.stepKHz).Ranged
  | .bandwidthHz => (ServerStore.scanBandwidthHz config.bandwidthHz).Ranged
  | .antenna => (ServerStore.scanAntenna config.antenna).Ranged
  | .continuous => True

/-- All fields of a scan configuration are in range. -/
def ScanConfig.Ranged (config : ScanConfig) : Prop :=
  ∀ field, ScanField.Ranged config field

/-- The fields of the server are in range. -/
structure XDRServer.Ranged (s : XDRServer) : Prop where
  mode : (ServerStore.mode s.mode).Ranged
  volume : (ServerStore.volume s.volume).Ranged
  deemphasis : (ServerStore.deemphasis s.deemphasis).Ranged
  antenna : (ServerStore.antenna s.antenna).Ranged
  gain : (ServerStore.gain s.gain).Ranged
  agcMode : (ServerStore.agcMode s.agcMode).Ranged
  daa : (ServerStore.daa s.daa).Ranged
  squelch : (ServerStore.squelch s.squelch).Ranged
  rotator : (ServerStore.rotator s.rotator).Ranged
  samplingInterval : (ServerStore.samplingInterval s.samplingInterval).Ranged
  detector : (ServerStore.detector s.detector).Ranged
  scan : s.scan.Ranged

theorem XDRServer.ranged_initial : XDRServer.initial.Ranged := by
  constructor
  case scan =>
    intro field
    cases field <;> simp only [ScanField.Ranged, ServerStore.Ranged] <;> decide
  all_goals
    simp only [ServerStore.Ranged]
    decide

/-- A scan store that is in range keeps the scan configuration in range. -/
theorem ScanConfig.Ranged.set {scan scan' : ScanConfig} (hs : scan.Ranged) (field : ScanField)
    (hfield : field.Ranged scan')
    (hother : ∀ f, f ≠ field → (f.Ranged scan' ↔ f.Ranged scan)) : scan'.Ranged := by
  intro f
  by_cases h : f = field
  · rw [h]
    exact hfield
  · exact (hother f h).mpr (hs f)

theorem XDRServer.Ranged.store {s : XDRServer} (hs : s.Ranged) {w : ServerStore}
    (hw : w.Ranged) : (s.store w).Ranged := by
  have hscan : (s.store w).scan.Ranged := by
    have hsame : (s.store w).scan = s.scan → (s.store w).scan.Ranged := fun h => h ▸ hs.scan
    cases w
    case scanStartKHz v => exact hs.scan.set .startKHz hw (by rintro (_ | _) h <;> trivial)
    case scanStopKHz v => exact hs.scan.set .stopKHz hw (by rintro (_ | _) h <;> trivial)
    case scanStepKHz v => exact hs.scan.set .stepKHz hw (by rintro (_ | _) h <;> trivial)
    case scanBandwidthHz v =>
      exact hs.scan.set .bandwidthHz hw (by rintro (_ | _) h <;> trivial)
    case scanAntenna v => exact hs.scan.set .antenna hw (by rintro (_ | _) h <;> trivial)
    case scanContinuous b =>
      exact hs.scan.set .continuous trivial (by rintro (_ | _) h <;> trivial)
    all_goals exact hsame rfl
  obtain ⟨hmode, hvol, hdeem, hant, hgain, hagc, hdaa, hsq, hrot, hint, hdet, -⟩ := hs
  cases w <;> constructor <;> first | exact hscan | assumption

/-! ### Every effect of a command is in range -/

theorem Setter.ranged {tunes : Nat → Prop} {w : ServerStore} {c : Callback}
    (h : Setter tunes w c) : w.Ranged ∧ c.Ranged := by
  cases h with
  | frequency _ | bandwidth _ | forceMono _ | scanCancel => exact ⟨trivial, trivial⟩
  | volume hv | alignment hv | mode hv | deemphasis hv | antenna hv | squelch hv | rotator hv =>
    exact ⟨hv, hv⟩

theorem Requester.ranged {hooks : Hooks} {w : ServerStore} {c : Callback} {accepts : Bool}
    (h : Requester hooks w c accepts) : w.Ranged ∧ c.Ranged := by
  cases h with
  | gain hv | agc hv => exact ⟨hv, hv⟩

theorem Notice.ranged {c : Callback} (h : Notice c) : c.Ranged := by
  cases h with
  | start => trivial
  | blendMode hv => exact hv

theorem ScanStore.ranged {w : ServerStore} (h : ScanStore w) : w.Ranged := by
  cases h with
  | startKHz hv | stopKHz hv | stepKHz hv | bandwidthHz hv | antenna hv => exact hv
  | continuous _ | start | cancel => trivial

theorem CommandEffects.ranged {hooks : Hooks} {tunes : Nat → Prop} {effects : List Effect}
    (h : CommandEffects hooks tunes effects) : ∀ e ∈ effects, e.Ranged := by
  apply h.forall_mem (P := Effect.Ranged)
  · intro w c hsetter
    exact hsetter.ranged
  · intro w c accepts hrequester
    exact hrequester.ranged
  · intro interval detector hinterval hdetector
    exact ⟨hinterval, hdetector, hinterval, hdetector⟩
  · intro c hnotice
    exact hnotice.ranged
  · intro w hscan
    exact hscan.ranged

/-! ### Runs -/

/-- The server, the command that holds `m_callbackMutex` and the thread
    that takes scans, with what the callbacks were given so far and what
    `consumeScanStart` returned so far. -/
structure CommandRun where
  server : XDRServer
  /-- What the command has still to do. -/
  pending : List Effect
  /-- The fields `consumeScanStart` has still to load, and its record. -/
  loading : Option (List ScanField × ScanConfig)
  called : List Callback
  consumed : List ScanConfig

inductive CommandRunStep where
  | xdrLine (hooks : Hooks) (cmd : Text) (authenticated guestSession : Bool)
  | fmdxLine (hooks : Hooks) (cmd : Text)
  /-- The next effect of the command in progress. -/
  | effect
  /-- The next step of `consumeScanStart`, called on the record `config`. -/
  | scanStart (config : ScanConfig)

def CommandRun.initial : CommandRun := ⟨.initial, [], none, [], []⟩

/-- A line waits until the mutex is free. -/
def CommandRun.enter (r : CommandRun) (effects : List Effect) : CommandRun :=
  if r.pending.isEmpty then { r with pending := effects } else r

def commandRuns : Machine CommandRun CommandRunStep where
  step r
    | .xdrLine hooks cmd authenticated guestSession =>
        r.enter (processCommand r.server hooks cmd authenticated guestSession).effects
    | .fmdxLine hooks cmd => r.enter (processFmdxCommand r.server hooks cmd).effects
    | .effect =>
        match r.pending with
        | [] => r
        | .store w :: pending => { r with server := r.server.store w, pending := pending }
        | .call c :: pending => { r with called := r.called ++ [c], pending := pending }
    | .scanStart config =>
        match r.loading with
        | none =>
            if r.server.scanStartPending then
              { r with server.scanStartPending := false, loading := some (scanFields, config) }
            else r
        | some (field :: fields, loaded) =>
            { r with loading := some (fields, field.load r.server loaded) }
        | some ([], loaded) => { r with loading := none, consumed := r.consumed ++ [loaded] }

/-- The server is in range, and so is everything on its way to a callback
    or to the scan engine. -/
structure CommandRun.Ranged (r : CommandRun) : Prop where
  server : r.server.Ranged
  pending : ∀ e ∈ r.pending, e.Ranged
  loading : ∀ fields config, r.loading = some (fields, config) →
    ∀ field, field ∈ fields ∨ ScanField.Ranged config field
  called : ∀ c ∈ r.called, c.Ranged
  consumed : ∀ config ∈ r.consumed, config.Ranged

theorem CommandRun.Ranged.enter {r : CommandRun} (hr : r.Ranged) {effects : List Effect}
    (h : ∀ e ∈ effects, e.Ranged) : (r.enter effects).Ranged := by
  unfold CommandRun.enter
  split
  · exact { hr with pending := h }
  · exact hr

/-- Loading a field of a server in range brings it into range and leaves
    the fields loaded before alone. -/
theorem ScanField.load_ranged {server : XDRServer} (hserver : server.Ranged) {field : ScanField}
    {fields : List ScanField} {config : ScanConfig}
    (h : ∀ f, f ∈ field :: fields ∨ f.Ranged config) :
    ∀ f, f ∈ fields ∨ f.Ranged (field.load server config) := by
  intro f
  by_cases heq : f = field
  · right
    rw [heq]
    have hscan := hserver.scan field
    cases field <;> exact hscan
  · rcases h f with hmem | hf
    · left
      exact (List.mem_cons.mp hmem).resolve_left heq
    · right
      cases field <;> cases f <;> first | exact hf | exact absurd rfl heq

theorem CommandRun.Ranged.step {r : CommandRun} (hr : r.Ranged) (a : CommandRunStep) :
    (commandRuns.step r a).Ranged := by
  cases a with
  | xdrLine hooks cmd authenticated guestSession =>
    exact hr.enter
      (processCommand_effects r.server hooks cmd authenticated guestSession).ranged
  | fmdxLine hooks cmd => exact hr.enter (processFmdxCommand_effects r.server hooks cmd).ranged
  | effect =>
    simp only [commandRuns]
    split
    · exact hr
    · next w pending heq =>
      -- what is stored was in range while it was pending
      have hmem := hr.pending
      rw [heq] at hmem
      exact { hr with
        server := hr.server.store (hmem _ List.mem_cons_self)
        pending := fun e he => hmem e (List.mem_cons_of_mem _ he) }
    · next c pending heq =>
      have hmem := hr.pending
      rw [heq] at hmem
      have hcalled : ∀ c' ∈ r.called ++ [c], c'.Ranged := by
        intro c' hc'
        rcases List.mem_append.mp hc' with hc' | hc'
        · exact hr.called c' hc'
        · rw [List.mem_singleton.mp hc']
          exact hmem _ List.mem_cons_self
      exact { hr with
        pending := fun e he => hmem e (List.mem_cons_of_mem _ he)
        called := hcalled }
  | scanStart config =>
    simp only [commandRuns]
    split
    · split
      · -- the flag is no field with a range, and every field is still to be loaded
        have hall : ∀ field : ScanField, field ∈ scanFields := by
          intro field
          cases field <;> decide
        have hserver : { r.server with scanStartPending := false }.Ranged :=
          ⟨hr.server.mode, hr.server.volume, hr.server.deemphasis, hr.server.antenna,
            hr.server.gain, hr.server.agcMode, hr.server.daa, hr.server.squelch,
            hr.server.rotator, hr.server.samplingInterval, hr.server.detector, hr.server.scan⟩
        exact { hr with
          server := hserver
          loading := by
            rintro fields config ⟨⟩ field
            exact .inl (hall field) }
      · exact hr
    · next field fields loaded heq =>
      exact { hr with
        loading := by
          rintro _ _ ⟨⟩
          exact ScanField.load_ranged hr.server (hr.loading _ _ heq) }
    · next loaded heq =>
      -- no field is left to be loaded
      have hloaded : loaded.Ranged := by
        intro field
        exact (hr.loading _ _ heq field).resolve_left List.not_mem_nil
      exact { hr with
        loading := by
          rintro _ _ ⟨⟩
        consumed := by
          intro config hconfig
          rcases List.mem_append.mp hconfig with hconfig | hconfig
          · exact hr.consumed config hconfig
          · rw [List.mem_singleton.mp hconfig]
            exact hloaded }

/-- Along every run, whatever lines either dialect is given and whatever
    the callbacks answer, the fields of the server stay in range, the
    callbacks are given values in range, and so is every scan
    configuration taken. -/
theorem commandRuns_ranged (steps : List CommandRunStep) :
    let r := commandRuns.run .initial steps
    r.server.Ranged ∧ (∀ c ∈ r.called, c.Ranged) ∧ ∀ config ∈ r.consumed, config.Ranged := by
  have hinitial : CommandRun.initial.Ranged := by
    constructor
    case server => exact XDRServer.ranged_initial
    all_goals simp [CommandRun.initial]
  have hstep : ∀ r a, CommandRun.Ranged r → (commandRuns.step r a).Ranged :=
    fun _ a hr => hr.step a
  have hrun := Machine.run_invariant_always hstep steps hinitial
  exact ⟨hrun.server, hrun.called, hrun.consumed⟩

end FmSdrTuner

import FmSdrTuner.Control.MainLoop

/-! # What is wanted around scans

    A scan start captures `requestedFrequencyHz` and `appliedBandwidthHz`;
    `restoreAfterScan` makes requests of the captured values. In between
    the scan may request a bandwidth of its own. The captured values are
    the right ones if the bandwidth in force at the start is still the one
    that clients asked for, and if clients ask for nothing else until the
    restore has been made.

    The history variable keeps what was asked for last, by clients or, if
    it is on, by the adaptive bandwidth. The invariant `ScanKept` carries
    it over a scan. -/

namespace FmSdrTuner

/-! ### Requests under way -/

namespace Application

section requests
variable {β : Type} {sig : RequestSignal β} {cfg : AppConfig} {s : Application}

/-- A request has been announced, or is about to be. -/
def raised (s : Application) (sig : RequestSignal β) : Prop :=
  sig.flag s.commands = true ∨ .command sig.signal ∈ s.clientWrites ∨
    .command sig.signal ∈ s.restWrites

instance (s : Application) (sig : RequestSignal β) : Decidable (s.raised sig) :=
  inferInstanceAs (Decidable (_ ∨ _ ∨ _))

/-- Whatever clients have still to request, they will announce. -/
structure Announced (s : Application) (sig : RequestSignal β) : Prop where
  client : Signalled sig.request (.command sig.signal) s.clientWrites
  rest : Signalled sig.request (.command sig.signal) s.restWrites

theorem Announced.of_quiet (hq : s.Quiet) : s.Announced sig where
  client := by rw [hq.clientWrites_eq]; exact trivial
  rest := by rw [hq.restWrites_eq]; exact trivial

theorem write_flag (s : Application) (w : Write) (h : sig.flag s.commands = true) :
    sig.flag (s.write w).commands = true := by
  cases w with
  | command st => exact sig.keeps _ _ h
  | _ => exact h

theorem raised.write (h : s.raised sig) (w : Write) : (s.write w).raised sig := by
  obtain ⟨hclient, hrest⟩ := s.write_writes w
  rcases h with hflag | hmem
  · exact Or.inl (s.write_flag w hflag)
  · refine Or.inr ?_
    rw [hclient, hrest]
    exact hmem

/-- Performing a write raises the flag, if that is what it does. -/
theorem raised_of_write (s : Application) {w : Write} (hw : w = .command sig.signal) :
    (s.write w).raised sig := by
  subst hw
  exact Or.inl (sig.raises _)

/-- Only the main loop takes a request back. -/
theorem raised.step (h : s.raised sig) {a : AppAction} (hmain : ∀ env, a ≠ .main env) :
    (s.step cfg a).1.raised sig := by
  have hclient := s.step_client cfg hmain
  generalize (s.step cfg a).1 = s' at hclient
  cases hclient with
  | direct w => exact h.write w
  | client w ws hws =>
    unfold raised at h
    rw [hws, List.mem_cons, or_assoc] at h
    rcases h with hflag | hhead | htail | hmem
    · exact raised.write (s := { s with clientWrites := ws }) (Or.inl hflag) w
    · exact raised_of_write _ hhead.symm
    · exact raised.write (s := { s with clientWrites := ws }) (Or.inr (Or.inl htail)) w
    · exact raised.write (s := { s with clientWrites := ws }) (Or.inr (Or.inr hmem)) w
  | rest w ws hws =>
    unfold raised at h
    rw [hws, List.mem_cons] at h
    rcases h with hflag | hmem | hhead | htail
    · exact raised.write (s := { s with restWrites := ws }) (Or.inl hflag) w
    · exact raised.write (s := { s with restWrites := ws }) (Or.inr (Or.inl hmem)) w
    · exact raised_of_write _ hhead.symm
    · exact raised.write (s := { s with restWrites := ws }) (Or.inr (Or.inr htail)) w
  | line hfree =>
    -- nothing was announced by the command before
    unfold raised at h
    rw [hfree] at h
    rcases h with hflag | hmem | hmem
    · exact Or.inl hflag
    · cases hmem
    · exact Or.inr (Or.inr hmem)
  | request controls params ha hfree =>
    unfold raised at h
    rw [hfree] at h
    rcases h with hflag | hmem | hmem
    · exact Or.inl hflag
    · exact Or.inr (Or.inl hmem)
    · cases hmem
  | group | idle => exact h

theorem Announced.write (h : s.Announced sig) (w : Write) : (s.write w).Announced sig := by
  obtain ⟨hclient, hrest⟩ := s.write_writes w
  constructor
  · rw [hclient]; exact h.client
  · rw [hrest]; exact h.rest

theorem Announced.step (h : s.Announced sig) (a : AppAction) :
    (s.step cfg a).1.Announced sig := by
  by_cases hmain : ∃ env, a = .main env
  · obtain ⟨env, rfl⟩ := hmain
    obtain ⟨hclient, hrest⟩ := mainStep_writes cfg s env
    constructor
    · show Signalled _ _ (s.mainStep cfg env).1.clientWrites
      rw [hclient]; exact h.client
    · show Signalled _ _ (s.mainStep cfg env).1.restWrites
      rw [hrest]; exact h.rest
  · have hclient := s.step_client cfg fun env he => hmain ⟨env, he⟩
    generalize (s.step cfg a).1 = s' at hclient
    cases hclient with
    | direct w => exact h.write w
    | client w ws hws =>
      have hall := h.client
      rw [hws] at hall
      exact Announced.write (s := { s with clientWrites := ws }) ⟨hall.2, h.rest⟩ w
    | rest w ws hws =>
      have hall := h.rest
      rw [hws] at hall
      exact Announced.write (s := { s with restWrites := ws }) ⟨h.client, hall.2⟩ w
    | line => exact ⟨Signalled.flatMap (sig.effect _) _, h.rest⟩
    | request controls params => exact ⟨h.client, Signalled.flatMap sig.control _⟩
    | group => exact ⟨h.client, h.rest⟩
    | idle => exact h

/-- A request that is performed is announced. -/
theorem Announced.raised_of_request (h : s.Announced sig) {a : AppAction}
    (hmain : ∀ env, a ≠ .main env) {st : CommandStore}
    (hw : s.performed a = some (.command st)) (hreq : sig.request (.command st) = true) :
    (s.step cfg a).1.raised sig := by
  have hclient := s.step_client cfg hmain
  generalize (s.step cfg a).1 = s' at hclient
  cases hclient with
  | direct w hd hw' =>
    cases hw.symm.trans hw'
    exact absurd hd directWrite_command
  | client w ws hws hw' =>
    cases hw.symm.trans hw'
    have hall := h.client
    rw [hws] at hall
    exact raised.write (s := { s with clientWrites := ws }) (Or.inr (Or.inl (hall.1 hreq))) _
  | rest w ws hws hw' =>
    cases hw.symm.trans hw'
    have hall := h.rest
    rw [hws] at hall
    exact raised.write (s := { s with restWrites := ws }) (Or.inr (Or.inr (hall.1 hreq))) _
  | line hfree hw' | request controls params ha hfree hw' | group group nowMs ha hw'
  | idle ha hw' => cases hw.symm.trans hw'

variable (sig) in
theorem flag_step (h : sig.flag s.commands = true) {a : AppAction}
    (hmain : ∀ env, a ≠ .main env) : sig.flag (s.step cfg a).1.commands = true := by
  rw [step_commands cfg s hmain]
  split
  · exact sig.keeps _ _ h
  · exact h

variable (cfg) in
/-- A client leaves the requested value alone, or announces the change. -/
theorem Announced.value_step (h : s.Announced sig) {a : AppAction}
    (hmain : ∀ env, a ≠ .main env) :
    sig.value (s.step cfg a).1.commands = sig.value s.commands ∨ (s.step cfg a).1.raised sig := by
  have hcommands := step_commands cfg s hmain
  split at hcommands
  · next st hw =>
    cases hreq : sig.request (.command st) with
    | true => exact Or.inr (h.raised_of_request hmain hw hreq)
    | false => exact Or.inl (by rw [hcommands, sig.unchanged _ _ hreq])
  · exact Or.inl (by rw [hcommands])

end requests

end Application

/-! ### Steps of the main loop -/

/-- The main loop is about to write `requestedBandwidthHz` back. -/
def Pc.restoresBandwidth : Pc → Bool
  | .restoreBandwidth _ _ _ => true
  | _ => false

/-- A request of the bandwidth is being made or served. -/
def Pc.servesBandwidth : Pc → Bool
  | .restoreBandwidth _ _ _ | .restoreBandwidthPending _ _ | .loadBandwidth
  | .adaptBandwidthPending => true
  | _ => false

/-- The bandwidth that the adaptive bandwidth is about to ask for. -/
def Pc.adapts : Pc → Option Int
  | .adaptBandwidth bandwidthHz => some bandwidthHz
  | _ => none

section mainStep
variable (cfg : AppConfig) (env : Env) {s : Application}

/-- Besides clients, a scan start, a restore and the adaptive bandwidth
    request a bandwidth. -/
theorem mainStep_requestedBandwidth (s : Application) :
    (s.mainStep cfg env).1.commands.requestedBandwidthHz = s.commands.requestedBandwidthHz ∨
      s.pc = .scanBandwidth ∨
      (∃ freqHz caller, s.pc = .restoreBandwidth freqHz
        (s.mainStep cfg env).1.commands.requestedBandwidthHz caller) ∨
      ∃ bandwidthHz, s.pc = .adaptBandwidth bandwidthHz ∧
        (s.mainStep cfg env).1.commands.requestedBandwidthHz = bandwidthHz := by
  cases hpc : s.pc with
  | scanBandwidth => exact Or.inr (Or.inl rfl)
  | restoreBandwidth freqHz bandwidthHz caller =>
    refine Or.inr (Or.inr (Or.inl ⟨freqHz, caller, ?_⟩))
    simp only [Application.mainStep, hpc]
  | adaptBandwidth bandwidthHz =>
    refine Or.inr (Or.inr (Or.inr ⟨bandwidthHz, rfl, ?_⟩))
    simp only [Application.mainStep, hpc]
  | scanConfig currentFreqHz fields config =>
    cases fields <;> exact Or.inl (by simp only [Application.mainStep, hpc])
  | _ =>
    refine Or.inl ?_
    simp only [Application.mainStep, hpc]
    try ((repeat' split) <;> rfl)

/-- A step applies no bandwidth, or the requested one. -/
theorem mainStep_appliedBandwidth (s : Application) :
    (s.mainStep cfg env).1.appliedBandwidthHz = s.appliedBandwidthHz ∨
      s.pc = .loadBandwidth ∧ (s.mainStep cfg env).1.appliedBandwidthHz =
        (s.mainStep cfg env).1.commands.requestedBandwidthHz := by
  cases hpc : s.pc with
  | loadBandwidth =>
    refine Or.inr ⟨rfl, ?_⟩
    simp only [Application.mainStep, hpc]
  | scanConfig currentFreqHz fields config =>
    cases fields <;> exact Or.inl (by simp only [Application.mainStep, hpc])
  | _ =>
    refine Or.inl ?_
    simp only [Application.mainStep, hpc]
    try ((repeat' split) <;> rfl)

/-- The main loop takes a bandwidth request back only to serve it. -/
theorem mainStep_pendingBandwidth (h : s.commands.pendingBandwidth = true) :
    (s.mainStep cfg env).1.commands.pendingBandwidth = true ∨
      (s.mainStep cfg env).1.pc.servesBandwidth = true := by
  cases hpc : s.pc with
  | pollBandwidth =>
    refine Or.inr ?_
    simp only [Application.mainStep, hpc, h, if_true]
    rfl
  | restoreBandwidthPending | scanBandwidthPending | adaptBandwidthPending =>
    exact Or.inl (by simp only [Application.mainStep, hpc])
  | scanConfig currentFreqHz fields config =>
    cases fields <;> exact Or.inl (by simp only [Application.mainStep, hpc, h])
  | _ =>
    refine Or.inl ?_
    simp only [Application.mainStep, hpc]
    first
      | exact h
      | (repeat' split) <;> exact h

/-- Serving a bandwidth request goes on, or ends with the request announced
    or applied. -/
theorem mainStep_servesBandwidth (h : s.pc.servesBandwidth = true) :
    (s.mainStep cfg env).1.pc.servesBandwidth = true ∨
      (s.mainStep cfg env).1.commands.pendingBandwidth = true ∨
      (s.mainStep cfg env).1.appliedBandwidthHz =
        (s.mainStep cfg env).1.commands.requestedBandwidthHz := by
  cases hpc : s.pc with
  | restoreBandwidth | restoreBandwidthPending | loadBandwidth | adaptBandwidthPending =>
    simp [Application.mainStep, hpc, Pc.servesBandwidth]
  | _ => rw [hpc] at h; cases h

/-- With the device connected a scan ends in a restore of what it captured. -/
theorem mainStep_scan_ends (hconn : s.pc.inBody = true → s.session.rtlConnected = true)
    (hscan : s.scanning = true) (hend : (s.mainStep cfg env).1.scanning = false) :
    ∃ caller, (s.mainStep cfg env).1.pc = .restoreBandwidth s.scanEngine.restoreFreqHz
      s.scanEngine.restoreBandwidthHz caller := by
  revert hend
  cases hpc : s.pc with
  | scanCancel =>
    have hactive : s.scanEngine.active = true := by
      simpa [Application.scanning, hpc, Pc.inSweep] using hscan
    have hdevice := hconn (by rw [hpc]; rfl)
    cases hcancel : s.server.scanCancelPending with
    | true =>
      intro _
      exact ⟨.handleControl, by simp [Application.mainStep, hpc, hcancel, hactive, hdevice]⟩
    | false =>
      simp [Application.mainStep, hpc, hcancel, hactive, Application.scanning]
  | finishScan =>
    simp only [Application.mainStep, hpc]
    split
    · exact fun _ => ⟨.runIfActive, rfl⟩
    · next hkeep =>
      simp only [Bool.or_eq_true, Bool.not_eq_true', not_or, Bool.not_eq_false] at hkeep
      intro hend
      rw [Application.scanning, hkeep.2] at hend
      cases hend
  | sweep =>
    simp only [Application.mainStep, hpc]
    split
    · simp [Application.scanning, Pc.inSweep]
    · split
      · simp [Application.scanning, Pc.inSweep]
      · cases s.server.scanCancelPending <;> simp [Application.scanning, Pc.inSweep]
  | sweepTune centerHz =>
    simp only [Application.mainStep, hpc]
    cases env.tuneOk <;> simp [Application.scanning, Pc.inSweep]
  | fallback =>
    simp only [Application.mainStep, hpc]
    split <;> simp [Application.scanning, Pc.inSweep]
  | scanConfig currentFreqHz fields config =>
    cases fields with
    | nil => simp [Application.mainStep, hpc, Application.scanning]
    | cons field fields =>
      intro hend
      simp [Application.mainStep, hpc, Application.scanning, Pc.inSweep] at hscan hend
      rw [hscan] at hend
      cases hend
  | _ =>
    -- the engine stays active
    intro hend
    exfalso
    have hactive : s.scanEngine.active = true := by
      simpa [Application.scanning, hpc, Pc.inSweep] using hscan
    have hstay : (s.mainStep cfg env).1.scanEngine.active = s.scanEngine.active := by
      simp only [Application.mainStep, hpc]
      try ((repeat' split) <;> rfl)
    rw [Application.scanning, hstay, hactive] at hend
    cases hend

end mainStep

/-! ### History -/

/-- What was asked for last, and what `handleControlAndScan` last tuned
    to. -/
structure Wanted where
  frequencyHz : Nat
  bandwidthHz : Int
  lastAppliedHz : Nat
  deriving DecidableEq, Repr

def Wanted.note (h : Wanted) : Write → Wanted
  | .command (.requestedFrequencyHz hz) => { h with frequencyHz := hz }
  | .command (.requestedBandwidthHz hz) => { h with bandwidthHz := hz }
  | _ => h

/-- Before the run: what is in force. -/
def Wanted.inForce (s : Application) : Wanted :=
  ⟨s.commands.requestedFrequencyHz, s.appliedBandwidthHz, s.commands.requestedFrequencyHz⟩

def observeWanted (h : Wanted) (s : Application) : AppAction → Wanted
  | .main env =>
      match s.pc with
      | .tune freqHz => if env.tuneOk then { h with lastAppliedHz := freqHz } else h
      | .adaptBandwidth bandwidthHz => { h with bandwidthHz := bandwidthHz }
      | _ => h
  | a => (s.performed a).elim h h.note

/-- The application, watched for requests. -/
def wantedRun (cfg : AppConfig) : Machine (Application × Wanted) AppAction :=
  (appMachine cfg).withHistory observeWanted

theorem observeWanted_main (h : Wanted) (s : Application) (env : Env) :
    (observeWanted h s (.main env)).frequencyHz = h.frequencyHz ∧
      (observeWanted h s (.main env)).bandwidthHz = s.pc.adapts.getD h.bandwidthHz := by
  cases hpc : s.pc with
  | tune freqHz =>
    simp only [observeWanted, hpc]
    split <;> exact ⟨rfl, rfl⟩
  | _ => simp [observeWanted, hpc, Pc.adapts]

theorem observeWanted_client (h : Wanted) (s : Application) {a : AppAction}
    (hmain : ∀ env, a ≠ .main env) : observeWanted h s a = (s.performed a).elim h h.note := by
  cases a with
  | main env => exact absurd rfl (hmain env)
  | _ => rfl

/-! ### Conditions -/

/-- `restoreAfterScan` has still to write `requestedFrequencyHz`. -/
def Pc.restoresFrequency : Pc → Bool
  | .restoreBandwidth _ _ _ | .restoreBandwidthPending _ _ | .restoreFrequency _ _ => true
  | _ => false

/-- The frequency that a scan start captures in the next step. -/
def Pc.captures : Pc → Option Nat
  | .scanConfig currentFreqHz [] _ => some currentFreqHz
  | _ => none

/-- The main loop finds the device connected. -/
def DeviceConnected (p : Application × Wanted) : AppAction → Prop
  | .main _ => p.1.pc.inBody = true → p.1.session.rtlConnected = true
  | _ => True

/-- A scan start captures what was asked for last. -/
def CapturesWanted (p : Application × Wanted) : AppAction → Prop
  | .main _ => ∀ freqHz ∈ p.1.pc.captures,
      freqHz = p.2.frequencyHz ∧ p.1.appliedBandwidthHz = p.2.bandwidthHz
  | _ => True

/-- Clients do not change what they want from where a scan start captures to
    where the restore has written it back. -/
def RequestsOutsideScan (p : Application × Wanted) (a : AppAction) : Prop :=
  ∀ w ∈ p.1.performed a,
    ((p.2.note w).frequencyHz = p.2.frequencyHz ∨
      p.1.scanning = false ∧ p.1.pc.restoresFrequency = false) ∧
    ((p.2.note w).bandwidthHz = p.2.bandwidthHz ∨
      p.1.scanning = false ∧ p.1.pc.restoresBandwidth = false)

section decidable
variable (p : Application × Wanted)

instance : ∀ a, Decidable (DeviceConnected p a)
  | .main _ => inferInstanceAs (Decidable (_ → _))
  | .xdrLine .. | .fmdxLine _ | .clientWrite | .fmdxStart | .fmdxStop | .xdrDisconnect
  | .rest .. | .restWrite | .rdsGroup .. => isTrue trivial

instance : ∀ a, Decidable (CapturesWanted p a)
  | .main _ => inferInstanceAs (Decidable (∀ freqHz ∈ p.1.pc.captures, _))
  | .xdrLine .. | .fmdxLine _ | .clientWrite | .fmdxStart | .fmdxStop | .xdrDisconnect
  | .rest .. | .restWrite | .rdsGroup .. => isTrue trivial

instance (a : AppAction) : Decidable (RequestsOutsideScan p a) :=
  inferInstanceAs (Decidable (∀ w ∈ p.1.performed a, _))

end decidable

structure ScanCondition (p : Application × Wanted) (a : AppAction) : Prop where
  connected : DeviceConnected p a
  captures : CapturesWanted p a
  requests : RequestsOutsideScan p a

/-! ### The invariant -/

/-- What `restoreAfterScan` carries along, and where scans are active. -/
def CarriesWanted (s : Application) (h : Wanted) : Pc → Prop
  | .scanBandwidth => s.scanEngine.active = true
  | .read | .adaptBandwidth _ => s.scanEngine.active = false
  | .restoreBandwidth freqHz bandwidthHz _ => freqHz = h.frequencyHz ∧ bandwidthHz = h.bandwidthHz
  | .restoreBandwidthPending freqHz _ | .restoreFrequency freqHz _ => freqHz = h.frequencyHz
  | .restoreTune _ _ => s.commands.pendingFrequency = true
  | _ => True

structure ScanKept (p : Application × Wanted) : Prop where
  frequency : p.1.commands.requestedFrequencyHz = p.2.frequencyHz
  captured : p.1.scanning = true → p.1.scanEngine.restoreFreqHz = p.2.frequencyHz ∧
    p.1.scanEngine.restoreBandwidthHz = p.2.bandwidthHz
  carried : CarriesWanted p.1 p.2 p.1.pc
  bandwidth : p.1.scanning = false → p.1.pc.restoresBandwidth = false →
    p.1.commands.requestedBandwidthHz = p.2.bandwidthHz
  applied : p.1.scanning = false →
    p.1.appliedBandwidthHz = p.1.commands.requestedBandwidthHz ∨
      p.1.raised bandwidthSignal ∨ p.1.pc.servesBandwidth = true
  announced : p.1.Announced bandwidthSignal

/-- A place to start from: what was asked for is in force. -/
structure Application.Settled (s : Application) : Prop extends s.Quiet where
  frequency : s.tunedHz = s.commands.requestedFrequencyHz
  bandwidth : s.appliedBandwidthHz = s.commands.requestedBandwidthHz

theorem Application.initial_settled (commands : XdrCommandState) :
    (Application.initial commands).Settled :=
  { Application.initial_quiet commands with frequency := rfl, bandwidth := rfl }

theorem ScanKept.of_settled {s : Application} (hs : s.Settled) : ScanKept (s, .inForce s) where
  frequency := rfl
  captured h := by
    rw [Application.scanning, hs.inactive, hs.pc_eq] at h
    cases h
  carried := by
    show CarriesWanted s (.inForce s) s.pc
    rw [hs.pc_eq]
    exact trivial
  bandwidth _ _ := hs.bandwidth.symm
  applied _ := Or.inl hs.bandwidth
  announced := .of_quiet hs.toQuiet

section kept
variable {cfg : AppConfig} {s : Application} {h : Wanted}

/-! ### Steps of the main loop keep it -/

/-- During a scan the adaptive bandwidth asks for nothing. -/
theorem ScanKept.adapts_none (hk : ScanKept (s, h)) (hscan : s.scanning = true) :
    s.pc.adapts = none := by
  have hcarried : CarriesWanted s h s.pc := hk.carried
  cases hpc : s.pc with
  | adaptBandwidth bandwidthHz =>
    rw [hpc] at hcarried
    rw [Application.scanning, show s.scanEngine.active = false from hcarried, hpc] at hscan
    cases hscan
  | _ => rfl

variable (cfg) in
theorem mainStep_carries (hk : ScanKept (s, h)) (env : Env)
    (hconn : DeviceConnected (s, h) (.main env)) :
    CarriesWanted (s.mainStep cfg env).1 (observeWanted h s (.main env))
      (s.mainStep cfg env).1.pc := by
  have hcarried : CarriesWanted s h s.pc := hk.carried
  cases hpc : s.pc with
  | restoreBandwidth freqHz bandwidthHz caller =>
    rw [hpc] at hcarried
    simp only [Application.mainStep, hpc, observeWanted]
    exact hcarried.1
  | restoreBandwidthPending freqHz caller =>
    rw [hpc] at hcarried
    simp only [Application.mainStep, hpc, observeWanted]
    exact hcarried
  | scanConfig currentFreqHz fields config =>
    cases fields with
    | nil =>
      simp only [Application.mainStep, hpc]
      split
      · exact rfl
      · trivial
    | cons field fields =>
      simp only [Application.mainStep, hpc]
      trivial
  | runScan =>
    -- with the device connected, a round without a scan goes on to the read
    have hdevice : s.session.rtlConnected = true := hconn (by rw [hpc]; rfl)
    simp only [Application.mainStep, hpc, hdevice, Bool.and_true]
    cases hactive : s.scanEngine.active with
    | true => trivial
    | false => exact hactive
  | read =>
    rw [hpc] at hcarried
    simp only [Application.mainStep, hpc]
    split
    · split
      · trivial
      · split
        · trivial
        · exact hcarried
    · trivial
  | scanCancel =>
    simp only [Application.mainStep, hpc, observeWanted]
    split
    · next hcond =>
      simp only [Bool.and_eq_true] at hcond
      exact hk.captured (by rw [Application.scanning, hcond.1.2, Bool.true_or])
    · trivial
  | finishScan =>
    simp only [Application.mainStep, hpc, observeWanted]
    split
    · exact hk.captured (by rw [Application.scanning, hpc, Pc.inSweep, Bool.or_true])
    · trivial
  | restoreFrequencyPending freqHz caller =>
    simp only [Application.mainStep, hpc]
    exact rfl
  | restoreTune freqHz caller =>
    simp only [Application.mainStep, hpc]
    split <;> cases caller <;> trivial
  | _ =>
    simp only [Application.mainStep, hpc]
    first
      | trivial
      | (repeat' split) <;> trivial

/-- A bandwidth request that no scan interferes with is served. -/
theorem mainStep_applied (hk : ScanKept (s, h)) (env : Env) (hbefore : s.scanning = false) :
    (s.mainStep cfg env).1.appliedBandwidthHz =
        (s.mainStep cfg env).1.commands.requestedBandwidthHz ∨
      (s.mainStep cfg env).1.raised bandwidthSignal ∨
      (s.mainStep cfg env).1.pc.servesBandwidth = true := by
  obtain ⟨hclient, hrest⟩ := Application.mainStep_writes cfg s env
  have hserved : s.pc.servesBandwidth = true →
      (s.mainStep cfg env).1.appliedBandwidthHz =
          (s.mainStep cfg env).1.commands.requestedBandwidthHz ∨
        (s.mainStep cfg env).1.raised bandwidthSignal ∨
        (s.mainStep cfg env).1.pc.servesBandwidth = true := by
    intro hserves
    rcases mainStep_servesBandwidth cfg env hserves with hon | hflag | happlied
    · exact Or.inr (Or.inr hon)
    · exact Or.inr (Or.inl (Or.inl hflag))
    · exact Or.inl happlied
  rcases hk.applied hbefore with happlied | (hflag | hmem) | hserves
  · -- in force, and then neither variable changes without the other
    rcases mainStep_requestedBandwidth cfg env s with
      hsame | hstart | ⟨freqHz, caller, hrestore⟩ | ⟨bandwidthHz, hadapt, -⟩
    · rcases mainStep_appliedBandwidth cfg env s with hkeep | ⟨-, hload⟩
      · exact Or.inl (by rw [hkeep, hsame]; exact happlied)
      · exact Or.inl hload
    · -- the engine is active where a scan requests its bandwidth
      have hcarried : CarriesWanted s h s.pc := hk.carried
      rw [hstart] at hcarried
      rw [Application.scanning, show s.scanEngine.active = true from hcarried] at hbefore
      cases hbefore
    · exact hserved (by rw [hrestore]; rfl)
    · exact Or.inr (Or.inr (by simp only [Application.mainStep, hadapt]; rfl))
  · rcases mainStep_pendingBandwidth cfg env hflag with hkeep | hserves
    · exact Or.inr (Or.inl (Or.inl hkeep))
    · exact Or.inr (Or.inr hserves)
  · -- a client has still to set the flag
    refine Or.inr (Or.inl (Or.inr ?_))
    rw [hclient, hrest]
    exact hmem
  · exact hserved hserves

variable (cfg) in
/-- Where no scan interferes, the bandwidth requested is the one asked for
    last. -/
theorem mainStep_bandwidth (hk : ScanKept (s, h)) (env : Env) (hbefore : s.scanning = false) :
    (s.mainStep cfg env).1.commands.requestedBandwidthHz = s.pc.adapts.getD h.bandwidthHz := by
  have hcarried : CarriesWanted s h s.pc := hk.carried
  cases hrestores : s.pc.restoresBandwidth with
  | true =>
    -- the restore writes what the scan start captured
    cases hpc : s.pc with
    | restoreBandwidth freqHz bandwidthHz caller =>
      rw [hpc] at hcarried
      simp only [Application.mainStep, hpc]
      exact hcarried.2
    | _ => rw [hpc] at hrestores; cases hrestores
  | false =>
    cases hadapts : s.pc.adapts with
    | some bandwidthHz =>
      -- the adaptive bandwidth writes what it asks for
      cases hpc : s.pc with
      | adaptBandwidth hz =>
        rw [hpc] at hadapts
        simp only [Application.mainStep, hpc]
        exact Option.some.inj hadapts
      | _ => rw [hpc] at hadapts; cases hadapts
    | none =>
      rcases mainStep_requestedBandwidth cfg env s with
        heq | hstart | ⟨freqHz, caller, hpc⟩ | ⟨bandwidthHz, hadapt, -⟩
      · rw [heq]
        exact hk.bandwidth hbefore hrestores
      · rw [hstart] at hcarried
        rw [Application.scanning, show s.scanEngine.active = true from hcarried] at hbefore
        cases hbefore
      · rw [hpc] at hrestores
        cases hrestores
      · rw [hadapt] at hadapts
        cases hadapts

theorem ScanKept.main (hk : ScanKept (s, h)) {env : Env}
    (hc : ScanCondition (s, h) (.main env)) :
    ScanKept ((wantedRun cfg).step (s, h) (.main env)) := by
  obtain ⟨hfreq, hband⟩ := observeWanted_main h s env
  show ScanKept ((s.mainStep cfg env).1, observeWanted h s (.main env))
  have hfrequency : s.commands.requestedFrequencyHz = h.frequencyHz := hk.frequency
  have hcarried : CarriesWanted s h s.pc := hk.carried
  -- a scan that ends leaves the main loop at `restoreBandwidth`
  have hends := mainStep_scan_ends cfg env (s := s) hc.connected
  refine ⟨?_, ?_, ?_, ?_, ?_, hk.announced.step (.main env)⟩
  · show (s.mainStep cfg env).1.commands.requestedFrequencyHz = _
    rw [hfreq]
    rcases s.mainStep_requestedFrequency cfg env with heq | ⟨caller, hpc⟩
    · rw [heq, hfrequency]
    · rw [hpc] at hcarried
      exact hcarried
  · intro hscan
    rw [hfreq, hband]
    rcases Application.mainStep_scanning cfg env hscan with
      ⟨hbefore, hf, hb⟩ | ⟨currentFreqHz, config, hpc, hengine⟩
    · rw [hf, hb, hk.adapts_none hbefore]
      exact hk.captured hbefore
    · rw [hengine, hpc]
      exact hc.captures currentFreqHz (by rw [hpc]; rfl)
  · exact mainStep_carries cfg hk env hc.connected
  · intro hscan hpc
    show (s.mainStep cfg env).1.commands.requestedBandwidthHz = _
    rw [hband]
    cases hbefore : s.scanning with
    | true =>
      obtain ⟨caller, hrestore⟩ := hends hbefore hscan
      rw [hrestore] at hpc
      cases hpc
    | false => exact mainStep_bandwidth cfg hk env hbefore
  · intro hscan
    show (s.mainStep cfg env).1.appliedBandwidthHz = _ ∨ _
    cases hbefore : s.scanning with
    | true =>
      obtain ⟨caller, hrestore⟩ := hends hbefore hscan
      exact Or.inr (Or.inr (by rw [hrestore]; rfl))
    | false => exact mainStep_applied hk env hbefore

/-! ### Steps of the clients keep it -/

variable (cfg) in
/-- The command state follows what clients want. -/
theorem step_wanted (s : Application) (h : Wanted) {a : AppAction}
    (hmain : ∀ env, a ≠ .main env) :
    (s.commands.requestedFrequencyHz = h.frequencyHz →
      (s.step cfg a).1.commands.requestedFrequencyHz = (observeWanted h s a).frequencyHz) ∧
    (s.commands.requestedBandwidthHz = h.bandwidthHz →
      (s.step cfg a).1.commands.requestedBandwidthHz = (observeWanted h s a).bandwidthHz) := by
  rw [Application.step_commands cfg s hmain, observeWanted_client h s hmain]
  cases s.performed a with
  | none => exact ⟨id, id⟩
  | some w =>
    cases w with
    | command st =>
      cases st with
      | requestedFrequencyHz hz => exact ⟨fun _ => rfl, id⟩
      | requestedBandwidthHz hz => exact ⟨id, fun _ => rfl⟩
      | _ => exact ⟨id, id⟩
    | _ => exact ⟨id, id⟩

/-- What clients want changes only where no scan can overwrite it. -/
theorem RequestsOutsideScan.wanted {a : AppAction} (hr : RequestsOutsideScan (s, h) a)
    (hmain : ∀ env, a ≠ .main env) :
    ((observeWanted h s a).frequencyHz = h.frequencyHz ∨
      s.scanning = false ∧ s.pc.restoresFrequency = false) ∧
    ((observeWanted h s a).bandwidthHz = h.bandwidthHz ∨
      s.scanning = false ∧ s.pc.restoresBandwidth = false) := by
  rw [observeWanted_client h s hmain]
  cases hw : s.performed a with
  | none => exact ⟨Or.inl rfl, Or.inl rfl⟩
  | some w => exact hr w hw

theorem ScanKept.client (hk : ScanKept (s, h)) {a : AppAction} (hmain : ∀ env, a ≠ .main env)
    (hr : RequestsOutsideScan (s, h) a) : ScanKept ((wantedRun cfg).step (s, h) a) := by
  show ScanKept ((s.step cfg a).1, observeWanted h s a)
  obtain ⟨hpc, -, -, hengine, -, happlied⟩ := s.step_own cfg hmain
  obtain ⟨hfreq, hband⟩ := step_wanted cfg s h hmain
  obtain ⟨hfwant, hbwant⟩ := hr.wanted hmain
  have hscanning : (s.step cfg a).1.scanning = s.scanning := (s.step_own cfg hmain).scanning
  refine ⟨hfreq hk.frequency, ?_, ?_, ?_, ?_, hk.announced.step a⟩
  · -- during a scan clients do not change what they want
    intro hscan
    replace hscan : s.scanning = true := hscanning.symm.trans hscan
    have hcaptured := hk.captured hscan
    rw [hscan] at hfwant hbwant
    rw [hengine, hfwant.resolve_right (by simp), hbwant.resolve_right (by simp)]
    exact hcaptured
  · -- nor while the main loop carries it
    have hcarried : CarriesWanted s h s.pc := hk.carried
    show CarriesWanted (s.step cfg a).1 (observeWanted h s a) (s.step cfg a).1.pc
    rw [hpc]
    cases hat : s.pc with
    | scanBandwidth | read | adaptBandwidth bandwidthHz =>
      rw [hat] at hcarried
      exact (congrArg ScanEngine.active hengine).trans hcarried
    | restoreBandwidth freqHz bandwidthHz caller =>
      rw [hat] at hcarried hfwant hbwant
      exact ⟨hcarried.1.trans (hfwant.resolve_right fun hno => by cases hno.2).symm,
        hcarried.2.trans (hbwant.resolve_right fun hno => by cases hno.2).symm⟩
    | restoreBandwidthPending freqHz caller | restoreFrequency freqHz caller =>
      rw [hat] at hcarried hfwant
      exact hcarried.trans (hfwant.resolve_right fun hno => by cases hno.2).symm
    | restoreTune freqHz caller =>
      rw [hat] at hcarried
      exact Application.flag_step frequencySignal hcarried hmain
    | _ => trivial
  · intro hscan hrestores
    rw [hpc] at hrestores
    exact hband (hk.bandwidth (hscanning.symm.trans hscan) hrestores)
  · -- a client that changes the bandwidth raises its flag, and the poll applies it
    intro hscan
    show (s.step cfg a).1.appliedBandwidthHz = _ ∨ _
    rw [happlied, hpc]
    rcases hk.applied (hscanning.symm.trans hscan) with heq | hraised | hserves
    · rcases hk.announced.value_step cfg hmain with hsame | hraised
      · exact Or.inl (heq.trans hsame.symm)
      · exact Or.inr (Or.inl hraised)
    · exact Or.inr (Or.inl (hraised.step hmain))
    · exact Or.inr (Or.inr hserves)

theorem scanKept_step (p : Application × Wanted) (a : AppAction) (hk : ScanKept p)
    (hc : ScanCondition p a) : ScanKept ((wantedRun cfg).step p a) := by
  by_cases hmain : ∃ env, a = .main env
  · obtain ⟨env, rfl⟩ := hmain
    exact hk.main hc
  · exact hk.client (fun env he => hmain ⟨env, he⟩) hc.requests

end kept

/-! ### When no scan is active -/

/-- A request of the frequency is being made or served. -/
def Pc.servesFrequency : Pc → Bool
  | .restoreBandwidth _ _ _ | .restoreBandwidthPending _ _ | .restoreFrequency _ _
  | .restoreFrequencyPending _ _ | .restoreTune _ _ | .loadFrequency | .tune _ => true
  | _ => false

/-- No scan is active and no request is pending, announced or served. -/
structure Application.Idle (s : Application) : Prop where
  scanning : s.scanning = false
  frequency : ¬ s.raised frequencySignal
  bandwidth : ¬ s.raised bandwidthSignal
  servesFrequency : s.pc.servesFrequency = false
  servesBandwidth : s.pc.servesBandwidth = false

/-- In an idle state the bandwidth asked for last is in force. -/
theorem ScanKept.idle {p : Application × Wanted} (hk : ScanKept p) (hidle : p.1.Idle) :
    p.1.appliedBandwidthHz = p.2.bandwidthHz := by
  have hrestores : p.1.pc.restoresBandwidth = false := by
    have hserves := hidle.servesBandwidth
    revert hserves
    cases p.1.pc <;> first | exact fun _ => rfl | exact fun hs => hs
  rcases hk.applied hidle.scanning with heq | hraised | hserves
  · rw [heq]
    exact hk.bandwidth hidle.scanning hrestores
  · exact absurd hraised hidle.bandwidth
  · rw [hidle.servesBandwidth] at hserves
    cases hserves

end FmSdrTuner

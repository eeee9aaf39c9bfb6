import FmSdrTuner.Control.MainLoop

/-! # Retunes and the PI history

    After a successful retune `handleControlAndScan` calls
    `setFrequencyState`, which forgets the PI history if the frequency
    differs from `m_frequency`. The command handlers have stored the new
    frequency there already; only a REST request, or a restore after a
    scan, leaves the difference to be seen.

    The history variable records the frequency last applied and the groups
    received since. Main result: `retunes_clear_pi_iff`. -/

namespace FmSdrTuner

/-! ### History -/

structure RetuneHistory where
  /-- The frequency that `handleControlAndScan` applied last. -/
  lastApplied : Nat
  /-- Block A of the groups received since it changed, the newest first. -/
  since : List (BitVec 16)
  deriving DecidableEq, Repr

def RetuneHistory.apply (h : RetuneHistory) (freqHz : Nat) : RetuneHistory :=
  if freqHz = h.lastApplied then h else ⟨freqHz, []⟩

/-- Will `setFrequencyState` forget the history? -/
def XDRServer.forgets (s : XDRServer) (freqHz : Nat) : Bool :=
  freqHz ≠ 0 && freqHz ≠ s.frequency

/-- A retune counts as applied when `setFrequencyState` is through with the
    history, forgotten or not. -/
def observeRetune (h : RetuneHistory) (s : Application) : AppAction → RetuneHistory
  | .main _ =>
      match s.pc with
      | .compareFrequency freqHz => if s.server.forgets freqHz then h else h.apply freqHz
      | .clearPi freqHz => h.apply freqHz
      | _ => h
  | .rdsGroup group _ => { h with since := group.blockA :: h.since }
  | _ => h

/-- The application, watched for retunes. -/
def retuneRun (cfg : AppConfig) : Machine (Application × RetuneHistory) AppAction :=
  (appMachine cfg).withHistory observeRetune

/-! ### The property and the condition -/

/-- The property of one step: where a frequency other than the last one has
    been applied, the history is empty. -/
def ClearsPi (cfg : AppConfig) (p : Application × RetuneHistory) (a : AppAction) : Prop :=
  ∀ env freqHz, a = .main env →
    (p.1.pc = .compareFrequency freqHz ∧ (p.1.mainStep cfg env).1.pc ≠ .clearPi freqHz ∨
      p.1.pc = .clearPi freqHz) →
    freqHz ≠ p.2.lastApplied → (p.1.mainStep cfg env).1.server.pi.isEmpty

/-- A new frequency is one that the server does not know yet, unless nothing
    has been received. -/
def FrequencyUnknown (p : Application × RetuneHistory) (a : AppAction) : Prop :=
  ∀ env freqHz, a = .main env → p.1.pc = .compareFrequency freqHz →
    freqHz ≠ p.2.lastApplied → p.1.server.forgets freqHz = true ∨ p.1.server.pi.isEmpty

section steps
variable {cfg : AppConfig} {env : Env} {s : Application}

variable (cfg env) in
/-- The comparison of `setFrequencyState`. -/
theorem mainStep_compareFrequency {freqHz : Nat} (hpc : s.pc = .compareFrequency freqHz) :
    (s.mainStep cfg env).1.server = s.server ∧
      ((s.mainStep cfg env).1.pc = .clearPi freqHz ↔ s.server.forgets freqHz = true) := by
  simp only [Application.mainStep, hpc, XDRServer.forgets, true_and]
  by_cases hzero : freqHz = 0
  · simp [hzero]
  · rw [if_neg hzero]
    by_cases hknown : freqHz = s.server.frequency
    · rw [if_neg (not_not_intro hknown)]
      simp [hknown]
    · simp [hzero, hknown]

/-- The main loop changes the PI history only to forget it. -/
theorem mainStep_pi (hpc : ∀ freqHz, s.pc ≠ .clearPi freqHz) :
    (s.mainStep cfg env).1.server.pi = s.server.pi := by
  unfold Application.mainStep
  split
  all_goals first
    | rfl
    | exact absurd ‹_› (hpc _)
    | (repeat' split) <;> rfl

theorem write_pi (s : Application) (w : Write) : (s.write w).server.pi = s.server.pi := by
  cases w with
  | server st => cases st <;> rfl
  | _ => rfl

/-- Of all others only the RDS worker changes it. -/
theorem step_pi (cfg : AppConfig) (s : Application) {a : AppAction}
    (hmain : ∀ env, a ≠ .main env) (hrds : ∀ group nowMs, a ≠ .rdsGroup group nowMs) :
    (s.step cfg a).1.server.pi = s.server.pi := by
  have hclient := s.step_client cfg hmain
  generalize (s.step cfg a).1 = s' at hclient
  cases hclient with
  | direct | client | rest => rw [write_pi]
  | line | request | idle => rfl
  | group group nowMs ha => exact absurd ha (hrds group nowMs)

/-- Step by step the property is the condition. -/
theorem clearsPi_iff (cfg : AppConfig) (p : Application × RetuneHistory) (a : AppAction) :
    ClearsPi cfg p a ↔ FrequencyUnknown p a := by
  constructor
  · intro h env freqHz ha hpc hnew
    obtain ⟨hserver, hnext⟩ := mainStep_compareFrequency cfg env hpc
    by_cases hforgets : p.1.server.forgets freqHz = true
    · exact Or.inl hforgets
    · have hempty := h env freqHz ha (Or.inl ⟨hpc, fun he => hforgets (hnext.mp he)⟩) hnew
      rw [hserver] at hempty
      exact Or.inr hempty
  · intro h env freqHz ha hpc hnew
    rcases hpc with ⟨hpc, hstay⟩ | hpc
    · obtain ⟨hserver, hnext⟩ := mainStep_compareFrequency cfg env hpc
      rw [hserver]
      exact (h env freqHz ha hpc hnew).resolve_left fun he => hstay (hnext.mpr he)
    · rw [Application.mainStep, hpc]
      exact PiHistory.isEmpty_cleared

/-! ### The run -/

/-- The history holds groups received since the last retune only. -/
def PiFresh (p : Application × RetuneHistory) : Prop :=
  p.1.server.pi.HoldsLatest p.2.since

theorem piFresh_initial (commands : XdrCommandState) :
    PiFresh (Application.initial commands, ⟨commands.requestedFrequencyHz, []⟩) :=
  .cleared []

theorem PiFresh.apply {p : Application × RetuneHistory} (h : PiFresh p) {freqHz : Nat}
    (hempty : freqHz ≠ p.2.lastApplied → p.1.server.pi.isEmpty) :
    p.1.server.pi.HoldsLatest (p.2.apply freqHz).since := by
  unfold RetuneHistory.apply
  split
  · exact h
  · next hnew => exact h.of_isEmpty (hempty hnew)

theorem piFresh_main {p : Application × RetuneHistory} (h : PiFresh p)
    (hunknown : FrequencyUnknown p (.main env)) :
    PiFresh ((retuneRun cfg).step p (.main env)) := by
  by_cases hclear : ∃ freqHz, p.1.pc = .clearPi freqHz
  · obtain ⟨freqHz, hpc⟩ := hclear
    have hpi : (p.1.mainStep cfg env).1.server.pi = PiHistory.cleared := by
      rw [Application.mainStep, hpc]
    show (p.1.mainStep cfg env).1.server.pi.HoldsLatest (observeRetune p.2 p.1 (.main env)).since
    rw [hpi]
    exact .cleared _
  · have hpi : (p.1.mainStep cfg env).1.server.pi = p.1.server.pi :=
      mainStep_pi fun freqHz he => hclear ⟨freqHz, he⟩
    show (p.1.mainStep cfg env).1.server.pi.HoldsLatest (observeRetune p.2 p.1 (.main env)).since
    rw [hpi]
    cases hpc : p.1.pc with
    | compareFrequency freqHz =>
      simp only [observeRetune, hpc]
      split
      · exact h
      · next hkeeps =>
        -- nothing will be forgotten
        exact h.apply fun hnew => (hunknown env freqHz rfl hpc hnew).resolve_left hkeeps
    | clearPi freqHz => exact absurd ⟨freqHz, hpc⟩ hclear
    | _ =>
      simp only [observeRetune, hpc]
      exact h

theorem piFresh_step (p : Application × RetuneHistory) (a : AppAction) (h : PiFresh p)
    (hunknown : FrequencyUnknown p a) : PiFresh ((retuneRun cfg).step p a) := by
  by_cases hmain : ∃ env, a = .main env
  · obtain ⟨env, rfl⟩ := hmain
    exact piFresh_main h hunknown
  · by_cases hrds : ∃ group nowMs, a = .rdsGroup group nowMs
    · obtain ⟨group, nowMs, rfl⟩ := hrds
      exact XDRServer.updateRDS_holdsLatest h group nowMs
    · have hpi := step_pi cfg p.1 (fun env he => hmain ⟨env, he⟩)
        fun group nowMs he => hrds ⟨group, nowMs, he⟩
      have hobs : observeRetune p.2 p.1 a = p.2 := by
        cases a with
        | main env => exact absurd ⟨env, rfl⟩ hmain
        | rdsGroup group nowMs => exact absurd ⟨group, nowMs, rfl⟩ hrds
        | _ => rfl
      show ((p.1.step cfg a).1.server.pi).HoldsLatest (observeRetune p.2 p.1 a).since
      rw [hpi, hobs]
      exact h

end steps

/-! ### Main result -/

/-- Every retune of a run clears the PI history exactly if each new
    frequency reaches the comparison before the server knows it, or while
    the history is empty. Then nothing that `evaluatePiState` looks at, and
    no repeated `P` line, is older than the last retune. -/
theorem retunes_clear_pi_iff (cfg : AppConfig) (commands : XdrCommandState)
    (acts : List AppAction) :
    let start := (Application.initial commands, RetuneHistory.mk commands.requestedFrequencyHz [])
    let p := (retuneRun cfg).run start acts
    ((retuneRun cfg).Meets (ClearsPi cfg) start acts ↔
      (retuneRun cfg).Meets FrequencyUnknown start acts) ∧
    ((retuneRun cfg).Meets FrequencyUnknown start acts →
      p.1.server.pi.HoldsLatest p.2.since ∧
      (∀ i < p.1.server.pi.fill, p.1.server.pi.buffer.getD i 0 ∈ p.2.since) ∧
      ∀ nowMs line, p.1.server.piKeepAlive nowMs = some line →
        ∃ blockA ∈ p.2.since, line = 'P' :: hexUpper 4 blockA.toNat ++ ['\n']) := by
  intro start p
  refine ⟨Machine.meets_congr (clearsPi_iff cfg) start acts, ?_⟩
  intro hunknown
  have hfresh : PiFresh p := Machine.run_invariant piFresh_step (piFresh_initial commands) hunknown
  exact ⟨hfresh, fun i hi => hfresh.mem hi,
    fun nowMs line hline => XDRServer.piKeepAlive_mem hfresh hline⟩

/-- Tuned to 88.5 MHz, two groups of one station; then an XDR client tunes
    to 90 MHz. Its command stores `m_frequency`, so the comparison finds no
    difference: the old PI is kept, and repeated. -/
theorem xdr_tune_keeps_old_pi :
    let start := (Application.initial (.create 88500000 0 2 0 85 0 false),
      RetuneHistory.mk 88500000 [])
    let env : Env := ⟨true, ⟨true, true, true, false⟩, true, true, none, none⟩
    let group : RdsGroup := ⟨0x1234, 0, 0, 0, 0⟩
    let acts := .fmdxStart :: .rdsGroup group 1000 :: .rdsGroup group 1100 ::
      .xdrLine "T90000".toList false :: .clientWrite :: .clientWrite :: .clientWrite ::
      List.replicate 10 (.main env)
    let p := (retuneRun ⟨⟨false, true, false⟩, ⟨0, true⟩⟩).run start acts
    p.1.pc = .storeFrequency 90000000 ∧ p.1.tunedHz = 90000000 ∧
      p.2.lastApplied = 90000000 ∧ p.2.since = [] ∧ p.1.server.pi.fill = 2 ∧
      p.1.server.piKeepAlive 1200 = some "P1234\n".toList := by
  decide +kernel

end FmSdrTuner

import FmSdrTuner.Control.MainLoop

/-! # Reconnecting after failed reads

    With `autoReconnect` the tuner session reconnects after 20 reads in a
    row without samples, or at once when the device reports a failure.
    Every attempt is made by a session that believes to be connected: an
    attempt that fails leaves it disconnected, no read tries again, and
    since the tuner still counts as active no start request does.

    Main result: `reads_never_fail_unanswered`. -/

namespace FmSdrTuner

/-! ### What touches the session -/

section session
variable (cfg : AppConfig) (env : Env) {s : Application}

/-- Three steps touch the tuner session. -/
theorem mainStep_session (h1 : s.pc ≠ .stopTuner) (h2 : s.pc ≠ .startTuner)
    (h3 : s.pc ≠ .read) :
    (s.mainStep cfg env).1.session = s.session ∧
      (s.mainStep cfg env).1.tunerActive = s.tunerActive ∧
      .connect ∉ (s.mainStep cfg env).2 := by
  unfold Application.mainStep
  split
  all_goals first
    | contradiction
    | simp; done
    | split <;> simp; done
    | split <;> (try split) <;> simp

variable {cfg env} in
/-- The body of the loop is entered only with the tuner active. -/
theorem mainStep_inBody (h : (s.mainStep cfg env).1.pc.inBody = true) :
    s.pc.inBody = true ∨ (s.pc = .pollStart ∧ s.tunerActive = true) ∨
      (s.pc = .startTuner ∧ (s.mainStep cfg env).1.tunerActive = true) := by
  cases hpc : s.pc with
  | pollStop =>
    simp only [Application.mainStep, hpc] at h
    split at h <;> cases h
  | clearStart => simp [Application.mainStep, hpc, Pc.inBody] at h
  | stopTuner => simp [Application.mainStep, hpc, Pc.inBody] at h
  | pollStart =>
    simp only [Application.mainStep, hpc] at h
    split at h
    · next hactive => exact Or.inr (Or.inl ⟨rfl, hactive⟩)
    · split at h <;> cases h
  | startTuner =>
    simp only [Application.mainStep, hpc] at h ⊢
    split at h
    · next hconn => exact Or.inr (Or.inr ⟨trivial, hconn⟩)
    · cases h
  | _ => exact Or.inl rfl

variable {cfg env} in
/-- Only an inactive tuner is started. -/
theorem mainStep_startTuner (h : (s.mainStep cfg env).1.pc = .startTuner) :
    s.tunerActive = false := by
  cases hpc : s.pc with
  | pollStop =>
    simp only [Application.mainStep, hpc] at h
    split at h <;> cases h
  | clearStart => simp [Application.mainStep, hpc] at h
  | stopTuner => simp [Application.mainStep, hpc] at h
  | pollStart =>
    simp only [Application.mainStep, hpc] at h
    cases hactive : s.tunerActive with
    | false => rfl
    | true => simp [hactive] at h
  | startTuner =>
    simp only [Application.mainStep, hpc] at h
    split at h <;> cases h
  | _ =>
    have hbody : s.pc.inBody = true := by simp [hpc, Pc.inBody]
    rcases (Application.mainStep_body cfg env hbody).1 with hin | hout
    · rw [h] at hin; cases hin
    · rw [h] at hout; cases hout

end session

/-! ### Counting failed reads -/

/-- How many reads in a row have failed without a reset of the counter and
    without a call of `tuner.connect`. -/
def observeFailures (cfg : AppConfig) (n : Nat) (s : Application) (a : AppAction) : Nat :=
  match a with
  | .main env =>
      if .connect ∈ (s.mainStep cfg env).2 then 0
      else if s.pc = .read then (if env.readOk then 0 else n + 1)
      else n
  | _ => n

abbrev failureRun (cfg : AppConfig) : Machine (Application × Nat) AppAction :=
  (appMachine cfg).withHistory (observeFailures cfg)

/-- No failed read leads to a reconnect that fails. -/
def ReconnectSucceeds (cfg : AppConfig) (s : Application) : AppAction → Prop
  | .main env => s.pc = .read ∧ .connect ∈ (s.mainStep cfg env).2 → env.answers.connects = true
  | _ => True

instance (cfg : AppConfig) (s : Application) (a : AppAction) :
    Decidable (ReconnectSucceeds cfg s a) :=
  match a with
  | .main _ => inferInstanceAs (Decidable (_ → _))
  | .xdrLine .. | .fmdxLine _ | .clientWrite | .fmdxStart | .fmdxStop | .xdrDisconnect
  | .rest .. | .restWrite | .rdsGroup .. => isTrue trivial

/-- What holds as long as every reconnect succeeds. -/
structure Answered (p : Application × Nat) : Prop where
  connected : p.1.tunerActive = true → p.1.session.rtlConnected = true
  active : p.1.pc.inBody = true → p.1.tunerActive = true
  counted : p.2 ≤ p.1.session.consecutiveReadFailures
  below : p.1.session.consecutiveReadFailures < 20

theorem answered_initial (commands : XdrCommandState) :
    Answered (Application.initial commands, 0) :=
  ⟨by simp [Application.initial], by simp [Application.initial, Pc.inBody], Nat.le_refl _,
    by simp [Application.initial]⟩

section step
variable {cfg : AppConfig} {p : Application × Nat} {env : Env}

theorem Answered.read (hauto : cfg.session.autoReconnect = true) (hp : Answered p)
    (hpc : p.1.pc = .read) (hok : ReconnectSucceeds cfg p.1 (.main env)) :
    Answered ((failureRun cfg).step p (.main env)) := by
  obtain ⟨s, n⟩ := p
  replace hpc : s.pc = .read := hpc
  have hactive : s.tunerActive = true := hp.active (by simp [hpc, Pc.inBody])
  have hconn : s.session.rtlConnected = true := hp.connected hactive
  have hcounted : n ≤ s.session.consecutiveReadFailures := hp.counted
  cases hread : env.readOk with
  | true =>
    obtain ⟨pc, hstep⟩ : ∃ pc, s.mainStep cfg env =
        -- the counter starts again at 0
        ({ s with session := s.session.resetReadFailures, pc := pc }, []) :=
      ⟨_, by simp only [Application.mainStep, hpc, hread, if_true]; rfl⟩
    refine ⟨?_, ?_, ?_, ?_⟩ <;>
      simp [appMachine, Application.step, hstep, observeFailures, hpc, hread, hconn, hactive,
        TunerSession.resetReadFailures]
  | false =>
    have hnote : s.mainStep cfg env =
        (let noted := s.session.noteReadFailureAndMaybeReconnect cfg.session env.answers
          s.commands.requestedFrequencyHz
        ({ s with
            session := noted.1
            tunedHz := s.tunedAfter env.answers noted.2
            pc := .pollStop }, noted.2)) := by
      simp only [Application.mainStep, hpc, hread, Bool.false_eq_true, if_false]
    rcases s.session.note_cases cfg.session env.answers s.commands.requestedFrequencyHz hauto
      with ⟨-, hmem, hsess⟩ | ⟨hfew, hcount⟩
    · -- a reconnect, which succeeds
      have hconnects : env.answers.connects = true :=
        hok ⟨hpc, by rw [hnote]; exact hmem⟩
      refine ⟨?_, ?_, ?_, ?_⟩ <;>
        simp [appMachine, Application.step, hnote, observeFailures, hmem, hsess, hconnects,
          Pc.inBody]
    · -- one failure more, and still fewer than 20
      have hlt := hfew hconn
      rw [hcount] at hnote
      refine ⟨?_, ?_, ?_, ?_⟩ <;>
        simp [appMachine, Application.step, hnote, observeFailures, hpc, hread, hconn,
          Pc.inBody]
      · exact hcounted
      · exact hlt

theorem Answered.startTuner (hp : Answered p) (hpc : p.1.pc = .startTuner) :
    Answered ((failureRun cfg).step p (.main env)) := by
  obtain ⟨s, n⟩ := p
  replace hpc : s.pc = .startTuner := hpc
  have hcounted : n ≤ s.session.consecutiveReadFailures := hp.counted
  have hbelow := hp.below
  have hsame := s.session.connect_failures cfg.session env.answers
    s.commands.requestedFrequencyHz
  refine ⟨?_, ?_, ?_, ?_⟩
  · simp [appMachine, Application.step, Application.mainStep, hpc]
  · simp only [appMachine, Application.step, Application.mainStep, hpc, Machine.withHistory_step]
    split
    · next hconn => exact fun _ => hconn
    · simp [Pc.inBody]
  · simp only [appMachine, Application.step, Application.mainStep, hpc, Machine.withHistory_step,
      observeFailures, hsame]
    split
    · exact Nat.zero_le _
    · simpa using hcounted
  · simpa [appMachine, Application.step, Application.mainStep, hpc, hsame] using hbelow

theorem Answered.stopTuner (hp : Answered p) (hpc : p.1.pc = .stopTuner) :
    Answered ((failureRun cfg).step p (.main env)) := by
  obtain ⟨s, n⟩ := p
  replace hpc : s.pc = .stopTuner := hpc
  have hcounted : n ≤ s.session.consecutiveReadFailures := hp.counted
  have hbelow : s.session.consecutiveReadFailures < 20 := hp.below
  have hcalls : .connect ∉ s.session.disconnect.2 := by
    unfold TunerSession.disconnect
    split <;> simp
  have hsame : s.session.disconnect.1.consecutiveReadFailures =
      s.session.consecutiveReadFailures := by
    unfold TunerSession.disconnect
    split <;> rfl
  refine ⟨?_, ?_, ?_, ?_⟩ <;>
    simp [appMachine, Application.step, Application.mainStep, hpc, Pc.inBody, observeFailures,
      hcalls, hsame, hcounted, hbelow]

theorem answered_step (hauto : cfg.session.autoReconnect = true) (p : Application × Nat)
    (a : AppAction) (hp : Answered p) (hok : ReconnectSucceeds cfg p.1 a) :
    Answered ((failureRun cfg).step p a) := by
  by_cases hmain : ∃ env, a = .main env
  · obtain ⟨env, rfl⟩ := hmain
    by_cases hread : p.1.pc = .read
    · exact hp.read hauto hread hok
    by_cases hstart : p.1.pc = .startTuner
    · exact hp.startTuner hstart
    by_cases hstop : p.1.pc = .stopTuner
    · exact hp.stopTuner hstop
    -- everywhere else the session and the count stay as they are
    obtain ⟨s, n⟩ := p
    obtain ⟨hsess, hactive, hcalls⟩ := mainStep_session cfg env hstop hstart hread
    have hcount : observeFailures cfg n s (.main env) = n := by
      simp only [observeFailures, hcalls, if_false]
      exact if_neg hread
    have hstep : (failureRun cfg).step (s, n) (.main env) = ((s.mainStep cfg env).1, n) := by
      rw [Machine.withHistory_step, hcount]; rfl
    rw [hstep]
    refine ⟨?_, ?_, ?_, ?_⟩
    · rw [hactive, hsess]; exact hp.connected
    · intro hbody
      rcases mainStep_inBody hbody with hold | ⟨-, hact⟩ | ⟨-, hact⟩
      · rw [hactive]; exact hp.active hold
      · rw [hactive]; exact hact
      · exact hact
    · rw [hsess]; exact hp.counted
    · rw [hsess]; exact hp.below
  · have hother : ∀ env, a ≠ .main env := fun env h => hmain ⟨env, h⟩
    obtain ⟨s, n⟩ := p
    obtain ⟨hpc, hactive, hsess, -, -, -⟩ := s.step_own cfg hother
    have hcount : observeFailures cfg n s a = n := by
      unfold observeFailures
      split
      · next env => exact absurd rfl (hother env)
      · rfl
    have hstep : (failureRun cfg).step (s, n) a = ((s.step cfg a).1, n) := by
      rw [Machine.withHistory_step, hcount]; rfl
    rw [hstep]
    refine ⟨?_, ?_, ?_, ?_⟩
    · rw [hactive, hsess]; exact hp.connected
    · rw [hpc, hactive]; exact hp.active
    · rw [hsess]; exact hp.counted
    · rw [hsess]; exact hp.below

end step

/-! ### Main result -/

/-- In every run in which no reconnect fails, fewer than 20 reads in a row
    go without an attempt to reconnect. -/
theorem reads_never_fail_unanswered (cfg : AppConfig)
    (hauto : cfg.session.autoReconnect = true) (commands : XdrCommandState)
    (acts : List AppAction)
    (hok : (failureRun cfg).Meets (fun p => ReconnectSucceeds cfg p.1)
      (Application.initial commands, 0) acts) :
    ((failureRun cfg).run (Application.initial commands, 0) acts).2 < 20 := by
  have hfinal : Answered ((failureRun cfg).run (Application.initial commands, 0) acts) :=
    Machine.run_invariant (answered_step hauto) (answered_initial commands) hok
  exact Nat.lt_of_le_of_lt hfinal.counted hfinal.below

/-- Everything succeeds. -/
def allOk : Env := ⟨true, ⟨true, true, true, false⟩, true, true, none, none⟩

/-- The device fails again and again, but comes back at once. -/
def deviceReturns : Env := ⟨false, ⟨true, true, true, true⟩, false, true, none, none⟩

/-- The device is gone: reads fail, connecting fails, and it says so. -/
def deviceGone : Env := ⟨false, ⟨false, false, false, true⟩, false, true, none, none⟩

theorem reads_answered_when_device_returns :
    ((failureRun ⟨⟨false, true, false⟩, ⟨0, true⟩⟩).run
      (Application.initial (.create 88500000 0 2 0 85 0 false), 0)
      (.fmdxStart :: List.replicate 3 (.main allOk) ++
        List.replicate 60 (.main deviceReturns))).2 < 20 :=
  reads_never_fail_unanswered ⟨⟨false, true, false⟩, ⟨0, true⟩⟩ rfl
    (.create 88500000 0 2 0 85 0 false) _ (by decide +kernel)

/-- A client starts the tuner, the device goes, the loop runs on: one failed
    reconnect, then 20 failed reads without another attempt. -/
theorem twenty_reads_without_attempt :
    ((failureRun ⟨⟨false, true, false⟩, ⟨0, true⟩⟩).run
      (Application.initial (.create 88500000 0 2 0 85 0 false), 0)
      (.fmdxStart :: List.replicate 3 (.main allOk) ++
        List.replicate 230 (.main deviceGone))).2 = 20 := by
  decide +kernel

/-! ### After a failed reconnect -/

/-- The tuner counts as active, but is not connected. -/
def Stuck (s : Application) : Prop :=
  s.tunerActive = true ∧ s.session.rtlConnected = false ∧ s.pc ≠ .startTuner

/-- A reconnect that fails leaves the application stuck. -/
theorem stuck_of_failed_reconnect {cfg : AppConfig} {p : Application × Nat} {env : Env}
    (hauto : cfg.session.autoReconnect = true) (hp : Answered p) (hpc : p.1.pc = .read)
    (hread : env.readOk = false) (hconnect : .connect ∈ (p.1.mainStep cfg env).2)
    (hfail : env.answers.connects = false) : Stuck (p.1.mainStep cfg env).1 := by
  have hactive : p.1.tunerActive = true := hp.active (by simp [hpc, Pc.inBody])
  simp only [Application.mainStep, hpc, hread, Bool.false_eq_true, if_false] at hconnect ⊢
  rcases p.1.session.note_cases cfg.session env.answers p.1.commands.requestedFrequencyHz hauto
    with ⟨-, -, hsess⟩ | ⟨-, hcount⟩
  · exact ⟨hactive, by rw [hsess]; exact hfail, by simp⟩
  · rw [hcount] at hconnect
    cases hconnect

/-- Until a stop request is taken, nothing connects a stuck session. -/
theorem stuck_step (cfg : AppConfig) (s : Application) (a : AppAction) (h : Stuck s)
    (hstop : s.pc ≠ .stopTuner) :
    Stuck (s.step cfg a).1 ∧ .connect ∉ (s.step cfg a).2 := by
  obtain ⟨hactive, hconn, hstart⟩ := h
  by_cases hmain : ∃ env, a = .main env
  · obtain ⟨env, rfl⟩ := hmain
    by_cases hread : s.pc = .read
    · have hnote : s.session.noteReadFailureAndMaybeReconnect cfg.session env.answers
          s.commands.requestedFrequencyHz =
          ({ s.session with
              consecutiveReadFailures := s.session.consecutiveReadFailures + 1 }, []) := by
        simp [TunerSession.noteReadFailureAndMaybeReconnect, hconn]
      simp only [Application.step, Application.mainStep, hread, hnote]
      cases env.readOk with
      | true =>
        refine ⟨⟨hactive, hconn, ?_⟩, by simp⟩
        simp only [if_true]
        (repeat' split) <;> simp
      | false => exact ⟨⟨hactive, hconn, by simp⟩, by simp⟩
    · obtain ⟨hsess, hact, hcalls⟩ := mainStep_session cfg env hstop hstart hread
      refine ⟨⟨hact.trans hactive, by rw [Application.step, hsess]; exact hconn, ?_⟩, hcalls⟩
      -- an active tuner is not started again
      intro hnext
      rw [mainStep_startTuner hnext] at hactive
      cases hactive
  · have hother : ∀ env, a ≠ .main env := fun env h => hmain ⟨env, h⟩
    obtain ⟨hpc, hact, hsess, -, -, -⟩ := s.step_own cfg hother
    have hcalls := s.step_calls cfg hother
    refine ⟨⟨hact.trans hactive, by rw [hsess]; exact hconn, ?_⟩, ?_⟩
    · rw [hpc]; exact hstart
    · rw [hcalls]; simp

/-- In a run that starts stuck and takes no stop request, `tuner.connect` is
    not called any more, however many reads fail. -/
theorem stuck_never_reconnects (cfg : AppConfig) {s : Application} (acts : List AppAction)
    (h : Stuck s) (hstop : (appMachine cfg).Meets (fun s _ => s.pc ≠ .stopTuner) s acts) :
    (appMachine cfg).Meets (fun s a => .connect ∉ (s.step cfg a).2) s acts :=
  Machine.meets_of_invariant (fun s a hs hc => (stuck_step cfg s a hs hc).1)
    (fun s a hs hc => (stuck_step cfg s a hs hc).2) h hstop

end FmSdrTuner

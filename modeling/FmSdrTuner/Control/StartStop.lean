import FmSdrTuner.Control.MainLoop

/-! # Start and stop requests

    Clients start and stop the tuner through two flags. Each round of the
    main loop polls them: it reads the stop flag; if it was set, it empties
    the start flag before it stops the tuner; then it reads the start flag.
    The flags do not remember which request came last, and the emptying
    makes a stop win over every start requested before it.

    Main results: `tunerActive_after_poll`, what the flags make of the
    requests, and `last_request_wins_iff`, when the last request wins. -/

namespace FmSdrTuner

/-! ### Requests -/

inductive Request where
  | start
  | stop
  deriving DecidableEq, Repr

/-- The request that a write makes. -/
def Write.request : Write → Option Request
  | .startRequest => some .start
  | .stopRequest => some .stop
  | _ => none

/-- The request that a step of a client makes. -/
def requestOf (s : Application) (a : AppAction) : Option Request :=
  (s.performed a).bind Write.request

theorem write_request (s : Application) (w : Write) :
    (s.write w).pendingStartRequest = (s.pendingStartRequest || w.request == some .start) ∧
      (s.write w).pendingStopRequest = (s.pendingStopRequest || w.request == some .stop) := by
  cases w <;> simp [Application.write, Write.request]

/-- A client sets the flag of the request it makes, and no other. -/
theorem step_request (cfg : AppConfig) (s : Application) {a : AppAction}
    (h : ∀ env, a ≠ .main env) :
    (s.step cfg a).1.pendingStartRequest =
        (s.pendingStartRequest || requestOf s a == some .start) ∧
      (s.step cfg a).1.pendingStopRequest =
        (s.pendingStopRequest || requestOf s a == some .stop) := by
  have hclient := s.step_client cfg h
  unfold requestOf
  generalize (s.step cfg a).1 = s' at hclient
  cases hclient with
  | direct w hd hw =>
    rw [hw]
    exact write_request s w
  | client w ws hws hw =>
    rw [hw]
    exact write_request { s with clientWrites := ws } w
  | rest w ws hws hw =>
    rw [hw]
    exact write_request { s with restWrites := ws } w
  | line hfree hw | request controls params ha hfree hw | group group nowMs ha hw | idle ha hw =>
    rw [hw]
    simp

/-! ### History -/

structure PollHistory where
  /-- All requests so far. -/
  log : List Request
  /-- How many there were when the stop flag was last read. -/
  stopRead : Nat
  /-- How many there were when the start flag was last read or emptied. -/
  startRead : Nat
  /-- How many there were when the start flag was last read, where a poll ends. -/
  pollRead : Nat
  /-- The latest poll: the requests since the stop flag was read before, -/
  stopWindow : List Request
  /-- those since the start flag was read or emptied before, -/
  startWindow : List Request
  /-- those since the previous poll, -/
  window : List Request
  /-- and whether the tuner was active when the poll began. -/
  activeBefore : Bool
  deriving DecidableEq, Repr

def PollHistory.initial : PollHistory := ⟨[], 0, 0, 0, [], [], [], false⟩

def observeRequests (h : PollHistory) (s : Application) (a : AppAction) : PollHistory :=
  match a with
  | .main _ =>
      match s.pc with
      | .pollStop =>
          { h with
            stopWindow := h.log.drop h.stopRead
            stopRead := h.log.length
            activeBefore := s.tunerActive }
      | .clearStart => { h with startRead := h.log.length }
      | .pollStart =>
          { h with
            startWindow := h.log.drop h.startRead
            startRead := h.log.length
            window := h.log.drop h.pollRead
            pollRead := h.log.length }
      | _ => h
  | _ => { h with log := h.log ++ (requestOf s a).toList }

abbrev requestRun (cfg : AppConfig) : Machine (Application × PollHistory) AppAction :=
  (appMachine cfg).withHistory observeRequests

/-- What the latest poll makes of the requests: a stop wins over all starts
    but those requested after it emptied the start flag. -/
def PollHistory.expected (h : PollHistory) : Bool :=
  if .stop ∈ h.stopWindow then decide (.start ∈ h.startWindow)
  else h.activeBefore || decide (.start ∈ h.startWindow)

/-- What the last request since the previous poll asks for. -/
def PollHistory.lastRequested (h : PollHistory) : Bool :=
  match h.window.getLast? with
  | some .start => true
  | some .stop => false
  | none => h.activeBefore

/-- How the order of the requests can get lost in the flags, poll by poll. -/
structure PollHistory.InOrder (h : PollHistory) : Prop where
  /-- A start that is the last request came after the poll had emptied the
      start flag, if the poll found a stop. -/
  start_kept : h.window.getLast? = some .start → .stop ∈ h.stopWindow → .start ∈ h.startWindow
  /-- A stop that is the last request came before the poll read the stop
      flag, if there was a tuner to stop, -/
  stop_found : h.window.getLast? = some .stop → h.activeBefore = true → .stop ∈ h.stopWindow
  /-- and no start before it was left for the poll to find. -/
  start_withdrawn : h.window.getLast? = some .stop → .start ∉ h.startWindow
  /-- Without a request the poll found no stop that the previous poll had
      left behind. -/
  stop_late : h.window = [] → h.activeBefore = true → .stop ∉ h.stopWindow

/-- Starting the tuner connects it. -/
def ConnectSucceeds (s : Application) : AppAction → Prop
  | .main env => s.pc = .startTuner → env.answers.connects = true
  | _ => True

instance (s : Application) (a : AppAction) : Decidable (ConnectSucceeds s a) :=
  match a with
  | .main _ => inferInstanceAs (Decidable (_ → _))
  | .xdrLine .. | .fmdxLine _ | .clientWrite | .fmdxStart | .fmdxStop | .xdrDisconnect
  | .rest .. | .restWrite | .rdsGroup .. => isTrue trivial

/-! ### Invariant -/

/-- What is known about the poll in progress, if there is one. -/
def PollProgress (s : Application) (h : PollHistory) : Prop :=
  match s.pc with
  | .clearStart | .stopTuner => .stop ∈ h.stopWindow
  | .pollStart =>
      s.tunerActive = (h.activeBefore && !decide (.stop ∈ h.stopWindow))
  | .startTuner => s.tunerActive = false ∧ .start ∈ h.startWindow
  | _ => s.tunerActive = h.expected

/-- The requests of the latest poll, once it is over: those that the start
    flag stood for are the last of them, and all of them if the poll did not
    empty it. -/
structure PollHistory.Recorded (h : PollHistory) : Prop where
  read : h.startRead = h.pollRead
  suffix : h.startWindow <:+ h.window
  kept : .stop ∉ h.stopWindow → h.startWindow = h.window

/-- Since when requests count for the poll in progress, if there is one. -/
def PollSpan (h : PollHistory) : Pc → Prop
  | .clearStart | .stopTuner => True
  | .pollStart => .stop ∉ h.stopWindow → h.startRead = h.pollRead
  | _ => h.Recorded

/-- The flags say what has been requested since they were last looked at. -/
structure Polled (p : Application × PollHistory) : Prop where
  stopRead_le : p.2.stopRead ≤ p.2.log.length
  pollRead_le : p.2.pollRead ≤ p.2.startRead
  startRead_le : p.2.startRead ≤ p.2.log.length
  stopFlag : p.1.pendingStopRequest = decide (.stop ∈ p.2.log.drop p.2.stopRead)
  startFlag : p.1.pendingStartRequest = decide (.start ∈ p.2.log.drop p.2.startRead)
  progress : PollProgress p.1 p.2
  span : PollSpan p.2 p.1.pc

theorem polled_initial (commands : XdrCommandState) :
    Polled (Application.initial commands, .initial) where
  stopRead_le := Nat.le_refl _
  pollRead_le := Nat.le_refl _
  startRead_le := Nat.le_refl _
  stopFlag := rfl
  startFlag := rfl
  progress := rfl
  span := ⟨rfl, List.suffix_refl _, fun _ => rfl⟩

/-- Outside a poll the tuner is as the latest poll left it. -/
theorem PollProgress.of_body {s : Application} {h : PollHistory}
    (hpc : s.pc.inBody = true ∨ s.pc = .pollStop) :
    PollProgress s h ↔ s.tunerActive = h.expected := by
  unfold PollProgress
  split <;> rename_i heq <;> simp [heq, Pc.inBody] at hpc ⊢

theorem PollSpan.of_body {h : PollHistory} {pc : Pc} (hpc : pc.inBody = true ∨ pc = .pollStop) :
    PollSpan h pc ↔ h.Recorded := by
  unfold PollSpan
  split <;> simp [Pc.inBody] at hpc ⊢

section step
variable {cfg : AppConfig} {p : Application × PollHistory}

theorem polled_client (hp : Polled p) {a : AppAction} (ha : ∀ env, a ≠ .main env) :
    Polled ((requestRun cfg).step p a) := by
  obtain ⟨s, h⟩ := p
  obtain ⟨hstart, hstop⟩ := step_request cfg s ha
  obtain ⟨hpc, hactive, -, -, -, -⟩ := s.step_own cfg ha
  have hobs : observeRequests h s a = { h with log := h.log ++ (requestOf s a).toList } := by
    unfold observeRequests
    split
    · next env => exact absurd rfl (ha env)
    · rfl
  rw [Machine.withHistory_step, hobs]
  have hle1 := hp.stopRead_le
  have hle2 := hp.startRead_le
  refine ⟨?_, hp.pollRead_le, ?_, ?_, ?_, ?_, ?_⟩
  · simp only [List.length_append]; simp only at hle1; omega
  · simp only [List.length_append]; simp only at hle2; omega
  · show (s.step cfg a).1.pendingStopRequest = _
    rw [hstop, List.drop_append_of_le_length hle1, hp.stopFlag]
    cases requestOf s a with
    | none => simp
    | some r => cases r <;> simp
  · show (s.step cfg a).1.pendingStartRequest = _
    rw [hstart, List.drop_append_of_le_length hle2, hp.startFlag]
    cases requestOf s a with
    | none => simp
    | some r => cases r <;> simp
  · have hprog := hp.progress
    unfold PollProgress at hprog ⊢
    rw [show ((appMachine cfg).step s a).pc = s.pc from hpc,
      show ((appMachine cfg).step s a).tunerActive = s.tunerActive from hactive]
    exact hprog
  · have hspan : PollSpan h s.pc := hp.span
    have hrecorded : h.Recorded →
        PollHistory.Recorded { h with log := h.log ++ (requestOf s a).toList } :=
      fun hr => ⟨hr.read, hr.suffix, hr.kept⟩
    rw [show ((appMachine cfg).step s a).pc = s.pc from hpc]
    revert hspan
    cases s.pc <;> first | exact id | exact hrecorded

theorem polled_pollStop (hp : Polled p) (env : Env) (hpc : p.1.pc = .pollStop) :
    Polled ((requestRun cfg).step p (.main env)) := by
  obtain ⟨s, h⟩ := p
  replace hpc : s.pc = .pollStop := hpc
  have hflag : s.pendingStopRequest = decide (.stop ∈ h.log.drop h.stopRead) := hp.stopFlag
  have hstep : (requestRun cfg).step (s, h) (.main env) =
      ({ s with
          pendingStopRequest := false
          pc := if s.pendingStopRequest then .clearStart else .pollStart },
        { h with
          stopWindow := h.log.drop h.stopRead
          stopRead := h.log.length
          activeBefore := s.tunerActive }) := by
    simp [appMachine, Application.step, Application.mainStep, observeRequests, hpc]
  rw [hstep]
  have hrecorded : h.Recorded := by
    have hspan := hp.span
    rwa [hpc] at hspan
  refine ⟨Nat.le_refl _, hp.pollRead_le, hp.startRead_le, by simp, hp.startFlag, ?_, ?_⟩
  · cases hset : s.pendingStopRequest with
    | true =>
      rw [hset, eq_comm, decide_eq_true_eq] at hflag
      exact hflag
    | false =>
      rw [hset, eq_comm, decide_eq_false_iff_not] at hflag
      simp [PollProgress, hflag]
  · cases s.pendingStopRequest with
    | true => trivial
    | false => exact fun _ => hrecorded.read

theorem polled_pollStart (hp : Polled p) (env : Env) (hpc : p.1.pc = .pollStart) :
    Polled ((requestRun cfg).step p (.main env)) := by
  obtain ⟨s, h⟩ := p
  replace hpc : s.pc = .pollStart := hpc
  have hflag : s.pendingStartRequest = decide (.start ∈ h.log.drop h.startRead) := hp.startFlag
  have hprog := hp.progress
  simp only [PollProgress, hpc] at hprog
  have hstep : (requestRun cfg).step (s, h) (.main env) =
      ({ s with
          pendingStartRequest := false
          pc := if s.tunerActive then .control
            else if s.pendingStartRequest then .startTuner else .pollStop },
        { h with
          startWindow := h.log.drop h.startRead
          startRead := h.log.length
          window := h.log.drop h.pollRead
          pollRead := h.log.length }) := by
    simp [appMachine, Application.step, Application.mainStep, observeRequests, hpc]
  rw [hstep]
  refine ⟨hp.stopRead_le, Nat.le_refl _, Nat.le_refl _, hp.stopFlag, by simp, ?_, ?_⟩
  · cases hactive : s.tunerActive with
    | true =>
      -- active before, and not stopped
      rw [hactive, eq_comm, Bool.and_eq_true, Bool.not_eq_true', decide_eq_false_iff_not] at hprog
      simp [PollProgress, PollHistory.expected, hprog]
    | false =>
      cases hset : s.pendingStartRequest with
      | true =>
        rw [hset, eq_comm, decide_eq_true_eq] at hflag
        exact ⟨rfl, hflag⟩
      | false =>
        rw [hset, eq_comm, decide_eq_false_iff_not] at hflag
        rw [hactive] at hprog
        by_cases hstop : .stop ∈ h.stopWindow
        · simp [PollProgress, PollHistory.expected, hstop, hflag]
        · have hbefore : h.activeBefore = false := by simpa [hstop] using hprog.symm
          simp [PollProgress, PollHistory.expected, hstop, hflag, hbefore]
  · -- a start flag that was not emptied stands for all requests since the previous poll
    have hspan := hp.span
    rw [hpc] at hspan
    have hrecorded : PollHistory.Recorded
        { h with
          startWindow := h.log.drop h.startRead
          startRead := h.log.length
          window := h.log.drop h.pollRead
          pollRead := h.log.length } := by
      refine ⟨rfl, List.drop_suffix_drop_left _ hp.pollRead_le, ?_⟩
      intro hstop
      exact congrArg h.log.drop (hspan hstop)
    cases s.tunerActive <;> cases s.pendingStartRequest <;> exact hrecorded

theorem polled_startTuner (hp : Polled p) (env : Env) (hpc : p.1.pc = .startTuner)
    (hok : env.answers.connects = true) :
    Polled ((requestRun cfg).step p (.main env)) := by
  obtain ⟨s, h⟩ := p
  replace hpc : s.pc = .startTuner := hpc
  have hprog := hp.progress
  simp only [PollProgress, hpc] at hprog
  have hconn : (s.session.connect cfg.session env.answers
      s.commands.requestedFrequencyHz).1.rtlConnected = true := by
    rcases s.session.connect_cases cfg.session env.answers s.commands.requestedFrequencyHz
      with ⟨hold, hsame⟩ | ⟨-, -, hnew⟩
    · rw [hsame]; exact hold
    · rw [hnew]; exact hok
  have hspan := hp.span
  rw [hpc] at hspan
  refine ⟨?_, ?_, ?_, ?_, ?_, ?_, ?_⟩
  all_goals simp only [appMachine, Application.step, Application.mainStep, observeRequests,
    Machine.withHistory_step, hpc]
  · exact hp.stopRead_le
  · exact hp.pollRead_le
  · exact hp.startRead_le
  · exact hp.stopFlag
  · exact hp.startFlag
  · simp [PollProgress, hconn, PollHistory.expected, hprog.2]
  · split <;> exact hspan

theorem polled_main (hp : Polled p) (env : Env) (hok : ConnectSucceeds p.1 (.main env)) :
    Polled ((requestRun cfg).step p (.main env)) := by
  have hprog := hp.progress
  cases hpc : p.1.pc with
  | pollStop => exact polled_pollStop hp env hpc
  | clearStart =>
    obtain ⟨s, h⟩ := p
    replace hpc : s.pc = .clearStart := hpc
    simp only [PollProgress, hpc] at hprog
    refine ⟨?_, ?_, ?_, ?_, ?_, ?_, ?_⟩
    all_goals simp only [appMachine, Application.step, Application.mainStep, observeRequests,
      Machine.withHistory_step, hpc]
    · exact hp.stopRead_le
    · exact Nat.le_trans hp.pollRead_le hp.startRead_le
    · exact Nat.le_refl _
    · exact hp.stopFlag
    · simp
    · exact hprog
    · trivial
  | stopTuner =>
    obtain ⟨s, h⟩ := p
    replace hpc : s.pc = .stopTuner := hpc
    simp only [PollProgress, hpc] at hprog
    refine ⟨?_, ?_, ?_, ?_, ?_, ?_, ?_⟩
    all_goals simp only [appMachine, Application.step, Application.mainStep, observeRequests,
      Machine.withHistory_step, hpc]
    · exact hp.stopRead_le
    · exact hp.pollRead_le
    · exact hp.startRead_le
    · exact hp.stopFlag
    · exact hp.startFlag
    · simp [PollProgress, hprog]
    · exact fun hnone => absurd hprog hnone
  | pollStart => exact polled_pollStart hp env hpc
  | startTuner => exact polled_startTuner hp env hpc (hok hpc)
  | _ =>
    -- the rest of the loop's body reads neither request
    obtain ⟨s, h⟩ := p
    have hbody : s.pc.inBody = true := by rw [show s.pc = _ from hpc]; rfl
    obtain ⟨hnext, hactive, hstart, hstop⟩ := Application.mainStep_body cfg env hbody
    have hobs : observeRequests h s (.main env) = h := by
      simp only [observeRequests, show s.pc = _ from hpc]
    rw [Machine.withHistory_step, hobs]
    refine ⟨hp.stopRead_le, hp.pollRead_le, hp.startRead_le, hstop.trans hp.stopFlag,
      hstart.trans hp.startFlag, ?_, ?_⟩
    · rw [PollProgress.of_body (Or.inl hbody)] at hprog
      exact (PollProgress.of_body hnext).mpr (hactive.trans hprog)
    · have hspan := hp.span
      exact (PollSpan.of_body hnext).mpr ((PollSpan.of_body (Or.inl hbody)).mp hspan)

theorem polled_step (p : Application × PollHistory) (a : AppAction) (hp : Polled p)
    (hok : ConnectSucceeds p.1 a) : Polled ((requestRun cfg).step p a) := by
  by_cases hmain : ∃ env, a = .main env
  · obtain ⟨env, rfl⟩ := hmain
    exact polled_main hp env hok
  · exact polled_client hp fun env h => hmain ⟨env, h⟩

end step

/-! ### Main results -/

/-- In every run in which starting the tuner connects it, at every moment
    outside a poll, `tunerActive` is what the latest poll makes of the
    requests. -/
theorem tunerActive_after_poll (cfg : AppConfig) (commands : XdrCommandState)
    (acts : List AppAction)
    (hok : (requestRun cfg).Meets (fun p => ConnectSucceeds p.1)
      (Application.initial commands, .initial) acts) :
    let p := (requestRun cfg).run (Application.initial commands, .initial) acts
    p.1.pc.inBody = true ∨ p.1.pc = .pollStop →
      p.1.tunerActive = p.2.expected ∧ p.2.Recorded := by
  intro p hpc
  have hfinal : Polled p :=
    Machine.run_invariant polled_step (polled_initial commands) hok
  exact ⟨(PollProgress.of_body hpc).mp hfinal.progress, (PollSpan.of_body hpc).mp hfinal.span⟩

/-- The flags make of the requests what the last one asks for exactly if
    the requests are in order. -/
theorem PollHistory.expected_eq_lastRequested_iff {h : PollHistory} (hr : h.Recorded) :
    h.expected = h.lastRequested ↔ h.InOrder := by
  have hsubset : .start ∈ h.startWindow → .start ∈ h.window := fun hin => hr.suffix.subset hin
  have hlast : ∀ r, h.window.getLast? = some r → r ∈ h.window := fun r => List.mem_of_getLast?
  cases hw : h.window.getLast? with
  | none =>
    -- no request: the poll may still find a stop that the previous one left behind
    have hnil : h.window = [] := List.getLast?_eq_none_iff.mp hw
    have hnone : .start ∉ h.startWindow := fun hin => by
      rw [hnil] at hsubset
      exact absurd (hsubset hin) List.not_mem_nil
    constructor
    · intro heq
      refine ⟨by simp [hw], by simp [hw], by simp [hw], ?_⟩
      intro _ hactive hstop
      simp [expected, lastRequested, hw, hstop, hnone, hactive] at heq
    · intro hin
      by_cases hstop : .stop ∈ h.stopWindow
      · have hinactive : h.activeBefore = false := by
          by_contra hactive
          exact hin.stop_late hnil (by simpa using hactive) hstop
        simp [expected, lastRequested, hw, hstop, hnone, hinactive]
      · simp [expected, lastRequested, hw, hstop, hnone]
  | some request =>
    have hne : h.window ≠ [] := by
      intro hnil
      rw [hnil] at hw
      cases hw
    cases request with
    | start =>
      -- a start is there to be found unless the poll has emptied the flag
      have hstart : .stop ∉ h.stopWindow → .start ∈ h.startWindow := fun hstop => by
        rw [hr.kept hstop]
        exact hlast _ hw
      constructor
      · intro heq
        refine ⟨?_, by simp [hw], by simp [hw], fun hnil => absurd hnil hne⟩
        intro _ hstop
        simpa [expected, lastRequested, hw, hstop] using heq
      · intro hin
        by_cases hstop : .stop ∈ h.stopWindow
        · simp [expected, lastRequested, hw, hstop, hin.start_kept hw hstop]
        · simp [expected, lastRequested, hw, hstop, hstart hstop]
    | stop =>
      -- a stop is found by this poll, or it makes no difference
      constructor
      · intro heq
        by_cases hstop : .stop ∈ h.stopWindow
        · have hnone : .start ∉ h.startWindow := by
            simpa [expected, lastRequested, hw, hstop] using heq
          exact ⟨by simp [hw], fun _ _ => hstop, fun _ => hnone, fun hnil => absurd hnil hne⟩
        · have hboth : h.activeBefore = false ∧ .start ∉ h.startWindow := by
            simpa [expected, lastRequested, hw, hstop] using heq
          refine ⟨by simp [hw], ?_, fun _ => hboth.2, fun hnil => absurd hnil hne⟩
          intro _ hactive
          rw [hboth.1] at hactive
          cases hactive
      · intro hin
        have hnone := hin.start_withdrawn hw
        by_cases hstop : .stop ∈ h.stopWindow
        · simp [expected, lastRequested, hw, hstop, hnone]
        · have hinactive : h.activeBefore = false := by
            by_contra hactive
            exact hstop (hin.stop_found hw (by simpa using hactive))
          simp [expected, lastRequested, hw, hstop, hnone, hinactive]

/-- In every run in which starting the tuner connects it, at every moment
    outside a poll, `tunerActive` is what the last request before the latest
    poll asked for exactly if that poll found the requests in order. -/
theorem last_request_wins_iff (cfg : AppConfig) (commands : XdrCommandState)
    (acts : List AppAction)
    (hok : (requestRun cfg).Meets (fun p => ConnectSucceeds p.1)
      (Application.initial commands, .initial) acts) :
    let p := (requestRun cfg).run (Application.initial commands, .initial) acts
    p.1.pc.inBody = true ∨ p.1.pc = .pollStop →
      (p.1.tunerActive = p.2.lastRequested ↔ p.2.InOrder) := by
  intro p hpc
  obtain ⟨hactive, hrecorded⟩ := tunerActive_after_poll cfg commands acts hok hpc
  rw [hactive]
  exact PollHistory.expected_eq_lastRequested_iff hrecorded

/-- A stop, a poll, then a start and a poll: the tuner is active. -/
theorem start_after_stop_wins :
    let env : Env := ⟨true, ⟨true, true, true, false⟩, true, true, none, none⟩
    let p := (requestRun ⟨⟨false, true, false⟩, ⟨0, true⟩⟩).run
      (Application.initial (.create 88500000 0 2 0 85 0 false), .initial)
      (.fmdxStop :: List.replicate 4 (.main env) ++ .fmdxStart :: List.replicate 3 (.main env))
    p.2.log = [.stop, .start] ∧ p.2.window = [.start] ∧ p.1.tunerActive = true ∧
      (p.1.tunerActive = p.2.lastRequested ↔ p.2.InOrder) := by
  refine ⟨by decide +kernel, by decide +kernel, by decide +kernel, ?_⟩
  exact last_request_wins_iff ⟨⟨false, true, false⟩, ⟨0, true⟩⟩
    (.create 88500000 0 2 0 85 0 false) _ (by decide +kernel) (by decide +kernel)

/-- One client stops the tuner, then another starts it, then the loop polls:
    the last request was a start, and the tuner is not active. -/
theorem stop_wins_over_later_start :
    let env : Env := ⟨true, ⟨true, true, true, false⟩, true, true, none, none⟩
    let start := (Application.initial (.create 88500000 0 2 0 85 0 false), PollHistory.initial)
    let acts := .fmdxStop :: .fmdxStart :: List.replicate 4 (.main env)
    let M := requestRun ⟨⟨false, true, false⟩, ⟨0, true⟩⟩
    let p := M.run start acts
    M.Meets (fun p => ConnectSucceeds p.1) start acts ∧
      p.2.window = [.stop, .start] ∧ p.1.pc = .pollStop ∧ p.2.lastRequested = true ∧
      p.1.tunerActive = false := by
  decide +kernel

end FmSdrTuner

import FmSdrTuner.Control.ScanTuning

/-! # What becomes of a requested frequency

    A client stores the frequency it asks for and then sets the flag; the
    main loop takes the flag and then tunes; a connect tunes to the request
    without looking at the flag. Outside these windows the request has been
    handed to the tuner. What the tuner made of it is another matter: a
    retune that fails is reported in the log and not repeated.

    The history variable is the last attempt to tune. Main result:
    `request_handed_to_tuner`. -/

namespace FmSdrTuner

/-! ### Requests and their signals, write by write -/

/-- Every frequency request of `ws` is followed at once by its signal. -/
def Paired : List Write → Prop
  | [] => True
  | w :: ws => (isFrequencyRequest w = true → ws.head? = some (.command .pendingFrequency)) ∧
      Paired ws

theorem Paired.append {ws ws' : List Write} (h : Paired ws) (h' : Paired ws') :
    Paired (ws ++ ws') := by
  induction ws with
  | nil => exact h'
  | cons w ws ih =>
    refine ⟨?_, ih h.2⟩
    intro hreq
    show (ws ++ ws').head? = _
    rw [List.head?_append, h.1 hreq]
    rfl

theorem Paired.flatMap {β : Type} {f : β → List Write} (hf : ∀ b, Paired (f b)) (bs : List β) :
    Paired (bs.flatMap f) := by
  induction bs with
  | nil => exact trivial
  | cons b bs ih =>
    rw [List.flatMap_cons]
    exact (hf b).append ih

theorem effectWrites_paired (o : FacadeOptions) (e : Effect) : Paired (effectWrites o e) := by
  cases e with
  | store w => simp [effectWrites, Paired, isFrequencyRequest]
  | call c =>
    cases c <;> simp [effectWrites, callbackWrites, Paired, isFrequencyRequest]
    all_goals split <;> simp [Paired, isFrequencyRequest]

theorem controlWrites_paired (c : ControlCall) : Paired (controlWrites c) := by
  cases c <;> simp [controlWrites, Paired, isFrequencyRequest]
  all_goals split <;> simp [Paired, isFrequencyRequest]

namespace Application

/-- What clients have still to write comes in pairs. -/
structure Pairs (s : Application) : Prop where
  client : Paired s.clientWrites
  rest : Paired s.restWrites

/-- A client has stored the frequency it asks for and not yet set the flag. -/
def halfMade (s : Application) : Prop :=
  s.clientWrites.head? = some (.command .pendingFrequency) ∨
    s.restWrites.head? = some (.command .pendingFrequency)

instance (s : Application) : Decidable s.halfMade := inferInstanceAs (Decidable (_ ∨ _))

/-- The flag is set, or about to be. -/
def asksFrequency (s : Application) : Prop :=
  s.commands.pendingFrequency = true ∨ s.halfMade

/-! ### Steps of the clients -/

section clients
variable {cfg : AppConfig} {s : Application}

theorem write_pendingFrequency (s : Application) (w : Write) :
    (s.write w).commands.pendingFrequency =
      (s.commands.pendingFrequency || w == .command .pendingFrequency) := by
  cases w with
  | command st => cases st <;> simp [write, XdrCommandState.store]
  | _ => simp [write]

theorem write_requestedFrequency (s : Application) {w : Write}
    (h : isFrequencyRequest w = false) :
    (s.write w).commands.requestedFrequencyHz = s.commands.requestedFrequencyHz := by
  cases w with
  | command st => cases st <;> first | rfl | cases h
  | _ => rfl

theorem Pairs.write (h : s.Pairs) (w : Write) : (s.write w).Pairs := by
  obtain ⟨hclient, hrest⟩ := s.write_writes w
  constructor
  · rw [hclient]; exact h.client
  · rw [hrest]; exact h.rest

theorem Pairs.step (h : s.Pairs) (a : AppAction) : (s.step cfg a).1.Pairs := by
  by_cases hmain : ∃ env, a = .main env
  · obtain ⟨env, rfl⟩ := hmain
    obtain ⟨hclient, hrest⟩ := mainStep_writes cfg s env
    constructor
    · show Paired (s.mainStep cfg env).1.clientWrites
      rw [hclient]; exact h.client
    · show Paired (s.mainStep cfg env).1.restWrites
      rw [hrest]; exact h.rest
  · have hclient := s.step_client cfg fun env he => hmain ⟨env, he⟩
    generalize (s.step cfg a).1 = s' at hclient
    cases hclient with
    | direct w => exact h.write w
    | client w ws hws =>
      have hall := h.client
      rw [hws] at hall
      exact Pairs.write (s := { s with clientWrites := ws }) ⟨hall.2, h.rest⟩ w
    | rest w ws hws =>
      have hall := h.rest
      rw [hws] at hall
      exact Pairs.write (s := { s with restWrites := ws }) ⟨h.client, hall.2⟩ w
    | line => exact ⟨Paired.flatMap (effectWrites_paired _) _, h.rest⟩
    | request controls params => exact ⟨h.client, Paired.flatMap controlWrites_paired _⟩
    | group => exact ⟨h.client, h.rest⟩
    | idle => exact h

/-- Setting the flag of a half-made request makes it whole. -/
theorem asksFrequency.step (h : s.asksFrequency) {a : AppAction}
    (hmain : ∀ env, a ≠ .main env) : (s.step cfg a).1.asksFrequency := by
  have hclient := s.step_client cfg hmain
  generalize (s.step cfg a).1 = s' at hclient
  -- a write that is not the head of either list leaves the heads in place
  have hwrite : ∀ (t : Application) (w : Write), t.asksFrequency → (t.write w).asksFrequency := by
    intro t w ht
    obtain ⟨hclient, hrest⟩ := t.write_writes w
    rcases ht with hflag | hhalf
    · refine Or.inl ?_
      rw [write_pendingFrequency, hflag, Bool.true_or]
    · refine Or.inr ?_
      unfold halfMade
      rw [hclient, hrest]
      exact hhalf
  have hsignal : ∀ (t : Application), (t.write (.command .pendingFrequency)).asksFrequency :=
    fun _ => Or.inl rfl
  cases hclient with
  | direct w => exact hwrite s w h
  | client w ws hws =>
    rcases h with hflag | hhead | hhead
    · exact hwrite { s with clientWrites := ws } w (Or.inl hflag)
    · rw [hws, List.head?_cons, Option.some.injEq] at hhead
      rw [hhead]
      exact hsignal _
    · exact hwrite { s with clientWrites := ws } w (Or.inr (Or.inr hhead))
  | rest w ws hws =>
    rcases h with hflag | hhead | hhead
    · exact hwrite { s with restWrites := ws } w (Or.inl hflag)
    · exact hwrite { s with restWrites := ws } w (Or.inr (Or.inl hhead))
    · rw [hws, List.head?_cons, Option.some.injEq] at hhead
      rw [hhead]
      exact hsignal _
  | line hfree =>
    rcases h with hflag | hhead | hhead
    · exact Or.inl hflag
    · rw [hfree] at hhead
      cases hhead
    · exact Or.inr (Or.inr hhead)
  | request controls params ha hfree =>
    rcases h with hflag | hhead | hhead
    · exact Or.inl hflag
    · exact Or.inr (Or.inl hhead)
    · rw [hfree] at hhead
      cases hhead
  | group | idle => exact h

/-- A client leaves the requested frequency alone, or its request is then
    half made at least. -/
theorem Pairs.value_step (h : s.Pairs) (cfg : AppConfig) {a : AppAction}
    (hmain : ∀ env, a ≠ .main env) :
    (s.step cfg a).1.commands.requestedFrequencyHz = s.commands.requestedFrequencyHz ∨
      (s.step cfg a).1.asksFrequency := by
  have hclient := s.step_client cfg hmain
  generalize (s.step cfg a).1 = s' at hclient
  cases hclient with
  | direct w hd =>
    cases hreq : isFrequencyRequest w with
    | false => exact Or.inl (s.write_requestedFrequency hreq)
    | true =>
      cases w with
      | command st => exact absurd hd directWrite_command
      | _ => cases hreq
  | client w ws hws =>
    cases hreq : isFrequencyRequest w with
    | false => exact Or.inl (write_requestedFrequency { s with clientWrites := ws } hreq)
    | true =>
      have hall := h.client
      rw [hws] at hall
      refine Or.inr (Or.inr (Or.inl ?_))
      rw [(write_writes { s with clientWrites := ws } w).1]
      exact hall.1 hreq
  | rest w ws hws =>
    cases hreq : isFrequencyRequest w with
    | false => exact Or.inl (write_requestedFrequency { s with restWrites := ws } hreq)
    | true =>
      have hall := h.rest
      rw [hws] at hall
      refine Or.inr (Or.inr (Or.inr ?_))
      rw [(write_writes { s with restWrites := ws } w).2]
      exact hall.1 hreq
  | line | request | group | idle => exact Or.inl rfl

end clients

end Application

/-! ### The last attempt to tune -/

/-- A call of `setFrequency`, and its answer. -/
structure Retune where
  freqHz : Nat
  ok : Bool
  deriving DecidableEq, Repr

/-- The frequency that is set among some calls of the tuner. -/
def tunedTo (calls : List TunerCall) : Option Nat :=
  calls.findSome? fun
    | .setFrequency freqHz => some freqHz
    | _ => none

/-- Which of the answers is the one to `setFrequency`. -/
def Env.tunes (env : Env) : Pc → Bool
  | .startTuner | .read => env.answers.okFreq
  | _ => env.tuneOk

def observeLastRetune (cfg : AppConfig) (last : Option Retune) (s : Application) :
    AppAction → Option Retune
  | .main env =>
      match tunedTo (s.mainStep cfg env).2 with
      | some freqHz => some ⟨freqHz, env.tunes s.pc⟩
      | none => last
  | _ => last

/-- The application with its last attempt to tune. -/
def lastRetuneRun (cfg : AppConfig) : Machine (Application × Option Retune) AppAction :=
  (appMachine cfg).withHistory (observeLastRetune cfg)

/-! ### Runs without scans -/

/-- The main loop is about to take the start of a scan. -/
def Application.takesScanStart (s : Application) : Bool :=
  match s.pc with
  | .scanStart _ => s.server.scanStartPending
  | _ => false

/-- No scan is started at this step. -/
def NoScanStart (p : Application × Option Retune) : AppAction → Prop
  | .main _ => p.1.takesScanStart = false
  | _ => True

instance (p : Application × Option Retune) : ∀ a, Decidable (NoScanStart p a)
  | .main _ => inferInstanceAs (Decidable (_ = _))
  | .xdrLine .. | .fmdxLine _ | .clientWrite | .fmdxStart | .fmdxStop | .xdrDisconnect
  | .rest .. | .restWrite | .rdsGroup .. => isTrue trivial

/-- A step of a scan, from its start to its restore. -/
def Pc.ofScan : Pc → Bool
  | .scanConfig _ _ _ | .scanBandwidth | .scanBandwidthPending | .restoreBandwidth _ _ _
  | .restoreBandwidthPending _ _ | .restoreFrequency _ _ | .restoreFrequencyPending _ _
  | .restoreTune _ _ | .sweep | .sweepTune _ | .fallback | .finishScan => true
  | _ => false

/-- The flag has been taken, and the retune has not been answered. -/
def Pc.retuning : Pc → Bool
  | .loadFrequency | .tune _ => true
  | _ => false

/-! ### Connecting -/

section session
variable (params : SessionParams) (answers : TunerAnswers) (requestedFrequencyHz : Nat)

/-- A session that is connected only now has set the requested frequency. -/
theorem connect_tunedTo (s : TunerSession) :
    let connected := s.connect params answers requestedFrequencyHz
    (tunedTo connected.2 = none ∧
      (connected.1.rtlConnected = true → s.rtlConnected = true)) ∨
    (tunedTo connected.2 = some requestedFrequencyHz ∧
      (connected.1.rtlConnected = true → answers.okFreq = true)) := by
  intro connected
  unfold connected TunerSession.connect
  cases hon : s.rtlConnected with
  | true => exact Or.inl ⟨rfl, fun _ => rfl⟩
  | false =>
    cases hdevice : answers.connectOk with
    | false => exact Or.inl ⟨rfl, fun h => (Bool.false_ne_true (hon.symm.trans h)).elim⟩
    | true =>
      refine Or.inr ?_
      cases hok : answers.okFreq with
      | false =>
        refine ⟨rfl, ?_⟩
        intro h
        exact (Bool.false_ne_true (hon.symm.trans h)).elim
      | true =>
        cases hrate : answers.okRate <;> exact ⟨rfl, fun _ => rfl⟩

/-- Nor does a read failure leave it connected without having done so. -/
theorem note_tunedTo (s : TunerSession) :
    let noted := s.noteReadFailureAndMaybeReconnect params answers requestedFrequencyHz
    (tunedTo noted.2 = none ∧ (noted.1.rtlConnected = true → s.rtlConnected = true)) ∨
    (tunedTo noted.2 = some requestedFrequencyHz ∧
      (noted.1.rtlConnected = true → answers.okFreq = true)) := by
  have hreconnect : ∀ t : TunerSession, t.rtlConnected = true →
      let re := t.reconnect params answers requestedFrequencyHz
      (tunedTo re.2 = none ∧ (re.1.rtlConnected = true → t.rtlConnected = true)) ∨
      (tunedTo re.2 = some requestedFrequencyHz ∧
        (re.1.rtlConnected = true → answers.okFreq = true)) := by
    intro t hon re
    have hdis : t.disconnect = ({ t with rtlConnected := false }, [.disconnect]) := by
      simp [TunerSession.disconnect, hon]
    have hre : re = (let connected := t.disconnect.1.connect params answers requestedFrequencyHz
        (connected.1.resetReadFailures, t.disconnect.2 ++ connected.2)) := rfl
    rw [hre, hdis]
    rcases connect_tunedTo params answers requestedFrequencyHz { t with rtlConnected := false }
      with ⟨hnone, hoff⟩ | ⟨hsome, hok⟩
    · exact Or.inl ⟨hnone, fun _ => hon⟩
    · exact Or.inr ⟨hsome, hok⟩
  intro noted
  unfold noted TunerSession.noteReadFailureAndMaybeReconnect
  dsimp only
  split
  · next hdue =>
    apply hreconnect
    simp only [Bool.and_eq_true] at hdue
    exact hdue.1.2
  · split
    · next hdue =>
      apply hreconnect
      simp only [Bool.and_eq_true] at hdue
      exact hdue.1.2
    · exact Or.inl ⟨rfl, id⟩

end session

/-- The tuned frequency follows the answer to `setFrequency`. -/
theorem tunedAfter_eq (s : Application) (answers : TunerAnswers) (calls : List TunerCall) :
    (tunedTo calls = none → s.tunedAfter answers calls = s.tunedHz) ∧
    (tunedTo calls = some s.commands.requestedFrequencyHz → s.tunedAfter answers calls =
      if answers.okFreq = true then s.commands.requestedFrequencyHz else s.tunedHz) := by
  constructor
  · intro hnone
    have hout : ¬.setFrequency s.commands.requestedFrequencyHz ∈ calls := by
      intro hmem
      have hnothing := List.findSome?_eq_none_iff.mp hnone _ hmem
      cases hnothing
    simp [Application.tunedAfter, hout]
  · intro hsome
    obtain ⟨call, hmem, hcall⟩ := List.exists_of_findSome?_eq_some hsome
    cases call with
    | setFrequency freqHz =>
      rw [Option.some.injEq] at hcall
      rw [hcall] at hmem
      simp [Application.tunedAfter, hmem]
    | _ => cases hcall

section steps
variable (cfg : AppConfig) (env : Env) {s : Application}

/-- Without a start there is no scan. -/
theorem mainStep_unscanned (hpc : s.pc.ofScan = false) (hidle : s.scanEngine.active = false)
    (hstart : s.takesScanStart = false) :
    (s.mainStep cfg env).1.pc.ofScan = false ∧
      (s.mainStep cfg env).1.scanEngine.active = false := by
  unfold Application.takesScanStart at hstart
  cases hat : s.pc with
  | scanConfig | scanBandwidth | scanBandwidthPending | restoreBandwidth | restoreBandwidthPending
  | restoreFrequency | restoreFrequencyPending | restoreTune | sweep | sweepTune | fallback
  | finishScan =>
    rw [hat] at hpc
    cases hpc
  | scanStart currentFreqHz =>
    rw [hat] at hstart
    simp [Application.mainStep, hat, hstart, hidle, Pc.ofScan]
  | _ =>
    simp only [Application.mainStep, hat, hidle]
    first
      | (simp [Pc.ofScan]; done)
      | (repeat' split) <;> simp [Pc.ofScan, hidle]

/-- What a step outside scans does with the tuner: nothing, and it does not
    connect; or it sets the frequency it has loaded, or the requested one. -/
theorem mainStep_tunedTo (hpc : s.pc.ofScan = false) :
    let next := s.mainStep cfg env
    (tunedTo next.2 = none ∧ next.1.tunedHz = s.tunedHz ∧
      (next.1.session.rtlConnected = true → s.session.rtlConnected = true)) ∨
    ∃ freqHz, tunedTo next.2 = some freqHz ∧
      next.1.tunedHz = (if env.tunes s.pc = true then freqHz else s.tunedHz) ∧
      (s.pc = .tune freqHz ∨ freqHz = s.commands.requestedFrequencyHz) := by
  intro next
  cases hat : s.pc with
  | scanConfig | scanBandwidth | scanBandwidthPending | restoreBandwidth | restoreBandwidthPending
  | restoreFrequency | restoreFrequencyPending | restoreTune | sweep | sweepTune | fallback
  | finishScan =>
    rw [hat] at hpc
    cases hpc
  | tune freqHz =>
    refine Or.inr ⟨freqHz, ?_, ?_, Or.inl rfl⟩
    · simp only [next, Application.mainStep, hat]
      rfl
    · simp only [next, Application.mainStep, hat, Env.tunes]
      rfl
  | startTuner =>
    have hafter := tunedAfter_eq s env.answers
      (s.session.connect cfg.session env.answers s.commands.requestedFrequencyHz).2
    simp only [next, Application.mainStep, hat, Env.tunes]
    rcases connect_tunedTo cfg.session env.answers s.commands.requestedFrequencyHz s.session
      with ⟨hnone, hstays⟩ | ⟨hsome, -⟩
    · exact Or.inl ⟨hnone, hafter.1 hnone, hstays⟩
    · exact Or.inr ⟨_, hsome, hafter.2 hsome, Or.inr rfl⟩
  | read =>
    -- a failed read may connect again, and a connection starts from the request
    have hafter := tunedAfter_eq s env.answers (s.session.noteReadFailureAndMaybeReconnect
      cfg.session env.answers s.commands.requestedFrequencyHz).2
    simp only [next, Application.mainStep, hat, Env.tunes]
    cases hread : env.readOk with
    | true => exact Or.inl ⟨rfl, rfl, id⟩
    | false =>
      rcases note_tunedTo cfg.session env.answers s.commands.requestedFrequencyHz s.session
        with ⟨hnone, hstays⟩ | ⟨hsome, -⟩
      · exact Or.inl ⟨hnone, hafter.1 hnone, hstays⟩
      · exact Or.inr ⟨_, hsome, hafter.2 hsome, Or.inr rfl⟩
  | stopTuner =>
    refine Or.inl ?_
    cases hon : s.session.rtlConnected <;>
      simp [next, Application.mainStep, hat, TunerSession.disconnect, hon, tunedTo]
  | pollFrequency =>
    refine Or.inl ?_
    cases hon : s.session.rtlConnected <;> simp [next, Application.mainStep, hat, hon, tunedTo]
  | _ => exact Or.inl (by simp [next, Application.mainStep, hat, tunedTo])

/-- Outside scans the main loop leaves the requested frequency alone. -/
theorem mainStep_request (hpc : s.pc.ofScan = false) :
    (s.mainStep cfg env).1.commands.requestedFrequencyHz = s.commands.requestedFrequencyHz := by
  cases hat : s.pc with
  | scanConfig | scanBandwidth | scanBandwidthPending | restoreBandwidth | restoreBandwidthPending
  | restoreFrequency | restoreFrequencyPending | restoreTune | sweep | sweepTune | fallback
  | finishScan =>
    rw [hat] at hpc
    cases hpc
  | pollFrequency | read =>
    simp only [Application.mainStep, hat]
    split <;> rfl
  | _ => simp [Application.mainStep, hat]

/-- The flag it takes only when it polls, with the device connected. -/
theorem mainStep_flag (hpc : s.pc.ofScan = false)
    (hpoll : s.pc = .pollFrequency → s.session.rtlConnected = false) :
    (s.mainStep cfg env).1.commands.pendingFrequency = s.commands.pendingFrequency := by
  cases hat : s.pc with
  | scanConfig | scanBandwidth | scanBandwidthPending | restoreBandwidth | restoreBandwidthPending
  | restoreFrequency | restoreFrequencyPending | restoreTune | sweep | sweepTune | fallback
  | finishScan =>
    rw [hat] at hpc
    cases hpc
  | pollFrequency => simp [Application.mainStep, hat, hpoll hat]
  | read =>
    simp only [Application.mainStep, hat]
    split <;> rfl
  | _ => simp [Application.mainStep, hat]

/-- A request stays, or the main loop has taken it to retune. -/
theorem mainStep_asks (hpc : s.pc.ofScan = false) (hasks : s.asksFrequency) :
    (s.mainStep cfg env).1.asksFrequency ∨ (s.mainStep cfg env).1.pc.retuning = true := by
  obtain ⟨hclient, hrest⟩ := Application.mainStep_writes cfg s env
  rcases hasks with hflag | hhalf
  · by_cases hpoll : s.pc = .pollFrequency ∧ s.session.rtlConnected = true
    · refine Or.inr ?_
      simp [Application.mainStep, hpoll, hflag, Pc.retuning]
    · refine Or.inl (Or.inl ?_)
      have hoff : s.pc = .pollFrequency → s.session.rtlConnected = false := by
        intro hat
        exact Bool.eq_false_iff.mpr fun hon => hpoll ⟨hat, hon⟩
      rw [mainStep_flag cfg env hpc hoff, hflag]
  · refine Or.inl (Or.inr ?_)
    unfold Application.halfMade
    rw [hclient, hrest]
    exact hhalf

/-- A retune that is not over yet goes on. -/
theorem mainStep_retuning (hretuning : s.pc.retuning = true)
    (hnone : tunedTo (s.mainStep cfg env).2 = none) :
    (s.mainStep cfg env).1.pc.retuning = true := by
  cases hat : s.pc with
  | loadFrequency => simp [Application.mainStep, hat, Pc.retuning]
  | tune freqHz =>
    simp only [Application.mainStep, hat] at hnone
    cases hnone
  | _ =>
    rw [hat] at hretuning
    cases hretuning

end steps

/-! ### The invariant -/

structure LastTried (p : Application × Option Retune) : Prop where
  unscanned : p.1.pc.ofScan = false
  inactive : p.1.scanEngine.active = false
  pairs : p.1.Pairs
  loaded : ∀ freqHz, p.1.pc = .tune freqHz →
    freqHz = p.1.commands.requestedFrequencyHz ∨ p.1.asksFrequency
  honest : ∀ last, p.2 = some last → last.ok = true → p.1.tunedHz = last.freqHz
  tried : p.1.session.rtlConnected = true →
    (∃ last, p.2 = some last ∧ last.freqHz = p.1.commands.requestedFrequencyHz) ∨
      p.1.asksFrequency ∨ p.1.pc.retuning = true

section invariant
variable {cfg : AppConfig} {s : Application} {last : Option Retune}

theorem LastTried.main (h : LastTried (s, last)) {env : Env} (hstart : s.takesScanStart = false) :
    LastTried ((lastRetuneRun cfg).step (s, last) (.main env)) := by
  have hpc : s.pc.ofScan = false := h.unscanned
  have hreq := mainStep_request cfg env hpc
  obtain ⟨hunscanned, hinactive⟩ := mainStep_unscanned cfg env hpc h.inactive hstart
  have hbase : ∀ last', (∀ r, last' = some r → r.ok = true →
        (s.mainStep cfg env).1.tunedHz = r.freqHz) →
      ((s.mainStep cfg env).1.session.rtlConnected = true →
        (∃ r, last' = some r ∧ r.freqHz = s.commands.requestedFrequencyHz) ∨
          (s.mainStep cfg env).1.asksFrequency ∨
            (s.mainStep cfg env).1.pc.retuning = true) →
      LastTried ((s.mainStep cfg env).1, last') := by
    intro last' hhonest htried
    refine ⟨hunscanned, hinactive, h.pairs.step (.main env), ?_, hhonest, ?_⟩
    · exact fun freqHz hnext => Or.inl (mainStep_loads hnext)
    · exact hreq.symm ▸ htried
  have hobserve : (lastRetuneRun cfg).step (s, last) (.main env) =
      ((s.mainStep cfg env).1, match tunedTo (s.mainStep cfg env).2 with
        | some freqHz => some ⟨freqHz, env.tunes s.pc⟩
        | none => last) := rfl
  rw [hobserve]
  rcases mainStep_tunedTo cfg env hpc with
    ⟨hnone, htuned, hstays⟩ | ⟨freqHz, hsome, htuned, hwhich⟩
  · -- nothing is tuned: the last attempt is still the last
    rw [hnone]
    refine hbase last ?_ ?_
    · intro r hr hok
      exact htuned.trans (h.honest r hr hok)
    · intro hon
      rcases h.tried (hstays hon) with hdone | hasks | hretuning
      · exact Or.inl hdone
      · exact Or.inr (mainStep_asks cfg env hpc hasks)
      · exact Or.inr (Or.inr (mainStep_retuning cfg env hretuning hnone))
  · rw [hsome]
    refine hbase _ ?_ ?_
    -- a retune or a connect: this is the last attempt now
    · intro r hr hok
      rw [Option.some.injEq] at hr
      subst hr
      rw [htuned, if_pos hok]
    · intro _
      rcases hwhich with hat | heq
      -- a retune is for what was loaded, a connect for what is requested
      · rcases h.loaded freqHz hat with heq | hasks
        · exact Or.inl ⟨_, rfl, heq⟩
        · -- a client has asked again since the frequency was loaded
          exact Or.inr (mainStep_asks cfg env hpc hasks)
      · exact Or.inl ⟨_, rfl, heq⟩

theorem LastTried.client (h : LastTried (s, last)) {a : AppAction}
    (hmain : ∀ env, a ≠ .main env) : LastTried ((lastRetuneRun cfg).step (s, last) a) := by
  have hown := s.step_own cfg hmain
  have hlast : (lastRetuneRun cfg).step (s, last) a = ((s.step cfg a).1, last) := by
    cases a with
    | main env => exact absurd rfl (hmain env)
    | _ => rfl
  rw [hlast]
  have hvalue := h.pairs.value_step cfg hmain
  -- a client that changes the request raises the flag, now or with its next write
  refine ⟨?_, ?_, h.pairs.step a, ?_, ?_, ?_⟩
  · exact hown.pc ▸ h.unscanned
  · exact hown.scanEngine ▸ h.inactive
  · intro freqHz hat
    rcases h.loaded freqHz (hown.pc.symm.trans hat) with heq | hasks
    · exact hvalue.imp_left fun hsame => heq.trans hsame.symm
    · exact Or.inr (hasks.step hmain)
  · intro r hr hok
    exact hown.tunedHz.trans (h.honest r hr hok)
  · intro hon
    rcases h.tried (hown.session ▸ hon) with ⟨r, hr, heq⟩ | hasks | hretuning
    · rcases hvalue with hsame | hasks
      · exact Or.inl ⟨r, hr, heq.trans hsame.symm⟩
      · exact Or.inr (Or.inl hasks)
    · exact Or.inr (Or.inl (hasks.step hmain))
    · exact Or.inr (Or.inr (hown.pc ▸ hretuning))

end invariant

theorem lastTried_step {cfg : AppConfig} (p : Application × Option Retune) (a : AppAction)
    (h : LastTried p) (hstart : NoScanStart p a) : LastTried ((lastRetuneRun cfg).step p a) := by
  by_cases hmain : ∃ env, a = .main env
  · obtain ⟨env, rfl⟩ := hmain
    exact LastTried.main h hstart
  · exact LastTried.client h fun env he => hmain ⟨env, he⟩

theorem LastTried.of_initial (commands : XdrCommandState) :
    LastTried (.initial commands, none) where
  unscanned := rfl
  inactive := rfl
  pairs := ⟨trivial, trivial⟩
  loaded _ hat := by cases hat
  honest _ hlast := by cases hlast
  tried hon := by cases hon

/-! ### Main result -/

/-- In every run without scans, when the device is connected, no frequency
    is pending, no client is between its two writes and the main loop is not
    between taking the flag and the retune, the last attempt to tune was for
    the requested frequency. If it succeeded, that is the tuned one. -/
theorem request_handed_to_tuner (cfg : AppConfig) (commands : XdrCommandState)
    (acts : List AppAction)
    (hscans : (lastRetuneRun cfg).Meets NoScanStart (.initial commands, none) acts) :
    let p := (lastRetuneRun cfg).run (.initial commands, none) acts
    p.1.session.rtlConnected = true → p.1.commands.pendingFrequency = false →
      ¬ p.1.halfMade → p.1.pc.retuning = false →
      ∃ last, p.2 = some last ∧ last.freqHz = p.1.commands.requestedFrequencyHz ∧
        (last.ok = true → p.1.tunedHz = p.1.commands.requestedFrequencyHz) := by
  intro p hon hflag hwhole hidle
  have h : LastTried p := Machine.run_invariant lastTried_step (.of_initial commands) hscans
  rcases h.tried hon with ⟨last, hlast, heq⟩ | (hset | hhalf) | hretuning
  · exact ⟨last, hlast, heq, fun hok => (h.honest last hlast hok).trans heq⟩
  · rw [hflag] at hset
    cases hset
  · exact absurd hhalf hwhole
  · rw [hidle] at hretuning
    cases hretuning

/-- An FM-DX client starts the tuner, then an XDR client tunes. -/
theorem tuned_request_handed_to_tuner :
    let env : Env := ⟨true, ⟨true, true, true, false⟩, true, true, none, none⟩
    let acts := .fmdxStart :: List.replicate 3 (.main env) ++
      .xdrLine "T90000".toList false :: List.replicate 3 .clientWrite ++
      List.replicate 16 (.main env)
    let p := (lastRetuneRun ⟨⟨false, true, false⟩, ⟨0, true⟩⟩).run
      (.initial (.create 88500000 0 2 0 85 0 false), none) acts
    ∃ last, p.2 = some last ∧ last.freqHz = p.1.commands.requestedFrequencyHz ∧
      (last.ok = true → p.1.tunedHz = p.1.commands.requestedFrequencyHz) := by
  intro env acts
  exact request_handed_to_tuner ⟨⟨false, true, false⟩, ⟨0, true⟩⟩ _ acts (by decide +kernel)
    (by decide +kernel) (by decide +kernel) (by decide +kernel) (by decide +kernel)

/-- The retune to a requested frequency fails, and nobody tries again. -/
theorem failed_retune_not_repeated :
    let ok : Env := ⟨true, ⟨true, true, true, false⟩, true, true, none, none⟩
    let acts := .fmdxStart :: List.replicate 3 (.main ok) ++
      .xdrLine "T90000".toList false :: List.replicate 3 .clientWrite ++
      List.replicate 11 (.main { ok with tuneOk := false })
    let M := lastRetuneRun ⟨⟨false, true, false⟩, ⟨0, true⟩⟩
    let start : Application × Option Retune :=
      (.initial (.create 88500000 0 2 0 85 0 false), none)
    let p := M.run start acts
    M.Meets NoScanStart start acts ∧ p.1.pc = .pollStop ∧
      p.1.clientWrites = [] ∧ p.1.restWrites = [] ∧
      p.1.session.rtlConnected = true ∧ p.1.commands.pendingFrequency = false ∧
      p.1.commands.requestedFrequencyHz = 90000000 ∧ p.1.tunedHz = 88500000 := by
  decide +kernel

end FmSdrTuner

import FmSdrTuner.Control.MainLoop

/-! # Scan start and cancel requests

    Clients raise two flags, `m_scanStartPending` and `m_scanCancelPending`.
    `handleControl` empties the first, then the second; a running sweep
    empties the second too. The flags do not tell in which order the
    requests came.

    The history variable keeps the last request since the previous
    `handleControl`, a call ending where it has emptied the second flag.
    Main result: `last_request_obeyed_iff`. -/

namespace FmSdrTuner

/-! ### History -/

inductive ScanRequest where
  | start
  | cancel
  deriving DecidableEq, Repr

/-- The scan request that a write makes. -/
def Write.scanRequest : Write → Option ScanRequest
  | .server .scanStartPending => some .start
  | .server .scanCancelPending => some .cancel
  | _ => none

structure ScanHistory where
  /-- The last request since the previous `handleControl`. -/
  last : Option ScanRequest
  /-- Was the engine active when the current call began? -/
  activeBefore : Bool
  /-- Did the current call find a start request? -/
  taken : Bool
  deriving DecidableEq, Repr

def ScanHistory.initial : ScanHistory := ⟨none, false, false⟩

def ScanHistory.note (h : ScanHistory) (w : Write) : ScanHistory :=
  match w.scanRequest with
  | some request => { h with last := some request }
  | none => h

/-- What the engine should be after the current call. -/
def ScanHistory.expected (h : ScanHistory) : Bool :=
  match h.last with
  | some .start => true
  | some .cancel => false
  | none => h.activeBefore

def observeScan (h : ScanHistory) (s : Application) : AppAction → ScanHistory
  | .main _ =>
      match s.pc with
      | .control => { h with activeBefore := s.scanEngine.active, taken := false }
      | .scanStart _ => { h with taken := s.server.scanStartPending }
      | .scanCancel => { h with last := none }
      | _ => h
  | a => (s.performed a).elim h h.note

/-- The application, watched for scan requests. -/
def scanRun (cfg : AppConfig) : Machine (Application × ScanHistory) AppAction :=
  (appMachine cfg).withHistory observeScan

/-! ### The property and the condition -/

/-- The property of one step: where `handleControl` is through with the
    flags, the engine is what the last request asked for. -/
def ObeysLastRequest (cfg : AppConfig) (p : Application × ScanHistory) (a : AppAction) : Prop :=
  ∀ env, a = .main env → p.1.pc = .scanCancel →
    (p.1.mainStep cfg env).1.scanEngine.active = p.2.expected

/-- How the order of requests can get lost, seen where `handleControl` reads
    the cancel flag. -/
structure ScanHistory.InOrder (h : ScanHistory) (cancelPending : Bool) : Prop where
  /-- No start came after a cancel that is still pending. -/
  start_after_cancel : cancelPending = true → h.last ≠ some .start
  /-- No sweep used up a cancel that came after the start now taken. -/
  cancel_after_start : cancelPending = false → h.taken = true → h.last ≠ some .cancel
  /-- No start came after this call had read the start flag. -/
  start_missed : cancelPending = false → h.activeBefore = false → h.taken = false →
    h.last ≠ some .start
  /-- The start now taken did not come during the previous call. -/
  start_kept : cancelPending = false → h.activeBefore = false → h.taken = true → h.last ≠ none

def RequestsInOrder (p : Application × ScanHistory) (a : AppAction) : Prop :=
  ∀ env, a = .main env → p.1.pc = .scanCancel → p.2.InOrder p.1.server.scanCancelPending

/-! ### The invariant -/

/-- Between the first step of `handleControl` and the one that reads the
    cancel flag. -/
def Pc.inControl : Pc → Bool
  | .scanStart _ | .scanConfig _ _ _ | .scanBandwidth | .scanBandwidthPending | .scanCancel => true
  | _ => false

/-- How far `handleControl` has got. -/
def ScanProgress (active : Bool) (h : ScanHistory) : Pc → Prop
  | .scanStart _ => active = h.activeBefore
  | .scanConfig _ _ _ => h.taken = true ∧ active = h.activeBefore
  | .scanBandwidth | .scanBandwidthPending => h.taken = true ∧ active = true
  | .scanCancel => active = (h.activeBefore || h.taken)
  | _ => True

theorem ScanProgress.of_outside {active : Bool} {h : ScanHistory} {pc : Pc}
    (hpc : pc.inControl = false) : ScanProgress active h pc := by
  cases pc <;> trivial

/-- The engine as the requests so far have found it. -/
def ScanHistory.found (h : ScanHistory) (s : Application) : Bool :=
  if s.pc.inControl then h.activeBefore else s.scanEngine.active

structure ScanTracked (p : Application × ScanHistory) : Prop where
  pending : p.1.server.scanCancelPending = true → p.2.last ≠ none
  obeyed : p.2.last = some .cancel →
    p.1.server.scanCancelPending = true ∨ p.2.found p.1 = false
  progress : ScanProgress p.1.scanEngine.active p.2 p.1.pc

theorem scanTracked_initial (commands : XdrCommandState) :
    ScanTracked (Application.initial commands, .initial) where
  pending h := by cases h
  obeyed h := by cases h
  progress := trivial

/-- What the flags make of the requests is what was expected exactly if the
    requests are in order. -/
theorem ScanHistory.expected_iff {h : ScanHistory} {cancelPending : Bool}
    (hpending : cancelPending = true → h.last ≠ none)
    (hobeyed : h.last = some .cancel → cancelPending = true ∨ h.activeBefore = false) :
    ((h.activeBefore || h.taken) && !cancelPending) = h.expected ↔ h.InOrder cancelPending := by
  obtain ⟨last, activeBefore, taken⟩ := h
  constructor
  · intro hexp
    refine ⟨?_, ?_, ?_, ?_⟩ <;> intros <;> intro hlast <;> simp_all [expected]
  · rintro ⟨hstart, hcancel, hmissed, hkept⟩
    cases cancelPending with
    | true =>
      -- the engine ends up inactive, and the last request was a cancel
      cases last with
      | none => exact absurd rfl (hpending rfl)
      | some request =>
        cases request with
        | start => exact absurd rfl (hstart rfl)
        | cancel => simp [expected]
    | false =>
      cases last with
      | none => cases activeBefore <;> cases taken <;> simp_all [expected]
      | some request =>
        cases request <;> cases activeBefore <;> cases taken <;> simp_all [expected]

/-! ### Steps of the clients -/

section clients
variable {cfg : AppConfig} {s s' : Application} {h : ScanHistory}

theorem ScanTracked.congr (ht : ScanTracked (s, h)) (hown : s.SameOwn s')
    (hcancel : s'.server.scanCancelPending = s.server.scanCancelPending) :
    ScanTracked (s', h) := by
  refine ⟨?_, ?_, ?_⟩
  · show s'.server.scanCancelPending = true → h.last ≠ none
    rw [hcancel]
    exact ht.pending
  · show h.last = some .cancel → s'.server.scanCancelPending = true ∨ h.found s' = false
    rw [hcancel, ScanHistory.found, hown.pc, hown.scanEngine]
    exact ht.obeyed
  · show ScanProgress s'.scanEngine.active h s'.pc
    rw [hown.pc, hown.scanEngine]
    exact ht.progress

/-- A write without a scan request leaves the cancel flag alone. -/
theorem write_scanCancelPending (s : Application) {w : Write} (hw : w.scanRequest = none) :
    (s.write w).server.scanCancelPending = s.server.scanCancelPending := by
  cases w with
  | server st => cases st <;> first | rfl | cases hw
  | _ => rfl

theorem ScanTracked.write (ht : ScanTracked (s, h)) (w : Write) :
    ScanTracked (s.write w, h.note w) := by
  have hown := s.write_own w
  cases hreq : w.scanRequest with
  | none =>
    rw [show h.note w = h by rw [ScanHistory.note, hreq]]
    exact ht.congr hown (write_scanCancelPending s hreq)
  | some request =>
    have hnote : h.note w = { h with last := some request } := by rw [ScanHistory.note, hreq]
    rw [hnote]
    refine ⟨fun _ => by simp, fun hlast => Or.inl ?_, ?_⟩
    · -- the request was a cancel, and raised the flag
      cases hlast
      cases w with
      | server st => cases st <;> first | rfl | cases hreq
      | _ => cases hreq
    · show ScanProgress (s.write w).scanEngine.active _ (s.write w).pc
      rw [hown.pc, hown.scanEngine]
      have hprog := ht.progress
      revert hprog
      show ScanProgress s.scanEngine.active h s.pc → _
      cases s.pc <;> exact id

theorem scanTracked_client {p : Application × ScanHistory} (ht : ScanTracked p) {a : AppAction}
    (hmain : ∀ env, a ≠ .main env) : ScanTracked ((scanRun cfg).step p a) := by
  obtain ⟨s, h⟩ := p
  have hobs : observeScan h s a = (s.performed a).elim h h.note := by
    cases a with
    | main env => exact absurd rfl (hmain env)
    | _ => rfl
  have hclient := s.step_client cfg hmain
  show ScanTracked ((s.step cfg a).1, observeScan h s a)
  rw [hobs]
  generalize (s.step cfg a).1 = s' at hclient
  cases hclient with
  | direct w hd hw =>
    rw [hw]
    exact ht.write w
  | client w ws hws hw =>
    rw [hw]
    have htail : ScanTracked ({ s with clientWrites := ws }, h) := ht.congr .rfl rfl
    exact htail.write w
  | rest w ws hws hw =>
    rw [hw]
    have htail : ScanTracked ({ s with restWrites := ws }, h) := ht.congr .rfl rfl
    exact htail.write w
  | line hfree hw | request controls params ha hfree hw | idle ha hw =>
    rw [hw]
    exact ht.congr .rfl rfl
  | group group nowMs ha hw =>
    rw [hw]
    obtain ⟨pi, queue, next, heq⟩ := s.server.updateRDS_frame group nowMs
    exact ht.congr .rfl (by rw [heq])

end clients

/-! ### Steps of the main loop -/

section mainStep
variable {cfg : AppConfig} {env : Env} {s : Application}

variable (cfg env) in
/-- Elsewhere the main loop activates nothing, and it uses up a cancel only
    by deactivating the engine. -/
theorem mainStep_flags (hpc : s.pc.inControl = false) (hcontrol : s.pc ≠ .control) :
    (s.mainStep cfg env).1.pc.inControl = false ∧
      ((s.mainStep cfg env).1.server.scanCancelPending = true →
        s.server.scanCancelPending = true) ∧
      ((s.mainStep cfg env).1.scanEngine.active = true → s.scanEngine.active = true) ∧
      (s.server.scanCancelPending = true →
        (s.mainStep cfg env).1.server.scanCancelPending = true ∨
          (s.mainStep cfg env).1.scanEngine.active = false) := by
  cases h : s.pc with
  | control => exact absurd h hcontrol
  | scanStart currentFreqHz | scanBandwidth | scanBandwidthPending | scanCancel =>
    rw [h] at hpc; cases hpc
  | scanConfig currentFreqHz fields config => rw [h] at hpc; cases hpc
  | restoreTune freqHz caller =>
    simp only [Application.mainStep, h]
    split <;> cases caller <;> simp +contextual [RestoreCaller.resume, Pc.inControl]
  | _ =>
    simp only [Application.mainStep, h]
    first
      | (simp +contextual [Pc.inControl]; done)
      | (repeat' split) <;> simp_all [Pc.inControl]

theorem scanTracked_main {p : Application × ScanHistory} (ht : ScanTracked p) :
    ScanTracked ((scanRun cfg).step p (.main env)) := by
  obtain ⟨s, h⟩ := p
  have hpending : s.server.scanCancelPending = true → h.last ≠ none := ht.pending
  have hobeyed : h.last = some .cancel →
      s.server.scanCancelPending = true ∨ h.found s = false := ht.obeyed
  have hprog : ScanProgress s.scanEngine.active h s.pc := ht.progress
  show ScanTracked ((s.mainStep cfg env).1, observeScan h s (.main env))
  by_cases hcontrol : s.pc = .control
  · -- the call begins
    simp only [Application.mainStep, observeScan, hcontrol]
    simp only [ScanHistory.found, hcontrol] at hobeyed
    exact ⟨hpending, hobeyed, rfl⟩
  cases hpc : s.pc with
  | control => exact absurd hpc hcontrol
  | scanStart currentFreqHz =>
    simp only [ScanHistory.found, hpc, Pc.inControl, if_true] at hobeyed
    rw [hpc] at hprog
    simp only [Application.mainStep, observeScan, hpc]
    refine ⟨hpending, ?_, ?_⟩
    · simp only [ScanHistory.found]
      split <;> exact hobeyed
    · cases hstart : s.server.scanStartPending with
      | true => exact ⟨rfl, hprog⟩
      | false =>
        show s.scanEngine.active = (h.activeBefore || false)
        rw [Bool.or_false]
        exact hprog
  | scanConfig currentFreqHz fields config =>
    simp only [ScanHistory.found, hpc, Pc.inControl, if_true] at hobeyed
    rw [hpc] at hprog
    cases fields with
    | cons field fields =>
      simp only [Application.mainStep, observeScan, hpc]
      exact ⟨hpending, hobeyed, hprog⟩
    | nil =>
      simp only [Application.mainStep, observeScan, hpc]
      refine ⟨hpending, ?_, ?_⟩
      · simp only [ScanHistory.found]
        split <;> exact hobeyed
      · split
        · exact ⟨hprog.1, rfl⟩
        · show true = (h.activeBefore || h.taken)
          rw [hprog.1, Bool.or_true]
  | scanBandwidth =>
    simp only [ScanHistory.found, hpc, Pc.inControl, if_true] at hobeyed
    rw [hpc] at hprog
    simp only [Application.mainStep, observeScan, hpc]
    exact ⟨hpending, hobeyed, hprog⟩
  | scanBandwidthPending =>
    simp only [ScanHistory.found, hpc, Pc.inControl, if_true] at hobeyed
    rw [hpc] at hprog
    simp only [Application.mainStep, observeScan, hpc]
    refine ⟨hpending, hobeyed, ?_⟩
    show s.scanEngine.active = (h.activeBefore || h.taken)
    rw [hprog.1, Bool.or_true]
    exact hprog.2
  | scanCancel =>
    -- the call ends: the flag and the record are empty
    simp only [Application.mainStep, observeScan, hpc]
    refine ⟨fun hp => (by cases hp), fun hl => (by cases hl), ?_⟩
    apply ScanProgress.of_outside
    split <;> rfl
  | _ =>
    obtain ⟨hnext, hcancel, hactive, hused⟩ :=
      mainStep_flags cfg env (by rw [hpc]; rfl) hcontrol
    have hobs : observeScan h s (.main env) = h := by simp only [observeScan, hpc]
    simp only [ScanHistory.found, hpc, Pc.inControl] at hobeyed
    rw [hobs]
    refine ⟨fun hp => hpending (hcancel hp), fun hl => ?_, ScanProgress.of_outside hnext⟩
    show (s.mainStep cfg env).1.server.scanCancelPending = true ∨
      h.found (s.mainStep cfg env).1 = false
    rw [ScanHistory.found, hnext]
    rcases hobeyed hl with hp | hoff
    · exact hused hp
    · -- an engine that is off stays off outside `handleControl`
      refine Or.inr ?_
      cases hon : (s.mainStep cfg env).1.scanEngine.active with
      | false => rfl
      | true => rw [hactive hon] at hoff; cases hoff

theorem scanTracked_step (p : Application × ScanHistory) (a : AppAction) (ht : ScanTracked p) :
    ScanTracked ((scanRun cfg).step p a) := by
  by_cases hmain : ∃ env, a = .main env
  · obtain ⟨env, rfl⟩ := hmain
    exact scanTracked_main ht
  · exact scanTracked_client ht fun env he => hmain ⟨env, he⟩

/-- What the step that reads the cancel flag makes of the engine. -/
theorem mainStep_scanCancel (hpc : s.pc = .scanCancel) :
    (s.mainStep cfg env).1.scanEngine.active =
      (s.scanEngine.active && !s.server.scanCancelPending) := by
  simp only [Application.mainStep, hpc]

/-- In a tracked state the property of a step is the condition. -/
theorem obeysLastRequest_iff {p : Application × ScanHistory} (ht : ScanTracked p)
    (a : AppAction) : ObeysLastRequest cfg p a ↔ RequestsInOrder p a := by
  refine forall_congr' fun env => forall_congr' fun _ => forall_congr' fun hpc => ?_
  have hprog := ht.progress
  have hobeyed := ht.obeyed
  rw [ScanHistory.found, hpc] at hobeyed
  rw [hpc] at hprog
  rw [mainStep_scanCancel hpc, show p.1.scanEngine.active = _ from hprog]
  exact ScanHistory.expected_iff ht.pending hobeyed

end mainStep

/-! ### Main result -/

/-- In a run every `handleControl` obeys the last request exactly if every
    call finds the requests in order. -/
theorem last_request_obeyed_iff (cfg : AppConfig) (commands : XdrCommandState)
    (acts : List AppAction) :
    (scanRun cfg).Meets (ObeysLastRequest cfg) (Application.initial commands, .initial) acts ↔
      (scanRun cfg).Meets RequestsInOrder (Application.initial commands, .initial) acts :=
  Machine.meets_iff_of_invariant scanTracked_step (fun _ a ht => obeysLastRequest_iff ht a)
    (scanTracked_initial commands) acts

/-- An empty line, then `S`, before the loop looks: the start is the last
    request, and the engine is inactive. -/
theorem start_after_cancel_lost :
    let cfg : AppConfig := ⟨⟨false, true, false⟩, ⟨0, true⟩⟩
    let env : Env := ⟨true, ⟨true, true, true, false⟩, true, true, none, none⟩
    let p := (scanRun cfg).run (Application.initial (.create 88500000 0 2 0 85 0 false), .initial)
      (.fmdxStart :: List.replicate 3 (.main env) ++
        [.xdrLine [] false, .xdrLine "S".toList false, .clientWrite, .clientWrite] ++
        List.replicate 9 (.main env))
    p.1.pc = .scanCancel ∧ p.2.last = some .start ∧ p.2.taken = true ∧
      (p.1.mainStep cfg env).1.scanEngine.active = false ∧
      ¬ ObeysLastRequest cfg p (.main env) := by
  refine ⟨by decide +kernel, by decide +kernel, by decide +kernel, by decide +kernel, ?_⟩
  intro hobeys
  have hactive := hobeys _ rfl (by decide +kernel)
  revert hactive
  decide +kernel

end FmSdrTuner

import Mathlib.Data.List.Basic

/-! # TunerSession

    Connecting, disconnecting and the read-failure counter. What the
    tuner answers is given by `TunerAnswers`; the calls made to the tuner
    are returned along with the new state. -/

namespace FmSdrTuner

/-- A call of `TunerController`. -/
inductive TunerCall where
  | connect
  | disconnect
  | setFrequency (freqHz : Nat)
  | setSampleRate
  | setFrequencyCorrection (ppm : Int)
  deriving DecidableEq, Repr

/-- What the calls of one `connect` answer, and whether the device reports
    that it has failed. -/
structure TunerAnswers where
  connectOk : Bool
  okFreq : Bool
  okRate : Bool
  deviceFailed : Bool
  deriving DecidableEq, Repr

/-- A connection attempt that succeeds. -/
def TunerAnswers.connects (a : TunerAnswers) : Bool := a.connectOk && a.okFreq && a.okRate

/-- The parameters of `TunerSession` that steer its calls. -/
structure SessionParams where
  freqCorrectionPpm : Int
  autoReconnect : Bool
  deriving DecidableEq, Repr

structure TunerSession where
  rtlConnected : Bool
  consecutiveReadFailures : Nat
  deriving DecidableEq, Repr

namespace TunerSession
variable (params : SessionParams) (answers : TunerAnswers) (requestedFrequencyHz : Nat)

/-- `TunerSession::connect`. A failed frequency correction is ignored. -/
def connect (s : TunerSession) : TunerSession × List TunerCall :=
  if s.rtlConnected then (s, [])
  else if !answers.connectOk then (s, [.connect])
  else
    let calls := [.connect, .setFrequency requestedFrequencyHz, .setSampleRate] ++
      if params.freqCorrectionPpm ≠ 0 then [.setFrequencyCorrection params.freqCorrectionPpm]
      else []
    if !answers.okFreq || !answers.okRate then (s, calls ++ [.disconnect])
    else ({ s with rtlConnected := true }, calls)

/-- `TunerSession::disconnect`. -/
def disconnect (s : TunerSession) : TunerSession × List TunerCall :=
  if !s.rtlConnected then (s, [])
  else ({ s with rtlConnected := false }, [.disconnect])

/-- `TunerSession::resetReadFailures`. -/
def resetReadFailures (s : TunerSession) : TunerSession :=
  { s with consecutiveReadFailures := 0 }

/-- `disconnect(); connect(); m_consecutiveReadFailures = 0;`. -/
def reconnect (s : TunerSession) : TunerSession × List TunerCall :=
  let disconnected := s.disconnect
  let connected := disconnected.1.connect params answers requestedFrequencyHz
  (connected.1.resetReadFailures, disconnected.2 ++ connected.2)

/-- `TunerSession::noteReadFailureAndMaybeReconnect`. -/
def noteReadFailureAndMaybeReconnect (s : TunerSession) : TunerSession × List TunerCall :=
  let s := { s with consecutiveReadFailures := s.consecutiveReadFailures + 1 }
  if params.autoReconnect && s.rtlConnected && answers.deviceFailed then
    s.reconnect params answers requestedFrequencyHz
  else if params.autoReconnect && s.rtlConnected && 20 ≤ s.consecutiveReadFailures then
    s.reconnect params answers requestedFrequencyHz
  else (s, [])

/-! ### What the operations do -/

/-- A connected session stays as it is, a disconnected one calls the tuner. -/
theorem connect_cases (s : TunerSession) :
    (s.rtlConnected = true ∧ s.connect params answers requestedFrequencyHz = (s, [])) ∨
    (s.rtlConnected = false ∧
      .connect ∈ (s.connect params answers requestedFrequencyHz).2 ∧
      (s.connect params answers requestedFrequencyHz).1 =
        { s with rtlConnected := answers.connects }) := by
  cases hconn : s.rtlConnected with
  | true => exact Or.inl ⟨rfl, by simp [connect, hconn]⟩
  | false =>
    refine Or.inr ⟨rfl, ?_, ?_⟩
    · simp only [connect, hconn, Bool.false_eq_true, if_false]
      split
      · simp
      · split <;> simp
    · cases s
      simp only at hconn
      subst hconn
      simp only [connect, Bool.false_eq_true, if_false, TunerAnswers.connects]
      cases answers.connectOk <;> cases answers.okFreq <;> cases answers.okRate <;> rfl

theorem connect_failures (s : TunerSession) :
    (s.connect params answers requestedFrequencyHz).1.consecutiveReadFailures =
      s.consecutiveReadFailures := by
  rcases s.connect_cases params answers requestedFrequencyHz with ⟨-, h⟩ | ⟨-, -, h⟩ <;> rw [h]

variable {params answers requestedFrequencyHz} in
/-- The only frequency a session sets is the requested one. -/
theorem connect_setFrequency {s : TunerSession} {freqHz : Nat}
    (h : .setFrequency freqHz ∈ (s.connect params answers requestedFrequencyHz).2) :
    freqHz = requestedFrequencyHz := by
  unfold connect at h
  split at h
  · simp at h
  · split at h
    · simp at h
    · split at h
      · split at h <;> simpa using h
      · split at h <;> simpa using h

variable {params answers requestedFrequencyHz} in
/-- Nor does a read failure set another one. -/
theorem note_setFrequency {s : TunerSession} {freqHz : Nat}
    (h : .setFrequency freqHz ∈
      (s.noteReadFailureAndMaybeReconnect params answers requestedFrequencyHz).2) :
    freqHz = requestedFrequencyHz := by
  have hreconnect : ∀ s : TunerSession,
      .setFrequency freqHz ∈ (s.reconnect params answers requestedFrequencyHz).2 →
        freqHz = requestedFrequencyHz := by
    intro s hmem
    rcases List.mem_append.mp hmem with hdis | hcon
    · unfold disconnect at hdis
      split at hdis <;> simp at hdis
    · exact connect_setFrequency hcon
  unfold noteReadFailureAndMaybeReconnect at h
  dsimp only at h
  split at h
  · exact hreconnect _ h
  · split at h
    · exact hreconnect _ h
    · cases h

/-- A reconnect of a connected session always calls `tuner.connect`. -/
theorem reconnect_connected {s : TunerSession} (h : s.rtlConnected = true) :
    .connect ∈ (s.reconnect params answers requestedFrequencyHz).2 ∧
      (s.reconnect params answers requestedFrequencyHz).1 =
        ⟨answers.connects, 0⟩ := by
  have hdis : s.disconnect = ({ s with rtlConnected := false }, [.disconnect]) := by
    simp [disconnect, h]
  rcases connect_cases params answers requestedFrequencyHz { s with rtlConnected := false }
    with ⟨hc, -⟩ | ⟨-, hmem, hstate⟩
  · cases hc
  · simp only [reconnect, hdis]
    exact ⟨List.mem_append_right _ hmem, by rw [hstate]; rfl⟩

/-- The calls of a connection attempt that gets through. -/
def connectCalls : List TunerCall :=
  [.connect, .setFrequency requestedFrequencyHz, .setSampleRate] ++
    if params.freqCorrectionPpm ≠ 0 then [.setFrequencyCorrection params.freqCorrectionPpm]
    else []

variable {params answers requestedFrequencyHz} in
theorem connect_connected {s : TunerSession}
    (hmem : .connect ∈ (s.connect params answers requestedFrequencyHz).2)
    (hconn : (s.connect params answers requestedFrequencyHz).1.rtlConnected = true) :
    answers.connectOk = true ∧
      (s.connect params answers requestedFrequencyHz).2 =
        connectCalls params requestedFrequencyHz := by
  unfold connect at hmem hconn ⊢
  by_cases hold : s.rtlConnected = true
  · simp [hold] at hmem
  · rw [if_neg hold] at hconn ⊢
    by_cases hok : answers.connectOk = true
    · simp only [hok, Bool.not_true, Bool.false_eq_true, if_false] at hconn ⊢
      split at hconn
      · exact absurd hconn hold
      · next hinit =>
        rw [if_neg hinit]
        exact ⟨trivial, rfl⟩
    · simp only [hok, Bool.not_false, if_true] at hconn
      exact absurd hconn hold

variable {params answers requestedFrequencyHz} in
theorem reconnect_connects {s : TunerSession} (hold : s.rtlConnected = true)
    (hconn : (s.reconnect params answers requestedFrequencyHz).1.rtlConnected = true) :
    answers.connectOk = true ∧
      (s.reconnect params answers requestedFrequencyHz).2 =
        .disconnect :: connectCalls params requestedFrequencyHz := by
  have hdis : s.disconnect = ({ s with rtlConnected := false }, [.disconnect]) := by
    simp [disconnect, hold]
  simp only [reconnect, hdis] at hconn ⊢
  rcases connect_cases params answers requestedFrequencyHz { s with rtlConnected := false }
    with ⟨hc, -⟩ | ⟨-, hmem, -⟩
  · cases hc
  · obtain ⟨hok, hcalls⟩ := connect_connected hmem hconn
    exact ⟨hok, by rw [hcalls]; rfl⟩

variable {params answers requestedFrequencyHz} in
theorem note_connects {s : TunerSession}
    (hmem : .connect ∈ (s.noteReadFailureAndMaybeReconnect params answers
      requestedFrequencyHz).2)
    (hconn : (s.noteReadFailureAndMaybeReconnect params answers
      requestedFrequencyHz).1.rtlConnected = true) :
    answers.connectOk = true ∧
      (s.noteReadFailureAndMaybeReconnect params answers requestedFrequencyHz).2 =
        .disconnect :: connectCalls params requestedFrequencyHz := by
  have hold : ∀ {p q : Bool}, (p && s.rtlConnected && q) = true → s.rtlConnected = true := by
    intro p q h
    simp only [Bool.and_eq_true] at h
    exact h.1.2
  unfold noteReadFailureAndMaybeReconnect at hmem hconn ⊢
  dsimp only at hmem hconn ⊢
  by_cases hfail : (params.autoReconnect && s.rtlConnected && answers.deviceFailed) = true
  · rw [if_pos hfail] at hconn ⊢
    exact reconnect_connects (hold hfail) hconn
  · rw [if_neg hfail] at hmem hconn ⊢
    by_cases hmany : (params.autoReconnect && s.rtlConnected &&
        decide (20 ≤ s.consecutiveReadFailures + 1)) = true
    · rw [if_pos hmany] at hconn ⊢
      exact reconnect_connects (hold hmany) hconn
    · rw [if_neg hmany] at hmem
      cases hmem

variable {params answers requestedFrequencyHz} in
theorem note_connected {s : TunerSession}
    (hconn : (s.noteReadFailureAndMaybeReconnect params answers
      requestedFrequencyHz).1.rtlConnected = true) : s.rtlConnected = true := by
  unfold noteReadFailureAndMaybeReconnect at hconn
  dsimp only at hconn
  split at hconn
  · next hguard =>
    simp only [Bool.and_eq_true] at hguard
    exact hguard.1.2
  · split at hconn
    · next hguard =>
      simp only [Bool.and_eq_true] at hguard
      exact hguard.1.2
    · exact hconn

/-- What a failed read does: it tries to reconnect, or it is only counted
    because no reconnect is due, or because none is possible. -/
theorem note_cases (s : TunerSession) (h : params.autoReconnect = true) :
    (s.rtlConnected = true ∧
      .connect ∈ (s.noteReadFailureAndMaybeReconnect params answers requestedFrequencyHz).2 ∧
      (s.noteReadFailureAndMaybeReconnect params answers requestedFrequencyHz).1 =
        ⟨answers.connects, 0⟩) ∨
    ((s.rtlConnected = true → s.consecutiveReadFailures + 1 < 20) ∧
      s.noteReadFailureAndMaybeReconnect params answers requestedFrequencyHz =
        ({ s with consecutiveReadFailures := s.consecutiveReadFailures + 1 }, [])) := by
  cases hconn : s.rtlConnected with
  | false => exact Or.inr ⟨by simp, by simp [noteReadFailureAndMaybeReconnect, hconn]⟩
  | true =>
    have hcounted : ({ s with consecutiveReadFailures := s.consecutiveReadFailures + 1 } :
        TunerSession).rtlConnected = true := hconn
    have hre := reconnect_connected params answers requestedFrequencyHz hcounted
    by_cases hfail : answers.deviceFailed = true
    · refine Or.inl ⟨rfl, ?_⟩
      simpa [noteReadFailureAndMaybeReconnect, h, hconn, hfail] using hre
    · by_cases hmany : 20 ≤ s.consecutiveReadFailures + 1
      · refine Or.inl ⟨rfl, ?_⟩
        simpa [noteReadFailureAndMaybeReconnect, h, hconn, hfail, hmany] using hre
      · refine Or.inr ⟨fun _ => by omega, ?_⟩
        simp [noteReadFailureAndMaybeReconnect, h, hconn, hfail, hmany]

end TunerSession

end FmSdrTuner

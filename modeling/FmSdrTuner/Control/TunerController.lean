import FmSdrTuner.Control.TunerSession

/-! # TunerController

    `TunerController` passes calls on to one of three devices. Only SDRplay
    devices have an LNA state, an antenna input and a bias tee; the
    controller keeps these three, to set them again when it connects.

    What a device answers is given by an oracle over the calls made so
    far, so that a statement about every oracle is one about every
    sequence of outcomes. -/

namespace FmSdrTuner

/-- `TunerController::SourceKind`. -/
inductive SourceKind where
  | rtlSdr
  | rtlTcp
  | sdrPlay
  deriving DecidableEq, Repr

/-- A call of the device behind the controller. -/
inductive DeviceCall where
  | connect
  | disconnect
  | setFrequency (freqHz : Nat)
  | setSampleRate
  | setFrequencyCorrection (ppm : Int)
  | setGainMode (manual : Bool)
  | setGain (gainTenthsDb : Nat)
  | setAGC (enable : Bool)
  | setLnaState (state : Int)
  | setAntenna (index : Int)
  | setBiasTee (enable : Bool)
  deriving DecidableEq, Repr

/-- What the `n`-th call of the device answers. -/
abbrev Outcomes := Nat → DeviceCall → Bool

structure TunerController where
  kind : SourceKind
  sdrplayLnaState : Int
  sdrplayAntenna : Int
  sdrplayBiasTee : Bool
  /-- The calls of the device, in order. -/
  calls : List DeviceCall
  deriving DecidableEq, Repr

namespace TunerController

/-- The constructor. -/
def create (kind : SourceKind) : TunerController := ⟨kind, 4, 0, false, []⟩

/-- `TunerController::configureSdrplay`. -/
def configureSdrplay (t : TunerController) (lnaState antenna : Int) (biasTee : Bool) :
    TunerController :=
  { t with sdrplayLnaState := lnaState, sdrplayAntenna := antenna, sdrplayBiasTee := biasTee }

/-- Calls whose answers are not looked at here. -/
def log (t : TunerController) (calls : List DeviceCall) : TunerController :=
  { t with calls := t.calls ++ calls }

variable (outcomes : Outcomes)

/-- A call that every kind of device has. -/
def call (t : TunerController) (c : DeviceCall) : TunerController × Bool :=
  (t.log [c], outcomes t.calls.length c)

/-- A call that only SDRplay devices have. -/
def sdrplayCall (t : TunerController) (c : DeviceCall) : TunerController × Bool :=
  if t.kind = .sdrPlay then t.call outcomes c else (t, false)

/-- `TunerController::setFrequencyCorrection`. -/
def setFrequencyCorrection (t : TunerController) (ppm : Int) : TunerController × Bool :=
  t.call outcomes (.setFrequencyCorrection ppm)

/-- `TunerController::setGainMode`. -/
def setGainMode (t : TunerController) (manual : Bool) : TunerController × Bool :=
  t.call outcomes (.setGainMode manual)

/-- `TunerController::setGain`. -/
def setGain (t : TunerController) (gainTenthsDb : Nat) : TunerController × Bool :=
  t.call outcomes (.setGain gainTenthsDb)

/-- `TunerController::setAGC`. -/
def setAGC (t : TunerController) (enable : Bool) : TunerController × Bool :=
  t.call outcomes (.setAGC enable)

/-- `TunerController::setLnaState`. -/
def setLnaState (t : TunerController) (state : Int) : TunerController × Bool :=
  { t with sdrplayLnaState := state }.sdrplayCall outcomes (.setLnaState state)

/-- `TunerController::setAntenna`. -/
def setAntenna (t : TunerController) (index : Int) : TunerController × Bool :=
  { t with sdrplayAntenna := index }.sdrplayCall outcomes (.setAntenna index)

/-- `TunerController::setBiasTee`. -/
def setBiasTee (t : TunerController) (enable : Bool) : TunerController × Bool :=
  { t with sdrplayBiasTee := enable }.sdrplayCall outcomes (.setBiasTee enable)

/-- What `connect` sets again on an SDRplay device. -/
def replayed (t : TunerController) : List DeviceCall :=
  if t.kind = .sdrPlay then
    [.setLnaState t.sdrplayLnaState] ++
      (if 0 < t.sdrplayAntenna then [.setAntenna t.sdrplayAntenna] else []) ++
      (if t.sdrplayBiasTee then [.setBiasTee true] else [])
  else []

/-- The calls of `TunerController::connect`; `ok` is the answer to the first. -/
def connectCalls (t : TunerController) (ok : Bool) : List DeviceCall :=
  if ok then .connect :: t.replayed else [.connect]

/-- The calls of the device for a call that the session makes. -/
def deviceCalls (t : TunerController) (answers : TunerAnswers) : TunerCall → List DeviceCall
  | .connect => t.connectCalls answers.connectOk
  | .disconnect => [.disconnect]
  | .setFrequency freqHz => [.setFrequency freqHz]
  | .setSampleRate => [.setSampleRate]
  | .setFrequencyCorrection ppm => [.setFrequencyCorrection ppm]

/-- Calls that leave what is looked at as it is. -/
theorem foldl_eq_self {σ : Type} {after : σ → DeviceCall → σ} {calls : List DeviceCall}
    (h : ∀ c ∈ calls, ∀ d, after d c = d) (d : σ) : calls.foldl after d = d := by
  induction calls generalizing d with
  | nil => rfl
  | cons c calls ih =>
    rw [List.foldl_cons, h c List.mem_cons_self d]
    exact ih (fun c' hc' => h c' (List.mem_cons_of_mem _ hc')) d

/-- What a call for SDRplay devices answers. -/
theorem sdrplayCall_snd (t : TunerController) (c : DeviceCall) :
    (t.sdrplayCall outcomes c).2 = (t.kind == .sdrPlay && outcomes t.calls.length c) := by
  unfold sdrplayCall call
  split
  · next hkind => simp [hkind]
  · next hkind => simp [hkind]

/-- A call for SDRplay devices is made or not. -/
theorem sdrplayCall_log (t : TunerController) (c : DeviceCall) :
    (t.sdrplayCall outcomes c).1 = t.log (if t.kind = .sdrPlay then [c] else []) := by
  unfold sdrplayCall
  split
  · rfl
  · exact congrArg (fun calls => { t with calls := calls }) (List.append_nil _).symm

end TunerController

end FmSdrTuner

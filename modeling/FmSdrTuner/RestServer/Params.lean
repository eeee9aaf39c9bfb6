import FmSdrTuner.Text.Numbers

/-! # RestServer: applying parameters

    `RestServer::applyParams` goes through the key/value pairs of a request
    in order, converts each value and calls one control. Each branch of the
    source has the same shape: a key, a conversion, a guard, a call. What
    differs is collected in `requestedControl`; what they share is in
    `applyParam`. -/

namespace FmSdrTuner

/-! ### Conversions -/

/-- `toInt`. -/
def toInt (v : Text) : Option Int := strtolPrefix v

/-- `toBool`. -/
def toBool (v : Text) : Option Bool :=
  let s := v.map Char.toLower
  if s = "1".toList ∨ s = "true".toList ∨ s = "on".toList ∨ s = "yes".toList then some true
  else if s = "0".toList ∨ s = "false".toList ∨ s = "off".toList ∨ s = "no".toList then
    some false
  else none

/-! ### Controls -/

/-- A call of one of `RestServer::Controls`, with its argument. A gain in dB
    is given by the text that `strtod` converts. -/
inductive ControlCall where
  | setFrequencyHz (hz : Nat)
  | setGainDb (db : Text)
  | setAutoGain (on : Bool)
  | setBandwidthHz (hz : Int)
  | setLnaState (state : Int)
  | setAntenna (index : Int)
  | setBiasTee (enable : Bool)
  | setPpm (ppm : Int)
  | setRtlAgc (enable : Bool)
  | setDeemphasis (mode : Int)
  | setBlendMode (mode : Int)
  | setForceMono (mono : Bool)
  | setVolume (volume : Int)
  | start
  | stop
  | resetStats
  deriving DecidableEq, Repr

/-- The environment of `applyParams`. -/
structure Controls where
  /-- Which of the controls are set. -/
  installed : ControlCall → Bool
  /-- What a control returns; the first argument counts the calls before. -/
  answers : Nat → ControlCall → Bool
  /-- Does `strtod` convert a prefix of the text, without a range error? -/
  isDouble : Text → Bool

/-- The branch that a pair selects: `none` if no branch does, `some none` if
    its guard on the value fails before the control is called. -/
def requestedControl (controls : Controls) (key val : Text) : Option (Option ControlCall) :=
  if key = "freq_hz".toList ∨ key = "frequency".toList then
    (toInt val).map fun ival => if 0 < ival then some (.setFrequencyHz (toUInt32 ival)) else none
  else if key = "freq_khz".toList then
    (toInt val).map fun ival =>
      if 0 < ival then some (.setFrequencyHz (toUInt32 ival * 1000 % 2 ^ 32)) else none
  else if key = "gain_db".toList then
    if controls.isDouble val then some (some (.setGainDb val)) else none
  else if key = "agc".toList ∨ key = "auto_gain".toList then
    (toBool val).map fun b => some (.setAutoGain b)
  else if key = "bandwidth_hz".toList then
    (toInt val).map fun ival => some (.setBandwidthHz (toInt32 ival))
  else if key = "bandwidth_khz".toList then
    -- the product of two ints, taken to wrap around
    (toInt val).map fun ival => some (.setBandwidthHz (toInt32 (toInt32 ival * 1000)))
  else if key = "lna".toList then
    (toInt val).map fun ival => some (.setLnaState (toInt32 ival))
  else if key = "antenna".toList then
    (toInt val).map fun ival => some (.setAntenna (toInt32 ival))
  else if key = "bias_tee".toList then (toBool val).map fun b => some (.setBiasTee b)
  else if key = "ppm".toList then
    (toInt val).map fun ival => some (.setPpm (toInt32 ival))
  else if key = "rtl_agc".toList then (toBool val).map fun b => some (.setRtlAgc b)
  else if key = "deemphasis".toList then
    (toInt val).map fun ival => some (.setDeemphasis (toInt32 ival))
  else if key = "blend".toList then
    (toInt val).map fun ival => some (.setBlendMode (toInt32 ival))
  else if key = "force_mono".toList then (toBool val).map fun b => some (.setForceMono b)
  else if key = "volume".toList then
    (toInt val).map fun ival => some (.setVolume (toInt32 ival))
  else if key = "action".toList then
    some (if val = "start".toList then some .start
      else if val = "stop".toList then some .stop
      else if val = "reset_stats".toList then some .resetStats
      else none)
  else none

/-! ### Applying -/

structure ParamsResult where
  /-- The calls made, in order. -/
  calls : List ControlCall
  appliedCount : Nat
  /-- The keys noted as rejected, in order. -/
  rejected : List Text
  deriving DecidableEq, Repr

/-- One round of the loop in `applyParams`. -/
def applyParam (controls : Controls) (result : ParamsResult) (kv : Text × Text) :
    ParamsResult :=
  match requestedControl controls kv.1 kv.2 with
  | some (some c) =>
      if controls.installed c then
        let called := { result with calls := result.calls ++ [c] }
        if controls.answers result.calls.length c then
          { called with appliedCount := result.appliedCount + 1 }
        else { called with rejected := result.rejected ++ [kv.1] }
      else { result with rejected := result.rejected ++ [kv.1] }
  | some none => { result with rejected := result.rejected ++ [kv.1] }
  | none =>
      if kv.1.isEmpty then result else { result with rejected := result.rejected ++ [kv.1] }

/-- `RestServer::applyParams`, up to the rendering of the response. -/
def applyParams (controls : Controls) (params : List (Text × Text)) : ParamsResult :=
  params.foldl (applyParam controls) ⟨[], 0, []⟩

/-- `"rejected"`: the noted keys in quotes, with commas between. -/
def rejectedKeys (rejected : List Text) : Text :=
  ((rejected.map fun key => '"' :: key ++ ['"']).intersperse [',']).flatten

/-- The response body. -/
def ParamsResult.body (result : ParamsResult) (statusJson : Text) : Text :=
  "\x7b\"ok\":".toList ++ (if result.rejected.isEmpty then "true" else "false").toList ++
    ",\"applied\":".toList ++ decimal result.appliedCount ++
    (if result.rejected.isEmpty then []
      else ",\"rejected\":[".toList ++ rejectedKeys result.rejected ++ "]".toList) ++
    ",\"status\":".toList ++ statusJson ++ "\x7d".toList

/-! ### Which controls are called -/

theorem mem_applyParam_calls {controls : Controls} {result : ParamsResult} {kv : Text × Text}
    {c : ControlCall} (h : c ∈ (applyParam controls result kv).calls) :
    c ∈ result.calls ∨ requestedControl controls kv.1 kv.2 = some (some c) := by
  cases hreq : requestedControl controls kv.1 kv.2 with
  | none =>
    simp only [applyParam, hreq] at h
    split at h <;> exact Or.inl h
  | some request =>
    cases request with
    | none =>
      simp only [applyParam, hreq] at h
      exact Or.inl h
    | some called =>
      have hor : c ∈ result.calls ∨ c = called := by
        simp only [applyParam, hreq] at h
        split at h
        · split at h <;> simpa using h
        · exact Or.inl h
      rcases hor with hold | rfl
      · exact Or.inl hold
      · exact Or.inr rfl

/-- A call made is one that some pair asked for. -/
theorem mem_applyParams_calls {controls : Controls} {params : List (Text × Text)}
    {c : ControlCall} (h : c ∈ (applyParams controls params).calls) :
    ∃ kv ∈ params, requestedControl controls kv.1 kv.2 = some (some c) := by
  suffices hfold : ∀ result : ParamsResult,
      c ∈ (params.foldl (applyParam controls) result).calls →
        c ∈ result.calls ∨
          ∃ kv ∈ params, requestedControl controls kv.1 kv.2 = some (some c) from
    (hfold ⟨[], 0, []⟩ h).resolve_left (by simp)
  clear h
  induction params with
  | nil => exact fun result h => Or.inl h
  | cons kv params ih =>
    intro result h
    rcases ih (applyParam controls result kv) h with hmem | ⟨kv', hkv', hreq⟩
    · rcases mem_applyParam_calls hmem with hold | hreq
      · exact Or.inl hold
      · exact Or.inr ⟨kv, List.mem_cons_self, hreq⟩
    · exact Or.inr ⟨kv', List.mem_cons_of_mem _ hkv', hreq⟩

end FmSdrTuner

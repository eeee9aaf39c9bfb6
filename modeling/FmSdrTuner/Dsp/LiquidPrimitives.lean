import FmSdrTuner.Framework.Machine

/-! # liquid::FIRFilter and liquid::IIRFilterReal

    The wrappers around liquid-dsp filter objects. A wrapper remembers how
    it was configured, and `reset` destroys the object and calls an init
    function again with what is remembered.

    A liquid object is represented by the calls that create it. Creation
    is taken to succeed; the source throws when it does not. Floating point
    is a parameter: the wrappers only pass numbers on, except for the few
    operations collected in `FloatOps`. -/

namespace FmSdrTuner

/-! ### Floating point -/

/-- The float operations of the two wrappers, and liquid's filter design. -/
class FloatOps (F : Type) where
  zero : F
  one : F
  sixty : F
  mul : F → F → F
  min : F → F → F
  /-- `2.0f * x`. -/
  twice : F → F
  /-- `std::abs(x) < 1e-6f`. -/
  negligible : F → Bool
  /-- `x <= 0.0f`. -/
  nonPositive : F → Bool
  /-- `static_cast<float>(1.0 / sumAbs)`, with the absolute values summed in
      double precision; `none` unless `sumAbs > 1e-12`. -/
  invSumAbs : List F → Option F
  /-- `std::cos(kTwoPi * center * offset)`. -/
  shiftFactor : F → Int → F
  /-- `liquid_firdes_kaiser(length, cutoff, stopBandAtten, 0.0f, taps)`. -/
  firdesKaiser : Nat → F → F → List F

/-- Single precision, up to liquid's design function. -/
@[reducible] def float32Ops (firdesKaiser : Nat → Float32 → Float32 → List Float32) :
    FloatOps Float32 where
  zero := 0
  one := 1
  sixty := 60
  mul x y := x * y
  min x y := if y < x then y else x
  twice x := 2 * x
  negligible x := x.abs < 1e-6
  nonPositive x := x ≤ 0
  invSumAbs taps :=
    let sumAbs : Float := taps.foldl (fun acc tap => acc + tap.abs.toFloat) 0
    if sumAbs > 1e-12 then some (1.0 / sumAbs).toFloat32 else none
  shiftFactor center offset :=
    Float32.cos (6.28318530717958647692 * center * Float32.ofInt offset)
  firdesKaiser := firdesKaiser

variable {F : Type} [FloatOps F]

/-! ### FIRFilter -/

/-- A `firfilt_crcf`, by the call that creates it and the scale set after. -/
inductive FirObject (F : Type) where
  /-- `firfilt_crcf_create_kaiser(length, cutoff, stopBandAtten, 0.0f)`. -/
  | kaiser (length : Nat) (cutoff stopBandAtten scale : F)
  /-- `firfilt_crcf_create(taps, taps.size())`. -/
  | taps (taps : List F) (scale : F)
  deriving DecidableEq, Repr

structure FIRFilter (F : Type) where
  object : Option (FirObject F)
  length : Nat
  cutoff : F
  stopBandAtten : F
  center : F
  l1Normalize : Bool
  taps : List F
  useDirectTaps : Bool
  scale : F
  deriving DecidableEq, Repr

namespace FIRFilter

/-- The default member initialisers. -/
def fresh : FIRFilter F where
  object := none
  length := 0
  cutoff := FloatOps.zero
  stopBandAtten := FloatOps.sixty
  center := FloatOps.zero
  l1Normalize := false
  taps := []
  useDirectTaps := false
  scale := FloatOps.one

/-- The taps moved to the centre frequency and normalised. -/
def shiftedTaps (length : Nat) (cutoff stopBandAtten center : F) : List F :=
  let taps := FloatOps.firdesKaiser length cutoff stopBandAtten
  let shifted := taps.mapIdx fun n tap =>
    FloatOps.mul (FloatOps.twice tap)
      (FloatOps.shiftFactor center ((n : Int) - ((length / 2 : Nat) : Int)))
  match FloatOps.invSumAbs shifted with
  | some inv => shifted.map (FloatOps.mul · inv)
  | none => shifted

/-- `FIRFilter::init`. -/
def init (f : FIRFilter F) (length : Nat) (cutoff stopBandAtten center : F)
    (l1Normalize : Bool) : FIRFilter F :=
  let f := { f with
    length := length
    cutoff := cutoff
    stopBandAtten := stopBandAtten
    center := center
    l1Normalize := l1Normalize
    useDirectTaps := false }
  if FloatOps.negligible center then
    if !l1Normalize then
      let scale := FloatOps.twice cutoff
      { f with
        object := some (.kaiser length cutoff stopBandAtten scale)
        taps := []
        scale := scale }
    else
      let taps := FloatOps.firdesKaiser length cutoff stopBandAtten
      let nominalScale := FloatOps.twice cutoff
      let l1NormScale := (FloatOps.invSumAbs taps).getD nominalScale
      let scale := FloatOps.min nominalScale l1NormScale
      { f with object := some (.taps taps scale), taps := taps, scale := scale }
  else
    let taps := shiftedTaps length cutoff stopBandAtten center
    { f with
      object := some (.taps taps FloatOps.one)
      taps := taps
      scale := FloatOps.one }

/-- `FIRFilter::initWithTaps`; with no taps it throws first. -/
def initWithTaps (f : FIRFilter F) (taps : List F) (scale : F) : FIRFilter F :=
  if taps.isEmpty then f
  else
    { object := some (.taps taps scale)
      length := taps.length
      cutoff := FloatOps.zero
      stopBandAtten := FloatOps.zero
      center := FloatOps.zero
      l1Normalize := f.l1Normalize
      taps := taps
      useDirectTaps := true
      scale := scale }

/-- `FIRFilter::reset`: the flag `m_l1Normalize` is not passed on, so that
    `init` takes its default. -/
def reset (f : FIRFilter F) : FIRFilter F :=
  let f := { f with object := none }
  if f.useDirectTaps then f.initWithTaps f.taps f.scale
  else f.init f.length f.cutoff f.stopBandAtten f.center false

end FIRFilter

/-- The parameters of an init-kind call. -/
inductive FirConfig (F : Type) where
  | kaiser (length : Nat) (cutoff stopBandAtten center : F) (l1Normalize : Bool)
  | directTaps (taps : List F) (scale : F)
  deriving DecidableEq, Repr

/-- The init-kind call with these parameters. -/
def FIRFilter.configure (f : FIRFilter F) : FirConfig F → FIRFilter F
  | .kaiser length cutoff stopBandAtten center l1Normalize =>
      f.init length cutoff stopBandAtten center l1Normalize
  | .directTaps taps scale => f.initWithTaps taps scale

/-- The parameters are those stored in the wrapper. -/
def FIRFilter.Stores (f : FIRFilter F) : FirConfig F → Prop
  | .kaiser length cutoff stopBandAtten center l1Normalize =>
      f.length = length ∧ f.cutoff = cutoff ∧ f.stopBandAtten = stopBandAtten ∧
        f.center = center ∧ f.l1Normalize = l1Normalize
  | .directTaps taps scale => f.taps = taps ∧ f.scale = scale

/-- The wrapper stores the parameters, and its object is the one that a
    call with them creates. -/
def FIRFilter.InForce (f : FIRFilter F) (c : FirConfig F) : Prop :=
  f.Stores c ∧ f.object = (fresh.configure c).object

/-- Was the L1-normalised design asked for? -/
def FirConfig.l1Normalized : FirConfig F → Bool
  | .kaiser _ _ _ _ l1Normalize => l1Normalize
  | .directTaps _ _ => false

inductive FirCall (F : Type) where
  | init (length : Nat) (cutoff stopBandAtten center : F) (l1Normalize : Bool)
  | initWithTaps (taps : List F) (scale : F)
  | reset
  deriving DecidableEq, Repr

def firStep (f : FIRFilter F) : FirCall F → FIRFilter F
  | .init length cutoff stopBandAtten center l1Normalize =>
      f.init length cutoff stopBandAtten center l1Normalize
  | .initWithTaps taps scale => f.initWithTaps taps scale
  | .reset => f.reset

/-- The most recent init-kind call that did not throw. -/
def observeFir (last : Option (FirConfig F)) : FirCall F → Option (FirConfig F)
  | .init length cutoff stopBandAtten center l1Normalize =>
      some (.kaiser length cutoff stopBandAtten center l1Normalize)
  | .initWithTaps taps scale => if taps.isEmpty then last else some (.directTaps taps scale)
  | .reset => last

/-- FIR filters with the parameters they should have. -/
def firRun (F : Type) [FloatOps F] : Machine (FIRFilter F × Option (FirConfig F)) (FirCall F) :=
  Machine.withHistory ⟨firStep⟩ fun last _ call => observeFir last call

/-- What the wrapper remembers of the most recent init-kind call: all but
    perhaps the L1 flag. -/
def FIRFilter.Remembers (f : FIRFilter F) : FirConfig F → Prop
  | .kaiser length cutoff stopBandAtten center _ =>
      f.useDirectTaps = false ∧ f.length = length ∧ f.cutoff = cutoff ∧
        f.stopBandAtten = stopBandAtten ∧ f.center = center
  | .directTaps taps scale =>
      f.useDirectTaps = true ∧ taps ≠ [] ∧ f.taps = taps ∧ f.scale = scale

/-- An init-kind call is remembered, whatever the filter was before. -/
theorem FIRFilter.init_remembers (f : FIRFilter F) (length : Nat)
    (cutoff stopBandAtten center : F) (l1Normalize flag : Bool) :
    (f.init length cutoff stopBandAtten center l1Normalize).Remembers
      (.kaiser length cutoff stopBandAtten center flag) := by
  unfold FIRFilter.init
  split
  · split <;> exact ⟨rfl, rfl, rfl, rfl, rfl⟩
  · exact ⟨rfl, rfl, rfl, rfl, rfl⟩

theorem FIRFilter.init_l1Normalize (f : FIRFilter F) (length : Nat)
    (cutoff stopBandAtten center : F) (l1Normalize : Bool) :
    (f.init length cutoff stopBandAtten center l1Normalize).l1Normalize = l1Normalize := by
  unfold FIRFilter.init
  split
  · split <;> rfl
  · rfl

theorem FIRFilter.init_object (f g : FIRFilter F) (length : Nat)
    (cutoff stopBandAtten center : F) (l1Normalize : Bool) :
    (f.init length cutoff stopBandAtten center l1Normalize).object =
      (g.init length cutoff stopBandAtten center l1Normalize).object := by
  unfold FIRFilter.init
  split
  · split <;> rfl
  · rfl

/-- After the init-kind call itself its parameters are in force. -/
theorem FIRFilter.init_inForce (f : FIRFilter F) (length : Nat)
    (cutoff stopBandAtten center : F) (l1Normalize : Bool) :
    (f.init length cutoff stopBandAtten center l1Normalize).InForce
      (.kaiser length cutoff stopBandAtten center l1Normalize) := by
  obtain ⟨-, hlen, hcut, hatt, hcen⟩ :=
    f.init_remembers length cutoff stopBandAtten center l1Normalize l1Normalize
  exact ⟨⟨hlen, hcut, hatt, hcen, f.init_l1Normalize ..⟩, f.init_object ..⟩

theorem FIRFilter.initWithTaps_remembers (f : FIRFilter F) {taps : List F} (scale : F)
    (h : taps ≠ []) : (f.initWithTaps taps scale).Remembers (.directTaps taps scale) := by
  simp [FIRFilter.initWithTaps, FIRFilter.Remembers, h]

theorem FIRFilter.reset_remembers {f : FIRFilter F} {c : FirConfig F} (h : f.Remembers c) :
    f.reset.Remembers c := by
  cases c with
  | kaiser length cutoff stopBandAtten center l1Normalize =>
    obtain ⟨huse, rfl, rfl, rfl, rfl⟩ := h
    simp only [FIRFilter.reset, huse, Bool.false_eq_true, if_false]
    exact FIRFilter.init_remembers ..
  | directTaps taps scale =>
    obtain ⟨huse, hne, rfl, rfl⟩ := h
    simp only [FIRFilter.reset, huse, if_true]
    exact FIRFilter.initWithTaps_remembers _ _ hne

/-- What is remembered comes into force again by `reset`, unless it asks
    for the L1-normalised design. -/
theorem FIRFilter.reset_inForce_iff {f : FIRFilter F} {c : FirConfig F} (h : f.Remembers c) :
    f.reset.InForce c ↔ c.l1Normalized = false := by
  cases c with
  | kaiser length cutoff stopBandAtten center l1Normalize =>
    obtain ⟨huse, rfl, rfl, rfl, rfl⟩ := h
    simp only [FIRFilter.reset, huse, Bool.false_eq_true, if_false, FirConfig.l1Normalized]
    constructor
    · rintro ⟨⟨-, -, -, -, hflag⟩, -⟩
      rw [FIRFilter.init_l1Normalize] at hflag
      exact hflag.symm
    · intro hflag
      rw [hflag]
      exact FIRFilter.init_inForce ..
  | directTaps taps scale =>
    obtain ⟨huse, hne, rfl, rfl⟩ := h
    simp [FIRFilter.reset, huse, FIRFilter.InForce, FIRFilter.Stores, FIRFilter.configure,
      FIRFilter.initWithTaps, hne, FirConfig.l1Normalized]

/-- The most recent init-kind call is remembered. -/
def FirRemembers (p : FIRFilter F × Option (FirConfig F)) : Prop :=
  ∀ c ∈ p.2, p.1.Remembers c

theorem firRun_remembers (p : FIRFilter F × Option (FirConfig F)) (call : FirCall F)
    (h : FirRemembers p) : FirRemembers ((firRun F).step p call) := by
  obtain ⟨f, last⟩ := p
  cases call with
  | init length cutoff stopBandAtten center l1Normalize =>
    rintro c hc
    obtain rfl := Option.mem_some_iff.mp hc
    exact FIRFilter.init_remembers ..
  | initWithTaps taps scale =>
    by_cases hempty : taps.isEmpty = true
    · obtain rfl := List.isEmpty_iff.mp hempty
      exact h
    · intro c hc
      simp only [firRun, Machine.withHistory_step, observeFir, hempty] at hc
      obtain rfl := Option.mem_some_iff.mp hc
      exact f.initWithTaps_remembers scale (by simpa using hempty)
  | reset => exact fun c hc => FIRFilter.reset_remembers (h c hc)

/-- For every history of calls: a `reset` brings the most recent init-kind
    call into force again if and only if that call did not ask for the
    L1-normalised design. -/
theorem firRun_reset_inForce_iff (calls : List (FirCall F)) {c : FirConfig F}
    (h : c ∈ ((firRun F).run (FIRFilter.fresh, none) calls).2) :
    ((firRun F).run (FIRFilter.fresh, none) calls).1.reset.InForce c ↔
      c.l1Normalized = false :=
  FIRFilter.reset_inForce_iff
    (Machine.run_invariant_always firRun_remembers calls (by simp [FirRemembers]) c h)

/-! ### IIRFilterReal -/

/-- An `iirfilt_rrrf`, by the call that creates it. -/
inductive IirObject (F : Type) where
  /-- `iirfilt_rrrf_create(b, a)`. -/
  | coefficients (b a : List F)
  /-- `iirfilt_rrrf_create_dc_blocker(alpha)`. -/
  | dcBlocker (alpha : F)
  /-- `iirfilt_rrrf_create_prototype` of the Butterworth high-pass. -/
  | highpass (order : Nat) (cutoffNorm stopBandAtten : F)
  deriving DecidableEq, Repr

structure IIRFilterReal (F : Type) where
  object : Option (IirObject F)
  b : List F
  a : List F
  useDcBlocker : Bool
  dcAlpha : F
  useHighpass : Bool
  hpOrder : Nat
  hpCutoffNorm : F
  hpStopAtten : F
  deriving DecidableEq, Repr

namespace IIRFilterReal

/-- The default member initialisers. -/
def fresh : IIRFilterReal F where
  object := none
  b := []
  a := []
  useDcBlocker := false
  dcAlpha := FloatOps.zero
  useHighpass := false
  hpOrder := 4
  hpCutoffNorm := FloatOps.zero
  hpStopAtten := FloatOps.sixty

/-- `IIRFilterReal::init`: throws on an empty list, and leaves
    `m_useHighpass` as it is. -/
def init (f : IIRFilterReal F) (b a : List F) : IIRFilterReal F :=
  if b.isEmpty || a.isEmpty then f
  else { f with b := b, a := a, useDcBlocker := false, object := some (.coefficients b a) }

/-- `IIRFilterReal::initHighpass`. -/
def initHighpass (f : IIRFilterReal F) (order : Nat) (cutoffNorm stopBandAtten : F) :
    IIRFilterReal F :=
  let order := max 1 order
  { f with
    useDcBlocker := false
    useHighpass := true
    hpOrder := order
    hpCutoffNorm := cutoffNorm
    hpStopAtten := stopBandAtten
    b := []
    a := []
    object := some (.highpass order cutoffNorm stopBandAtten) }

/-- `IIRFilterReal::initDCBlocker`. -/
def initDCBlocker (f : IIRFilterReal F) (alpha : F) : IIRFilterReal F :=
  { f with
    useDcBlocker := true
    dcAlpha := alpha
    b := []
    a := []
    object := some (.dcBlocker alpha) }

/-- `IIRFilterReal::reset`. -/
def reset (f : IIRFilterReal F) : IIRFilterReal F :=
  let f := { f with object := none }
  if f.useDcBlocker then
    if FloatOps.nonPositive f.dcAlpha then f else f.initDCBlocker f.dcAlpha
  else if f.useHighpass then f.initHighpass f.hpOrder f.hpCutoffNorm f.hpStopAtten
  else if f.b.isEmpty || f.a.isEmpty then f
  else f.init f.b f.a

end IIRFilterReal

/-- The parameters of an init-kind call, as the object is created from them. -/
inductive IirConfig (F : Type) where
  | coefficients (b a : List F)
  | dcBlocker (alpha : F)
  | highpass (order : Nat) (cutoffNorm stopBandAtten : F)
  deriving DecidableEq, Repr

/-- The object created from the parameters. -/
def IirConfig.object : IirConfig F → IirObject F
  | .coefficients b a => .coefficients b a
  | .dcBlocker alpha => .dcBlocker alpha
  | .highpass order cutoffNorm stopBandAtten => .highpass order cutoffNorm stopBandAtten

/-- The parameters are those stored in the wrapper. -/
def IIRFilterReal.Stores (f : IIRFilterReal F) : IirConfig F → Prop
  | .coefficients b a => f.b = b ∧ f.a = a
  | .dcBlocker alpha => f.dcAlpha = alpha
  | .highpass order cutoffNorm stopBandAtten =>
      f.hpOrder = order ∧ f.hpCutoffNorm = cutoffNorm ∧ f.hpStopAtten = stopBandAtten

/-- The wrapper stores the parameters, and its object is created from them. -/
def IIRFilterReal.InForce (f : IIRFilterReal F) (c : IirConfig F) : Prop :=
  f.Stores c ∧ f.object = some c.object

inductive IirCall (F : Type) where
  | init (b a : List F)
  | initDCBlocker (alpha : F)
  | initHighpass (order : Nat) (cutoffNorm stopBandAtten : F)
  | reset
  deriving DecidableEq, Repr

def iirStep (f : IIRFilterReal F) : IirCall F → IIRFilterReal F
  | .init b a => f.init b a
  | .initDCBlocker alpha => f.initDCBlocker alpha
  | .initHighpass order cutoffNorm stopBandAtten => f.initHighpass order cutoffNorm stopBandAtten
  | .reset => f.reset

/-- The most recent init-kind call that did not throw, and whether any call
    was `initHighpass`. -/
structure IirHistory (F : Type) where
  last : Option (IirConfig F)
  everHighpass : Bool
  deriving DecidableEq, Repr

def observeIir (h : IirHistory F) : IirCall F → IirHistory F
  | .init b a =>
      if b.isEmpty || a.isEmpty then h else { h with last := some (.coefficients b a) }
  | .initDCBlocker alpha => { h with last := some (.dcBlocker alpha) }
  | .initHighpass order cutoffNorm stopBandAtten =>
      ⟨some (.highpass (max 1 order) cutoffNorm stopBandAtten), true⟩
  | .reset => h

def iirRun (F : Type) [FloatOps F] : Machine (IIRFilterReal F × IirHistory F) (IirCall F) :=
  Machine.withHistory ⟨iirStep⟩ fun h _ call => observeIir h call

def iirStart (F : Type) [FloatOps F] : IIRFilterReal F × IirHistory F :=
  (IIRFilterReal.fresh, ⟨none, false⟩)

/-- The calls that a `reset` repeats: a DC blocker with a positive
    coefficient, and plain coefficients unless a high-pass came before. -/
def IirHistory.Resettable (h : IirHistory F) : IirConfig F → Prop
  | .coefficients _ _ => h.everHighpass = false
  | .dcBlocker alpha => FloatOps.nonPositive alpha = false
  | .highpass _ _ _ => True

/-- What the wrapper remembers of its history. Once a high-pass was made,
    coefficients are remembered only up to the next `reset`. -/
structure IirRemembers (p : IIRFilterReal F × IirHistory F) : Prop where
  useHighpass : p.1.useHighpass = p.2.everHighpass
  coefficients : ∀ b a, p.2.last = some (.coefficients b a) → p.1.useDcBlocker = false ∧
    (p.2.everHighpass = false → b ≠ [] ∧ a ≠ [] ∧ p.1.b = b ∧ p.1.a = a)
  dcBlocker : ∀ alpha, p.2.last = some (.dcBlocker alpha) →
    p.1.useDcBlocker = true ∧ p.1.dcAlpha = alpha
  highpass : ∀ order cutoffNorm stopBandAtten,
    p.2.last = some (.highpass order cutoffNorm stopBandAtten) →
      p.1.useDcBlocker = false ∧ p.2.everHighpass = true ∧ 1 ≤ order ∧
        p.1.Stores (.highpass order cutoffNorm stopBandAtten)

theorem iirRemembers_start : IirRemembers (iirStart F) :=
  ⟨rfl, by simp [iirStart], by simp [iirStart], by simp [iirStart]⟩

section reset
variable {f : IIRFilterReal F}

theorem IIRFilterReal.reset_dcBlocker (hdc : f.useDcBlocker = true) :
    f.reset = if FloatOps.nonPositive f.dcAlpha then { f with object := none }
      else ({ f with object := none } : IIRFilterReal F).initDCBlocker f.dcAlpha := by
  simp [IIRFilterReal.reset, hdc]

theorem IIRFilterReal.reset_highpass (hdc : f.useDcBlocker = false)
    (hhp : f.useHighpass = true) :
    f.reset = ({ f with object := none } : IIRFilterReal F).initHighpass f.hpOrder
      f.hpCutoffNorm f.hpStopAtten := by
  simp [IIRFilterReal.reset, hdc, hhp]

theorem IIRFilterReal.reset_coefficients (hdc : f.useDcBlocker = false)
    (hhp : f.useHighpass = false) (hb : f.b ≠ []) (ha : f.a ≠ []) :
    f.reset = { f with object := some (.coefficients f.b f.a) } := by
  simp [IIRFilterReal.reset, IIRFilterReal.init, hdc, hhp, hb, ha]

/-- `reset` changes neither of the mode flags. -/
theorem IIRFilterReal.reset_modes (f : IIRFilterReal F) :
    f.reset.useDcBlocker = f.useDcBlocker ∧ f.reset.useHighpass = f.useHighpass := by
  cases hdc : f.useDcBlocker with
  | true =>
    rw [IIRFilterReal.reset_dcBlocker hdc]
    split
    · exact ⟨hdc, rfl⟩
    · exact ⟨rfl, rfl⟩
  | false =>
    cases hhp : f.useHighpass with
    | true =>
      rw [IIRFilterReal.reset_highpass hdc hhp]
      exact ⟨rfl, rfl⟩
    | false =>
      simp only [IIRFilterReal.reset, hdc, hhp, Bool.false_eq_true, if_false]
      split
      · exact ⟨rfl, rfl⟩
      · next hne => simp [IIRFilterReal.init, hne]

end reset

theorem iirRun_remembers (p : IIRFilterReal F × IirHistory F) (call : IirCall F)
    (h : IirRemembers p) : IirRemembers ((iirRun F).step p call) := by
  obtain ⟨f, hist⟩ := p
  cases call with
  | init b a =>
    by_cases hempty : (b.isEmpty || a.isEmpty) = true
    · have hstay : (iirRun F).step (f, hist) (.init b a) = (f, hist) := by
        simp only [iirRun, Machine.withHistory_step, iirStep, observeIir, IIRFilterReal.init,
          hempty, if_true]
      rw [hstay]; exact h
    · have hstep : (iirRun F).step (f, hist) (.init b a) =
          ({ f with
              b := b, a := a, useDcBlocker := false, object := some (.coefficients b a) },
            { hist with last := some (.coefficients b a) }) := by
        simp only [iirRun, Machine.withHistory_step, iirStep, observeIir, IIRFilterReal.init,
          hempty, Bool.false_eq_true, if_false]
      rw [hstep]
      simp only [Bool.or_eq_true, List.isEmpty_iff, not_or] at hempty
      refine ⟨h.useHighpass, ?_, by simp, by simp⟩
      rintro b' a' hlast
      cases hlast
      exact ⟨rfl, fun _ => ⟨hempty.1, hempty.2, rfl, rfl⟩⟩
  | initDCBlocker alpha =>
    refine ⟨h.useHighpass, ?_, ?_, ?_⟩ <;>
      simp [iirRun, iirStep, observeIir, IIRFilterReal.initDCBlocker]
  | initHighpass order cutoffNorm stopBandAtten =>
    refine ⟨rfl, by simp [iirRun, observeIir], by simp [iirRun, observeIir], ?_⟩
    rintro order' cutoffNorm' stopBandAtten' hlast
    cases hlast
    exact ⟨rfl, rfl, Nat.le_max_left .., rfl, rfl, rfl⟩
  | reset =>
    have hstep : (iirRun F).step (f, hist) .reset = (f.reset, hist) := rfl
    obtain ⟨hdcsame, hhpsame⟩ := f.reset_modes
    rw [hstep]
    refine ⟨hhpsame.trans h.useHighpass, ?_, ?_, ?_⟩
    · intro b a hlast
      obtain ⟨hdc, hstored⟩ := h.coefficients b a hlast
      refine ⟨hdcsame.trans hdc, ?_⟩
      intro hever
      -- with no highpass ever set up, `reset` makes the object from the coefficients
      obtain ⟨hb, ha, rfl, rfl⟩ := hstored hever
      rw [IIRFilterReal.reset_coefficients hdc (h.useHighpass.trans hever) hb ha]
      exact ⟨hb, ha, rfl, rfl⟩
    · intro alpha hlast
      obtain ⟨hdc, rfl⟩ := h.dcBlocker alpha hlast
      refine ⟨hdcsame.trans hdc, ?_⟩
      rw [IIRFilterReal.reset_dcBlocker hdc]
      split <;> rfl
    · intro order cutoffNorm stopBandAtten hlast
      obtain ⟨hdc, hever, hone, rfl, rfl, rfl⟩ := h.highpass order cutoffNorm stopBandAtten hlast
      refine ⟨hdcsame.trans hdc, hever, hone, ?_⟩
      rw [IIRFilterReal.reset_highpass hdc (h.useHighpass.trans hever)]
      exact ⟨Nat.max_eq_right hone, rfl, rfl⟩

/-- What a `reset` makes of the most recent init-kind call. -/
theorem iirReset_inForce_iff {p : IIRFilterReal F × IirHistory F} (h : IirRemembers p)
    {c : IirConfig F} (hlast : p.2.last = some c) :
    p.1.reset.InForce c ↔ p.2.Resettable c := by
  obtain ⟨f, hist⟩ := p
  cases c with
  | coefficients b a =>
    obtain ⟨hdc, hstored⟩ := h.coefficients b a hlast
    cases hever : hist.everHighpass with
    | false =>
      obtain ⟨hb, ha, rfl, rfl⟩ := hstored hever
      rw [IIRFilterReal.reset_coefficients hdc (h.useHighpass.trans hever) hb ha]
      exact ⟨fun _ => hever, fun _ => ⟨⟨rfl, rfl⟩, rfl⟩⟩
    | true =>
      -- the stale flag turns the filter into the earlier high-pass
      rw [IIRFilterReal.reset_highpass hdc (h.useHighpass.trans hever)]
      constructor
      · rintro ⟨-, hobject⟩
        cases hobject
      · intro hnever
        rw [IirHistory.Resettable, hever] at hnever
        cases hnever
  | dcBlocker alpha =>
    obtain ⟨hdc, rfl⟩ := h.dcBlocker alpha hlast
    rw [IIRFilterReal.reset_dcBlocker hdc]
    cases hpos : FloatOps.nonPositive f.dcAlpha with
    | false => exact ⟨fun _ => hpos, fun _ => ⟨rfl, rfl⟩⟩
    | true =>
      constructor
      · rintro ⟨-, hobject⟩
        cases hobject
      · intro hnot
        rw [IirHistory.Resettable, hpos] at hnot
        cases hnot
  | highpass order cutoffNorm stopBandAtten =>
    obtain ⟨hdc, hever, hone, rfl, rfl, rfl⟩ := h.highpass order cutoffNorm stopBandAtten hlast
    rw [IIRFilterReal.reset_highpass hdc (h.useHighpass.trans hever)]
    have hmax : max 1 f.hpOrder = f.hpOrder := Nat.max_eq_right hone
    refine ⟨fun _ => trivial, fun _ => ⟨⟨hmax, rfl, rfl⟩, ?_⟩⟩
    simp [IIRFilterReal.initHighpass, IirConfig.object, hmax]

/-- For every history of calls: a `reset` brings the most recent init-kind
    call into force again if and only if that call is one that `reset`
    repeats. -/
theorem iirRun_reset_inForce_iff (calls : List (IirCall F)) {c : IirConfig F}
    (h : ((iirRun F).run (iirStart F) calls).2.last = some c) :
    ((iirRun F).run (iirStart F) calls).1.reset.InForce c ↔
      ((iirRun F).run (iirStart F) calls).2.Resettable c :=
  iirReset_inForce_iff
    (Machine.run_invariant_always iirRun_remembers calls iirRemembers_start) h

end FmSdrTuner

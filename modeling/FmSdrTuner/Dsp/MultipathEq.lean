import FmSdrTuner.Framework.DelayLine
import Mathlib.Algebra.BigOperators.Fin
import Mathlib.Algebra.QuadraticAlgebra.Basic
import Mathlib.Algebra.Order.Ring.Rat
import Mathlib.Tactic.LinearCombination
import Mathlib.Tactic.NormNum

/-! # The multipath equalizer

    `MultipathEqualizer`: a transversal filter over the last inputs, whose
    taps follow the constant-modulus gradient with a leak towards a delta
    at the centre. The arithmetic is exact.

    * `delayed_of_constantModulus`: while the input has a constant modulus
      between any two rebuilds of the taps, the equalizer only delays it;
    * `outputs_rotate`: a turn of the input in the complex plane turns the
      output, and nothing else. -/

namespace FmSdrTuner

open DelayLine
open scoped QuadraticAlgebra

/-! ### The equalizer -/

/-- A complex sample. -/
abbrev Iq := QuadraticAlgebra ℚ (-1) 0

/-- `|z|²`. -/
def Iq.magSq (z : Iq) : ℚ := z.re * z.re + z.im * z.im

inductive MultipathEqMode where
  | off
  | light
  | aggressive
  deriving DecidableEq, Repr

/-- `muForMode`. -/
def muForMode : MultipathEqMode → ℚ
  | .off => 0
  | .light => 5 / 100000
  | .aggressive => 2 / 10000

/-- `leakForMode`. -/
def leakForMode : MultipathEqMode → ℚ
  | .off => 0
  | .light => 5 / 100000
  | .aggressive => 1 / 100000

def kInputMeanAlpha : ℚ := 1 / 65536

def kEnvErrorAlpha : ℚ := 1 / 256

/-- `MultipathEqualizer`; the vectors have `tapCount` entries. -/
structure MultipathEqualizer where
  mode : MultipathEqMode
  tapCount : Nat
  mu : ℚ
  leak : ℚ
  adaptEnabled : Bool
  targetPrimed : Bool
  taps : Vector Iq tapCount
  history : Vector Iq tapCount
  writePos : Nat
  inputMeanSqMag : ℚ
  envelopeError : ℚ
  writePos_lt : tapCount ≠ 0 → writePos < tapCount

namespace MultipathEqualizer

/-- The member initialisers. -/
def initial : MultipathEqualizer where
  mode := .off
  tapCount := 0
  mu := 0
  leak := 0
  adaptEnabled := false
  targetPrimed := false
  taps := #v[]
  history := #v[]
  writePos := 0
  inputMeanSqMag := 0
  envelopeError := 0
  writePos_lt h := absurd rfl h

/-- A one at the centre. -/
def delta (n : Nat) : Vector Iq n := Vector.ofFn fun k => if (k : Nat) = n / 2 then 1 else 0

/-- The count that `rebuildTaps` goes on with. -/
def rebuiltCount (tapCount : Nat) : Nat := if tapCount = 0 then 17 else tapCount

/-- `MultipathEqualizer::rebuildTaps`. -/
def rebuildTaps (s : MultipathEqualizer) : MultipathEqualizer :=
  { s with
    tapCount := rebuiltCount s.tapCount
    taps := delta _
    history := Vector.replicate _ 0
    writePos := 0
    writePos_lt := Nat.pos_of_ne_zero }

/-- The number of taps for one that is asked for: at least three, and odd. -/
def oddTapCount (taps : Nat) : Nat := if max 3 taps % 2 = 0 then max 3 taps + 1 else max 3 taps

/-- A new mode starts with an unknown envelope. -/
def withMode (s : MultipathEqualizer) (mode : MultipathEqMode) : MultipathEqualizer :=
  { s with
    mode := mode
    mu := muForMode mode
    leak := leakForMode mode
    targetPrimed := false
    inputMeanSqMag := 0 }

/-- `MultipathEqualizer::init`. -/
def init (s : MultipathEqualizer) (mode : MultipathEqMode) (taps : Nat) : MultipathEqualizer :=
  rebuildTaps
    { s.withMode mode with
      tapCount := oddTapCount taps
      taps := Vector.replicate _ 0
      history := Vector.replicate _ 0
      writePos := 0
      writePos_lt := Nat.pos_of_ne_zero }

/-- `MultipathEqualizer::setMode`. -/
def setMode (s : MultipathEqualizer) (mode : MultipathEqMode) : MultipathEqualizer :=
  if mode = s.mode then s else (s.withMode mode).rebuildTaps

/-- `MultipathEqualizer::reset`. -/
def reset (s : MultipathEqualizer) : MultipathEqualizer :=
  { s.rebuildTaps with
    envelopeError := 0
    targetPrimed := false
    inputMeanSqMag := 0 }

/-- The running mean of `|x|²` with one more input. -/
def trackMean (s : MultipathEqualizer) (input : Iq) : ℚ :=
  if s.targetPrimed then
    s.inputMeanSqMag + kInputMeanAlpha * (input.magSq - s.inputMeanSqMag)
  else input.magSq

/-- The input `k` places before the newest one, which is at `pos`. -/
def tapInput {n : Nat} (history : Vector Iq n) (pos k : Nat) : Iq :=
  (history[(pos + n - k) % n]?).getD 0

/-- The convolution. -/
def convolve {n : Nat} (taps history : Vector Iq n) (pos : Nat) : Iq :=
  ∑ k : Fin n, taps[k] * tapInput history pos k

/-- The update of the taps for an output and the error of its envelope. -/
def adaptTaps {n : Nat} (mu leak : ℚ) (taps history : Vector Iq n) (pos : Nat) (y : Iq)
    (envErr : ℚ) : Vector Iq n :=
  Vector.ofFn fun k : Fin n =>
    let grad := envErr • y * star (tapInput history pos k)
    let tap := (1 - leak) • taps[k] - mu • grad
    if (k : Nat) = n / 2 then tap + leak • 1 else tap

/-- `MultipathEqualizer::execute`. -/
def execute (s : MultipathEqualizer) (input : Iq) : MultipathEqualizer × Iq :=
  if h : s.mode = .off ∨ s.tapCount = 0 then (s, input)
  else
    have hcount : s.tapCount ≠ 0 := (not_or.mp h).2
    let mean := s.trackMean input
    let history := s.history.set s.writePos input (s.writePos_lt hcount)
    let y := convolve s.taps history s.writePos
    let envErr := y.magSq - mean
    let adapts := s.adaptEnabled && decide (0 < s.mu)
    ({ s with
        targetPrimed := true
        inputMeanSqMag := mean
        history := history
        taps :=
          if adapts then adaptTaps s.mu s.leak s.taps history s.writePos y envErr else s.taps
        envelopeError :=
          if adapts then s.envelopeError + kEnvErrorAlpha * (|envErr| - s.envelopeError)
          else s.envelopeError
        writePos := (s.writePos + 1) % s.tapCount
        writePos_lt := fun hpos => Nat.mod_lt _ (Nat.pos_of_ne_zero hpos) }, y)

end MultipathEqualizer

/-- What the demodulator does with its equalizer. -/
inductive EqualizerCall where
  | init (mode : MultipathEqMode) (taps : Nat)
  | setMode (mode : MultipathEqMode)
  | setAdaptEnabled (enabled : Bool)
  | reset
  | execute (input : Iq)

/-- One call, and the sample it gives if it gives one. -/
def MultipathEqualizer.call (s : MultipathEqualizer) :
    EqualizerCall → MultipathEqualizer × List Iq
  | .init mode taps => (s.init mode taps, [])
  | .setMode mode => (s.setMode mode, [])
  | .setAdaptEnabled enabled => ({ s with adaptEnabled := enabled }, [])
  | .reset => (s.reset, [])
  | .execute input => ((s.execute input).1, [(s.execute input).2])

/-- The samples that several calls give. -/
def MultipathEqualizer.outputs (s : MultipathEqualizer) : List EqualizerCall → List Iq
  | [] => []
  | c :: cs => (s.call c).2 ++ (s.call c).1.outputs cs

/-! ### Turns of the input -/

namespace Iq

theorem magSq_mul (u z : Iq) : (u * z).magSq = u.magSq * z.magSq := by
  simp only [magSq, QuadraticAlgebra.re_mul, QuadraticAlgebra.im_mul]
  ring

theorem mul_star_of_magSq {u : Iq} (hu : u.magSq = 1) : u * star u = 1 := by
  rw [magSq] at hu
  ext
  · simp
    linarith
  · simp
    ring

end Iq

namespace MultipathEqualizer

/-- The same equalizer with what it remembers turned. -/
def rotate (u : Iq) (s : MultipathEqualizer) : MultipathEqualizer :=
  { s with history := s.history.map (u * ·) }

theorem tapInput_map {n : Nat} (u : Iq) (history : Vector Iq n) (pos k : Nat) :
    tapInput (history.map (u * ·)) pos k = u * tapInput history pos k := by
  rw [tapInput, tapInput, Vector.getElem?_map]
  cases history[(pos + n - k) % n]? <;> simp

theorem convolve_map {n : Nat} (u : Iq) (taps history : Vector Iq n) (pos : Nat) :
    convolve taps (history.map (u * ·)) pos = u * convolve taps history pos := by
  rw [convolve, convolve, Finset.mul_sum]
  refine Finset.sum_congr rfl fun k _ => ?_
  rw [tapInput_map, mul_left_comm]

/-- The turn of the output and that of the input cancel in the gradient. -/
theorem adaptTaps_map {n : Nat} {u : Iq} (hu : u.magSq = 1) (mu leak : ℚ)
    (taps history : Vector Iq n) (pos : Nat) (y : Iq) (envErr : ℚ) :
    adaptTaps mu leak taps (history.map (u * ·)) pos (u * y) envErr =
      adaptTaps mu leak taps history pos y envErr := by
  have hgrad : ∀ k, envErr • (u * y) * star (tapInput (history.map (u * ·)) pos k) =
      envErr • y * star (tapInput history pos k) := by
    intro k
    rw [tapInput_map, star_mul', smul_mul_assoc, smul_mul_assoc]
    congr 1
    linear_combination (y * star (tapInput history pos k)) * Iq.mul_star_of_magSq hu
  simp only [adaptTaps, hgrad]

theorem execute_rotate {u : Iq} (hu : u.magSq = 1) (s : MultipathEqualizer) (input : Iq) :
    (s.rotate u).execute (u * input) = ((s.execute input).1.rotate u, u * (s.execute input).2) := by
  by_cases h : s.mode = .off ∨ s.tapCount = 0
  · have h' : (s.rotate u).mode = .off ∨ (s.rotate u).tapCount = 0 := h
    rw [execute, execute, dif_pos h, dif_pos h']
  · have h' : ¬ ((s.rotate u).mode = .off ∨ (s.rotate u).tapCount = 0) := h
    have hinput : (u * input).magSq = input.magSq := by rw [Iq.magSq_mul, hu, one_mul]
    have hmean : (s.rotate u).trackMean (u * input) = s.trackMean input := by
      simp only [trackMean, hinput, rotate]
    rw [execute, execute, dif_neg h, dif_neg h']
    simp only [hmean]
    simp only [rotate, ← Vector.map_set, convolve_map, Iq.magSq_mul, hu, one_mul,
      adaptTaps_map hu]
    rfl

/-- Rebuilt taps come with an empty history. -/
theorem rebuildTaps_rotate (u : Iq) (s : MultipathEqualizer) :
    s.rebuildTaps.rotate u = s.rebuildTaps := by
  simp [rotate, rebuildTaps]

theorem reset_rotate (u : Iq) (s : MultipathEqualizer) : s.reset.rotate u = s.reset := by
  simp [rotate, reset, rebuildTaps]

end MultipathEqualizer

/-- The call for the turned input. -/
def EqualizerCall.rotate (u : Iq) : EqualizerCall → EqualizerCall
  | .execute input => .execute (u * input)
  | c => c

namespace MultipathEqualizer

theorem call_rotate {u : Iq} (hu : u.magSq = 1) (s : MultipathEqualizer) (c : EqualizerCall) :
    (s.rotate u).call (c.rotate u) = ((s.call c).1.rotate u, (s.call c).2.map (u * ·)) := by
  cases c with
  | init mode taps =>
    show ((s.rotate u).init mode taps, []) = ((s.init mode taps).rotate u, [])
    rw [init, init, rebuildTaps_rotate]
    rfl
  | setMode mode =>
    show ((s.rotate u).setMode mode, []) = ((s.setMode mode).rotate u, [])
    rw [setMode, setMode]
    by_cases hmode : mode = s.mode
    · rw [if_pos hmode, if_pos (show mode = (s.rotate u).mode from hmode)]
    · rw [if_neg hmode, if_neg (show ¬ mode = (s.rotate u).mode from hmode), rebuildTaps_rotate]
      rfl
  | setAdaptEnabled enabled => rfl
  | reset =>
    show ((s.rotate u).reset, []) = (s.reset.rotate u, [])
    rw [reset_rotate]
    rfl
  | execute input =>
    simp only [call, EqualizerCall.rotate, execute_rotate hu, List.map_cons, List.map_nil]

/-- The equalizer does not see the phase of the carrier: whatever it is
    called with, a turned input gives the turned output. -/
theorem outputs_rotate {u : Iq} (hu : u.magSq = 1) (s : MultipathEqualizer)
    (calls : List EqualizerCall) :
    (s.rotate u).outputs (calls.map (EqualizerCall.rotate u)) =
      (s.outputs calls).map (u * ·) := by
  induction calls generalizing s with
  | nil => rfl
  | cons c cs ih =>
    rw [List.map_cons, outputs, outputs, call_rotate hu, ih, List.map_append]

/-- A quarter turn, with the taps adapting to a fading signal. -/
theorem outputs_quarter_turn :
    (initial.rotate ⟨0, 1⟩).outputs ([.init .aggressive 3, .setAdaptEnabled true,
        .execute ⟨1, 0⟩, .execute ⟨2, 0⟩, .execute ⟨0, 1⟩].map (EqualizerCall.rotate ⟨0, 1⟩)) =
      (initial.outputs [.init .aggressive 3, .setAdaptEnabled true, .execute ⟨1, 0⟩,
        .execute ⟨2, 0⟩, .execute ⟨0, 1⟩]).map (⟨0, 1⟩ * ·) :=
  outputs_rotate (by decide +kernel) initial _

end MultipathEqualizer

/-! ### A constant modulus -/

/-- What a transparent equalizer does: it gives its input, half its taps
    later. `given` is the input since the taps were rebuilt. -/
structure PureDelay where
  mode : MultipathEqMode
  tapCount : Nat
  given : List Iq

namespace PureDelay

def initial : PureDelay := ⟨.off, 0, []⟩

/-- The taps are rebuilt. -/
def rebuild (d : PureDelay) : PureDelay :=
  { d with tapCount := MultipathEqualizer.rebuiltCount d.tapCount, given := [] }

def call (d : PureDelay) : EqualizerCall → PureDelay × List Iq
  | .init mode taps => (⟨mode, MultipathEqualizer.oddTapCount taps, []⟩, [])
  | .setMode mode => (if mode = d.mode then d else { d with mode := mode }.rebuild, [])
  | .setAdaptEnabled _ => (d, [])
  | .reset => (d.rebuild, [])
  | .execute input =>
    if d.mode = .off ∨ d.tapCount = 0 then (d, [input])
    else ({ d with given := d.given ++ [input] }, [pastOf 0 (d.given ++ [input]) (d.tapCount / 2)])

/-- The samples that several calls give. -/
def outputs (d : PureDelay) : List EqualizerCall → List Iq
  | [] => []
  | c :: cs => (d.call c).2 ++ (d.call c).1.outputs cs

/-- The input has one modulus from one rebuild of the taps to the next. -/
def ConstantModulus (d : PureDelay) : List EqualizerCall → Prop
  | [] => True
  | c :: cs =>
    (∀ x ∈ (d.call c).1.given, ∀ y ∈ (d.call c).1.given, x.magSq = y.magSq) ∧
      (d.call c).1.ConstantModulus cs

instance decidableConstantModulus : ∀ (d : PureDelay) (cs : List EqualizerCall),
    Decidable (d.ConstantModulus cs)
  | _, [] => isTrue trivial
  | d, c :: cs =>
    have := decidableConstantModulus (d.call c).1 cs
    inferInstanceAs (Decidable (_ ∧ _))

end PureDelay

namespace MultipathEqualizer
variable {s : MultipathEqualizer} {d : PureDelay}

/-- An equalizer whose taps have not moved. -/
structure Transparent (s : MultipathEqualizer) (d : PureDelay) : Prop where
  mode_eq : d.mode = s.mode
  tapCount_eq : d.tapCount = s.tapCount
  taps_eq : s.taps = delta s.tapCount
  history : s.tapCount ≠ 0 → Remembers s.history s.writePos (pastOf 0 d.given)
  primed : s.targetPrimed = true ↔ d.given ≠ []
  /-- The mean is the modulus of what was given. -/
  mean : ∀ x ∈ d.given, x.magSq = s.inputMeanSqMag

theorem Transparent.initial : Transparent initial PureDelay.initial where
  mode_eq := rfl
  tapCount_eq := rfl
  taps_eq := rfl
  history h := absurd rfl h
  primed := by simp [MultipathEqualizer.initial, PureDelay.initial]
  mean x hx := by cases hx

/-- Rebuilt taps are a delta, and nothing was given yet. -/
theorem Transparent.rebuildTaps (hmode : d.mode = s.mode) (hcount : d.tapCount = s.tapCount)
    (hprimed : s.targetPrimed = false) : Transparent s.rebuildTaps d.rebuild where
  mode_eq := hmode
  tapCount_eq := congrArg rebuiltCount hcount
  taps_eq := rfl
  history h := Remembers.initial 0 (Nat.pos_of_ne_zero h)
  primed := by
    show s.targetPrimed = true ↔ [] ≠ []
    simp [hprimed]
  mean x hx := by cases hx

theorem tapInput_of_remembers {n : Nat} {history : Vector Iq n} {pos : Nat} {past : Nat → Iq}
    (h : Remembers history pos past) (input : Iq) {k : Nat} (hk : k < n) :
    tapInput (history.set pos input h.next_lt) pos k = shiftIn input past k := by
  rw [tapInput, h.read input hk, Option.getD_some]

/-- A delta at the centre picks one input. -/
theorem convolve_delta {n : Nat} (hn : n ≠ 0) (history : Vector Iq n) (pos : Nat) :
    convolve (delta n) history pos = tapInput history pos (n / 2) := by
  have hcentre : n / 2 < n := by omega
  rw [convolve, Finset.sum_eq_single ⟨n / 2, hcentre⟩]
  · simp [delta]
  · intro k _ hk
    have hother : (k : Nat) ≠ n / 2 := fun h => hk (Fin.ext h)
    simp [delta, hother]
  · intro h
    exact absurd (Finset.mem_univ _) h

/-- Without a gradient a delta stays one: what the leak takes from the
    centre it gives back. -/
theorem adaptTaps_delta {n : Nat} (mu leak : ℚ) (history : Vector Iq n) (pos : Nat) {y : Iq}
    {envErr : ℚ} (h : envErr • y = 0) :
    adaptTaps mu leak (delta n) history pos y envErr = delta n := by
  apply Vector.ext
  intro k hk
  have hgrad : ∀ z, envErr • y * star z = 0 := by
    intro z
    rw [h, zero_mul]
  simp only [adaptTaps, delta, hgrad, Vector.getElem_ofFn, Fin.getElem_fin, smul_zero, sub_zero]
  by_cases hcentre : k = n / 2
  · simp only [hcentre, if_true]
    rw [← add_smul, sub_add_cancel, one_smul]
  · simp only [hcentre, if_false, smul_zero]

theorem oddTapCount_ne_zero (taps : Nat) : oddTapCount taps ≠ 0 := by
  unfold oddTapCount
  split <;> omega

/-- The mean is the modulus from the first input on. -/
theorem Transparent.mean_append (h : Transparent s d) (input : Iq)
    (hmod : ∀ x ∈ d.given ++ [input], ∀ y ∈ d.given ++ [input], x.magSq = y.magSq) :
    ∀ x ∈ d.given ++ [input], x.magSq = s.trackMean input := by
  have hinput : input ∈ d.given ++ [input] := List.mem_append_right _ (List.mem_singleton_self _)
  intro x hx
  rw [hmod x hx input hinput, trackMean]
  by_cases hprimed : s.targetPrimed = true
  · obtain ⟨x₀, hx₀⟩ := List.exists_mem_of_ne_nil _ (h.primed.mp hprimed)
    have hmean : input.magSq = s.inputMeanSqMag := by
      rw [← h.mean x₀ hx₀]
      exact hmod _ hinput _ (List.mem_append_left _ hx₀)
    rw [if_pos hprimed, hmean, sub_self, mul_zero, add_zero]
  · rw [if_neg hprimed]

/-- The one output of a transparent equalizer, and that it stays one. -/
theorem Transparent.execute (h : Transparent s d) (input : Iq)
    (hmod : ∀ x ∈ (d.call (.execute input)).1.given, ∀ y ∈ (d.call (.execute input)).1.given,
      x.magSq = y.magSq) :
    Transparent (s.execute input).1 (d.call (.execute input)).1 ∧
      [(s.execute input).2] = (d.call (.execute input)).2 := by
  by_cases hoff : s.mode = .off ∨ s.tapCount = 0
  · have hoff' : d.mode = .off ∨ d.tapCount = 0 := by rwa [h.mode_eq, h.tapCount_eq]
    rw [MultipathEqualizer.execute, PureDelay.call, dif_pos hoff, if_pos hoff']
    exact ⟨h, rfl⟩
  · have hoff' : ¬ (d.mode = .off ∨ d.tapCount = 0) := by rwa [h.mode_eq, h.tapCount_eq]
    have hcount : s.tapCount ≠ 0 := (not_or.mp hoff).2
    have hline := h.history hcount
    rw [PureDelay.call, if_neg hoff'] at hmod ⊢
    have hmean := h.mean_append input hmod
    have hy : convolve (delta s.tapCount) (s.history.set s.writePos input hline.next_lt)
        s.writePos = pastOf 0 (d.given ++ [input]) (d.tapCount / 2) := by
      rw [convolve_delta hcount, tapInput_of_remembers hline input (by omega), shiftIn_pastOf,
        h.tapCount_eq]
    -- the output is one of the inputs, with the modulus they all have, or nothing
    have hgrad : ((pastOf 0 (d.given ++ [input]) (d.tapCount / 2)).magSq - s.trackMean input) •
        pastOf 0 (d.given ++ [input]) (d.tapCount / 2) = 0 := by
      rcases pastOf_mem 0 (d.given ++ [input]) (d.tapCount / 2) with hmem | hzero
      · rw [hmean _ hmem, sub_self, zero_smul]
      · rw [hzero, smul_zero]
    rw [MultipathEqualizer.execute, dif_neg hoff]
    simp only [h.taps_eq, hy, adaptTaps_delta _ _ _ _ hgrad, ite_self]
    refine ⟨⟨h.mode_eq, h.tapCount_eq, rfl, fun _ => ?_, by simp, hmean⟩, trivial⟩
    show Remembers _ _ (pastOf 0 (d.given ++ [input]))
    rw [← shiftIn_pastOf]
    exact hline.write input

theorem Transparent.call (h : Transparent s d) (c : EqualizerCall)
    (hmod : ∀ x ∈ (d.call c).1.given, ∀ y ∈ (d.call c).1.given, x.magSq = y.magSq) :
    Transparent (s.call c).1 (d.call c).1 ∧ (s.call c).2 = (d.call c).2 := by
  cases c with
  | init mode taps =>
    have hcount : rebuiltCount (oddTapCount taps) = oddTapCount taps :=
      if_neg (oddTapCount_ne_zero taps)
    have hrebuilt : (PureDelay.mk mode (oddTapCount taps) []).rebuild =
        ⟨mode, oddTapCount taps, []⟩ := by
      rw [PureDelay.rebuild, hcount]
    refine ⟨?_, rfl⟩
    rw [PureDelay.call, ← hrebuilt]
    exact Transparent.rebuildTaps rfl rfl rfl
  | setMode mode =>
    refine ⟨?_, rfl⟩
    show Transparent (s.setMode mode) (if mode = d.mode then d else { d with mode := mode }.rebuild)
    rw [setMode, h.mode_eq]
    by_cases hmode : mode = s.mode
    · rw [if_pos hmode, if_pos hmode]
      exact h
    · rw [if_neg hmode, if_neg hmode]
      exact Transparent.rebuildTaps rfl h.tapCount_eq rfl
  | setAdaptEnabled enabled => exact ⟨⟨h.1, h.2, h.3, h.4, h.5, h.6⟩, rfl⟩
  | reset =>
    have hreset : s.reset = MultipathEqualizer.rebuildTaps
        { s with envelopeError := 0, targetPrimed := false, inputMeanSqMag := 0 } := rfl
    refine ⟨?_, rfl⟩
    show Transparent s.reset d.rebuild
    rw [hreset]
    exact Transparent.rebuildTaps h.mode_eq h.tapCount_eq rfl
  | execute input => exact h.execute input hmod

theorem Transparent.outputs (h : Transparent s d) {calls : List EqualizerCall}
    (hmod : d.ConstantModulus calls) : s.outputs calls = d.outputs calls := by
  induction calls generalizing s d with
  | nil => rfl
  | cons c cs ih =>
    obtain ⟨hnext, hsame⟩ := h.call c hmod.1
    rw [MultipathEqualizer.outputs, PureDelay.outputs, hsame, ih hnext hmod.2]

/-- On a constant modulus the equalizer only delays, whenever it may adapt
    and whenever it is reset. -/
theorem delayed_of_constantModulus (calls : List EqualizerCall)
    (hmod : PureDelay.initial.ConstantModulus calls) :
    initial.outputs calls = PureDelay.initial.outputs calls :=
  Transparent.initial.outputs hmod

/-- Samples on the unit circle, with a change of the adaption on the way. -/
theorem delayed_on_unit_circle :
    initial.outputs [.init .light 3, .execute ⟨3 / 5, 4 / 5⟩, .setAdaptEnabled true,
        .execute ⟨0, -1⟩, .execute ⟨1, 0⟩] = [0, ⟨3 / 5, 4 / 5⟩, ⟨0, -1⟩] := by
  rw [delayed_of_constantModulus _ (by decide +kernel)]
  decide +kernel

end MultipathEqualizer

end FmSdrTuner

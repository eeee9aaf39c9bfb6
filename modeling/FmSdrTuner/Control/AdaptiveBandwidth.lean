import FmSdrTuner.Control.CommandState
import FmSdrTuner.Framework.Machine
import Mathlib.Algebra.Order.Field.Rat
import Mathlib.Algebra.Order.Group.Unbundled.Int
import Mathlib.Data.List.Chain

/-! # Adaptive bandwidth

    The policy that picks a bandwidth for an SNR, the hysteresis behind it,
    and the step of the main loop that uses both. Clients change the
    bandwidth as well, so the one currently applied is an input of every
    call. Times are nanoseconds of the steady clock; the default time, 0,
    stands for no change so far.

    The hysteresis is meant to keep its changes apart, in time and in
    bandwidth. It compares a proposal with the bandwidth that is applied,
    which need not be the one it chose last. -/

namespace FmSdrTuner

/-! ### The policy -/

/-- `AdaptiveBandwidthMode`. -/
inductive AdaptiveBandwidthMode where
  | off
  | conservative
  | aggressive
  deriving DecidableEq, Repr

/-- `pickAdaptiveBandwidthHz`; `none` is an SNR that is not finite. -/
def pickAdaptiveBandwidthHz : AdaptiveBandwidthMode → Option ℚ → Int
  | .off, _ => 0
  | _, none => 0
  | .aggressive, some snrDb =>
    if 25 < snrDb then 200000
    else if 15 < snrDb then 130000
    else if 8 < snrDb then 95000
    else if 3 < snrDb then 56000
    else 36000
  | .conservative, some snrDb =>
    if 20 < snrDb then 194000
    else if 10 < snrDb then 142000
    else 95000

/-! ### The hysteresis -/

/-- `AdaptiveBandwidthState`. -/
structure AdaptiveBandwidthState where
  lastChange : Int
  lastTargetHz : Int
  deriving DecidableEq, Repr

/-- The state at start-up. -/
def AdaptiveBandwidthState.initial : AdaptiveBandwidthState := ⟨0, 0⟩

/-- The last two arguments of `applyAdaptiveBandwidthHysteresis`. -/
structure BandwidthLimits where
  minIntervalMs : Int
  minStepHz : Int
  deriving DecidableEq, Repr

/-- Their defaults. -/
def BandwidthLimits.standard : BandwidthLimits := ⟨2000, 20000⟩

/-- The other arguments of a call. -/
structure HysteresisCall where
  proposedHz : Int
  currentAppliedHz : Int
  now : Int
  deriving DecidableEq, Repr

/-- `applyAdaptiveBandwidthHysteresis`: the state and the change. -/
def applyAdaptiveBandwidthHysteresis (limits : BandwidthLimits) (s : AdaptiveBandwidthState)
    (c : HysteresisCall) : AdaptiveBandwidthState × Int :=
  if c.proposedHz ≤ 0 then (s, 0)
  else if c.proposedHz = s.lastTargetHz then (s, 0)
  else
    let elapsedMs := (c.now - s.lastChange).tdiv 1000000
    if elapsedMs < limits.minIntervalMs ∧ s.lastChange ≠ 0 then (s, 0)
    else if |c.proposedHz - c.currentAppliedHz| < limits.minStepHz then (s, 0)
    else (⟨c.now, c.proposedHz⟩, c.proposedHz)

/-- `maybeAdjustAdaptiveBandwidth`. -/
def maybeAdjustAdaptiveBandwidth (mode : AdaptiveBandwidthMode)
    (s : AdaptiveBandwidthState) (commands : XdrCommandState) (currentAppliedBandwidthHz : Int)
    (snrDb : Option ℚ) (now : Int) : AdaptiveBandwidthState × XdrCommandState :=
  if mode = .off then (s, commands)
  else
    let proposed := pickAdaptiveBandwidthHz mode snrDb
    if proposed ≤ 0 then (s, commands)
    else
      let changed := applyAdaptiveBandwidthHysteresis .standard s
        ⟨proposed, currentAppliedBandwidthHz, now⟩
      if changed.2 ≤ 0 then (changed.1, commands)
      else
        (changed.1,
          { commands with requestedBandwidthHz := changed.2, pendingBandwidth := true })

/-- What the main loop learns of a block and hands to the hysteresis. -/
structure SnrBlock where
  snrDb : Option ℚ
  appliedBandwidthHz : Int
  now : Int

/-- The call of the hysteresis for a block. -/
def SnrBlock.call (mode : AdaptiveBandwidthMode) (block : SnrBlock) : HysteresisCall :=
  ⟨pickAdaptiveBandwidthHz mode block.snrDb, block.appliedBandwidthHz, block.now⟩

/-! ### The promise -/

/-- A committed change. -/
structure BandwidthChange where
  now : Int
  targetHz : Int
  deriving DecidableEq, Repr

namespace AdaptiveBandwidthState

/-- The changes that calls commit. -/
def changes (limits : BandwidthLimits) :
    AdaptiveBandwidthState → List HysteresisCall → List BandwidthChange
  | _, [] => []
  | s, c :: calls =>
    let applied := applyAdaptiveBandwidthHysteresis limits s c
    (if 0 < applied.2 then [⟨c.now, applied.2⟩] else []) ++ changes limits applied.1 calls

/-- The last change as the state remembers it. -/
def lastCommitted (s : AdaptiveBandwidthState) : List BandwidthChange :=
  if s.lastTargetHz = 0 then [] else [⟨s.lastChange, s.lastTargetHz⟩]

end AdaptiveBandwidthState

/-- What the header says of two changes in a row. -/
def KeptApart (limits : BandwidthLimits) (first second : BandwidthChange) : Prop :=
  limits.minIntervalMs * 1000000 ≤ second.now - first.now ∧
    limits.minStepHz ≤ |second.targetHz - first.targetHz|

instance (limits : BandwidthLimits) : DecidableRel (KeptApart limits) := fun first second =>
  inferInstanceAs (Decidable (_ ≤ second.now - first.now ∧ _ ≤ |second.targetHz - first.targetHz|))

/-- The interval has not passed, for the code. -/
def HeldBack (limits : BandwidthLimits) (s : AdaptiveBandwidthState) (c : HysteresisCall) : Prop :=
  (c.now - s.lastChange).tdiv 1000000 < limits.minIntervalMs ∧ s.lastChange ≠ 0

/-- The comparison with the applied bandwidth and the default time do no
    harm in a call: nothing was committed before, or the call ends at the
    proposal or the interval, or a proposal a step away from the applied
    bandwidth is a step away from the last target, and the last change was
    not made at time 0 with the interval still running. -/
def HarmlessCall (limits : BandwidthLimits) (s : AdaptiveBandwidthState) (c : HysteresisCall) :
    Prop :=
  s.lastTargetHz = 0 ∨ c.proposedHz ≤ 0 ∨ c.proposedHz = s.lastTargetHz ∨ HeldBack limits s c ∨
    (limits.minStepHz ≤ |c.proposedHz - c.currentAppliedHz| →
      limits.minStepHz ≤ |c.proposedHz - s.lastTargetHz| ∧
        (s.lastChange ≠ 0 ∨ limits.minIntervalMs * 1000000 ≤ c.now))

/-- The hysteresis as a machine. -/
def adaptiveBandwidth (limits : BandwidthLimits) :
    Machine AdaptiveBandwidthState HysteresisCall where
  step s c := (applyAdaptiveBandwidthHysteresis limits s c).1

/-! ### One call -/

section Calls
variable {limits : BandwidthLimits} {s : AdaptiveBandwidthState} {c : HysteresisCall}

variable (limits s c) in
/-- A call either ends at one of the checks or commits the proposal. -/
theorem applyAdaptiveBandwidthHysteresis_cases :
    (applyAdaptiveBandwidthHysteresis limits s c = (s, 0) ∧
        (c.proposedHz ≤ 0 ∨ c.proposedHz = s.lastTargetHz ∨ HeldBack limits s c ∨
          |c.proposedHz - c.currentAppliedHz| < limits.minStepHz)) ∨
      (applyAdaptiveBandwidthHysteresis limits s c = (⟨c.now, c.proposedHz⟩, c.proposedHz) ∧
        0 < c.proposedHz ∧ c.proposedHz ≠ s.lastTargetHz ∧ ¬ HeldBack limits s c ∧
          limits.minStepHz ≤ |c.proposedHz - c.currentAppliedHz|) := by
  unfold applyAdaptiveBandwidthHysteresis
  by_cases hpos : c.proposedHz ≤ 0
  · exact Or.inl ⟨if_pos hpos, Or.inl hpos⟩
  by_cases hsame : c.proposedHz = s.lastTargetHz
  · exact Or.inl ⟨by rw [if_neg hpos, if_pos hsame], Or.inr (Or.inl hsame)⟩
  rw [if_neg hpos, if_neg hsame]
  by_cases hheld : HeldBack limits s c
  · exact Or.inl ⟨if_pos hheld, Or.inr (Or.inr (Or.inl hheld))⟩
  by_cases hstep : |c.proposedHz - c.currentAppliedHz| < limits.minStepHz
  · exact Or.inl ⟨(if_neg hheld).trans (if_pos hstep), Or.inr (Or.inr (Or.inr hstep))⟩
  · exact Or.inr ⟨(if_neg hheld).trans (if_neg hstep), not_le.mp hpos, hsame, hheld,
      not_lt.mp hstep⟩

/-- A pause in milliseconds, rounded as `duration_cast` does. -/
theorem le_elapsedMs_iff {limitMs elapsed : Int} (helapsed : 0 ≤ elapsed) :
    limitMs ≤ elapsed.tdiv 1000000 ↔ limitMs * 1000000 ≤ elapsed := by
  rw [Int.tdiv_eq_ediv_of_nonneg helapsed, Int.le_ediv_iff_mul_le (by decide)]

/-- A change after another is kept apart from it exactly if the call is
    harmless. -/
theorem harmlessCall_iff_keptApart (hbefore : s.lastTargetHz ≠ 0) (htime : s.lastChange ≤ c.now)
    (hpos : 0 < c.proposedHz) (hnew : c.proposedHz ≠ s.lastTargetHz)
    (hfree : ¬ HeldBack limits s c)
    (hstep : limits.minStepHz ≤ |c.proposedHz - c.currentAppliedHz|) :
    HarmlessCall limits s c ↔
      KeptApart limits ⟨s.lastChange, s.lastTargetHz⟩ ⟨c.now, c.proposedHz⟩ := by
  have hinterval : (s.lastChange ≠ 0 ∨ limits.minIntervalMs * 1000000 ≤ c.now) ↔
      limits.minIntervalMs * 1000000 ≤ c.now - s.lastChange := by
    by_cases hzero : s.lastChange = 0
    · rw [hzero, Int.sub_zero]
      exact ⟨fun h => h.resolve_left (fun hne => hne rfl), Or.inr⟩
    · have helapsed : limits.minIntervalMs ≤ (c.now - s.lastChange).tdiv 1000000 := by
        by_contra hlt
        exact hfree ⟨not_le.mp hlt, hzero⟩
      rw [le_elapsedMs_iff (by omega)] at helapsed
      exact ⟨fun _ => helapsed, fun _ => Or.inl hzero⟩
  constructor
  · intro hharmless
    rcases hharmless with h | h | h | h | h
    · exact absurd h hbefore
    · exact absurd hpos (not_lt.mpr h)
    · exact absurd h hnew
    · exact absurd h hfree
    · exact ⟨hinterval.mp (h hstep).2, (h hstep).1⟩
  · intro ⟨htimes, htargets⟩
    exact Or.inr (Or.inr (Or.inr (Or.inr fun _ => ⟨htargets, hinterval.mpr htimes⟩)))

end Calls

/-! ### Runs -/

namespace AdaptiveBandwidthState

/-- The changes from a state on are kept apart, also from the last one
    before, exactly if every call is harmless. -/
theorem changes_keptApart_iff {limits : BandwidthLimits} {s : AdaptiveBandwidthState}
    {calls : List HysteresisCall} (hsorted : calls.Pairwise fun a b => a.now ≤ b.now)
    (hlater : ∀ c ∈ calls, s.lastTargetHz ≠ 0 → s.lastChange ≤ c.now) :
    (s.lastCommitted ++ s.changes limits calls).IsChain (KeptApart limits) ↔
      (adaptiveBandwidth limits).Meets (HarmlessCall limits) s calls := by
  induction calls generalizing s with
  | nil =>
    simp only [changes, List.append_nil, Machine.Meets, iff_true]
    unfold lastCommitted
    split
    · exact List.isChain_nil
    · exact List.isChain_singleton _
  | cons c calls ih =>
    obtain ⟨hfirst, hsorted⟩ := List.pairwise_cons.mp hsorted
    rcases applyAdaptiveBandwidthHysteresis_cases limits s c with
      ⟨happ, hstop⟩ | ⟨happ, hpos, hnew, hfree, hstep⟩
    · -- nothing is committed, and such a call is harmless
      have hharmless : HarmlessCall limits s c := by
        rcases hstop with h | h | h | h
        · exact Or.inr (Or.inl h)
        · exact Or.inr (Or.inr (Or.inl h))
        · exact Or.inr (Or.inr (Or.inr (Or.inl h)))
        · exact Or.inr (Or.inr (Or.inr (Or.inr fun hle => absurd h (not_lt.mpr hle))))
      have hrest := ih hsorted fun c hc => hlater c (List.mem_cons_of_mem _ hc)
      have hstate : (adaptiveBandwidth limits).step s c = s := congrArg Prod.fst happ
      simp only [changes, happ, Machine.Meets, hstate, hharmless, true_and]
      simpa using hrest
    · -- a change: the rest starts from it as the last one committed
      have hrest := ih (s := ⟨c.now, c.proposedHz⟩) hsorted fun c' hc' _ => hfirst c' hc'
      have hstate : (adaptiveBandwidth limits).step s c = ⟨c.now, c.proposedHz⟩ :=
        congrArg Prod.fst happ
      have hnext : lastCommitted ⟨c.now, c.proposedHz⟩ = [⟨c.now, c.proposedHz⟩] :=
        if_neg hpos.ne'
      rw [hnext, List.singleton_append] at hrest
      simp only [changes, happ, hpos, if_true, Machine.Meets, hstate, List.singleton_append]
      rw [← hrest]
      by_cases hbefore : s.lastTargetHz = 0
      · -- the first change of all
        rw [lastCommitted, if_pos hbefore, List.nil_append]
        exact ⟨fun h => ⟨Or.inl hbefore, h⟩, fun h => h.2⟩
      · rw [lastCommitted, if_neg hbefore, List.singleton_append, List.isChain_cons_cons]
        rw [harmlessCall_iff_keptApart hbefore (hlater c List.mem_cons_self hbefore) hpos hnew
          hfree hstep]

end AdaptiveBandwidthState

/-! ### The main loop -/

/-- The proposals of a mode. -/
def AdaptiveBandwidthMode.proposals : AdaptiveBandwidthMode → List Int
  | .off => [0]
  | .conservative => [0, 194000, 142000, 95000]
  | .aggressive => [0, 200000, 130000, 95000, 56000, 36000]

theorem pickAdaptiveBandwidthHz_mem (mode : AdaptiveBandwidthMode) (snrDb : Option ℚ) :
    pickAdaptiveBandwidthHz mode snrDb ∈ mode.proposals := by
  unfold pickAdaptiveBandwidthHz
  cases mode with
  | off => exact List.mem_singleton.mpr rfl
  | conservative =>
    cases snrDb with
    | none => decide
    | some snr =>
      dsimp only
      repeat' split
      all_goals decide
  | aggressive =>
    cases snrDb with
    | none => decide
    | some snr =>
      dsimp only
      repeat' split
      all_goals decide

/-- Two different proposals of a mode are a step of 20 kHz apart. -/
theorem proposals_apart (mode : AdaptiveBandwidthMode) :
    ∀ a ∈ mode.proposals, ∀ b ∈ mode.proposals, 0 < a → b ≠ 0 → a ≠ b →
      BandwidthLimits.standard.minStepHz ≤ |a - b| := by
  cases mode <;> decide

/-- The main loop is a run of the hysteresis over its blocks. -/
theorem maybeAdjustAdaptiveBandwidth_state (mode : AdaptiveBandwidthMode)
    (s : AdaptiveBandwidthState) (commands : XdrCommandState) (block : SnrBlock) :
    (maybeAdjustAdaptiveBandwidth mode s commands block.appliedBandwidthHz block.snrDb
        block.now).1 =
      (adaptiveBandwidth .standard).step s (block.call mode) := by
  change _ = (applyAdaptiveBandwidthHysteresis .standard s (block.call mode)).1
  unfold maybeAdjustAdaptiveBandwidth
  by_cases hoff : mode = .off
  · rw [if_pos hoff, hoff]
    rfl
  · rw [if_neg hoff]
    dsimp only
    by_cases hnone : pickAdaptiveBandwidthHz mode block.snrDb ≤ 0
    · have hstop : (block.call mode).proposedHz ≤ 0 := hnone
      rw [if_pos hnone, applyAdaptiveBandwidthHysteresis, if_pos hstop]
    · rw [if_neg hnone]
      split <;> rfl

/-- What the state holds when one mode made all proposals and the clock
    had left its epoch. -/
structure AdaptiveBandwidthState.OfMode (mode : AdaptiveBandwidthMode)
    (s : AdaptiveBandwidthState) : Prop where
  target : s.lastTargetHz ∈ mode.proposals
  started : s.lastTargetHz ≠ 0 → s.lastChange ≠ 0

theorem step_ofMode {mode : AdaptiveBandwidthMode} {s : AdaptiveBandwidthState}
    (hs : s.OfMode mode) {block : SnrBlock} (hclock : 0 < block.now) :
    ((adaptiveBandwidth .standard).step s (block.call mode)).OfMode mode := by
  change (applyAdaptiveBandwidthHysteresis .standard s (block.call mode)).1.OfMode mode
  rcases applyAdaptiveBandwidthHysteresis_cases .standard s (block.call mode)
    with ⟨happ, -⟩ | ⟨happ, -⟩
  · rw [happ]
    exact hs
  · rw [happ]
    exact ⟨pickAdaptiveBandwidthHz_mem mode _, fun _ => hclock.ne'⟩

theorem harmlessCall_of_ofMode {mode : AdaptiveBandwidthMode} {s : AdaptiveBandwidthState}
    (hs : s.OfMode mode) (block : SnrBlock) : HarmlessCall .standard s (block.call mode) := by
  by_cases hzero : s.lastTargetHz = 0
  · exact Or.inl hzero
  by_cases hpos : (block.call mode).proposedHz ≤ 0
  · exact Or.inr (Or.inl hpos)
  by_cases hsame : (block.call mode).proposedHz = s.lastTargetHz
  · exact Or.inr (Or.inr (Or.inl hsame))
  have happart := proposals_apart mode _ (pickAdaptiveBandwidthHz_mem mode block.snrDb) _ hs.target
    (not_le.mp hpos) hzero hsame
  exact Or.inr (Or.inr (Or.inr (Or.inr fun _ => ⟨happart, Or.inl (hs.started hzero)⟩)))

/-- In the application the slip stays hidden: it has one mode, so all its
    calls are harmless, whatever bandwidth is applied. -/
theorem mainLoop_calls_harmless (mode : AdaptiveBandwidthMode) {s : AdaptiveBandwidthState}
    (hs : s.OfMode mode) (blocks : List SnrBlock) (hclock : ∀ block ∈ blocks, 0 < block.now) :
    (adaptiveBandwidth .standard).Meets (HarmlessCall .standard) s
      (blocks.map (SnrBlock.call mode)) := by
  induction blocks generalizing s with
  | nil => trivial
  | cons block blocks ih =>
    have hnext := step_ofMode hs (hclock block List.mem_cons_self)
    exact ⟨harmlessCall_of_ofMode hs block,
      ih hnext fun b hb => hclock b (List.mem_cons_of_mem _ hb)⟩

/-! ### Main result -/

/-- From the start on, the changes of the hysteresis are kept apart exactly
    if every call is harmless. -/
theorem bandwidth_changes_kept_apart_iff (limits : BandwidthLimits) (calls : List HysteresisCall)
    (hsorted : calls.Pairwise fun a b => a.now ≤ b.now) :
    (AdaptiveBandwidthState.initial.changes limits calls).IsChain (KeptApart limits) ↔
      (adaptiveBandwidth limits).Meets (HarmlessCall limits) .initial calls :=
  AdaptiveBandwidthState.changes_keptApart_iff (s := .initial) hsorted fun _ _ hne => absurd rfl hne

/-- A narrower bandwidth and, ten seconds later, a wide one again. -/
theorem bandwidth_changes_kept_apart_pair :
    (AdaptiveBandwidthState.initial.changes .standard
      [⟨95000, 194000, 10000000000⟩, ⟨194000, 95000, 20000000000⟩]).IsChain
        (KeptApart .standard) :=
  (bandwidth_changes_kept_apart_iff .standard
    [⟨95000, 194000, 10000000000⟩, ⟨194000, 95000, 20000000000⟩] (by decide)).mpr
    ⟨Or.inl rfl, Or.inr (Or.inr (Or.inr (Or.inr fun _ => ⟨by decide, Or.inl (by decide)⟩))),
      trivial⟩

/-- A client has narrowed the bandwidth after a change to 130 kHz: the
    proposal of 140 kHz is far from what is applied, and committed. -/
theorem bandwidth_changes_10_kHz_apart :
    ¬ (AdaptiveBandwidthState.initial.changes .standard
      [⟨130000, 56000, 10000000000⟩, ⟨140000, 56000, 20000000000⟩]).IsChain
        (KeptApart .standard) := by
  decide

end FmSdrTuner

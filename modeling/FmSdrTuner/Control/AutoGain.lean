import FmSdrTuner.Control.Station
import FmSdrTuner.Framework.DeadBand
import Mathlib.Tactic.Linarith
import Mathlib.Tactic.NormNum

/-! # The automatic gain over many blocks

    `maybeAdjustAutoGain` with what its servo is made of: the level and the
    clip ratio of the block, and two timers. Times are nanoseconds of the
    steady clock, levels and gains exact. Here the level of a block is that
    of a steady station: its own level plus the gain of the rung.

    The ladder has the rungs A0 to A3, with the gains of
    `agcModeToGainDb`. No step of either table is as wide as the 15 dB
    between the two thresholds, so `DeadBand` applies: the servo goes one
    way, and settles. -/

namespace FmSdrTuner

/-! ### The servo -/

/-- What `maybeAdjustAutoGain` learns of a block. -/
structure SignalBlock where
  now : Int
  clipRatio : ℚ
  dbfs : ℚ

/-- What it works on: the requests and the times of its last steps. -/
structure AutoGain where
  commands : XdrCommandState
  lastGainDown : Int
  lastGainUp : Int

/-- A call of `maybeAdjustAutoGain`, for the statements. -/
structure GainAdjustment where
  now : Int
  rung : Int
  next : Int
  step : AutoGainStep
  downTimerElapsed : Bool
  upTimerElapsed : Bool

/-- The move on the ladder. -/
def AutoGainStep.move : AutoGainStep → Int
  | .none => 0
  | .down => 1
  | .up => -1

namespace AutoGain

/-- The conditions `maybeAdjustAutoGain` and `decideAutoGainStep` compute
    first. -/
def servo (s : AutoGain) (block : SignalBlock) : Servo where
  reassert := false
  overload := decide (block.clipRatio > 1 / 50) || decide (block.dbfs > -5)
  hasHeadroom := decide (block.clipRatio < 1 / 2000) && decide (block.dbfs < -20)
  downTimerElapsed := decide (block.now - s.lastGainDown ≥ 900 * 1000000)
  upTimerElapsed := decide (block.now - s.lastGainUp ≥ 4000 * 1000000)

/-- The decision of a call; `none` too where the function returns at once. -/
def decision (cfg : TunerConfig) (s : AutoGain) (block : SignalBlock) : AutoGainStep :=
  if cfg.useSdrppGainStrategy || decide (0 ≤ cfg.gain) || cfg.isImsAgcEnabled s.commands then .none
  else decideAutoGainStep (clamp s.commands.requestedAGCMode 0 3) (s.servo block)

/-- `maybeAdjustAutoGain` with its timers. -/
def maybeAdjust (cfg : TunerConfig) (s : AutoGain) (block : SignalBlock) : AutoGain where
  commands := maybeAdjustAutoGain cfg (s.servo block) s.commands
  lastGainDown := if s.decision cfg block = .down then block.now else s.lastGainDown
  lastGainUp := if s.decision cfg block = .up then block.now else s.lastGainUp

/-- A block of a station of level `S`, which does not clip. -/
def steadyBlock (cfg : TunerConfig) (S : ℚ) (s : AutoGain) (now : Int) : SignalBlock where
  now := now
  clipRatio := 0
  dbfs := S + cfg.agcModeToGainDb s.commands.requestedAGCMode

/-- The call for such a block. -/
def steadyStep (cfg : TunerConfig) (S : ℚ) (s : AutoGain) (now : Int) : AutoGain :=
  s.maybeAdjust cfg (s.steadyBlock cfg S now)

/-- What that call does. -/
def adjustment (cfg : TunerConfig) (S : ℚ) (s : AutoGain) (now : Int) : GainAdjustment :=
  let block := s.steadyBlock cfg S now
  { now := now
    rung := s.commands.requestedAGCMode
    next := (s.steadyStep cfg S now).commands.requestedAGCMode
    step := s.decision cfg block
    downTimerElapsed := (s.servo block).downTimerElapsed
    upTimerElapsed := (s.servo block).upTimerElapsed }

/-- The calls for blocks at these times. -/
def adjustments (cfg : TunerConfig) (S : ℚ) : AutoGain → List Int → List GainAdjustment
  | _, [] => []
  | s, now :: times =>
    s.adjustment cfg S now :: adjustments cfg S (s.steadyStep cfg S now) times

/-- The rung is one of the ladder. -/
def OnLadder (s : AutoGain) : Prop :=
  0 ≤ s.commands.requestedAGCMode ∧ s.commands.requestedAGCMode ≤ 3

end AutoGain

/-! ### One call -/

/-- What `decideAutoGainStep` needs for each of its answers. -/
theorem decideAutoGainStep_cases (mode : Int) (servo : Servo) :
    (decideAutoGainStep mode servo = .down ∧
        servo.overload = true ∧ servo.downTimerElapsed = true ∧ mode < 3) ∨
      (decideAutoGainStep mode servo = .up ∧
        servo.hasHeadroom = true ∧ servo.upTimerElapsed = true ∧ 0 < mode) ∨
      decideAutoGainStep mode servo = .none := by
  unfold decideAutoGainStep
  split
  · rename_i hdown
    simp only [Bool.and_eq_true, decide_eq_true_eq] at hdown
    exact Or.inl ⟨rfl, hdown.1.1, hdown.1.2, hdown.2⟩
  · split
    · rename_i hup
      simp only [Bool.and_eq_true, decide_eq_true_eq] at hup
      exact Or.inr (Or.inl ⟨rfl, hup.1.1, hup.1.2, hup.2⟩)
    · exact Or.inr (Or.inr rfl)

/-- Timers only hold a step back. -/
theorem decideAutoGainStep_none_of_elapsed {mode : Int} {servo servo' : Servo}
    (hnone : decideAutoGainStep mode servo = .none) (hdown : servo.downTimerElapsed = true)
    (hup : servo.upTimerElapsed = true) (hover : servo'.overload = servo.overload)
    (hroom : servo'.hasHeadroom = servo.hasHeadroom) :
    decideAutoGainStep mode servo' = .none := by
  rcases decideAutoGainStep_cases mode servo' with ⟨-, ho, -, hlt⟩ | ⟨-, hh, -, hlt⟩ | hd
  · rw [hover] at ho
    simp [decideAutoGainStep, ho, hdown, hlt] at hnone
  · rw [hroom] at hh
    by_cases ho : servo.overload = true ∧ mode < 3
    · simp [decideAutoGainStep, ho.1, hdown, ho.2] at hnone
    · have hfirst : (servo.overload && servo.downTimerElapsed && decide (mode < 3)) = false := by
        simpa [hdown] using ho
      simp [decideAutoGainStep, hfirst, hh, hup, hlt] at hnone
  · exact hd

namespace AutoGain
variable {cfg : TunerConfig} {S : ℚ} {s : AutoGain} {now : Int}

theorem clamp_rung (hs : s.OnLadder) :
    clamp s.commands.requestedAGCMode 0 3 = s.commands.requestedAGCMode := by
  obtain ⟨h0, h3⟩ := hs
  unfold clamp
  omega

/-- A call moves the rung as decided. -/
theorem maybeAdjust_rung (hs : s.OnLadder) (block : SignalBlock) :
    (s.maybeAdjust cfg block).commands.requestedAGCMode =
      s.commands.requestedAGCMode + (s.decision cfg block).move := by
  simp only [maybeAdjust, maybeAdjustAutoGain, decision, clamp_rung hs]
  split
  · exact (Int.add_zero _).symm
  · cases decideAutoGainStep s.commands.requestedAGCMode (s.servo block) with
    | none => exact (Int.add_zero _).symm
    | down => rfl
    | up => rfl

/-- A call that decides nothing changes nothing. -/
theorem maybeAdjust_of_none (hs : s.OnLadder) {block : SignalBlock}
    (hnone : s.decision cfg block = .none) : s.maybeAdjust cfg block = s := by
  have hcommands : maybeAdjustAutoGain cfg (s.servo block) s.commands = s.commands := by
    simp only [decision, clamp_rung hs] at hnone
    simp only [maybeAdjustAutoGain, clamp_rung hs]
    split at hnone
    · rename_i hoff
      rw [if_pos hoff]
    · rename_i hon
      rw [if_neg hon, hnone]
  simp only [maybeAdjust, hcommands, hnone, reduceCtorEq, if_false]

theorem servo_overload {block : SignalBlock} :
    (s.servo block).overload = true ↔ 1 / 50 < block.clipRatio ∨ -5 < block.dbfs := by
  simp only [servo, Bool.or_eq_true, decide_eq_true_eq, gt_iff_lt]

theorem servo_hasHeadroom {block : SignalBlock} :
    (s.servo block).hasHeadroom = true ↔ block.clipRatio < 1 / 2000 ∧ block.dbfs < -20 := by
  simp only [servo, Bool.and_eq_true, decide_eq_true_eq]

/-- The level on each rung. -/
def level (cfg : TunerConfig) (S : ℚ) (rung : Int) : ℚ := S + cfg.agcModeToGainDb rung

/-- What a call for a steady block does. -/
theorem decision_cases (cfg : TunerConfig) (S : ℚ) (hs : s.OnLadder) (now : Int) :
    (s.decision cfg (s.steadyBlock cfg S now) = .down ∧
        -5 < level cfg S s.commands.requestedAGCMode ∧ 900 * 1000000 ≤ now - s.lastGainDown ∧
        s.commands.requestedAGCMode < 3) ∨
      (s.decision cfg (s.steadyBlock cfg S now) = .up ∧
        level cfg S s.commands.requestedAGCMode < -20 ∧ 4000 * 1000000 ≤ now - s.lastGainUp ∧
        0 < s.commands.requestedAGCMode) ∨
      s.decision cfg (s.steadyBlock cfg S now) = .none := by
  simp only [decision, clamp_rung hs]
  split
  · exact Or.inr (Or.inr rfl)
  · rcases decideAutoGainStep_cases s.commands.requestedAGCMode
      (s.servo (s.steadyBlock cfg S now)) with
      ⟨hd, hover, htimer, hlt⟩ | ⟨hd, hroom, htimer, hlt⟩ | hd
    · have hlevel : -5 < level cfg S s.commands.requestedAGCMode := by
        exact (servo_overload.mp hover).resolve_left (by simp only [steadyBlock]; norm_num)
      exact Or.inl ⟨hd, hlevel, by simpa [servo, steadyBlock] using htimer, hlt⟩
    · have hlevel : level cfg S s.commands.requestedAGCMode < -20 := by
        exact (servo_hasHeadroom.mp hroom).2
      exact Or.inr (Or.inl ⟨hd, hlevel, by simpa [servo, steadyBlock] using htimer, hlt⟩)
    · exact Or.inr (Or.inr hd)

theorem steadyStep_rung (hs : s.OnLadder) :
    (s.steadyStep cfg S now).commands.requestedAGCMode =
      s.commands.requestedAGCMode + (s.adjustment cfg S now).step.move :=
  maybeAdjust_rung hs _

variable (cfg S now) in
theorem steadyStep_onLadder (hs : s.OnLadder) : (s.steadyStep cfg S now).OnLadder := by
  unfold OnLadder steadyStep
  rw [maybeAdjust_rung hs]
  obtain ⟨h0, h3⟩ := hs
  rcases decision_cases cfg S ⟨h0, h3⟩ now with ⟨hd, -, -, hlt⟩ | ⟨hd, -, -, hlt⟩ | hd
  · rw [hd]
    exact ⟨by simp only [AutoGainStep.move]; omega, by simp only [AutoGainStep.move]; omega⟩
  · rw [hd]
    exact ⟨by simp only [AutoGainStep.move]; omega, by simp only [AutoGainStep.move]; omega⟩
  · rw [hd]
    simpa only [AutoGainStep.move, Int.add_zero] using ⟨h0, h3⟩

/-! ### Timers -/

/-- The timer of a kind of step. -/
def timer (s : AutoGain) : AutoGainStep → Int
  | .up => s.lastGainUp
  | _ => s.lastGainDown

/-- The time it has to run. -/
def pause : AutoGainStep → Int
  | .none => 0
  | .down => 900 * 1000000
  | .up => 4000 * 1000000

theorem steadyStep_timer {kind : AutoGainStep} (hkind : kind ≠ .none) :
    (s.steadyStep cfg S now).timer kind =
      if (s.adjustment cfg S now).step = kind then now else s.timer kind := by
  cases kind with
  | none => exact absurd rfl hkind
  | down => rfl
  | up => rfl

theorem pause_le_of_step {kind : AutoGainStep} (hkind : kind ≠ .none) (hs : s.OnLadder)
    (hstep : (s.adjustment cfg S now).step = kind) : pause kind ≤ now - s.timer kind := by
  change s.decision cfg (s.steadyBlock cfg S now) = kind at hstep
  rcases decision_cases cfg S hs now with ⟨hd, -, htimer, -⟩ | ⟨hd, -, htimer, -⟩ | hd
  · rw [← hstep, hd]
    exact htimer
  · rw [← hstep, hd]
    exact htimer
  · exact absurd (hstep.symm.trans hd) hkind

/-- Every step of a kind comes a pause after what its timer shows. -/
theorem pause_le_of_mem {kind : AutoGainStep} (hkind : kind ≠ .none) {times : List Int}
    (hs : s.OnLadder) :
    ∀ a ∈ adjustments cfg S s times, a.step = kind → pause kind ≤ a.now - s.timer kind := by
  induction times generalizing s with
  | nil => intro a ha; cases ha
  | cons now times ih =>
    intro a ha hstep
    rcases List.mem_cons.mp ha with rfl | ha
    · exact pause_le_of_step hkind hs hstep
    · have hlater := ih (steadyStep_onLadder _ _ _ hs) a ha hstep
      rw [steadyStep_timer hkind] at hlater
      split at hlater
      · -- a step of the same kind has moved the timer, by a pause at least
        have hfirst := pause_le_of_step hkind hs ‹_›
        have hpos : 0 ≤ pause kind := by cases kind <;> decide
        omega
      · exact hlater

/-- Two steps of a kind are a pause apart. -/
theorem pairwise_pause {kind : AutoGainStep} (hkind : kind ≠ .none) {times : List Int}
    (hs : s.OnLadder) :
    (adjustments cfg S s times).Pairwise fun a b =>
      a.step = kind → b.step = kind → pause kind ≤ b.now - a.now := by
  induction times generalizing s with
  | nil => exact List.Pairwise.nil
  | cons now times ih =>
    refine (ih (steadyStep_onLadder _ _ _ hs)).cons fun b hb hfirst hsecond => ?_
    have hlater := pause_le_of_mem hkind (steadyStep_onLadder _ _ _ hs) b hb hsecond
    rwa [steadyStep_timer hkind, if_pos hfirst] at hlater

/-! ### The walk on the ladder -/

variable (cfg) in
/-- No step of either table is as wide as the dead band. -/
theorem agcModeToGainDb_gap (rung : Int) :
    cfg.agcModeToGainDb rung ≤ cfg.agcModeToGainDb (rung + 1) + 15 := by
  have hrung : rung < 0 ∨ rung = 0 ∨ rung = 1 ∨ rung = 2 ∨ 3 ≤ rung := by omega
  unfold TunerConfig.agcModeToGainDb
  rcases hrung with hlt | rfl | rfl | rfl | hge
  · have hclamp : clamp rung 0 3 = 0 ∧ clamp (rung + 1) 0 3 = 0 := by
      unfold clamp
      omega
    rw [hclamp.1, hclamp.2]
    omega
  · split <;> decide
  · split <;> decide
  · split <;> decide
  · have hclamp : clamp rung 0 3 = 3 ∧ clamp (rung + 1) 0 3 = 3 := by
      unfold clamp
      omega
    rw [hclamp.1, hclamp.2]
    omega

variable (cfg S) in
theorem deadBand : DeadBand (level cfg S) (-20) (-5) where
  le := by norm_num
  after_down rung hhigh := by
    have hgap : (cfg.agcModeToGainDb rung : ℚ) ≤ cfg.agcModeToGainDb (rung + 1) + 15 := by
      exact_mod_cast agcModeToGainDb_gap cfg rung
    unfold level at hhigh ⊢
    linarith
  after_up rung hlow := by
    have hgap := agcModeToGainDb_gap cfg (rung - 1)
    rw [Int.sub_add_cancel] at hgap
    have hgap' : (cfg.agcModeToGainDb (rung - 1) : ℚ) ≤ cfg.agcModeToGainDb rung + 15 := by
      exact_mod_cast hgap
    unfold level at hlow ⊢
    linarith

variable (cfg S) in
/-- The rung after all calls. -/
theorem steadyRun_rung (times : List Int) (hs : s.OnLadder) :
    (times.foldl (steadyStep cfg S) s).OnLadder ∧
      (times.foldl (steadyStep cfg S) s).commands.requestedAGCMode =
        s.commands.requestedAGCMode + ((adjustments cfg S s times).map (·.step.move)).sum := by
  induction times generalizing s with
  | nil => exact ⟨hs, (Int.add_zero _).symm⟩
  | cons now times ih =>
    obtain ⟨honladder, hrung⟩ := ih (steadyStep_onLadder cfg S now hs)
    refine ⟨honladder, hrung.trans ?_⟩
    rw [adjustments, List.map_cons, List.sum_cons, steadyStep_rung hs, Int.add_assoc]

variable (cfg S) in
/-- The calls walk on the ladder. -/
theorem ladderWalk (times : List Int) (hs : s.OnLadder) :
    LadderWalk (level cfg S) (-20) (-5) s.commands.requestedAGCMode
      ((adjustments cfg S s times).map (·.step.move)) := by
  induction times generalizing s with
  | nil => exact .nil _
  | cons now times ih =>
    have hrest := ih (steadyStep_onLadder cfg S now hs)
    rw [adjustments, List.map_cons]
    rw [steadyStep_rung hs] at hrest
    rcases decision_cases cfg S hs now with ⟨hd, hhigh, -, -⟩ | ⟨hd, hlow, -, -⟩ | hd
    · change (s.adjustment cfg S now).step = .down at hd
      rw [hd] at hrest ⊢
      exact .down hhigh hrest
    · change (s.adjustment cfg S now).step = .up at hd
      rw [hd] at hrest ⊢
      exact .up hlow hrest
    · change (s.adjustment cfg S now).step = .none at hd
      rw [hd] at hrest ⊢
      exact .stay (by simpa only [AutoGainStep.move, Int.add_zero] using hrest)

/-! ### Settling -/

/-- A call decides nothing at any time. -/
def Settled (cfg : TunerConfig) (S : ℚ) (s : AutoGain) : Prop :=
  ∀ now, s.decision cfg (s.steadyBlock cfg S now) = .none

/-- With both timers elapsed the decision does not depend on the time. -/
theorem settled_of_none (hdown : (s.adjustment cfg S now).downTimerElapsed = true)
    (hup : (s.adjustment cfg S now).upTimerElapsed = true)
    (hnone : (s.adjustment cfg S now).step = .none) : Settled cfg S s := by
  intro later
  change (s.servo (s.steadyBlock cfg S now)).downTimerElapsed = true at hdown
  change (s.servo (s.steadyBlock cfg S now)).upTimerElapsed = true at hup
  change s.decision cfg (s.steadyBlock cfg S now) = .none at hnone
  unfold decision at hnone ⊢
  split at hnone
  · rename_i hoff
    rw [if_pos hoff]
  · rename_i hon
    rw [if_neg hon]
    exact decideAutoGainStep_none_of_elapsed hnone hdown hup rfl rfl

/-- From then on there is no step. -/
theorem step_of_settled {times : List Int} (hs : s.OnLadder) (hsettled : Settled cfg S s) :
    ∀ a ∈ adjustments cfg S s times, a.step = .none := by
  induction times with
  | nil => intro a ha; cases ha
  | cons now times ih =>
    intro a ha
    rcases List.mem_cons.mp ha with rfl | ha
    · exact hsettled now
    · rw [steadyStep, maybeAdjust_of_none hs (hsettled now)] at ha
      exact ih a ha

/-- Once a call with both timers elapsed takes no step, none does. -/
theorem pairwise_settled {times : List Int} (hs : s.OnLadder) :
    (adjustments cfg S s times).Pairwise fun a b =>
      a.downTimerElapsed = true → a.upTimerElapsed = true → a.step = .none → b.step = .none := by
  induction times generalizing s with
  | nil => exact List.Pairwise.nil
  | cons now times ih =>
    refine (ih (steadyStep_onLadder _ _ _ hs)).cons fun b hb hdown hup hnone => ?_
    have hsettled := settled_of_none hdown hup hnone
    rw [steadyStep, maybeAdjust_of_none hs (hsettled now)] at hb
    exact step_of_settled hs hsettled b hb

/-- A call stays on the ladder and moves the rung as its step says. -/
theorem adjustment_rungs {times : List Int} (hs : s.OnLadder) :
    ∀ a ∈ adjustments cfg S s times,
      (0 ≤ a.rung ∧ a.rung ≤ 3) ∧ (0 ≤ a.next ∧ a.next ≤ 3) ∧ a.next = a.rung + a.step.move := by
  induction times generalizing s with
  | nil => intro a ha; cases ha
  | cons now times ih =>
    intro a ha
    rcases List.mem_cons.mp ha with rfl | ha
    · exact ⟨hs, steadyStep_onLadder _ _ _ hs, steadyStep_rung hs⟩
    · exact ih (steadyStep_onLadder _ _ _ hs) a ha

/-- The servo goes one way. -/
theorem pairwise_oneWay {times : List Int} (hs : s.OnLadder) :
    (adjustments cfg S s times).Pairwise fun a b =>
      ¬(a.step = .down ∧ b.step = .up) ∧ ¬(a.step = .up ∧ b.step = .down) := by
  have hmoves := (ladderWalk cfg S times hs).pairwise (deadBand cfg S)
  refine (List.pairwise_map.mp hmoves).imp fun {a b} hab => ⟨?_, ?_⟩
  · intro ⟨ha, hb⟩
    rw [ha, hb] at hab
    exact absurd (hab.1 (by decide)) (by decide)
  · intro ⟨ha, hb⟩
    rw [ha, hb] at hab
    exact absurd (hab.2 (by decide)) (by decide)

/-- It takes no more steps than the ladder has. -/
theorem countP_step_le (times : List Int) (hs : s.OnLadder) :
    (adjustments cfg S s times).countP (fun a => a.step ≠ .none) ≤ 3 := by
  obtain ⟨hend, hrung⟩ := steadyRun_rung cfg S times hs
  unfold OnLadder at hend
  rw [hrung] at hend
  have hcount := (ladderWalk cfg S times hs).count_le (deadBand cfg S) hs hend
  have hsteps : ((adjustments cfg S s times).map (·.step.move)).countP (· ≠ 0) =
      (adjustments cfg S s times).countP (fun a => a.step ≠ .none) := by
    rw [List.countP_map]
    refine List.countP_congr fun a _ => ?_
    cases hstep : a.step <;> simp [hstep, AutoGainStep.move]
  omega

/-! ### Main result -/

/-- For a steady station the servo settles: it stays on the ladder, moves
    by at most one rung a block, keeps its pauses, never takes a step back,
    takes at most three, and stops where a block finds nothing to do with
    both timers elapsed. -/
theorem autoGain_settles (cfg : TunerConfig) (S : ℚ) (s : AutoGain) (times : List Int)
    (hs : 0 ≤ s.commands.requestedAGCMode ∧ s.commands.requestedAGCMode ≤ 3) :
    (∀ a ∈ adjustments cfg S s times,
        (0 ≤ a.rung ∧ a.rung ≤ 3) ∧ (0 ≤ a.next ∧ a.next ≤ 3) ∧
          a.next = a.rung + a.step.move) ∧
      (adjustments cfg S s times).Pairwise (fun a b =>
        (a.step = .down → b.step = .down → 900 * 1000000 ≤ b.now - a.now) ∧
        (a.step = .up → b.step = .up → 4000 * 1000000 ≤ b.now - a.now)) ∧
      (adjustments cfg S s times).Pairwise (fun a b =>
        ¬(a.step = .down ∧ b.step = .up) ∧ ¬(a.step = .up ∧ b.step = .down)) ∧
      (adjustments cfg S s times).countP (fun a => a.step ≠ .none) ≤ 3 ∧
      (adjustments cfg S s times).Pairwise (fun a b =>
        a.downTimerElapsed = true → a.upTimerElapsed = true → a.step = .none →
          b.step = .none) := by
  refine ⟨adjustment_rungs hs, ?_, pairwise_oneWay hs, countP_step_le times hs,
    pairwise_settled hs⟩
  exact (pairwise_pause (by decide) hs).and (pairwise_pause (by decide) hs)

/-- A strong station on a directly connected RTL-SDR, with two seconds
    between the blocks: one step down, then none. -/
theorem autoGain_settles_strong :
    let cfg : TunerConfig := ⟨.rtlSdr, -1, -1, 0, false, false, 18, true, 8, 0, false⟩
    let s : AutoGain := ⟨XdrCommandState.create 101700000 0 0 0 100 0 false, 0, 0⟩
    let calls := adjustments cfg (-20) s [2000000000, 4000000000, 6000000000]
    calls.map (·.step) = [.down, .none, .none] ∧
      calls.Pairwise (fun a b =>
        ¬(a.step = .down ∧ b.step = .up) ∧ ¬(a.step = .up ∧ b.step = .down)) ∧
      calls.countP (fun a => a.step ≠ .none) ≤ 3 := by
  intro cfg s calls
  have hsettles := autoGain_settles cfg (-20) s [2000000000, 4000000000, 6000000000] (by decide)
  exact ⟨by decide +kernel, hsettles.2.2.1, hsettles.2.2.2.1⟩

end AutoGain

end FmSdrTuner

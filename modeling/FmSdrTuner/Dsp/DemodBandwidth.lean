import Mathlib.Algebra.Order.Group.Int
import FmSdrTuner.Dsp.FmDemod
import FmSdrTuner.Framework.FirstMin

/-! # FMDemod: the bandwidth and its history

    `setBandwidthHz` designs the channel filter for an entry of a table and
    notes the entry, so as not to design the same filter twice. Once a
    design has been made, the filter is the one for the entry noted, and it
    does not matter how it came about.

    The last entry, 0, stands for no bandwidth. It is not compared with the
    bandwidth asked for: a narrow one selects the narrowest filter, never
    the open one.

    Main result: `bandwidth_history`. -/

namespace FmSdrTuner

variable {F : Type} [DemodOps F]

/-! ### Calls -/

inductive DspAgcMode where
  | off
  | fast
  | slow
  deriving DecidableEq, Repr

/-- The demodulator with `m_dspAgcMode`. -/
structure AgcDemod (F : Type) where
  demod : FMDemod F
  dspAgcMode : DspAgcMode

/-- `kTefBwHz`. -/
def kTefBwHz : List Int :=
  [311000, 287000, 254000, 236000, 217000, 200000, 184000, 168000, 151000,
   133000, 114000, 97000, 84000, 72000, 64000, 56000, 0]

/-- `FMDemod::setBandwidthMode`. -/
def FMDemod.setBandwidthMode (d : FMDemod F) (mode : Int) : FMDemod F :=
  d.setBandwidthHz (kTefBwHz.getD (clamp mode 0 (kTefBwHz.length - 1)).toNat 0)

/-- `FMDemod::setDspAgcMode`. -/
def AgcDemod.setDspAgcMode (s : AgcDemod F) (mode : DspAgcMode) : AgcDemod F :=
  if mode = s.dspAgcMode then s else ⟨s.demod.reset, mode⟩

inductive BandwidthCall where
  | setBandwidthHz (bwHz : Int)
  | setBandwidthMode (mode : Int)
  | setW0BandwidthHz (bwHz : Int)
  | setIqFirL1Normalize (enabled : Bool)
  | setDspAgcMode (mode : DspAgcMode)
  | reset
  deriving DecidableEq, Repr

def bandwidthMachine (F : Type) [DemodOps F] : Machine (AgcDemod F) BandwidthCall where
  step s
    | .setBandwidthHz bwHz => { s with demod := s.demod.setBandwidthHz bwHz }
    | .setBandwidthMode mode => { s with demod := s.demod.setBandwidthMode mode }
    | .setW0BandwidthHz bwHz => { s with demod := s.demod.setW0BandwidthHz bwHz }
    | .setIqFirL1Normalize enabled => { s with demod := s.demod.setIqFirL1Normalize enabled }
    | .setDspAgcMode mode => s.setDspAgcMode mode
    | .reset => { s with demod := s.demod.reset }

/-- Does the call design the channel filter? -/
def FMDemod.designs (d : FMDemod F) : BandwidthCall → Bool
  | .setBandwidthHz bwHz => (d.selected bwHz : Int) ≠ d.bandwidthMode
  | .setBandwidthMode mode =>
      (d.selected (kTefBwHz.getD (clamp mode 0 (kTefBwHz.length - 1)).toNat 0) : Int) ≠
        d.bandwidthMode
  -- the entry noted is set to -1 first, so nothing is kept
  | .setIqFirL1Normalize enabled => enabled ≠ d.iqFirL1Normalize
  | _ => false

/-- The demodulator, and whether it has designed the filter since it was
    made. -/
def bandwidthHistory (F : Type) [DemodOps F] : Machine (AgcDemod F × Bool) BandwidthCall :=
  (bandwidthMachine F).withHistory fun designed s call => designed || s.demod.designs call

def madeDemod (F : Type) [DemodOps F] (inputRate outputRate : Int) : AgcDemod F × Bool :=
  (⟨.create inputRate outputRate, .off⟩, false)

/-! ### The nearest entry -/

/-- The entry at `e` is the nearest of the first `count`, and nearer than those
    before it, which are wider. -/
def NearestEntry (count : Nat) (bwHz : Int) (e : Nat) : Prop :=
  e < count ∧
    (∀ j < count, (kXdrFmBwHz.getD e 0 - bwHz).natAbs ≤ (kXdrFmBwHz.getD j 0 - bwHz).natAbs) ∧
    ∀ j < e, (kXdrFmBwHz.getD e 0 - bwHz).natAbs < (kXdrFmBwHz.getD j 0 - bwHz).natAbs

instance (count : Nat) (bwHz : Int) (e : Nat) : Decidable (NearestEntry count bwHz e) :=
  inferInstanceAs (Decidable (_ ∧ _ ∧ _))

/-- The bandwidth that a call of `setBandwidthHz` asks for. -/
def effectiveBwHz (w0BandwidthHz bwHz : Int) : Int := if bwHz ≤ 0 then w0BandwidthHz else bwHz

/-- The nearest of the positive entries, or the last entry, which is 0, for no
    bandwidth. -/
def SelectedEntry (effectiveBwHz : Int) (e : Nat) : Prop :=
  if 0 < effectiveBwHz then NearestEntry (kXdrFmBwHz.length - 1) effectiveBwHz e
  else e = kXdrFmBwHz.length - 1

theorem selectXdrBandwidth_spec {bwHz : Int} (hbw : bwHz ≤ intMax) :
    SelectedEntry bwHz (selectXdrBandwidth bwHz) := by
  unfold SelectedEntry
  by_cases hpos : 0 < bwHz
  · rw [if_pos hpos]
    have hselected : selectXdrBandwidth bwHz =
        (firstMin (fun bw : Int => ((bw - bwHz).natAbs : Int)) (intMax, kXdrFmBwHz.length - 1) 0
          kXdrFmBwHz.dropLast).2 := by
      unfold selectXdrBandwidth firstMin
      rw [if_pos hpos]
    rw [hselected]
    rcases firstMin_spec (fun bw : Int => ((bw - bwHz).natAbs : Int))
      (intMax, kXdrFmBwHz.length - 1) 0 kXdrFmBwHz.dropLast with
      ⟨-, hall⟩ | ⟨e, bw, hfound, -, hmin⟩
    · -- the widest entry is nearer than the start value
      have hwidest := hall 309000 (by decide)
      unfold intMax at hbw hwidest
      dsimp only at hwidest
      omega
    · -- the last entry, 0, is never a candidate
      rw [hfound]
      have hlen : kXdrFmBwHz.length - 1 = kXdrFmBwHz.dropLast.length := rfl
      have hget : ∀ j (y : Int), kXdrFmBwHz.dropLast[j]? = some y → kXdrFmBwHz.getD j 0 = y := by
        intro j y hy
        rw [List.getElem?_dropLast] at hy
        split at hy
        · rw [List.getD_eq_getElem?_getD, hy]
          rfl
        · cases hy
      have hentry : ∀ j < kXdrFmBwHz.length - 1, ∃ y, kXdrFmBwHz.dropLast[j]? = some y := by
        intro j hj
        rw [hlen] at hj
        exact ⟨_, List.getElem?_eq_getElem hj⟩
      have hlt : e < kXdrFmBwHz.length - 1 := by
        rw [hlen]
        exact (List.getElem?_eq_some_iff.mp hmin.at_index).1
      show NearestEntry (kXdrFmBwHz.length - 1) bwHz (0 + e)
      rw [Nat.zero_add]
      refine ⟨hlt, ?_, ?_⟩
      · intro j hj
        obtain ⟨y, hy⟩ := hentry j hj
        rw [hget e bw hmin.at_index, hget j y hy]
        exact Int.ofNat_le.mp (hmin.le_all y (List.mem_of_getElem? hy))
      · intro j hj
        obtain ⟨y, hy⟩ := hentry j (by omega)
        rw [hget e bw hmin.at_index, hget j y hy]
        exact Int.ofNat_lt.mp (hmin.lt_before j y hj hy)
  · rw [if_neg hpos]
    unfold selectXdrBandwidth
    rw [if_neg hpos]

/-! ### The filter of an entry -/

/-- The design of the channel filter for an entry, at a sample rate. -/
def entryDesign (F : Type) [DemodOps F] (inputRate : Int) (e : Nat) (l1Normalize : Bool) :
    FirConfig F :=
  .kaiser (if 0 < kXdrFmBwHz.getD e 0 ∧ kXdrFmBwHz.getD e 0 ≤ 73000 then 121 else 81)
    (DemodOps.iqCutoffNorm inputRate (kXdrFmBwHz.getD e 0))
    (if 0 < kXdrFmBwHz.getD e 0 ∧ kXdrFmBwHz.getD e 0 ≤ 42000 then DemodOps.seventy
      else FloatOps.sixty)
    FloatOps.zero l1Normalize

/-- The filter that is left by a change of bandwidth. -/
def entryFilter (F : Type) [DemodOps F] (inputRate : Int) (e : Nat) : FIRFilter F :=
  FIRFilter.fresh.configure (entryDesign F inputRate e false)

/-- The filter that the constructor makes. -/
def initialFilter (F : Type) [DemodOps F] (inputRate : Int) : FIRFilter F :=
  FIRFilter.fresh.init 81 (DemodOps.initialCutoffNorm inputRate) FloatOps.sixty FloatOps.zero
    false

/-- `init` sets every field. -/
theorem FIRFilter.init_eq (f g : FIRFilter F) (length : Nat) (cutoff stopBandAtten center : F)
    (l1Normalize : Bool) :
    f.init length cutoff stopBandAtten center l1Normalize =
      g.init length cutoff stopBandAtten center l1Normalize := by
  unfold FIRFilter.init
  split
  · split <;> rfl
  · rfl

/-- A filter that is reset is the one that `init` makes without the flag. -/
theorem FIRFilter.init_reset (f : FIRFilter F) (length : Nat) (cutoff stopBandAtten center : F)
    (l1Normalize : Bool) :
    (f.init length cutoff stopBandAtten center l1Normalize).reset =
      FIRFilter.fresh.init length cutoff stopBandAtten center false := by
  obtain ⟨huse, hlen, hcut, hatt, hcen⟩ :=
    f.init_remembers length cutoff stopBandAtten center l1Normalize l1Normalize
  unfold FIRFilter.reset
  dsimp only
  rw [if_neg (by simp [huse]), hlen, hcut, hatt, hcen]
  exact FIRFilter.init_eq ..

theorem entryFilter_inForce (inputRate : Int) (e : Nat) :
    (entryFilter F inputRate e).InForce (entryDesign F inputRate e false) :=
  FIRFilter.init_inForce ..

theorem entryFilter_reset (inputRate : Int) (e : Nat) :
    (entryFilter F inputRate e).reset = entryFilter F inputRate e :=
  FIRFilter.init_reset ..

theorem initialFilter_reset (inputRate : Int) :
    (initialFilter F inputRate).reset = initialFilter F inputRate :=
  FIRFilter.init_reset ..

/-! ### What a history leaves -/

/-- After a design the filter is the one for the entry noted; before that it
    is the initial one, and the entry noted is the widest. -/
structure FilterNoted (inputRate : Int) (s : AgcDemod F × Bool) : Prop where
  rate : s.1.demod.inputRate = inputRate
  w0 : 0 ≤ s.1.demod.w0BandwidthHz ∧ s.1.demod.w0BandwidthHz ≤ 400000
  filter :
    if s.2 then
      ∃ e : Nat, s.1.demod.bandwidthMode = e ∧ s.1.demod.iqFilter = entryFilter F inputRate e
    else
      s.1.demod.bandwidthMode = 0 ∧ s.1.demod.iqFirL1Normalize = false ∧
        s.1.demod.iqFilter = initialFilter F inputRate

theorem filterNoted_made (inputRate outputRate : Int) :
    FilterNoted (max 1 inputRate) (madeDemod F inputRate outputRate) :=
  ⟨rfl, ⟨show (0 : Int) ≤ 194000 by decide, show (194000 : Int) ≤ 400000 by decide⟩, rfl, rfl, rfl⟩

namespace FilterNoted
variable {inputRate : Int} {s : AgcDemod F × Bool}

/-- A reset keeps the filter. -/
theorem reset (h : FilterNoted inputRate s) (mode : DspAgcMode) :
    FilterNoted inputRate (⟨s.1.demod.reset, mode⟩, s.2) := by
  obtain ⟨hrate, hw0, hfilter⟩ := h
  refine ⟨hrate, hw0, ?_⟩
  cases hdesigned : s.2 with
  | true =>
    rw [hdesigned] at hfilter
    obtain ⟨e, hmode, hsame⟩ := hfilter
    refine ⟨e, hmode, ?_⟩
    show s.1.demod.iqFilter.reset = _
    rw [hsame, entryFilter_reset]
  | false =>
    rw [hdesigned] at hfilter
    obtain ⟨hmode, hflag, hsame⟩ := hfilter
    refine ⟨hmode, hflag, ?_⟩
    show s.1.demod.iqFilter.reset = _
    rw [hsame, initialFilter_reset]

end FilterNoted

/-- A design leaves the filter of the entry that it notes. -/
theorem FMDemod.setBandwidthHz_designs {d : FMDemod F} {bwHz : Int}
    (h : (d.selected bwHz : Int) ≠ d.bandwidthMode) :
    (d.setBandwidthHz bwHz).bandwidthMode = d.selected bwHz ∧
      (d.setBandwidthHz bwHz).iqFilter = entryFilter F d.inputRate (d.selected bwHz) := by
  unfold FMDemod.setBandwidthHz
  dsimp only
  rw [if_neg h]
  exact ⟨rfl, FIRFilter.init_reset ..⟩

theorem FMDemod.setBandwidthHz_keeps (d : FMDemod F) (bwHz : Int) :
    (d.setBandwidthHz bwHz).inputRate = d.inputRate ∧
      (d.setBandwidthHz bwHz).w0BandwidthHz = d.w0BandwidthHz ∧
      (d.setBandwidthHz bwHz).iqFirL1Normalize = d.iqFirL1Normalize := by
  unfold FMDemod.setBandwidthHz
  dsimp only
  split <;> exact ⟨rfl, rfl, rfl⟩

namespace FilterNoted
variable {inputRate : Int} {s : AgcDemod F × Bool}

/-- Setting a bandwidth, whether or not this designs the filter. -/
theorem setBandwidthHz (h : FilterNoted inputRate s) (bwHz : Int) :
    FilterNoted inputRate
      ({ s.1 with demod := s.1.demod.setBandwidthHz bwHz },
        s.2 || decide ((s.1.demod.selected bwHz : Int) ≠ s.1.demod.bandwidthMode)) := by
  obtain ⟨hrate, hw0, -⟩ := s.1.demod.setBandwidthHz_keeps bwHz
  by_cases hsame : (s.1.demod.selected bwHz : Int) = s.1.demod.bandwidthMode
  · have hkept : s.1.demod.setBandwidthHz bwHz = s.1.demod := if_pos hsame
    rw [hkept, decide_eq_false (not_not.mpr hsame), Bool.or_false]
    exact h
  · obtain ⟨hmode, hfilter⟩ := FMDemod.setBandwidthHz_designs hsame
    -- another entry than the one noted
    refine ⟨hrate.trans h.rate, ?_, ?_⟩
    · show 0 ≤ (s.1.demod.setBandwidthHz bwHz).w0BandwidthHz ∧ _
      rw [hw0]
      exact h.w0
    · rw [decide_eq_true hsame, Bool.or_true, if_pos rfl]
      exact ⟨_, hmode, by rw [← h.rate]; exact hfilter⟩

/-- A change of the L1 setting designs the filter, since -1 is no entry. -/
theorem setIqFirL1Normalize (h : FilterNoted inputRate s) (enabled : Bool) :
    FilterNoted inputRate
      ({ s.1 with demod := s.1.demod.setIqFirL1Normalize enabled },
        s.2 || decide (enabled ≠ s.1.demod.iqFirL1Normalize)) := by
  by_cases hsame : enabled = s.1.demod.iqFirL1Normalize
  · have hkept : s.1.demod.setIqFirL1Normalize enabled = s.1.demod := if_pos hsame
    rw [hkept, decide_eq_false (not_not.mpr hsame), Bool.or_false]
    exact h
  · rw [decide_eq_true hsame, Bool.or_true]
    -- the state that is given a bandwidth again
    generalize hbumped : ({ s.1.demod with
      iqFirL1Normalize := enabled, bandwidthMode := -1 } : FMDemod F) = bumped
    have hdesigns : ∀ bwHz, (bumped.selected bwHz : Int) ≠ bumped.bandwidthMode := by
      intro bwHz
      rw [← hbumped]
      show (_ : Int) ≠ -1
      omega
    have hcall : ∃ bwHz,
        s.1.demod.setIqFirL1Normalize enabled = bumped.setBandwidthHz bwHz := by
      unfold FMDemod.setIqFirL1Normalize
      rw [if_neg hsame, ← hbumped]
      exact ⟨_, rfl⟩
    obtain ⟨bwHz, hcall⟩ := hcall
    obtain ⟨hmode, hfilter⟩ := FMDemod.setBandwidthHz_designs (hdesigns bwHz)
    obtain ⟨hrate, hw0, -⟩ := bumped.setBandwidthHz_keeps bwHz
    have hold : bumped.inputRate = s.1.demod.inputRate ∧
        bumped.w0BandwidthHz = s.1.demod.w0BandwidthHz := by
      rw [← hbumped]
      exact ⟨rfl, rfl⟩
    rw [hcall]
    refine ⟨(hrate.trans hold.1).trans h.rate, ?_, ?_⟩
    · show 0 ≤ (bumped.setBandwidthHz bwHz).w0BandwidthHz ∧ _
      rw [hw0, hold.2]
      exact h.w0
    · rw [if_pos rfl]
      exact ⟨_, hmode, by rw [← h.rate, ← hold.1]; exact hfilter⟩

theorem step (h : FilterNoted inputRate s) (call : BandwidthCall) :
    FilterNoted inputRate ((bandwidthHistory F).step s call) := by
  cases call with
  | setBandwidthHz bwHz => exact h.setBandwidthHz bwHz
  | setBandwidthMode mode => exact h.setBandwidthHz _
  | setIqFirL1Normalize enabled => exact h.setIqFirL1Normalize enabled
  | setW0BandwidthHz bwHz =>
    obtain ⟨hrate, -, hfilter⟩ := h
    refine ⟨hrate, ?_, ?_⟩
    · show 0 ≤ clamp bwHz 0 400000 ∧ clamp bwHz 0 400000 ≤ 400000
      unfold clamp
      omega
    · show if s.2 || false then _ else _
      rw [Bool.or_false]
      exact hfilter
  | setDspAgcMode mode =>
    show FilterNoted inputRate (s.1.setDspAgcMode mode, s.2 || false)
    rw [Bool.or_false]
    unfold AgcDemod.setDspAgcMode
    split
    · exact h
    · exact h.reset mode
  | reset =>
    show FilterNoted inputRate (⟨s.1.demod.reset, s.1.dspAgcMode⟩, s.2 || false)
    rw [Bool.or_false]
    exact h.reset s.1.dspAgcMode

end FilterNoted

/-- The state after some calls on a new demodulator. -/
def afterCalls (F : Type) [DemodOps F] (inputRate outputRate : Int)
    (calls : List BandwidthCall) : AgcDemod F × Bool :=
  (bandwidthHistory F).run (madeDemod F inputRate outputRate) calls

theorem filterNoted_afterCalls (inputRate outputRate : Int) (calls : List BandwidthCall) :
    FilterNoted (max 1 inputRate) (afterCalls F inputRate outputRate calls) :=
  Machine.run_invariant_always (fun _ call h => h.step call) calls
    (filterNoted_made inputRate outputRate)

/-! ### Main result -/

/-- Has some call of the history designed the filter? -/
def Designed (F : Type) [DemodOps F] (inputRate outputRate : Int)
    (calls : List BandwidthCall) : Prop :=
  (afterCalls F inputRate outputRate calls).2 = true

/-- The demodulator after a history that ends in `setBandwidthHz(b)`. -/
def endingIn (F : Type) [DemodOps F] (inputRate outputRate : Int) (calls : List BandwidthCall)
    (b : Int32) : FMDemod F :=
  (afterCalls F inputRate outputRate (calls ++ [.setBandwidthHz b.toInt])).1.demod

theorem endingIn_eq (inputRate outputRate : Int) (calls : List BandwidthCall) (b : Int32) :
    endingIn F inputRate outputRate calls b =
      (afterCalls F inputRate outputRate calls).1.demod.setBandwidthHz b.toInt := by
  unfold endingIn afterCalls
  rw [Machine.run_append]
  rfl

/-- The entry that the last call selects is the nearest one. -/
theorem selected_spec (inputRate outputRate : Int) (calls : List BandwidthCall) (b : Int32) :
    SelectedEntry (effectiveBwHz (endingIn F inputRate outputRate calls b).w0BandwidthHz b.toInt)
      ((afterCalls F inputRate outputRate calls).1.demod.selected b.toInt) := by
  obtain ⟨-, hw0, -⟩ :=
    (afterCalls F inputRate outputRate calls).1.demod.setBandwidthHz_keeps b.toInt
  have hbounds := (filterNoted_afterCalls (F := F) inputRate outputRate calls).w0
  have hb := b.toInt_lt
  rw [endingIn_eq, hw0]
  refine selectXdrBandwidth_spec ?_
  unfold intMax effectiveBwHz
  split <;> omega

/-- Only one entry is nearest. -/
theorem SelectedEntry.unique {bwHz : Int} {e e' : Nat} (h : SelectedEntry bwHz e)
    (h' : SelectedEntry bwHz e') : e = e' := by
  unfold SelectedEntry at h h'
  split at h
  · next hpos =>
    rw [if_pos hpos] at h'
    obtain ⟨hcount, hall, hbefore⟩ := h
    obtain ⟨hcount', hall', hbefore'⟩ := h'
    rcases Nat.lt_trichotomy e e' with hlt | heq | hgt
    · have hstrict := hbefore' e hlt
      have hle := hall e' hcount'
      omega
    · exact heq
    · have hstrict := hbefore e' hgt
      have hle := hall' e hcount
      omega
  · next hpos =>
    rw [if_neg hpos] at h'
    exact h.trans h'.symm

/-- Once the filter has been designed, or if the entry is not the one noted at
    first, the filter is the one for the entry. -/
theorem filter_endingIn (inputRate outputRate : Int) (calls : List BandwidthCall) (b : Int32)
    (h : (afterCalls F inputRate outputRate calls).1.demod.selected b.toInt ≠ 0 ∨
      Designed F inputRate outputRate calls) :
    (endingIn F inputRate outputRate calls b).iqFilter =
      entryFilter F (max 1 inputRate)
        ((afterCalls F inputRate outputRate calls).1.demod.selected b.toInt) := by
  obtain ⟨hrate, -, hfilter⟩ := filterNoted_afterCalls (F := F) inputRate outputRate calls
  rw [endingIn_eq]
  by_cases hsame : ((afterCalls F inputRate outputRate calls).1.demod.selected b.toInt : Int) =
      (afterCalls F inputRate outputRate calls).1.demod.bandwidthMode
  · have hkept : (afterCalls F inputRate outputRate calls).1.demod.setBandwidthHz b.toInt =
        (afterCalls F inputRate outputRate calls).1.demod := if_pos hsame
    -- the call keeps the filter, so some call before has designed it
    have hdesigned : (afterCalls F inputRate outputRate calls).2 = true := by
      rcases h with hwidest | hdesigned
      · by_contra hnot
        rw [Bool.not_eq_true] at hnot
        rw [hnot] at hfilter
        have hmode := hsame.trans hfilter.1
        omega
      · exact hdesigned
    rw [hdesigned] at hfilter
    obtain ⟨e, hmode, hfilter⟩ := hfilter
    have hentry : (afterCalls F inputRate outputRate calls).1.demod.selected b.toInt = e := by
      have heq := hsame.trans hmode
      omega
    rw [hkept, hfilter, hentry]
  · rw [(FMDemod.setBandwidthHz_designs hsame).2, hrate]

/-- Otherwise it is still the one that the constructor has made. -/
theorem filter_endingIn_initial (inputRate outputRate : Int) (calls : List BandwidthCall)
    (b : Int32)
    (h : ¬((afterCalls F inputRate outputRate calls).1.demod.selected b.toInt ≠ 0 ∨
      Designed F inputRate outputRate calls)) :
    (endingIn F inputRate outputRate calls b).iqFilter = initialFilter F (max 1 inputRate) := by
  obtain ⟨-, -, hfilter⟩ := filterNoted_afterCalls (F := F) inputRate outputRate calls
  push Not at h
  obtain ⟨hwidest, hdesigned⟩ := h
  unfold Designed at hdesigned
  rw [Bool.not_eq_true] at hdesigned
  rw [hdesigned] at hfilter
  obtain ⟨hmode, -, hsame⟩ := hfilter
  have hkept : (afterCalls F inputRate outputRate calls).1.demod.setBandwidthHz b.toInt =
      (afterCalls F inputRate outputRate calls).1.demod :=
    if_pos (by rw [hwidest, hmode]; rfl)
  rw [endingIn_eq, hkept, hsame]

/-- Exactly when the design of the entry and the L1 setting is in force: the
    setting is off, and the filter of the constructor, if it has been kept,
    happens to be that of the widest entry. -/
theorem endingIn_inForce_iff (inputRate outputRate : Int) (calls : List BandwidthCall)
    (b : Int32) :
    let after := endingIn F inputRate outputRate calls b
    let e := (afterCalls F inputRate outputRate calls).1.demod.selected b.toInt
    after.iqFilter.InForce (entryDesign F (max 1 inputRate) e after.iqFirL1Normalize) ↔
      after.iqFirL1Normalize = false ∧
        (e ≠ 0 ∨ Designed F inputRate outputRate calls ∨
          (DemodOps.initialCutoffNorm (max 1 inputRate) : F) =
            DemodOps.iqCutoffNorm (max 1 inputRate) 309000) := by
  intro after e
  rw [← or_assoc]
  by_cases hdesigned : e ≠ 0 ∨ Designed F inputRate outputRate calls
  · rw [show after.iqFilter = _ from filter_endingIn inputRate outputRate calls b hdesigned]
    constructor
    · intro hforce
      have hflag := hforce.1.2.2.2.2
      rw [(entryFilter_inForce (F := F) (max 1 inputRate) e).1.2.2.2.2] at hflag
      exact ⟨hflag.symm, Or.inl hdesigned⟩
    · rintro ⟨hflag, -⟩
      rw [hflag]
      exact entryFilter_inForce _ _
  · have hzero : e = 0 := by
      by_contra hne
      exact hdesigned (Or.inl hne)
    have hinitial := FIRFilter.init_inForce (F := F) FIRFilter.fresh 81
      (DemodOps.initialCutoffNorm (max 1 inputRate)) FloatOps.sixty FloatOps.zero false
    rw [show after.iqFilter = _ from
      filter_endingIn_initial inputRate outputRate calls b hdesigned, hzero]
    constructor
    · intro hforce
      have hflag := hforce.1.2.2.2.2
      have hcutoff := hforce.1.2.1
      unfold initialFilter at hflag hcutoff
      rw [hinitial.1.2.2.2.2] at hflag
      rw [hinitial.1.2.1] at hcutoff
      exact ⟨hflag.symm, Or.inr hcutoff⟩
    · rintro ⟨hflag, hkept | hcutoff⟩
      · exact absurd (hzero ▸ hkept) hdesigned
      · rw [hflag]
        unfold initialFilter
        rw [hcutoff]
        exact entryFilter_inForce _ 0

/-- For every history that ends in `setBandwidthHz(b)`: the entry is the
    nearest of the positive ones, the wider of two as near, or the last one
    for no bandwidth. If it is not the widest, or some call has designed the
    filter before, the length, the cutoff and the attenuation are those of
    the entry, and with the L1 setting off the filter is that of the design.
    Two such histories with the same bandwidths and setting end with the
    same filter. -/
theorem bandwidth_history (F : Type) [DemodOps F] (inputRate outputRate : Int) :
    (∀ (calls : List BandwidthCall) (b : Int32),
      let after := endingIn F inputRate outputRate calls b
      ∃ e, SelectedEntry (effectiveBwHz after.w0BandwidthHz b.toInt) e ∧
        (e ≠ 0 ∨ Designed F inputRate outputRate calls →
          (∃ l1Normalize,
            after.iqFilter.Stores (entryDesign F (max 1 inputRate) e l1Normalize)) ∧
          (after.iqFirL1Normalize = false →
            after.iqFilter.InForce
              (entryDesign F (max 1 inputRate) e after.iqFirL1Normalize)))) ∧
    (∀ (calls calls' : List BandwidthCall) (b : Int32),
      let after := endingIn F inputRate outputRate calls b
      let after' := endingIn F inputRate outputRate calls' b
      after.w0BandwidthHz = after'.w0BandwidthHz →
      after.iqFirL1Normalize = after'.iqFirL1Normalize →
      (¬SelectedEntry (effectiveBwHz after.w0BandwidthHz b.toInt) 0 ∨
        Designed F inputRate outputRate calls ∧ Designed F inputRate outputRate calls') →
      after.iqFilter = after'.iqFilter) := by
  constructor
  · intro calls b after
    refine ⟨_, selected_spec inputRate outputRate calls b, ?_⟩
    intro hdesigned
    have hfilter := filter_endingIn inputRate outputRate calls b hdesigned
    rw [show after.iqFilter = _ from hfilter]
    refine ⟨⟨false, (entryFilter_inForce _ _).1⟩, ?_⟩
    intro hflag
    rw [hflag]
    exact entryFilter_inForce _ _
  · intro calls calls' b after after' hw0 _ hdesigned
    have hselected := selected_spec (F := F) inputRate outputRate calls b
    have hselected' := selected_spec (F := F) inputRate outputRate calls' b
    rw [← show after.w0BandwidthHz = (endingIn F inputRate outputRate calls' b).w0BandwidthHz
      from hw0] at hselected'
    have hentry := hselected.unique hselected'
    have hone := filter_endingIn (F := F) inputRate outputRate calls b (by
      rcases hdesigned with hwidest | ⟨hdesigned, -⟩
      · exact Or.inl fun hzero => hwidest (hzero ▸ hselected)
      · exact Or.inr hdesigned)
    have htwo := filter_endingIn (F := F) inputRate outputRate calls' b (by
      rcases hdesigned with hwidest | ⟨-, hdesigned⟩
      · exact Or.inl fun hzero => hwidest (hzero ▸ hselected')
      · exact Or.inr hdesigned)
    exact hone.trans ((congrArg _ hentry).trans htwo.symm)

/-- Single precision, up to liquid's design function. -/
@[reducible] def float32DemodOps (firdesKaiser : Nat → Float32 → Float32 → List Float32) :
    DemodOps Float32 where
  toFloatOps := float32Ops firdesKaiser
  seventy := 70
  iqDcAlpha := 0.0005
  monoDcAlpha := 0.0008
  deemphasisAlpha tau_us outputRate :=
    let tau := Float32.ofInt tau_us * 1e-6
    let dt := 1 / Float32.ofInt outputRate
    dt / (tau + dt)
  feedback alpha := -(1 - alpha)
  initialCutoffNorm inputRate :=
    let cutoff := 110000 / Float32.ofInt inputRate
    if cutoff < 0.01 then 0.01 else if 0.45 < cutoff then 0.45 else cutoff
  iqCutoffNorm inputRate selectedBwHz :=
    let nyquistHeadroomHz := 0.45 * Float.ofInt inputRate
    let half := Float.ofInt selectedBwHz * 0.5
    let iqCutoffHz :=
      if 0 < selectedBwHz then
        if half < 9000 then 9000 else if nyquistHeadroomHz < half then nyquistHeadroomHz else half
      else nyquistHeadroomHz
    let cutoffNorm := (iqCutoffHz / Float.ofInt inputRate).toFloat32
    if cutoffNorm < 0.01 then 0.01 else if 0.45 < cutoffNorm then 0.45 else cutoffNorm

/-- Of all entries, 0 is nearest to 3 kHz; the filter is not the one for it,
    whatever the design function computes. -/
theorem narrow_bandwidth_not_nearest :
    ¬∃ firdesKaiser : Nat → Float32 → Float32 → List Float32,
      letI := float32DemodOps firdesKaiser
      ∀ e, NearestEntry kXdrFmBwHz.length 3000 e →
        (endingIn Float32 256000 48000 [] 3000).iqFilter.InForce
          (entryDesign Float32 256000 e false) := by
  rintro ⟨firdesKaiser, h⟩
  let ops := float32DemodOps firdesKaiser
  have hnearest : SelectedEntry 3000 28 := by
    unfold SelectedEntry
    rw [if_pos (by decide)]
    decide
  have hselect : selectXdrBandwidth 3000 = 28 :=
    (selectXdrBandwidth_spec (show (3000 : Int) ≤ intMax by decide)).unique hnearest
  have hentry :
      (afterCalls Float32 256000 48000 []).1.demod.selected (3000 : Int32).toInt = 28 :=
    hselect
  have hfilter : (endingIn Float32 256000 48000 [] 3000).iqFilter =
      entryFilter Float32 256000 28 := by
    rw [filter_endingIn 256000 48000 [] 3000 (Or.inl (by rw [hentry]; decide)), hentry]
    rfl
  have hopen := (h 29 (by decide)).1
  rw [hfilter] at hopen
  have hlength : (121 : Nat) = 81 :=
    (entryFilter_inForce (F := Float32) 256000 28).1.1.symm.trans hopen.1
  exact absurd hlength (by decide)

end FmSdrTuner

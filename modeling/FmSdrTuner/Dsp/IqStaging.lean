import Mathlib.Data.UInt
import FmSdrTuner.Framework.Blocks
import FmSdrTuner.Framework.RingCopies

/-! # DspPipeline: staging IQ samples for the decimator

    With decimation the pipeline collects IQ samples in a ring until it has
    a block of `sdrBlockSamples`, copies the block out of the ring and hands
    it to the decimator, at most one block for each call of `process`. There
    are two such rings, one of bytes and one of complex samples, which
    `process` fills from its two kinds of input.

    Segments of at most one block never fill a ring, and one block per call
    keeps less than a block staged: each ring hands over the blocks of its
    stream, wherever the stream is cut. -/

namespace FmSdrTuner

variable {α κ : Type*}

/-! ### A staging ring -/

/-- A staging ring and the block it is linearised into: `m_iqStagingRing`
    and `m_iqLinearizedBlock`, or the two of the complex path. -/
structure IqStaging (α : Type*) where
  ring : CountedRing α
  linearizedSize : Nat
  linearizedBlock : Nat → α

namespace IqStaging

/-- `assign` on the two vectors; the positions stay what they are. -/
def assign [Zero α] (s : IqStaging α) (capacity linearizedSize : Nat) : IqStaging α where
  ring := { s.ring with capacity := capacity, slots := fun _ => 0 }
  linearizedSize := linearizedSize
  linearizedBlock := fun _ => 0

/-- Two empty vectors. -/
def empty [Zero α] : IqStaging α where
  ring := ⟨0, fun _ => 0, 0, 0, 0⟩
  linearizedSize := 0
  linearizedBlock := fun _ => 0

def clear (s : IqStaging α) : IqStaging α := { s with ring := s.ring.clear }

/-- Of input that does not fit the oldest gives way: the whole ring, or as
    much as is needed. -/
def dropStaged (r : CountedRing α) (incoming : Nat) : CountedRing α :=
  if r.capacity ≤ incoming then r.clear
  else if r.capacity < r.size + incoming then
    let drop := r.size + incoming - r.capacity
    { r with readPos := (r.readPos + drop) % r.capacity, size := r.size - drop }
  else r

/-- `DspPipeline::appendIqToStaging` on bytes, `appendIqToStagingC` on
    samples. -/
def append (s : IqStaging α) (incoming : List α) : IqStaging α :=
  if incoming.length = 0 ∨ s.ring.capacity = 0 then s
  else
    -- of a segment longer than the ring only the end is kept
    let srcOffset :=
      if s.ring.capacity ≤ incoming.length then incoming.length - s.ring.capacity else 0
    let kept := incoming.drop srcOffset
    { s with
      ring := ((dropStaged s.ring incoming.length).copyIn kept.length kept).grow kept.length }

/-- `DspPipeline::linearizeDecimatorBlock`, `linearizeDecimatorBlockC`;
    `none` where the source returns `false`. -/
def linearize (s : IqStaging α) (required : Nat) : Option (IqStaging α) :=
  if s.ring.capacity = 0 ∨ s.linearizedSize < required ∨ s.ring.size < required then none
  else
    let copied := s.ring.copyOut required s.ring.readPos required s.linearizedBlock 0
    some { s with
      ring := { s.ring with readPos := copied.2, size := s.ring.size - required }
      linearizedBlock := copied.1 }

/-- Stage `incoming` and hand over a block if there is one. -/
def feed (s : IqStaging α) (size : Nat) (incoming : List α) : IqStaging α × Option (List α) :=
  let staged := s.append incoming
  if staged.ring.size < size then (staged, none)
  else
    -- one block, even if the ring holds more
    match staged.linearize size with
    | none => (staged, none)
    | some drained => (drained, some (cells drained.linearizedBlock size))

end IqStaging

/-! ### The pipeline -/

/-- The part of the pipeline that staging uses. -/
structure DspPipeline (κ : Type*) where
  blockSamples : Nat
  iqDecimation : Nat
  bytes : IqStaging UInt8
  complexes : IqStaging κ

/-- An IQ sample as the device delivers it: an I and a Q byte. -/
abbrev IqBytes := UInt8 × UInt8

namespace DspPipeline

def kIqStagingBlocks : Nat := 4

def sdrBlockSamples (p : DspPipeline κ) : Nat := p.blockSamples * p.iqDecimation

/-- The bytes behind the pointer that `process` is given. -/
def interleave (iq : List IqBytes) : List UInt8 := iq.flatMap fun s => [s.1, s.2]

/-- `DspPipeline::DspPipeline`. -/
def construct [Zero κ] (blockSamples iqDecimation : Nat) : DspPipeline κ :=
  let blockSamples := max 1 blockSamples
  let iqDecimation := max 1 iqDecimation
  let sdrBlockSamples := blockSamples * iqDecimation
  { blockSamples := blockSamples
    iqDecimation := iqDecimation
    bytes :=
      if 1 < iqDecimation then
        IqStaging.empty.assign (sdrBlockSamples * 2 * kIqStagingBlocks) (sdrBlockSamples * 2)
      else IqStaging.empty
    complexes := IqStaging.empty }

/-- `DspPipeline::reset`: `clearIqStaging` and `clearIqStagingC`. -/
def reset (p : DspPipeline κ) : DspPipeline κ :=
  { p with bytes := p.bytes.clear, complexes := p.complexes.clear }

/-- `DspPipeline::process` on bytes, up to the block that the decimator is
    given. Without decimation there is none. -/
def processBytes (p : DspPipeline κ) (iq : List IqBytes) : DspPipeline κ × Option (List UInt8) :=
  if iq.length = 0 ∨ ¬ 1 < p.iqDecimation then (p, none)
  else
    let fed := p.bytes.feed (p.sdrBlockSamples * 2) (interleave iq)
    ({ p with bytes := fed.1 }, fed.2)

/-- The complex path allocates its vectors when it is first used. -/
def allocateC [Zero κ] (p : DspPipeline κ) : DspPipeline κ :=
  if p.complexes.ring.capacity = 0 then
    { p with
      complexes :=
        p.complexes.assign (p.sdrBlockSamples * kIqStagingBlocks) p.sdrBlockSamples }
  else p

/-- `DspPipeline::process` on complex samples, up to the block that the
    decimator is given. -/
def processComplexes [Zero κ] (p : DspPipeline κ) (iq : List κ) :
    DspPipeline κ × Option (List κ) :=
  if iq.length = 0 ∨ ¬ 1 < p.iqDecimation then (p, none)
  else
    let p := p.allocateC
    let fed := p.complexes.feed p.sdrBlockSamples iq
    ({ p with complexes := fed.1 }, fed.2)

end DspPipeline

/-- What happens to the pipeline. -/
inductive PipelineCall (κ : Type*) where
  | bytes (iq : List IqBytes)
  | complexes (iq : List κ)
  | reset

def pipeline [Zero κ] : Machine (DspPipeline κ) (PipelineCall κ) where
  step p
    | .bytes iq => (p.processBytes iq).1
    | .complexes iq => (p.processComplexes iq).1
    | .reset => p.reset

/-- The pipeline as it was just constructed, or as it was just reset after
    any calls. -/
def FreshPipeline [Zero κ] (blockSamples iqDecimation : Nat) (p : DspPipeline κ) : Prop :=
  p = .construct blockSamples iqDecimation ∨
    ∃ calls, p = (pipeline.run (.construct blockSamples iqDecimation) calls).reset

/-- One call after the other, with what each hands over. -/
def callAll {σ β γ : Type*} (call : σ → β → σ × Option γ) : σ → List β → σ × List (Option γ)
  | s, [] => (s, [])
  | s, b :: bs =>
      let rest := callAll call (call s b).1 bs
      (rest.1, (call s b).2 :: rest.2)

namespace IqStaging

/-! ### What a staging ring does -/

variable {s : IqStaging α} {size : Nat} {stream incoming : List α}

/-- The vectors have room for four blocks and for one. -/
structure Sized (s : IqStaging α) (size : Nat) : Prop where
  capacity_eq : s.ring.capacity = size * DspPipeline.kIqStagingBlocks
  linearizedSize_eq : s.linearizedSize = size

/-- The ring holds what is behind the last complete block of a stream. -/
structure Staged (s : IqStaging α) (size : Nat) (stream : List α) : Prop where
  sized : s.Sized size
  layout : s.ring.Layout
  contents_eq : s.ring.contents = leftover size stream

theorem Staged.size_eq (h : s.Staged size stream) : s.ring.size = stream.length % size := by
  rw [← CountedRing.length_contents, h.contents_eq, length_leftover]

theorem Staged.size_lt (h : s.Staged size stream) (hpos : 0 < size) : s.ring.size < size := by
  rw [h.size_eq]
  exact Nat.mod_lt _ hpos

theorem dropStaged_capacity (r : CountedRing α) (n : Nat) :
    (dropStaged r n).capacity = r.capacity := by
  unfold dropStaged
  split
  · rfl
  · split <;> rfl

theorem copyIn_capacity (pieces : Nat) (r : CountedRing α) (xs : List α) :
    (r.copyIn pieces xs).capacity = r.capacity := by
  induction pieces generalizing r xs with
  | zero => rfl
  | succ pieces ih =>
    unfold CountedRing.copyIn
    split
    · rfl
    · exact ih _ _

theorem Sized.append (h : s.Sized size) (incoming : List α) : (s.append incoming).Sized size := by
  unfold IqStaging.append
  split
  · exact h
  · refine ⟨?_, h.linearizedSize_eq⟩
    show (CountedRing.copyIn _ _ _).capacity = _
    rw [copyIn_capacity, dropStaged_capacity]
    exact h.capacity_eq

theorem Sized.linearize (h : s.Sized size) {n : Nat} {drained : IqStaging α}
    (hdrained : s.linearize n = some drained) : drained.Sized size := by
  unfold IqStaging.linearize at hdrained
  split at hdrained
  · cases hdrained
  · cases hdrained
    exact ⟨h.capacity_eq, h.linearizedSize_eq⟩

theorem Sized.feed (h : s.Sized size) (n : Nat) (incoming : List α) :
    (s.feed n incoming).1.Sized size := by
  have happend := h.append incoming
  unfold IqStaging.feed
  simp only
  split
  · exact happend
  · cases hlinearize : (s.append incoming).linearize n with
    | none => exact happend
    | some drained => exact happend.linearize hlinearize

/-- What fits behind the staged part is appended to it. -/
theorem append_spec (hlayout : s.ring.Layout) (incoming : List α)
    (hfits : s.ring.size + incoming.length < s.ring.capacity) :
    (s.append incoming).ring.Layout ∧
      (s.append incoming).ring.contents = s.ring.contents ++ incoming := by
  unfold IqStaging.append
  split
  · next hnone =>
    have hempty : incoming = [] := List.length_eq_zero_iff.mp (by omega)
    rw [hempty, List.append_nil]
    exact ⟨hlayout, rfl⟩
  · have hdrop : dropStaged s.ring incoming.length = s.ring := by
      unfold dropStaged
      rw [if_neg (by omega), if_neg (by omega)]
    have hwrite : s.ring.writePos < s.ring.capacity := by
      rw [hlayout.writePos_eq]
      exact Nat.mod_lt _ (by omega)
    simp only
    rw [if_neg (by omega), List.drop_zero, hdrop,
      CountedRing.copyIn_eq hwrite (Nat.le_refl incoming.length)]
    exact hlayout.writeAll (by omega)

/-- A block that is there is copied out. -/
theorem linearize_spec (hlayout : s.ring.Layout) (hsize : size ≤ s.ring.size)
    (hlinearized : s.linearizedSize = size) :
    ∃ drained, s.linearize size = some drained ∧ drained.ring.Layout ∧
      drained.ring.contents = s.ring.contents.drop size ∧
      cells drained.linearizedBlock size = s.ring.contents.take size := by
  have hread := hlayout.readPos_lt
  obtain ⟨hpop, -, hrest⟩ := hlayout.pop size
  have hring : (s.ring.pop size).2 =
      { s.ring with
        readPos := (s.ring.readPos + size) % s.ring.capacity
        size := s.ring.size - size } := by
    unfold CountedRing.pop
    simp only [Nat.min_eq_left hsize, CountedRing.readMany_eq hread]
  unfold IqStaging.linearize
  rw [if_neg (by omega), CountedRing.copyOut_eq s.ring _ 0 hread (Nat.le_refl size)]
  rw [hring] at hpop hrest
  refine ⟨_, rfl, hpop, hrest, ?_⟩
  have hcells := cells_writeCells s.linearizedBlock 0
    (ringCells s.ring.capacity s.ring.slots s.ring.readPos size)
  have htake : s.ring.contents.take size =
      ringCells s.ring.capacity s.ring.slots s.ring.readPos size := by
    rw [CountedRing.contents, take_ringCells, Nat.min_eq_left hsize]
  rw [ringCells, length_cells, Nat.zero_add] at hcells
  rw [htake]
  exact hcells

/-- Feeding a segment of at most one block is offering it. -/
theorem Staged.feed (h : s.Staged size stream) (hpos : 0 < size) (hle : incoming.length ≤ size) :
    (s.feed size incoming).1.Staged size (stream ++ incoming) ∧
      (s.feed size incoming).2 = handover size stream incoming := by
  have hoffer := offer_leftover hpos stream hle
  have hcapacity := h.sized.capacity_eq
  rw [DspPipeline.kIqStagingBlocks] at hcapacity
  have hheld := h.size_lt hpos
  -- less than a block and a segment fit a ring of four blocks
  obtain ⟨hlayout, hcontents⟩ := append_spec h.layout incoming (by omega)
  have hsized := h.sized.append incoming
  have hstaged : (s.append incoming).ring.size = (s.ring.contents ++ incoming).length := by
    rw [← hcontents, CountedRing.length_contents]
  rw [h.contents_eq] at hcontents hstaged
  unfold IqStaging.feed
  unfold offer at hoffer
  simp only
  rw [hstaged]
  split
  · next hshort =>
    rw [if_pos hshort] at hoffer
    obtain ⟨hrest, hnone⟩ := Prod.mk.inj hoffer
    exact ⟨⟨hsized, hlayout, hcontents.trans hrest⟩, hnone⟩
  · next hfull =>
    rw [if_neg hfull] at hoffer
    obtain ⟨hrest, hblock⟩ := Prod.mk.inj hoffer
    obtain ⟨drained, hdrained, hdrainedLayout, hdrainedContents, hcells⟩ :=
      linearize_spec hlayout (by omega) hsized.linearizedSize_eq
    rw [hdrained]
    refine ⟨⟨hsized.linearize hdrained, hdrainedLayout, ?_⟩, ?_⟩
    · rw [hdrainedContents, hcontents]
      exact hrest
    · show some (cells drained.linearizedBlock size) = _
      rw [hcells, hcontents]
      exact hblock

/-- A ring that was just cleared has nothing of a stream yet. -/
theorem Sized.clear (h : s.Sized size) (hpos : 0 < size) : s.clear.Staged size [] := by
  refine ⟨⟨h.capacity_eq, h.linearizedSize_eq⟩, CountedRing.Layout.clear ?_, ?_⟩
  · rw [h.capacity_eq, DspPipeline.kIqStagingBlocks]
    omega
  · rw [leftover_nil]
    rfl

end IqStaging

/-! ### Runs of calls -/

section runs
variable {σ β γ : Type*} {call : σ → β → σ × Option (List γ)} {size : Nat}

/-- Calls that each treat a segment as an offered one hand over the blocks
    of the stream. -/
theorem callAll_spec (I : σ → List γ → Prop) (units : β → List γ)
    (hcall : ∀ s stream b, I s stream → (units b).length ≤ size →
      I (call s b).1 (stream ++ units b) ∧ (call s b).2 = handover size stream (units b))
    {s : σ} {stream : List γ} (h : I s stream) {bs : List β}
    (hle : ∀ b ∈ bs, (units b).length ≤ size) :
    I (callAll call s bs).1 (stream ++ bs.flatMap units) ∧
      (callAll call s bs).2 = handovers size stream (bs.map units) := by
  induction bs generalizing s stream with
  | nil =>
    rw [List.flatMap_nil, List.append_nil]
    exact ⟨h, rfl⟩
  | cons b bs ih =>
    obtain ⟨hnext, hhanded⟩ := hcall s stream b h (hle b List.mem_cons_self)
    obtain ⟨hrun, hrest⟩ := ih hnext fun b' hb' => hle b' (List.mem_cons_of_mem _ hb')
    rw [List.flatMap_cons, ← List.append_assoc, List.map_cons, handovers, ← hhanded, ← hrest]
    exact ⟨hrun, rfl⟩

end runs

namespace DspPipeline

variable {p : DspPipeline κ} {size : Nat}

/-! ### The two paths -/

theorem pair_length (s : IqBytes) : [s.1, s.2].length = 2 := rfl

theorem length_interleave (iq : List IqBytes) : (interleave iq).length = iq.length * 2 :=
  length_flatMap_units pair_length iq

section complexes
variable [Zero κ]

@[simp] theorem allocateC_sdrBlockSamples (p : DspPipeline κ) :
    p.allocateC.sdrBlockSamples = p.sdrBlockSamples := by
  unfold allocateC
  split <;> rfl

@[simp] theorem allocateC_bytes (p : DspPipeline κ) : p.allocateC.bytes = p.bytes := by
  unfold allocateC
  split <;> rfl

theorem allocateC_of_sized (h : p.complexes.Sized p.sdrBlockSamples)
    (hpos : 0 < p.sdrBlockSamples) : p.allocateC = p := by
  have hcapacity := h.capacity_eq
  rw [kIqStagingBlocks] at hcapacity
  unfold allocateC
  rw [if_neg (by omega)]

/-- Allocating moves no position. -/
theorem allocateC_size (p : DspPipeline κ) :
    p.allocateC.complexes.ring.size = p.complexes.ring.size := by
  unfold allocateC
  split <;> rfl

theorem reset_allocateC (p : DspPipeline κ) :
    p.reset.allocateC.complexes = p.allocateC.complexes.clear := by
  unfold allocateC
  show (if p.complexes.ring.capacity = 0 then _ else p.reset).complexes = _
  split <;> rfl

theorem allocateC_with_bytes (p : DspPipeline κ) (bytes : IqStaging UInt8) :
    ({ p with bytes := bytes } : DspPipeline κ).allocateC.complexes = p.allocateC.complexes := by
  unfold allocateC
  show (if p.complexes.ring.capacity = 0 then _ else _ : DspPipeline κ).complexes = _
  split <;> rfl

/-- What every call keeps: the parameters and the sizes of the vectors,
    where those of the complex path may still have to be allocated. -/
structure Shape (size : Nat) (p : DspPipeline κ) : Prop where
  decimates : 1 < p.iqDecimation
  size_eq : p.sdrBlockSamples = size
  size_pos : 0 < size
  bytes_sized : p.bytes.Sized (size * 2)
  complexes_sized : p.allocateC.complexes.Sized size
  unallocated : p.complexes.ring.capacity = 0 → p.complexes.ring.size = 0

theorem Shape.construct {blockSamples iqDecimation : Nat} (hdec : 1 < iqDecimation) :
    (construct blockSamples iqDecimation : DspPipeline κ).Shape
      (max 1 blockSamples * iqDecimation) := by
  have hmax : max 1 iqDecimation = iqDecimation := by omega
  refine ⟨?_, ?_, ?_, ?_, ?_, fun _ => rfl⟩
  · show 1 < max 1 iqDecimation
    omega
  · show max 1 blockSamples * max 1 iqDecimation = _
    rw [hmax]
  · exact Nat.mul_pos (by omega) (by omega)
  · unfold DspPipeline.construct
    simp only [hmax, if_pos hdec]
    exact ⟨rfl, rfl⟩
  · unfold DspPipeline.construct
    simp only [hmax]
    exact ⟨rfl, rfl⟩

theorem Shape.processBytes (h : p.Shape size) (iq : List IqBytes) :
    (p.processBytes iq).1.Shape size := by
  unfold DspPipeline.processBytes
  split
  · exact h
  · refine ⟨h.decimates, h.size_eq, h.size_pos, h.bytes_sized.feed _ _, ?_, h.unallocated⟩
    rw [allocateC_with_bytes]
    exact h.complexes_sized

/-- The pipeline behind a call on complex samples has the vectors. -/
theorem Shape.with_complexes (h : p.Shape size) {complexes : IqStaging κ}
    (hcomplexes : complexes.Sized size) :
    ({ p.allocateC with complexes := complexes } : DspPipeline κ).Shape size ∧
      ({ p.allocateC with complexes := complexes } : DspPipeline κ).allocateC.complexes =
        complexes := by
  have hsize : ({ p.allocateC with complexes := complexes } : DspPipeline κ).sdrBlockSamples =
      size := by
    rw [← h.size_eq, ← allocateC_sdrBlockSamples p]
    rfl
  have hallocated := allocateC_of_sized
    (p := { p.allocateC with complexes := complexes }) (by rw [hsize]; exact hcomplexes)
    (by rw [hsize]; exact h.size_pos)
  refine ⟨⟨?_, hsize, h.size_pos, ?_, ?_, ?_⟩, ?_⟩
  · show 1 < p.allocateC.iqDecimation
    have hdec := h.decimates
    unfold allocateC
    split <;> exact hdec
  · rw [allocateC_bytes]
    exact h.bytes_sized
  · rw [hallocated]
    exact hcomplexes
  · intro hnone
    have hpos := h.size_pos
    have hcapacity : complexes.ring.capacity = size * 4 := hcomplexes.capacity_eq
    have hnone' : complexes.ring.capacity = 0 := hnone
    omega
  · rw [hallocated]

theorem Shape.processComplexes (h : p.Shape size) (iq : List κ) :
    (p.processComplexes iq).1.Shape size := by
  unfold DspPipeline.processComplexes
  split
  · exact h
  · exact (h.with_complexes (h.complexes_sized.feed _ _)).1

theorem Shape.reset (h : p.Shape size) : p.reset.Shape size := by
  refine ⟨h.decimates, h.size_eq, h.size_pos, ⟨?_, ?_⟩, ?_, fun _ => rfl⟩
  · exact h.bytes_sized.capacity_eq
  · exact h.bytes_sized.linearizedSize_eq
  · rw [reset_allocateC]
    exact ⟨h.complexes_sized.capacity_eq, h.complexes_sized.linearizedSize_eq⟩

theorem Shape.run (h : p.Shape size) (calls : List (PipelineCall κ)) :
    (pipeline.run p calls).Shape size := by
  have hstep : ∀ (p : DspPipeline κ) call, p.Shape size → (pipeline.step p call).Shape size := by
    intro p call hp
    cases call with
    | bytes iq => exact hp.processBytes iq
    | complexes iq => exact hp.processComplexes iq
    | reset => exact hp.reset
  exact Machine.run_invariant_always hstep calls h

/-- Nothing is staged in a pipeline that was just constructed or reset. -/
theorem fresh_spec {blockSamples iqDecimation : Nat} (hdec : 1 < iqDecimation)
    (h : FreshPipeline blockSamples iqDecimation p) :
    p.Shape (max 1 blockSamples * iqDecimation) ∧
      p.bytes.Staged (max 1 blockSamples * iqDecimation * 2) [] ∧
      p.allocateC.complexes.Staged (max 1 blockSamples * iqDecimation) [] := by
  have hconstruct : (construct blockSamples iqDecimation : DspPipeline κ).Shape _ :=
    Shape.construct hdec
  -- a constructed pipeline is one that was reset before any call
  obtain ⟨calls, rfl⟩ : ∃ calls, p =
      (pipeline.run (construct blockSamples iqDecimation) calls).reset := by
    rcases h with rfl | hreset
    · refine ⟨[], ?_⟩
      unfold DspPipeline.construct
      simp only [Machine.run_nil]
      split <;> rfl
    · exact hreset
  have hrun := hconstruct.run calls
  have hpos := hrun.size_pos
  refine ⟨hrun.reset, hrun.bytes_sized.clear (by omega), ?_⟩
  rw [reset_allocateC]
  exact hrun.complexes_sized.clear hpos

/-! ### The blocks that are handed over -/

theorem processBytes_spec (h : p.Shape size) {stream : List UInt8}
    (hstaged : p.bytes.Staged (size * 2) stream) {iq : List IqBytes}
    (hle : (interleave iq).length ≤ size * 2) :
    ((p.processBytes iq).1.Shape size ∧
        (p.processBytes iq).1.bytes.Staged (size * 2) (stream ++ interleave iq)) ∧
      (p.processBytes iq).2 = handover (size * 2) stream (interleave iq) := by
  have hpos := h.size_pos
  have hshape := h.processBytes iq
  have hfeed := hstaged.feed (by omega) hle
  revert hshape
  unfold DspPipeline.processBytes
  rw [h.size_eq]
  split
  · next hnone =>
    have hdec := h.decimates
    obtain rfl : iq = [] := List.length_eq_zero_iff.mp (by omega)
    intro _
    have hempty : interleave [] = [] := rfl
    rw [hempty, List.append_nil]
    exact ⟨⟨h, hstaged⟩, (handover_nil _ _).symm⟩
  · intro hshape
    exact ⟨⟨hshape, hfeed.1⟩, hfeed.2⟩

theorem processComplexes_spec (h : p.Shape size) {stream : List κ}
    (hstaged : p.allocateC.complexes.Staged size stream) {iq : List κ}
    (hle : iq.length ≤ size) :
    ((p.processComplexes iq).1.Shape size ∧
        (p.processComplexes iq).1.allocateC.complexes.Staged size (stream ++ iq)) ∧
      (p.processComplexes iq).2 = handover size stream iq := by
  have hfeed := hstaged.feed h.size_pos hle
  unfold DspPipeline.processComplexes
  split
  · next hnone =>
    have hdec := h.decimates
    obtain rfl : iq = [] := List.length_eq_zero_iff.mp (by omega)
    rw [List.append_nil]
    exact ⟨⟨h, hstaged⟩, (handover_nil _ _).symm⟩
  · simp only [allocateC_sdrBlockSamples, h.size_eq]
    obtain ⟨hshape, hallocated⟩ := h.with_complexes hfeed.1.sized
    rw [hallocated]
    exact ⟨⟨hshape, hfeed.1⟩, hfeed.2⟩

/-- Before the complex path is first used, its ring is empty. -/
theorem Shape.allocateC_contents (h : p.Shape size) :
    p.allocateC.complexes.ring.contents = p.complexes.ring.contents := by
  unfold allocateC
  split
  · next hnone =>
    unfold CountedRing.contents
    show ringCells _ _ _ p.complexes.ring.size = _
    rw [h.unallocated hnone]
    rfl
  · rfl

theorem interleave_flatten (segments : List (List IqBytes)) :
    interleave segments.flatten = (segments.map interleave).flatten := by
  induction segments with
  | nil => rfl
  | cons iq segments ih =>
    rw [List.flatten_cons, List.map_cons, List.flatten_cons, ← ih]
    exact List.flatMap_append

theorem blocks_interleave (iq : List IqBytes) :
    blocks (size * 2) (interleave iq) = (blocks size iq).map interleave :=
  blocks_flatMap pair_length (Nat.succ_pos 1) iq

theorem handovers_interleave (segments : List (List IqBytes)) :
    handovers (size * 2) [] (segments.map interleave) =
      (handovers size [] segments).map (Option.map interleave) :=
  handovers_flatMap pair_length (Nat.succ_pos 1) [] segments

/-- The byte path over all calls. -/
theorem callAll_processBytes (h : p.Shape size) (hstaged : p.bytes.Staged (size * 2) [])
    {segments : List (List IqBytes)} (hle : ∀ iq ∈ segments, iq.length ≤ size) :
    (callAll processBytes p segments).1.bytes.Staged (size * 2) (interleave segments.flatten) ∧
      (callAll processBytes p segments).2 =
        (handovers size [] segments).map (Option.map interleave) := by
  have hunits : ∀ iq ∈ segments, (interleave iq).length ≤ size * 2 := by
    intro iq hiq
    have := hle iq hiq
    rw [length_interleave]
    omega
  obtain ⟨hrun, hhanded⟩ := callAll_spec
    (fun p stream => Shape size p ∧ p.bytes.Staged (size * 2) stream) interleave
    (fun _ _ _ hI hlen => processBytes_spec hI.1 hI.2 hlen) ⟨h, hstaged⟩ hunits
  rw [interleave_flatten, ← handovers_interleave]
  exact ⟨hrun.2, hhanded⟩

/-- The complex path over all calls. -/
theorem callAll_processComplexes (h : p.Shape size)
    (hstaged : p.allocateC.complexes.Staged size []) {segments : List (List κ)}
    (hle : ∀ iq ∈ segments, iq.length ≤ size) :
    (callAll processComplexes p segments).1.Shape size ∧
      (callAll processComplexes p segments).1.allocateC.complexes.Staged size
        segments.flatten ∧
      (callAll processComplexes p segments).2 = handovers size [] segments := by
  obtain ⟨hrun, hhanded⟩ := callAll_spec
    (fun p stream => Shape size p ∧ p.allocateC.complexes.Staged size stream) id
    (fun _ _ _ hI hlen => processComplexes_spec hI.1 hI.2 hlen) ⟨h, hstaged⟩ hle
  rw [List.map_id] at hhanded
  rw [List.nil_append, List.flatMap_id] at hrun
  exact ⟨hrun.1, hrun.2, hhanded⟩

end complexes

end DspPipeline

section streams
variable [Zero κ] {blockSamples iqDecimation : Nat} {p : DspPipeline κ}

/-- With decimation, calls with at most a block each hand over the blocks
    of the stream, one path as the other: nothing is lost or repeated, less
    than a block is staged after each call, and which call hands over a
    block depends on the lengths of the segments only. -/
theorem staged_blocks (hdec : 1 < iqDecimation)
    (hp : FreshPipeline blockSamples iqDecimation p)
    {bytes : List (List IqBytes)} {complexes : List (List κ)}
    (hbytes : ∀ iq ∈ bytes, iq.length ≤ p.sdrBlockSamples)
    (hcomplexes : ∀ iq ∈ complexes, iq.length ≤ p.sdrBlockSamples) :
    let size := p.sdrBlockSamples
    let ofBytes := callAll DspPipeline.processBytes p bytes
    let ofComplexes := callAll DspPipeline.processComplexes p complexes
    ofBytes.2.reduceOption = (blocks size bytes.flatten).map DspPipeline.interleave ∧
      ofBytes.2.reduceOption.flatten ++ ofBytes.1.bytes.ring.contents =
        DspPipeline.interleave bytes.flatten ∧
      (∀ n, (callAll DspPipeline.processBytes p (bytes.take n)).1.bytes.ring.size < size * 2) ∧
      ofComplexes.2.reduceOption = blocks size complexes.flatten ∧
      ofComplexes.2.reduceOption.flatten ++ ofComplexes.1.complexes.ring.contents =
        complexes.flatten ∧
      (∀ n, (callAll DspPipeline.processComplexes p (complexes.take n)).1.complexes.ring.size <
        size) ∧
      (bytes.map List.length = complexes.map List.length →
        ofBytes.2.map Option.isSome = ofComplexes.2.map Option.isSome) := by
  intro size ofBytes ofComplexes
  obtain ⟨hshape, hstagedBytes, hstagedComplexes⟩ := DspPipeline.fresh_spec hdec hp
  have hsize : max 1 blockSamples * iqDecimation = size := hshape.size_eq.symm
  rw [hsize] at hshape hstagedBytes hstagedComplexes
  have hpos : 0 < size := hshape.size_pos
  obtain ⟨hbytesRun, hbytesHanded⟩ :=
    DspPipeline.callAll_processBytes hshape hstagedBytes hbytes
  obtain ⟨hcomplexesShape, hcomplexesRun, hcomplexesHanded⟩ :=
    DspPipeline.callAll_processComplexes hshape hstagedComplexes hcomplexes
  -- the blocks handed over are those of the whole stream, however it was cut
  have hblocksBytes : ofBytes.2.reduceOption =
      (blocks size bytes.flatten).map DspPipeline.interleave := by
    rw [← reduceOption_handovers_nil hpos hbytes, ← List.reduceOption_map, ← hbytesHanded]
  have hblocksComplexes : ofComplexes.2.reduceOption = blocks size complexes.flatten := by
    rw [← reduceOption_handovers_nil hpos hcomplexes, ← hcomplexesHanded]
  refine ⟨hblocksBytes, ?_, ?_, hblocksComplexes, ?_, ?_, ?_⟩
  · rw [hblocksBytes, hbytesRun.contents_eq, ← DspPipeline.blocks_interleave, flatten_blocks]
  · intro n
    have htake : ∀ iq ∈ bytes.take n, iq.length ≤ size :=
      fun iq hiq => hbytes iq (List.mem_of_mem_take hiq)
    exact (DspPipeline.callAll_processBytes hshape hstagedBytes htake).1.size_lt (by omega)
  · rw [hblocksComplexes, ← hcomplexesShape.allocateC_contents, hcomplexesRun.contents_eq,
      flatten_blocks]
  · intro n
    have htake : ∀ iq ∈ complexes.take n, iq.length ≤ size :=
      fun iq hiq => hcomplexes iq (List.mem_of_mem_take hiq)
    have hrun := (DspPipeline.callAll_processComplexes hshape hstagedComplexes htake).2.1
    rw [← DspPipeline.allocateC_size]
    exact hrun.size_lt hpos
  · -- which call completes a block depends on the lengths alone
    intro hlengths
    have hempty : ([] : List IqBytes).length = ([] : List κ).length := rfl
    have hsame : (handovers size [] bytes).map Option.isSome =
        (handovers size [] complexes).map Option.isSome :=
      isSome_handovers hempty hlengths
    show (callAll _ p bytes).2.map _ = (callAll _ p complexes).2.map _
    rw [hbytesHanded, hcomplexesHanded, ← hsame, List.map_map]
    refine List.map_congr_left ?_
    intro handed _
    exact Option.isSome_map

/-- Blocks of two samples, of a stream cut into one, two and one. -/
theorem staged_blocks_pairs :
    let p : DspPipeline Int := .construct 1 2
    (callAll DspPipeline.processBytes p [[(1, 2)], [(3, 4), (5, 6)], [(7, 8)]]).2.reduceOption =
        [[1, 2, 3, 4], [5, 6, 7, 8]] ∧
      (callAll DspPipeline.processComplexes p [[10], [20, 30], [40]]).2.reduceOption =
        [[10, 20], [30, 40]] := by
  intro p
  have hbytes : ∀ iq ∈ [[(1, 2)], [(3, 4), (5, 6)], [((7, 8) : IqBytes)]],
      iq.length ≤ p.sdrBlockSamples := by decide
  have hcomplexes : ∀ iq ∈ [[10], [20, 30], [(40 : Int)]], iq.length ≤ p.sdrBlockSamples := by
    decide
  have hall := staged_blocks (by decide) (Or.inl rfl) hbytes hcomplexes
  exact ⟨hall.1, hall.2.2.2.1⟩

end streams

/-! ### Rings that hold the same -/

namespace IqStaging

variable {s t : IqStaging α} {size : Nat}

/-- Two staging rings that hold the same, wherever it lies. -/
structure HoldAlike (s t : IqStaging α) (size : Nat) : Prop where
  sized : s.Sized size
  sized' : t.Sized size
  layout : s.ring.Layout
  layout' : t.ring.Layout
  contents_eq : s.ring.contents = t.ring.contents

/-- Of what is held and what comes in, the ring keeps the newest. -/
theorem append_contents (h : s.ring.Layout) (incoming : List α) :
    (s.append incoming).ring.Layout ∧
      (s.append incoming).ring.contents = (s.ring.contents ++ incoming).rtake s.ring.capacity := by
  have hsize := h.size_le
  have hread := h.readPos_lt
  have hcontents := s.ring.length_contents
  by_cases hnone : incoming.length = 0
  · obtain rfl := List.length_eq_zero_iff.mp hnone
    have hsame : s.append [] = s := if_pos (Or.inl rfl)
    rw [hsame, List.append_nil, rtake_eq_self (by omega)]
    exact ⟨h, rfl⟩
  · have hwrite : s.ring.writePos < s.ring.capacity := by
      rw [h.writePos_eq]
      exact Nat.mod_lt _ (by omega)
    unfold append
    rw [if_neg (by omega)]
    simp only
    rw [CountedRing.drop_start_eq_rtake]
    by_cases hlong : s.ring.capacity ≤ incoming.length
    · -- nothing that was held is left
      have hclear : dropStaged s.ring incoming.length = s.ring.clear := if_pos hlong
      have hkept : (incoming.rtake s.ring.capacity).length = s.ring.capacity := by
        rw [List.rtake, List.length_drop]
        omega
      rw [hclear, CountedRing.copyIn_eq (show 0 < s.ring.capacity by omega) (Nat.le_refl _),
        rtake_append, List.drop_of_length_le (by omega)]
      exact (CountedRing.Layout.clear (by omega)).writeAll
        (by show 0 + _ ≤ s.ring.capacity; omega)
    · have hdrop : dropStaged s.ring incoming.length = s.ring.makeRoom incoming.length := by
        unfold dropStaged CountedRing.makeRoom
        rw [if_neg hlong]
        split
        · next hfull => rw [Nat.min_eq_left (by omega)]
        · rfl
      have hroom : (s.ring.makeRoom incoming.length).writePos = s.ring.writePos := by
        unfold CountedRing.makeRoom
        split <;> rfl
      have hkept : incoming.rtake s.ring.capacity = incoming := rtake_eq_self (by omega)
      have hfits : incoming.length ≤ s.ring.capacity := by omega
      have happend := h.append hfits
      rw [hkept, hdrop, CountedRing.copyIn_eq
        (by rw [hroom, CountedRing.makeRoom_capacity]; exact hwrite) (Nat.le_refl _), rtake_append,
        hkept, hcontents]
      exact happend

/-- They stay alike, and hand over the same. -/
theorem HoldAlike.feed (h : s.HoldAlike t size) (incoming : List α) :
    (s.feed size incoming).1.HoldAlike (t.feed size incoming).1 size ∧
      (s.feed size incoming).2 = (t.feed size incoming).2 := by
  obtain ⟨hlayout, hcontents⟩ := append_contents h.layout incoming
  obtain ⟨hlayout', hcontents'⟩ := append_contents h.layout' incoming
  have hsized := h.sized.append incoming
  have hsized' := h.sized'.append incoming
  have hsame : (s.append incoming).ring.contents = (t.append incoming).ring.contents := by
    rw [hcontents, hcontents', h.contents_eq, h.sized.capacity_eq, h.sized'.capacity_eq]
  have hcount : (s.append incoming).ring.size = (t.append incoming).ring.size := by
    rw [← CountedRing.length_contents, hsame, CountedRing.length_contents]
  unfold IqStaging.feed
  simp only [hcount]
  split
  · exact ⟨⟨hsized, hsized', hlayout, hlayout', hsame⟩, rfl⟩
  · next hfull =>
    obtain ⟨drained, hdrained, hleft, hrest, hcells⟩ :=
      linearize_spec hlayout (show size ≤ _ by omega) hsized.linearizedSize_eq
    obtain ⟨drained', hdrained', hleft', hrest', hcells'⟩ :=
      linearize_spec hlayout' (show size ≤ _ by omega) hsized'.linearizedSize_eq
    rw [hdrained, hdrained']
    refine ⟨⟨hsized.linearize hdrained, hsized'.linearize hdrained', hleft, hleft', ?_⟩, ?_⟩
    · rw [hrest, hrest', hsame]
    · show some (cells drained.linearizedBlock size) = some (cells drained'.linearizedBlock size)
      rw [hcells, hcells', hsame]

/-- Rings that were just cleared hold nothing. -/
theorem Sized.clear_alike (h : s.Sized size) (h' : t.Sized size) (hpos : 0 < size) :
    s.clear.HoldAlike t.clear size := by
  have hs := h.clear hpos
  have ht := h'.clear hpos
  exact ⟨hs.sized, ht.sized, hs.layout, ht.layout, hs.contents_eq.trans ht.contents_eq.symm⟩

end IqStaging

namespace DspPipeline

variable [Zero κ] {p q : DspPipeline κ} {size : Nat}

/-- Two pipelines whose rings hold the same. -/
structure StagedAlike (size : Nat) (p q : DspPipeline κ) : Prop where
  shape : p.Shape size
  shape' : q.Shape size
  bytes : p.bytes.HoldAlike q.bytes (size * 2)
  complexes : p.allocateC.complexes.HoldAlike q.allocateC.complexes size

theorem Shape.reset_alike (h : p.Shape size) (h' : q.Shape size) :
    StagedAlike size p.reset q.reset := by
  have hpos := h.size_pos
  refine ⟨h.reset, h'.reset, h.bytes_sized.clear_alike h'.bytes_sized (by omega), ?_⟩
  rw [reset_allocateC, reset_allocateC]
  exact h.complexes_sized.clear_alike h'.complexes_sized hpos

theorem StagedAlike.processBytes (h : StagedAlike size p q) (iq : List IqBytes) :
    StagedAlike size (p.processBytes iq).1 (q.processBytes iq).1 ∧
      (p.processBytes iq).2 = (q.processBytes iq).2 := by
  have hdec := h.shape.decimates
  have hdec' := h.shape'.decimates
  have hshape := h.shape.processBytes iq
  have hshape' := h.shape'.processBytes iq
  unfold DspPipeline.processBytes at hshape hshape' ⊢
  by_cases hnone : iq.length = 0
  · rw [if_pos (Or.inl hnone), if_pos (Or.inl hnone)]
    exact ⟨h, rfl⟩
  · rw [if_neg (by omega)] at hshape hshape'
    rw [if_neg (by omega), if_neg (by omega)]
    simp only [h.shape.size_eq, h.shape'.size_eq] at hshape hshape' ⊢
    obtain ⟨hbytes, hblock⟩ := h.bytes.feed (interleave iq)
    refine ⟨⟨hshape, hshape', hbytes, ?_⟩, hblock⟩
    rw [allocateC_with_bytes p, allocateC_with_bytes q]
    exact h.complexes

theorem StagedAlike.processComplexes (h : StagedAlike size p q) (iq : List κ) :
    StagedAlike size (p.processComplexes iq).1 (q.processComplexes iq).1 ∧
      (p.processComplexes iq).2 = (q.processComplexes iq).2 := by
  have hdec := h.shape.decimates
  have hdec' := h.shape'.decimates
  unfold DspPipeline.processComplexes
  by_cases hnone : iq.length = 0
  · rw [if_pos (Or.inl hnone), if_pos (Or.inl hnone)]
    exact ⟨h, rfl⟩
  · rw [if_neg (by omega), if_neg (by omega)]
    simp only [allocateC_sdrBlockSamples, h.shape.size_eq, h.shape'.size_eq]
    obtain ⟨hcomplexes, hblock⟩ := h.complexes.feed iq
    obtain ⟨hshape, hallocated⟩ := h.shape.with_complexes hcomplexes.sized
    obtain ⟨hshape', hallocated'⟩ := h.shape'.with_complexes hcomplexes.sized'
    refine ⟨⟨hshape, hshape', ?_, ?_⟩, hblock⟩
    · show p.allocateC.bytes.HoldAlike q.allocateC.bytes _
      rw [allocateC_bytes, allocateC_bytes]
      exact h.bytes
    · rw [hallocated, hallocated']
      exact hcomplexes

omit [Zero κ] in
/-- What no call changes. -/
theorem processBytes_sizes (p : DspPipeline κ) (iq : List IqBytes) :
    (p.processBytes iq).1.blockSamples = p.blockSamples ∧
      (p.processBytes iq).1.iqDecimation = p.iqDecimation := by
  unfold DspPipeline.processBytes
  split <;> exact ⟨rfl, rfl⟩

theorem processComplexes_sizes (p : DspPipeline κ) (iq : List κ) :
    (p.processComplexes iq).1.blockSamples = p.blockSamples ∧
      (p.processComplexes iq).1.iqDecimation = p.iqDecimation := by
  have hallocated : p.allocateC.blockSamples = p.blockSamples ∧
      p.allocateC.iqDecimation = p.iqDecimation := by
    unfold allocateC
    split <;> exact ⟨rfl, rfl⟩
  unfold DspPipeline.processComplexes
  split
  · exact ⟨rfl, rfl⟩
  · exact hallocated

end DspPipeline

end FmSdrTuner

import Mathlib.Data.Multiset.Basic
import FmSdrTuner.Framework.Machine
import FmSdrTuner.Framework.SlidingWindow
import FmSdrTuner.XdrServer.LineQueues

/-! # XDRServer: the PI debounce as a sliding window

    The PI ring with its packed error bits is a ring of pairs: a received
    block A and whether it had errors. It holds the last 64 groups since
    the history was last forgotten, and the five states of the classifier
    come down to one condition on this window. -/

namespace FmSdrTuner

/-! ### Packed error bits -/

theorem getLsbD_one_shift {b j : Nat} (hj : j < 8) :
    ((1 <<< b : Nat) : BitVec 8).getLsbD j = decide (b = j) := by
  rw [BitVec.natCast_eq_ofNat, BitVec.getLsbD_ofNat, Nat.one_shiftLeft, Nat.testBit_two_pow]
  simp [hj]

/-- `|= (1 << b)`. -/
theorem getLsbD_or_shift (old : BitVec 8) {b j : Nat} (hj : j < 8) :
    (old ||| ((1 <<< b : Nat) : BitVec 8)).getLsbD j = if b = j then true else old.getLsbD j := by
  rw [BitVec.getLsbD_or, getLsbD_one_shift hj]
  by_cases h : b = j <;> simp [h]

/-- `&= ~(1 << b)`. -/
theorem getLsbD_and_not_shift (old : BitVec 8) {b j : Nat} (hj : j < 8) :
    (old &&& ~~~((1 <<< b : Nat) : BitVec 8)).getLsbD j =
      if b = j then false else old.getLsbD j := by
  rw [BitVec.getLsbD_and, BitVec.getLsbD_not, getLsbD_one_shift hj]
  by_cases h : b = j <;> simp [h, hj]

/-! ### The ring of pairs -/

/-- A received block A, and whether it had errors. -/
abbrev ReceivedPi := BitVec 16 × Bool

/-- The sizes of the arrays. -/
structure PiHistory.Sized (h : PiHistory) : Prop where
  buffer : h.buffer.length = 64
  errorBuffer : h.errorBuffer.length = 8
  pos : h.pos < 64
  fill : h.fill ≤ 64

theorem PiHistory.sized_cleared : PiHistory.cleared.Sized := by
  constructor <;> decide

/-- Entry `i` of the ring with its error bit. -/
def PiHistory.slot (h : PiHistory) (i : Nat) : ReceivedPi := (h.buffer.getD i 0, h.errorBit i)

/-- The history as a ring of pairs. -/
def PiHistory.ring (h : PiHistory) : Ring ReceivedPi where
  slots := (List.range 64).map h.slot
  next := (h.pos + 1) % 64
  fill := h.fill

/-- Entries `0 .. m_piFill - 1`. -/
def PiHistory.entries (h : PiHistory) : List ReceivedPi := (List.range h.fill).map h.slot

theorem PiHistory.entries_eq {h : PiHistory} (hs : h.Sized) : h.entries = h.ring.entries := by
  unfold PiHistory.entries PiHistory.ring Ring.entries
  rw [← List.map_take, List.take_range, Nat.min_eq_left hs.fill]

theorem PiHistory.sized_push {h : PiHistory} (hs : h.Sized) (blockA : BitVec 16) (error : Bool) :
    (h.push blockA error).Sized where
  buffer := List.length_set.trans hs.buffer
  errorBuffer := List.length_set.trans hs.errorBuffer
  pos := Nat.mod_lt _ (by decide)
  fill := by
    have hfill := hs.fill
    simp only [PiHistory.push]
    split <;> omega

theorem getD_set_eq {α : Type*} {l : List α} {p : Nat} (hp : p < l.length) (x d : α) (i : Nat) :
    (l.set p x).getD i d = if p = i then x else l.getD i d := by
  rw [List.getD_eq_getElem?_getD, List.getElem?_set]
  by_cases h : p = i
  · simp [h, h ▸ hp]
  · simp [h]

/-- The bit of the new entry is set or cleared, the others stay. -/
theorem PiHistory.errorBit_push {h : PiHistory} (hs : h.Sized) (blockA : BitVec 16)
    (error : Bool) (i : Nat) :
    (h.push blockA error).errorBit i =
      if (h.pos + 1) % 64 = i then error else h.errorBit i := by
  have hpos : (h.pos + 1) % 64 < 64 := Nat.mod_lt _ (by decide)
  generalize hp : (h.pos + 1) % 64 = p at hpos ⊢
  have hbyte : p / 8 < h.errorBuffer.length := by rw [hs.errorBuffer]; omega
  have hj : i % 8 < 8 := Nat.mod_lt _ (by decide)
  simp only [PiHistory.errorBit, PiHistory.push, hp]
  rw [getD_set_eq hbyte]
  by_cases hsame : p / 8 = i / 8
  · rw [if_pos hsame, ← hsame]
    have hiff : p % 8 = i % 8 ↔ p = i := by omega
    -- the bit is in the byte that is written
    cases error with
    | true => rw [if_pos rfl, getLsbD_or_shift _ hj]; simp only [hiff]
    | false =>
      rw [if_neg (by decide), getLsbD_and_not_shift _ hj]
      simp only [hiff]
  · have hne : p ≠ i := by
      intro heq
      exact hsame (by rw [heq])
    -- the bit is in another byte
    rw [if_neg hsame, if_neg hne]

/-- Receiving a group writes one slot of the ring. -/
theorem PiHistory.ring_push {h : PiHistory} (hs : h.Sized) (blockA : BitVec 16) (error : Bool) :
    (h.push blockA error).ring = h.ring.push (blockA, error) := by
  have hpos : (h.pos + 1) % 64 < 64 := Nat.mod_lt _ (by decide)
  have hslot : ∀ i, (h.push blockA error).slot i =
      if (h.pos + 1) % 64 = i then (blockA, error) else h.slot i := by
    intro i
    have hbuffer : (h.push blockA error).buffer.getD i 0 =
        if (h.pos + 1) % 64 = i then blockA else h.buffer.getD i 0 :=
      getD_set_eq (by rw [hs.buffer]; exact hpos) blockA 0 i
    unfold PiHistory.slot
    rw [hbuffer, h.errorBit_push hs blockA error i]
    split <;> rfl
  have hslots : (h.push blockA error).ring.slots = (h.ring.push (blockA, error)).slots := by
    apply List.ext_getElem
    · simp [PiHistory.ring, Ring.push]
    · intro i hi _
      simp only [PiHistory.ring, Ring.push, List.getElem_map, List.getElem_range,
        List.getElem_set]
      exact hslot i
  have hnext : (h.push blockA error).ring.next = (h.ring.push (blockA, error)).next := by
    simp only [PiHistory.ring, Ring.push, PiHistory.push, List.length_map, List.length_range]
  have hfill : (h.push blockA error).ring.fill = (h.ring.push (blockA, error)).fill := by
    have hle := hs.fill
    simp only [PiHistory.ring, Ring.push, PiHistory.push, List.length_map, List.length_range]
    split <;> omega
  exact Ring.ext hslots hnext hfill

/-! ### The classifier -/

/-- The two counters of the classifier, and how often they are at least one
    and two. -/
theorem evaluatePiState_le_one (h : PiHistory) (value : BitVec 16) :
    evaluatePiState h value ≤ 1 ↔
      2 ≤ h.entries.countP (·.1 == value) ∧ (value, false) ∈ h.entries := by
  have hcount : h.entries.countP (·.1 == value) =
      ((List.range h.fill).filter fun i => h.buffer.getD i 0 == value).length := by
    unfold PiHistory.entries
    rw [List.countP_map, List.countP_eq_length_filter]
    rfl
  have hcorrect : (((List.range h.fill).filter fun i => h.buffer.getD i 0 == value).filter
      fun i => !h.errorBit i).length ≠ 0 ↔ (value, false) ∈ h.entries := by
    rw [← Nat.pos_iff_ne_zero, List.length_pos_iff_exists_mem]
    simp [PiHistory.entries, PiHistory.slot, and_comm]
  have hle := List.length_filter_le (fun i => !h.errorBit i)
    ((List.range h.fill).filter fun i => h.buffer.getD i 0 == value)
  rw [hcount, ← hcorrect]
  unfold evaluatePiState
  simp only
  -- the two counters decide between the five states
  split
  · omega
  · split
    · omega
    · split
      · omega
      · split <;> omega

/-! ### What is queued -/

/-- What a group adds to the history. -/
def RdsGroup.received (g : RdsGroup) : ReceivedPi := (g.blockA, g.blockAErr ≠ 0)

/-- The last 64 groups, the newest at the end. -/
def piWindow (received : List ReceivedPi) : List ReceivedPi := received.rtake 64

/-- A group confirms its PI code: block A is there, and in the window that
    ends with the group its value occurs twice, once at least without
    errors. -/
def PiConfirmed (received : List ReceivedPi) (g : RdsGroup) : Prop :=
  let window := piWindow (received ++ [g.received])
  g.blockAErr ≠ 3 ∧ 2 ≤ window.countP (·.1 == g.blockA) ∧ (g.blockA, false) ∈ window

instance (received : List ReceivedPi) (g : RdsGroup) : Decidable (PiConfirmed received g) :=
  inferInstanceAs (Decidable (_ ∧ _ ∧ _))

/-- The lines that a group is to be announced with. -/
def announcedLines (received : List ReceivedPi) (g : RdsGroup) : List Text :=
  (if PiConfirmed received g then [piLine g] else []) ++
    if g.blockBErr = 0 then [rdsLine g] else []

/-! ### Runs -/

/-- What happens to the PI history and the RDS queue: groups come in, the
    history is forgotten (the critical section of `setFrequencyState`), and
    other threads store to other fields. -/
inductive RdsStep where
  | updateRDS (g : RdsGroup) (nowMs : Nat)
  | resetPi
  | store (w : ServerStore)

/-- The critical section of `setFrequencyState`. -/
def XDRServer.resetPi (s : XDRServer) : XDRServer := { s with pi := PiHistory.cleared }

def rdsMachine : Machine XDRServer RdsStep where
  step s
    | .updateRDS g nowMs => s.updateRDS g nowMs
    | .resetPi => s.resetPi
    | .store w => s.store w

/-- The groups received since construction or the last reset. -/
def observeReceived (received : List ReceivedPi) (_ : XDRServer) : RdsStep → List ReceivedPi
  | .updateRDS g _ => received ++ [g.received]
  | .resetPi => []
  | .store _ => received

/-- The ring holds the last of the groups received. -/
structure PiRingHolds (h : PiHistory) (received : List ReceivedPi) : Prop where
  sized : h.Sized
  holds : h.ring.Holds received

theorem PiRingHolds.cleared : PiRingHolds PiHistory.cleared [] where
  sized := PiHistory.sized_cleared
  holds := Ring.Holds.empty (by simp)

theorem PiRingHolds.push {h : PiHistory} {received : List ReceivedPi}
    (hold : PiRingHolds h received) (g : RdsGroup) :
    PiRingHolds (h.push g.blockA (g.blockAErr ≠ 0)) (received ++ [g.received]) where
  sized := h.sized_push hold.sized _ _
  holds := by
    rw [h.ring_push hold.sized]
    exact hold.holds.push _

/-- The entries are the window, up to the order. -/
theorem PiRingHolds.entries_perm {h : PiHistory} {received : List ReceivedPi}
    (hold : PiRingHolds h received) : h.entries.Perm (piWindow received) := by
  have hslots : h.ring.slots.length = 64 := by simp [PiHistory.ring]
  rw [h.entries_eq hold.sized]
  unfold piWindow
  rw [← hslots]
  exact hold.holds.entries_perm

theorem PiRingHolds.updateRDS {s : XDRServer} {received : List ReceivedPi}
    (hold : PiRingHolds s.pi received) (g : RdsGroup) (nowMs : Nat) :
    PiRingHolds (s.updateRDS g nowMs).pi (received ++ [g.received]) := by
  have hpush := hold.push g
  obtain ⟨value, heq, -⟩ := s.updateRDS_pi g nowMs
  rw [heq]
  -- the debounce memory is no part of the ring
  exact ⟨{ hpush.sized with }, hpush.holds⟩

theorem piRingHolds_step {s : XDRServer} {received : List ReceivedPi}
    (hold : PiRingHolds s.pi received) (a : RdsStep) :
    PiRingHolds (rdsMachine.step s a).pi (observeReceived received s a) := by
  cases a with
  | updateRDS g nowMs => exact hold.updateRDS g nowMs
  | resetPi => exact .cleared
  | store w =>
    have hpi : (s.store w).pi = s.pi := by cases w <;> rfl
    show PiRingHolds (s.store w).pi received
    rwa [hpi]

/-- The classifier's verdict is the condition on the window. -/
theorem PiRingHolds.debounced_iff {s : XDRServer} {received : List ReceivedPi}
    (hold : PiRingHolds s.pi received) (g : RdsGroup) :
    s.PiDebounced g ↔ PiConfirmed received g := by
  have hperm := (hold.push g).entries_perm
  unfold XDRServer.PiDebounced PiConfirmed
  simp only
  rw [evaluatePiState_le_one, hperm.countP_eq, hperm.mem_iff]

/-- The debounce refines its sliding window: after every sequence of groups
    since construction or a reset the filled entries of the ring are the
    last 64 groups, up to the order; and the next group queues exactly a
    `P` line if the window confirms its code, then an `R` line if block B
    came without errors. -/
theorem pi_debounce_refines_window (steps : List RdsStep) :
    let p := (rdsMachine.withHistory observeReceived).run (.initial, []) steps
    p.1.pi.fill = min p.2.length 64 ∧
    (p.1.pi.entries : Multiset ReceivedPi) = (piWindow p.2 : Multiset ReceivedPi) ∧
    ∀ g nowMs, (p.1.updateRDS g nowMs).rdsLines =
      p.1.rdsLines.pushAll kMaxRdsQueue (announcedLines p.2 g) := by
  intro p
  have hold : PiRingHolds p.1.pi p.2 :=
    Machine.run_invariant_always
      (fun (q : XDRServer × List ReceivedPi) a (h : PiRingHolds q.1.pi q.2) =>
        piRingHolds_step h a) steps PiRingHolds.cleared
  refine ⟨?_, ?_, ?_⟩
  · have hfill := hold.holds.fill_eq
    simpa [PiHistory.ring] using hfill
  · exact Multiset.coe_eq_coe.mpr hold.entries_perm
  · intro g nowMs
    have hlines : p.1.groupLines g = announcedLines p.2 g := by
      unfold XDRServer.groupLines announcedLines
      simp only [hold.debounced_iff g]
    rw [p.1.updateRDS_rdsLines, hlines]

end FmSdrTuner

import FmSdrTuner.XdrServer.State

/-! # XDRServer: the RDS path

    `updateRDS` (called by the RDS worker for every decoded group) keeps a
    ring of the last 64 PI codes with one error bit each, packed eight to
    a byte, and queues the `P` and `R` lines that XDR clients drain.
    `setFrequencyState` forgets the PI history when the frequency changes. -/

namespace FmSdrTuner

/-- `kMaxRdsQueue`. -/
def kMaxRdsQueue : Nat := 256

/-- The `k` low hexadecimal digits of a value, upper case (`%0kX`). -/
def hexUpper (k : Nat) (n : Nat) : Text :=
  (List.range k).reverse.map fun i => (Nat.digitChar (n / 16 ^ i % 16)).toUpper

/-- One decoded RDS group, as passed to `updateRDS`: two error bits a block. -/
structure RdsGroup where
  blockA : BitVec 16
  blockB : BitVec 16
  blockC : BitVec 16
  blockD : BitVec 16
  errors : BitVec 8
  deriving DecidableEq, Repr

def RdsGroup.blockAErr (g : RdsGroup) : Nat := (g.errors.toNat / 64) % 4
def RdsGroup.blockBErr (g : RdsGroup) : Nat := (g.errors.toNat / 16) % 4

/-! ### PI history -/

/-- Is the error bit of ring entry `i` set? -/
def PiHistory.errorBit (h : PiHistory) (i : Nat) : Bool :=
  (h.errorBuffer.getD (i / 8) 0).getLsbD (i % 8)

/-- `evaluatePiState`: 0 correct, 1 very likely, 2 likely, 3 unlikely, 4 invalid. -/
def evaluatePiState (h : PiHistory) (value : BitVec 16) : Nat :=
  let hits := (List.range h.fill).filter fun i => h.buffer.getD i 0 == value
  let count := hits.length
  let correctCount := (hits.filter fun i => !h.errorBit i).length
  if correctCount ≥ 2 then 0
  else if count ≥ 2 ∧ correctCount ≠ 0 then 1
  else if count ≥ 3 then 2
  else if count = 2 ∨ correctCount ≠ 0 then 3
  else 4

/-- Write block A with its error bit into the next ring entry. -/
def PiHistory.push (h : PiHistory) (blockA : BitVec 16) (error : Bool) : PiHistory :=
  let pos := (h.pos + 1) % 64
  let bit : BitVec 8 := 1 <<< (pos % 8)
  let old := h.errorBuffer.getD (pos / 8) 0
  { h with
    pos := pos
    buffer := h.buffer.set pos blockA
    errorBuffer := h.errorBuffer.set (pos / 8) (if error then old ||| bit else old &&& ~~~bit)
    fill := if h.fill < 64 then h.fill + 1 else h.fill }

/-- Nothing received, or forgotten: what a listener can observe of a reset. -/
def PiHistory.isEmpty (h : PiHistory) : Prop :=
  h.fill = 0 ∧ h.pos = 63 ∧ h.lastValue = 0xFFFF

instance (h : PiHistory) : Decidable h.isEmpty :=
  inferInstanceAs (Decidable (_ ∧ _ ∧ _))

@[simp] theorem PiHistory.isEmpty_cleared : PiHistory.cleared.isEmpty := ⟨rfl, rfl, rfl⟩

/-! ### Queue of RDS lines -/

/-- Append a line, dropping the oldest when the queue is full. -/
def XDRServer.queueRds (s : XDRServer) (line : Text) : XDRServer :=
  let kept := if kMaxRdsQueue ≤ s.rdsQueue.length then s.rdsQueue.drop 1 else s.rdsQueue
  { s with
    rdsQueue := kept ++ [(s.rdsNextSeq, line)]
    rdsNextSeq := s.rdsNextSeq + 1 }

/-- `P%04X` followed by one `?` per error level of block A. -/
def piLine (g : RdsGroup) : Text :=
  'P' :: hexUpper 4 g.blockA.toNat ++ List.replicate (min g.blockAErr 3) '?'

/-- `R%04X%04X%04X%02X`. -/
def rdsLine (g : RdsGroup) : Text :=
  'R' :: hexUpper 4 g.blockB.toNat ++ hexUpper 4 g.blockC.toNat ++
    hexUpper 4 g.blockD.toNat ++ hexUpper 2 g.errors.toNat

/-- `XDRServer::updateRDS` at time `nowMs`; all but the time stamp happens
    under `m_rdsMutex`. -/
def XDRServer.updateRDS (s : XDRServer) (g : RdsGroup) (nowMs : Nat) : XDRServer :=
  let pi := s.pi.push g.blockA (g.blockAErr ≠ 0)
  let piState := evaluatePiState pi g.blockA
  let s := { s with pi := pi, lastRdsMs := nowMs }
  let s :=
    if g.blockAErr ≠ 3 ∧ piState ≤ 1 then
      { s.queueRds (piLine g) with pi := { pi with lastValue := g.blockA } }
    else s
  let s := if g.blockBErr = 0 then s.queueRds (rdsLine g) else s
  { s with pi := { s.pi with lastState := piState } }

/-- The RDS path touches nothing but its own fields. -/
theorem XDRServer.updateRDS_frame (s : XDRServer) (g : RdsGroup) (nowMs : Nat) :
    ∃ pi queue next, s.updateRDS g nowMs =
      { s with pi := pi, rdsQueue := queue, rdsNextSeq := next, lastRdsMs := nowMs } := by
  simp only [XDRServer.updateRDS]
  split <;> split <;> exact ⟨_, _, _, rfl⟩

/-- The `P` line that a session repeats with every signal line: the last
    debounced code, as long as groups have come in lately. -/
def XDRServer.piKeepAlive (s : XDRServer) (nowMs : Nat) : Option Text :=
  if s.lastRdsMs ≠ 0 ∧ nowMs - s.lastRdsMs ≤ 1500 ∧ s.pi.lastValue ≠ 0xFFFF then
    some ('P' :: hexUpper 4 s.pi.lastValue.toNat ++ ['\n'])
  else none

/-! ### What the history holds -/

/-- The history holds the latest of the block-A values in `since`, which
    has the newest first, and nothing else. -/
structure PiHistory.HoldsLatest (h : PiHistory) (since : List (BitVec 16)) : Prop where
  length_eq : h.buffer.length = 64
  pos_lt : h.pos < 64
  fill_le : h.fill ≤ 64
  pos_eq : h.fill < 64 → (h.pos + 1) % 64 = h.fill
  entry : ∀ k < h.fill, since[k]? = some (h.buffer.getD ((h.pos + 64 - k) % 64) 0)
  lastValue : h.lastValue = 0xFFFF ∨ h.lastValue ∈ since

namespace PiHistory.HoldsLatest
variable {h : PiHistory} {since : List (BitVec 16)}

theorem cleared (since : List (BitVec 16)) : PiHistory.cleared.HoldsLatest since where
  length_eq := rfl
  pos_lt := by decide
  fill_le := by decide
  pos_eq _ := rfl
  entry k hk := absurd hk (Nat.not_lt_zero k)
  lastValue := Or.inl rfl

/-- An empty history has forgotten everything. -/
theorem of_isEmpty (hold : h.HoldsLatest since) (he : h.isEmpty) : h.HoldsLatest [] :=
  { hold with
    entry := fun k hk => by rw [he.1] at hk; exact absurd hk (Nat.not_lt_zero k)
    lastValue := Or.inl he.2.2 }

/-- What `evaluatePiState` looks at has been received since. -/
theorem mem (hold : h.HoldsLatest since) {i : Nat} (hi : i < h.fill) :
    h.buffer.getD i 0 ∈ since := by
  have hpos := hold.pos_lt
  have hfill := hold.fill_le
  have hk : (h.pos + 64 - i) % 64 < h.fill := by
    by_cases hfull : h.fill < 64
    · have := hold.pos_eq hfull
      omega
    · omega
  have hentry := hold.entry _ hk
  rw [show (h.pos + 64 - (h.pos + 64 - i) % 64) % 64 = i by omega] at hentry
  exact List.mem_of_getElem? hentry

theorem push (hold : h.HoldsLatest since) (blockA : BitVec 16) (error : Bool) :
    (h.push blockA error).HoldsLatest (blockA :: since) := by
  have hpos := hold.pos_lt
  have hlen := hold.length_eq
  refine ⟨?_, ?_, ?_, ?_, ?_, ?_⟩
  · rw [← hlen]
    exact List.length_set
  · exact Nat.mod_lt _ (by decide)
  · have hfill := hold.fill_le
    simp only [PiHistory.push]
    split <;> omega
  · intro hlt
    have hold_lt : h.fill < 64 := by
      by_contra hfull
      simp only [PiHistory.push, if_neg hfull] at hlt
      exact hfull hlt
    have hpe := hold.pos_eq hold_lt
    simp only [PiHistory.push, if_pos hold_lt] at hlt ⊢
    omega
  · intro k hk
    cases k with
    | zero =>
      -- the entry just written
      have hidx : ((h.pos + 1) % 64 + 64 - 0) % 64 = (h.pos + 1) % 64 := by omega
      simp only [PiHistory.push, List.getElem?_cons_zero, hidx]
      rw [List.getD_eq_getElem?_getD, List.getElem?_set_self (by omega), Option.getD_some]
    | succ k =>
      -- an older one, one place further back
      have hkold : k < h.fill ∧ k < 63 := by
        have hfill := hold.fill_le
        simp only [PiHistory.push] at hk
        split at hk <;> omega
      have hidx : ((h.pos + 1) % 64 + 64 - (k + 1)) % 64 = (h.pos + 64 - k) % 64 := by omega
      have hne : (h.pos + 1) % 64 ≠ (h.pos + 64 - k) % 64 := by omega
      simp only [PiHistory.push, List.getElem?_cons_succ, hidx]
      rw [hold.entry k hkold.1, List.getD_eq_getElem?_getD, List.getD_eq_getElem?_getD,
        List.getElem?_set_ne hne]
  · rcases hold.lastValue with hnone | hmem
    · exact Or.inl hnone
    · exact Or.inr (List.mem_cons_of_mem _ hmem)

end PiHistory.HoldsLatest

/-- The history after `updateRDS`: one more entry, and the value of a new
    debounced code. -/
theorem XDRServer.updateRDS_pi (s : XDRServer) (g : RdsGroup) (nowMs : Nat) :
    let pushed := s.pi.push g.blockA (g.blockAErr ≠ 0)
    ∃ value, (s.updateRDS g nowMs).pi =
        { pushed with lastState := evaluatePiState pushed g.blockA, lastValue := value } ∧
      (value = s.pi.lastValue ∨ value = g.blockA) := by
  intro pushed
  by_cases hdebounced : g.blockAErr ≠ 3 ∧ evaluatePiState pushed g.blockA ≤ 1
  · refine ⟨g.blockA, ?_, Or.inr rfl⟩
    simp only [XDRServer.updateRDS, pushed, if_pos hdebounced]
    split <;> rfl
  · refine ⟨s.pi.lastValue, ?_, Or.inl rfl⟩
    simp only [XDRServer.updateRDS, pushed, if_neg hdebounced]
    split <;> rfl

/-- `updateRDS` adds the group it is given. -/
theorem XDRServer.updateRDS_holdsLatest {s : XDRServer} {since : List (BitVec 16)}
    (hold : s.pi.HoldsLatest since) (g : RdsGroup) (nowMs : Nat) :
    (s.updateRDS g nowMs).pi.HoldsLatest (g.blockA :: since) := by
  have hpush := hold.push g.blockA (g.blockAErr ≠ 0)
  obtain ⟨value, heq, hvalue⟩ := s.updateRDS_pi g nowMs
  rw [heq]
  rcases hvalue with rfl | rfl
  · exact { hpush with lastValue := hpush.lastValue }
  · exact { hpush with lastValue := Or.inr List.mem_cons_self }

/-- A repeated `P` line comes from a group received since. -/
theorem XDRServer.piKeepAlive_mem {s : XDRServer} {since : List (BitVec 16)}
    (hold : s.pi.HoldsLatest since) {nowMs : Nat} {line : Text}
    (h : s.piKeepAlive nowMs = some line) :
    ∃ blockA ∈ since, line = 'P' :: hexUpper 4 blockA.toNat ++ ['\n'] := by
  unfold XDRServer.piKeepAlive at h
  split at h
  · next hcond =>
    cases h
    exact ⟨s.pi.lastValue, hold.lastValue.resolve_left hcond.2.2, rfl⟩
  · cases h

/-! ### Frequency -/

/-- `XDRServer::setFrequencyState`, run without interruption. The main-loop
    model takes its three accesses one at a time. -/
def XDRServer.setFrequencyState (s : XDRServer) (freqHz : Nat) : XDRServer :=
  if freqHz = 0 then s
  else
    let s := if freqHz ≠ s.frequency then { s with pi := PiHistory.cleared } else s
    { s with frequency := freqHz }

end FmSdrTuner

import FmSdrTuner.Framework.SequencedQueue
import FmSdrTuner.XdrServer.Rds

/-! # XDRServer: the queues of RDS and scan lines

    `updateRDS` and `pushScanLine` number their lines and keep the last
    few of them; every authenticated XDR client reads both queues with
    cursors of its own. -/

namespace FmSdrTuner

/-! ### RDS lines -/

/-- `m_rdsQueue` and `m_rdsNextSeq`. -/
def XDRServer.rdsLines (s : XDRServer) : SequencedQueue Text := ⟨s.rdsQueue, s.rdsNextSeq⟩

/-- Does `updateRDS` take block A for the station's code? -/
def XDRServer.PiDebounced (s : XDRServer) (g : RdsGroup) : Prop :=
  g.blockAErr ≠ 3 ∧ evaluatePiState (s.pi.push g.blockA (g.blockAErr ≠ 0)) g.blockA ≤ 1

instance (s : XDRServer) (g : RdsGroup) : Decidable (s.PiDebounced g) :=
  inferInstanceAs (Decidable (_ ∧ _))

/-- The lines that `updateRDS` queues for a group: none, one or two. -/
def XDRServer.groupLines (s : XDRServer) (g : RdsGroup) : List Text :=
  (if s.PiDebounced g then [piLine g] else []) ++ if g.blockBErr = 0 then [rdsLine g] else []

theorem XDRServer.updateRDS_rdsLines (s : XDRServer) (g : RdsGroup) (nowMs : Nat) :
    (s.updateRDS g nowMs).rdsLines = s.rdsLines.pushAll kMaxRdsQueue (s.groupLines g) := by
  unfold XDRServer.groupLines
  by_cases hdebounced : s.PiDebounced g
  · have hcond : g.blockAErr ≠ 3 ∧
        evaluatePiState (s.pi.push g.blockA (g.blockAErr ≠ 0)) g.blockA ≤ 1 := hdebounced
    by_cases hblockB : g.blockBErr = 0
    · simp only [XDRServer.updateRDS, if_pos hcond, if_pos hdebounced, if_pos hblockB]
      rfl
    · simp only [XDRServer.updateRDS, if_pos hcond, if_pos hdebounced, if_neg hblockB]
      rfl
  · have hcond : ¬(g.blockAErr ≠ 3 ∧
        evaluatePiState (s.pi.push g.blockA (g.blockAErr ≠ 0)) g.blockA ≤ 1) := hdebounced
    by_cases hblockB : g.blockBErr = 0
    · simp only [XDRServer.updateRDS, if_neg hcond, if_neg hdebounced, if_pos hblockB]
      rfl
    · simp only [XDRServer.updateRDS, if_neg hcond, if_neg hdebounced, if_neg hblockB]
      rfl

/-! ### Scan lines -/

/-- The bound of `m_scanQueue`. -/
def kMaxScanQueue : Nat := 8

/-- `XDRServer::pushScanLine` on `m_scanQueue` and `m_scanNextSeq`. -/
def pushScanLine (q : SequencedQueue Text) (line : Text) : SequencedQueue Text :=
  if line.isEmpty then q else q.push kMaxScanQueue ('U' :: line)

/-- The lines that `pushScanLine` queues: none or one. -/
def scanLines (line : Text) : List Text := if line.isEmpty then [] else ['U' :: line]

theorem pushScanLine_eq (q : SequencedQueue Text) (line : Text) :
    pushScanLine q line = q.pushAll kMaxScanQueue (scanLines line) := by
  unfold pushScanLine scanLines
  split <;> rfl

end FmSdrTuner

import FmSdrTuner.Rds.Biphase
import FmSdrTuner.Rds.SyncAcquisition
import FmSdrTuner.XdrServer.PiWindow

/-! # From symbols to lines

    The RDS receiver behind the symbol synchronizer, and the server that is
    called with every group: a station that is received cleanly is
    announced to the XDR clients, in order, whatever state the receiver was
    in before.

    Main results: `groups_from_symbols`, `station_lines` and
    `lines_from_symbols`. -/

namespace FmSdrTuner.Rds

/-! ### The receiver (`rds_decoder.cpp`) -/

/-- `RDSDecoder::Impl`, behind the symbol synchronizer. -/
structure RdsReceiver where
  demod : Demod
  blockStream : BlockStream

namespace RdsReceiver

def initial : RdsReceiver := ⟨.initial, .initial true⟩

/-- `RDSDecoder::Impl::reset`: the biphase and the delta decoder are left as
    they are. -/
def reset (r : RdsReceiver) : RdsReceiver := { r with blockStream := .initial true }

/-- One chunk of `RDSDecoder::process`. -/
def process (r : RdsReceiver) (symbols : List ℚ) : RdsReceiver × List RdsGroup :=
  let (demod, bits) := r.demod.pushAll symbols
  let (blockStream, groups) := emitGroups r.blockStream bits
  (⟨demod, blockStream⟩, groups)

/-- One chunk after the other. -/
def processAll (r : RdsReceiver) : List (List ℚ) → RdsReceiver × List RdsGroup
  | [] => (r, [])
  | chunk :: chunks =>
      let (r, groups) := r.process chunk
      let (r, rest) := r.processAll chunks
      (r, groups ++ rest)

theorem process_append (r : RdsReceiver) (xs ys : List ℚ) :
    r.process (xs ++ ys) =
      (((r.process xs).1.process ys).1, (r.process xs).2 ++ ((r.process xs).1.process ys).2) := by
  simp only [process, Demod.pushAll_append, emitGroups_append]

/-- How the symbols are cut into chunks does not matter. -/
theorem processAll_eq (r : RdsReceiver) (chunks : List (List ℚ)) :
    r.processAll chunks = r.process chunks.flatten := by
  induction chunks generalizing r with
  | nil => rfl
  | cons chunk chunks ih => simp only [processAll, ih, List.flatten_cons, process_append]

/-- Nothing that is processed puts the receiver into an invalid state. -/
theorem valid_process {r : RdsReceiver} (h : Valid r.blockStream true) (symbols : List ℚ) :
    Valid (r.process symbols).1.blockStream true :=
  valid_emitGroups h _

end RdsReceiver

/-! ### Groups from symbols -/

/-- The last word of some bits. -/
def lastWordOf (bits : List Bool) : BitVec 26 := (bits.foldl shiftBit 0).setWidth 26

/-- After 26 bits the word in the register has nothing from before. -/
theorem setWidth_foldl_shiftBit {bits : List Bool} (hlen : 26 ≤ bits.length) (r : BitVec 32) :
    (bits.foldl shiftBit r).setWidth 26 = lastWordOf bits := by
  apply BitVec.eq_of_getLsbD_eq
  intro i hi
  rw [lastWordOf, BitVec.getLsbD_setWidth, BitVec.getLsbD_setWidth,
    getLsbD_foldl_shiftBit _ _ (by omega), getLsbD_foldl_shiftBit _ _ (by omega),
    if_pos (by omega), if_pos (by omega)]

/-- A transmission as the receiver finds it: the bits from `first` on are
    some bits of a group that had begun before, twelve groups or more with
    no word across two blocks that looks like one, and the groups `groups`. -/
structure Transmission (e : Nat → Bool) (first : Nat) (groups : List SentGroup) where
  lead : List Bool
  warmUp : List SentGroup
  lead_long : 26 ≤ lead.length
  warmUp_long : 12 ≤ warmUp.length
  quiet : (lastWordOf lead :: cleanWords warmUp).IsChain Quiet
  count : Nat
  bits : (List.range count).map (fun i => dataBit e (first + i)) =
    lead ++ (cleanWords (warmUp ++ groups)).flatMap wordBits

/-- The groups of a signal are handed on as they were sent, from any state
    of the receiver. -/
theorem groups_from_symbols {sym : Nat → ℚ} {e : Nat → Bool} {A ε : ℚ}
    (hc : Carries sym e A ε) {r : RdsReceiver} (hvalid : Valid r.blockStream true) (m : Nat)
    (hfirst : 128 * ε < changes e (m + (128 - r.demod.biphaseDecoder.clock.val)) * A)
    (hlively : ∀ j, 128 * ε ≤
      changes e (m + (128 - r.demod.biphaseDecoder.clock.val) + 128 * j) * A)
    {groups : List SentGroup}
    (t : Transmission e ((m + symbolsToStep r.demod) / 2) groups) :
    ∃ earlier, (r.process ((List.range' m (symbolsToStep r.demod + 2 * t.count)).map sym)).2 =
      earlier ++ groups.map fun g => g.handedOn .none := by
  have hclock := r.demod.biphaseDecoder.clock.isLt
  have hstep := inStep_of_any hc r.demod m hfirst hlively
  have hbits : (r.demod.pushAll
      ((List.range' m (symbolsToStep r.demod + 2 * t.count)).map sym)).2 =
      (r.demod.pushAll ((List.range' m (symbolsToStep r.demod)).map sym)).2 ++
        (t.lead ++ (cleanWords (t.warmUp ++ groups)).flatMap wordBits) := by
    rw [← List.range'_append_1, List.map_append, Demod.pushAll_append,
      InStep.pushAll hc (by omega) hlively hstep, t.bits]
  generalize (r.demod.pushAll ((List.range' m (symbolsToStep r.demod)).map sym)).2 = before at hbits
  have hsplit : (r.process ((List.range' m (symbolsToStep r.demod + 2 * t.count)).map sym)).2 =
      (emitGroups r.blockStream (before ++ t.lead ++
        (cleanWords (t.warmUp ++ groups)).flatMap wordBits)).2 := by
    simp only [RdsReceiver.process, hbits, List.append_assoc]
  have hvalid' := valid_emitGroups hvalid (before ++ t.lead)
  have hregister : (emitGroups r.blockStream (before ++ t.lead)).1.lastWord =
      lastWordOf t.lead := by
    rw [BlockStream.lastWord, inputRegister_emitGroups hvalid, List.foldl_append]
    exact setWidth_foldl_shiftBit t.lead_long _
  obtain ⟨out, hout⟩ := groups_after_recovery hvalid' groups t.warmUp_long
    (by rw [hregister]; exact t.quiet)
  rw [hsplit, emitGroups_append, hout]
  exact ⟨_, (List.append_assoc _ _ _).symm⟩

/-! ### Lines from groups -/

/-- The calls of `updateRDS`, at the given times. -/
def updates (groups : List RdsGroup) (now : Nat → Nat) : List RdsStep :=
  groups.mapIdx fun i g => .updateRDS g (now i)

/-- A group of one station, without errors. -/
def OfStation (pi : BitVec 16) (g : RdsGroup) : Prop := g.blockA = pi ∧ g.errors = 0

theorem OfStation.received {pi : BitVec 16} {g : RdsGroup} (h : OfStation pi g) :
    g.received = (pi, false) := by
  simp [RdsGroup.received, RdsGroup.blockAErr, h.1, h.2]

/-- Once a group of the station has come in, the next one confirms it. -/
theorem announcedLines_again {pi : BitVec 16} {g g' : RdsGroup} (hg : OfStation pi g)
    (hg' : OfStation pi g') (received : List ReceivedPi) :
    announcedLines (received ++ [g.received]) g' = [piLine g', rdsLine g'] := by
  have hA : g'.blockAErr = 0 := by simp [RdsGroup.blockAErr, hg'.2]
  have hB : g'.blockBErr = 0 := by simp [RdsGroup.blockBErr, hg'.2]
  have hwindow : ∃ front, piWindow (received ++ [g.received] ++ [g'.received]) =
      front ++ [(pi, false), (pi, false)] := by
    rw [hg.received, hg'.received, piWindow, List.rtake, List.append_assoc]
    simp only [List.length_append, List.length_singleton]
    rw [List.drop_append_of_le_length (by omega)]
    exact ⟨_, rfl⟩
  obtain ⟨front, hfront⟩ := hwindow
  have hconfirmed : PiConfirmed (received ++ [g.received]) g' := by
    refine ⟨by rw [hA]; decide, ?_, ?_⟩
    · rw [hfront, hg'.1, List.countP_append]
      simp
    · rw [hfront, hg'.1]
      simp
  rw [announcedLines, if_pos hconfirmed, if_pos hB]
  rfl

/-- The lines for groups in turn, after others were received. -/
def linesFor (received : List ReceivedPi) : List RdsGroup → List Text
  | [] => []
  | g :: gs => announcedLines received g ++ linesFor (received ++ [g.received]) gs

theorem linesFor_append (received : List ReceivedPi) (gs gs' : List RdsGroup) :
    linesFor received (gs ++ gs') =
      linesFor received gs ++ linesFor (received ++ gs.map RdsGroup.received) gs' := by
  induction gs generalizing received with
  | nil => simp [linesFor]
  | cons g gs ih => simp [linesFor, ih, List.append_assoc]

/-- Every group queues its lines. -/
theorem updates_rdsLines {s : XDRServer} {received : List ReceivedPi}
    (hold : PiRingHolds s.pi received) (gs : List RdsGroup) (now : Nat → Nat) :
    (rdsMachine.run s (updates gs now)).rdsLines =
      s.rdsLines.pushAll kMaxRdsQueue (linesFor received gs) := by
  induction gs generalizing s received now with
  | nil => rfl
  | cons g gs ih =>
    have hlines : s.groupLines g = announcedLines received g := by
      unfold XDRServer.groupLines announcedLines
      simp only [hold.debounced_iff g]
    have hrest := ih (hold.updateRDS g (now 0)) fun i => now (i + 1)
    rw [updates, List.mapIdx_cons, Machine.run_cons, ← updates]
    show (rdsMachine.run (s.updateRDS g (now 0)) _).rdsLines = _
    rw [hrest, s.updateRDS_rdsLines, hlines, linesFor]
    simp only [SequencedQueue.pushAll, List.foldl_append]

/-- The groups of one station: from the second one on each queues a `P` line
    and an `R` line. -/
theorem linesFor_station {pi : BitVec 16} {g : RdsGroup} (hg : OfStation pi g)
    {gs : List RdsGroup} (hgs : ∀ g' ∈ gs, OfStation pi g') (received : List ReceivedPi) :
    linesFor received (g :: gs) =
      announcedLines received g ++ gs.flatMap fun g' => [piLine g', rdsLine g'] := by
  rw [linesFor]
  congr 1
  induction gs generalizing g received with
  | nil => rfl
  | cons g' gs ih =>
    have hg' := hgs g' List.mem_cons_self
    rw [linesFor, announcedLines_again hg hg', List.flatMap_cons,
      ih hg' (fun x hx => hgs x (List.mem_cons_of_mem _ hx))]

/-- A group that is handed on without errors is one of its station. -/
theorem ofStation_handedOn {pi : BitVec 16} {g : SentGroup} (h : g.a = pi) :
    OfStation pi (g.handedOn .none) := ⟨h, rfl⟩

/-- From the symbols to the lines: once a signal is received cleanly, every
    group of the station but the first is announced with its code and its
    blocks, in the order they were sent, whatever the receiver and the
    server went through before. -/
theorem lines_from_symbols {sym : Nat → ℚ} {e : Nat → Bool} {A ε : ℚ}
    (hc : Carries sym e A ε) {r : RdsReceiver} (hvalid : Valid r.blockStream true) (m : Nat)
    (hfirst : 128 * ε < changes e (m + (128 - r.demod.biphaseDecoder.clock.val)) * A)
    (hlively : ∀ j, 128 * ε ≤
      changes e (m + (128 - r.demod.biphaseDecoder.clock.val) + 128 * j) * A)
    {pi : BitVec 16} {g : SentGroup} {gs : List SentGroup} (hg : g.a = pi)
    (hgs : ∀ g' ∈ gs, g'.a = pi)
    (t : Transmission e ((m + symbolsToStep r.demod) / 2) (g :: gs))
    (steps : List RdsStep) (now : Nat → Nat) :
    ∃ earlier, (rdsMachine.run (rdsMachine.run .initial steps) (updates
        (r.process ((List.range' m (symbolsToStep r.demod + 2 * t.count)).map sym)).2
          now)).rdsLines =
      (rdsMachine.run .initial steps).rdsLines.pushAll kMaxRdsQueue (earlier ++
        gs.flatMap fun g' => [piLine (g'.handedOn .none), rdsLine (g'.handedOn .none)]) := by
  obtain ⟨before, hgroups⟩ := groups_from_symbols hc hvalid m hfirst hlively t
  obtain ⟨received, hold⟩ : ∃ received,
      PiRingHolds (rdsMachine.run .initial steps).pi received := by
    have hrun : ∀ acts (s : XDRServer) (received : List ReceivedPi), PiRingHolds s.pi received →
        ∃ received', PiRingHolds (rdsMachine.run s acts).pi received' := by
      intro acts
      induction acts with
      | nil => exact fun s received h => ⟨received, h⟩
      | cons a acts ih => exact fun s received h => ih _ _ (piRingHolds_step h a)
    exact hrun steps .initial [] PiRingHolds.cleared
  have hstation : ∀ g' ∈ gs.map fun g' => g'.handedOn .none, OfStation pi g' := by
    intro g' hg'
    obtain ⟨sent, hsent, rfl⟩ := List.mem_map.mp hg'
    exact ofStation_handedOn (hgs sent hsent)
  rw [updates_rdsLines hold, hgroups, linesFor_append, List.map_cons,
    linesFor_station (ofStation_handedOn hg) hstation, List.flatMap_map, ← List.append_assoc]
  exact ⟨_, rfl⟩

/-- The bits of fourteen groups, after the last block of one. -/
def stationBits : List Bool :=
  wordBits (encodeBlock 0x0E83 .d) ++
    (cleanWords (List.replicate 12 stationGroup ++ [stationGroup, stationGroup])).flatMap wordBits

/-- These bits after 128 others, as the receiver finds them. -/
def stationTransmission :
    Transmission (encode (List.replicate 128 true ++ stationBits))
      ((0 + symbolsToStep RdsReceiver.initial.demod) / 2) [stationGroup, stationGroup] where
  lead := wordBits (encodeBlock 0x0E83 .d)
  warmUp := List.replicate 12 stationGroup
  lead_long := by simp
  warmUp_long := by simp
  quiet := by decide +kernel
  count := stationBits.length
  bits := by
    have hfirst : (0 + symbolsToStep RdsReceiver.initial.demod) / 2 =
        (List.replicate 128 true).length + 1 := by
      rw [List.length_replicate]
      rfl
    rw [hfirst, map_dataBit_encode, stationBits]

theorem station_announced :
    ∃ earlier, (rdsMachine.run (rdsMachine.run .initial []) (updates
        (RdsReceiver.initial.process ((List.range' 0 (symbolsToStep RdsReceiver.initial.demod +
          2 * stationTransmission.count)).map
            (modulate (encode (List.replicate 128 true ++ stationBits))))).2 fun i => i)).rdsLines =
      (rdsMachine.run .initial []).rdsLines.pushAll kMaxRdsQueue (earlier ++
        [stationGroup].flatMap fun g' =>
          [piLine (g'.handedOn .none), rdsLine (g'.handedOn .none)]) := by
  have hchanges :
      0 < changes (encode (List.replicate 128 true ++ stationBits)) (0 + (128 - 0)) := by
    decide +kernel
  exact lines_from_symbols (carries_modulate _) (r := RdsReceiver.initial) (valid_initial true) 0
    (by
      rw [mul_zero, mul_one]
      exact Nat.cast_pos.mpr hchanges)
    (fun j => by
      rw [mul_zero, mul_one]
      exact Nat.cast_nonneg _)
    (g := stationGroup) rfl (by simp) stationTransmission [] fun i => i

end FmSdrTuner.Rds

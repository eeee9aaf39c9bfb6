import FmSdrTuner.Framework.RunningSum
import FmSdrTuner.Rds.BlockCode
import FmSdrTuner.XdrServer.Rds

/-! # Block synchronization

    `BlockStream` takes one bit at a time. While it is out of sync it looks
    for a block after every bit, and notes where it finds one; three blocks
    in the right rhythm give it the offset to expect. In sync it takes a
    block every 26 bits, and gives up when too many of the last 50 had
    errors. `RDSDecoder` hands every finished group on. -/

namespace FmSdrTuner.Rds

/-- `kMaxErrorsToleratedOver50Blocks`: half of `kMaxTolerableBLER`. -/
def kMaxErrorsToleratedOver50Blocks : Nat := 85 / 2

def kBlockLength : Nat := 26

/-! ### Groups (`group.cpp`) -/

structure Block where
  raw : BitVec 26
  data : BitVec 16
  isReceived : Bool
  hadErrors : Bool
  offset : Offset
  deriving DecidableEq, Repr

def Block.initial : Block := ⟨0, 0, false, false, .invalid⟩

/-- `Group`: its four blocks. -/
structure Group where
  blocks : Vector Block 4
  deriving DecidableEq, Repr

namespace Group

def initial : Group := ⟨Vector.replicate 4 Block.initial⟩

def get (g : Group) (blockNum : BlockNumber) : BitVec 16 := g.blocks[blockNum.index].data

def has (g : Group) (blockNum : BlockNumber) : Bool := g.blocks[blockNum.index].isReceived

def hadErrors (g : Group) (blockNum : BlockNumber) : Bool := g.blocks[blockNum.index].hadErrors

def setBlock (g : Group) (blockNum : BlockNumber) (block : Block) : Group :=
  ⟨g.blocks.set blockNum.index block⟩

end Group

/-! ### Synchronization (`block_sync.cpp`) -/

structure SyncPulse where
  offset : Offset
  bitPosition : BitVec 32
  deriving DecidableEq, Repr

/-- `SyncPulse::couldFollow`. -/
def SyncPulse.couldFollow (p other : SyncPulse) : Bool :=
  let syncDistance := (p.bitPosition - other.bitPosition).toNat
  syncDistance % kBlockLength = 0 ∧ syncDistance / kBlockLength ≤ 6 ∧
    p.offset ≠ .invalid ∧ other.offset ≠ .invalid ∧
    ((getBlockNumberForOffset other.offset).index + syncDistance / kBlockLength) % 4 =
      ((getBlockNumberForOffset p.offset).index : Nat)

structure SyncPulseBuffer where
  pulses : Vector SyncPulse 4
  deriving DecidableEq, Repr

namespace SyncPulseBuffer

def initial : SyncPulseBuffer := ⟨Vector.replicate 4 ⟨.invalid, 0⟩⟩

/-- `SyncPulseBuffer::push`. -/
def push (b : SyncPulseBuffer) (offset : Offset) (bitcount : BitVec 32) : SyncPulseBuffer :=
  ⟨#v[b.pulses[1], b.pulses[2], b.pulses[3], ⟨offset, bitcount⟩]⟩

/-- `SyncPulseBuffer::isSequenceFound`: the pairs `i_first`, `i_second` in
    the order of the two loops. -/
def isSequenceFound (b : SyncPulseBuffer) : Bool :=
  let third := b.pulses[3]
  let found (first second : SyncPulse) : Bool :=
    third.couldFollow second && second.couldFollow first
  found b.pulses[0] b.pulses[1] || found b.pulses[0] b.pulses[2] ||
    found b.pulses[1] b.pulses[2]

end SyncPulseBuffer

structure BlockStream where
  bitcount : BitVec 32
  numBitsUntilNextBlock : Nat
  inputRegister : BitVec 32
  expectedOffset : Offset
  isInSync : Bool
  blockErrorSum50 : RunningSum Nat 50
  /-- `options_.use_fec`. -/
  useFec : Bool
  currentGroup : Group
  readyGroup : Group
  hasGroupReady : Bool
  syncBuffer : SyncPulseBuffer
  deriving DecidableEq, Repr

/-- A block as it is put into a group if its offset is the expected one:
    corrected if that is enabled and possible. -/
def correctedBlock (useFec : Bool) (expected : Offset) (raw : BitVec 26) (offset : Offset) :
    Block :=
  let block : Block := ⟨raw, blockData raw, false, offset ≠ expected, offset⟩
  if block.hadErrors ∧ useFec then
    let correction := correctBurstErrors raw expected
    if correction.succeeded then
      { block with data := blockData correction.correctedBits, offset := expected }
    else block
  else block

namespace BlockStream

/-- A new stream after `init`. -/
def initial (useFec : Bool) : BlockStream :=
  ⟨0, 1, 0, .a, false, RunningSum.initial, useFec, .initial, .initial, false, .initial⟩

/-- `BlockStream::acquireSync`. -/
def acquireSync (s : BlockStream) (offset : Offset) : BlockStream :=
  if s.isInSync then s
  else if offset ≠ .invalid then
    let s := { s with syncBuffer := s.syncBuffer.push offset s.bitcount }
    if s.syncBuffer.isSequenceFound then
      { s with isInSync := true, expectedOffset := offset, currentGroup := .initial }
    else s
  else s

/-- `BlockStream::handleNewlyReceivedGroup`. -/
def handleNewlyReceivedGroup (s : BlockStream) : BlockStream :=
  { s with readyGroup := s.currentGroup, hasGroupReady := true, currentGroup := .initial }

/-- The offset to compare with: C' may stand in the place of C. -/
def switchOffset (expected offset : Offset) : Offset :=
  if expected = .c ∧ offset = .cPrime then .cPrime else expected

/-- What `findBlockInInputRegister` does in sync. -/
def takeBlock (s : BlockStream) (raw : BitVec 26) (offset : Offset) : BlockStream :=
  let s := { s with expectedOffset := switchOffset s.expectedOffset offset }
  let s := { s with
    blockErrorSum50 := s.blockErrorSum50.push (if offset ≠ s.expectedOffset then 1 else 0) }
  if s.blockErrorSum50.getSum > kMaxErrorsToleratedOver50Blocks then
    { s with isInSync := false, blockErrorSum50 := s.blockErrorSum50.clear }
  else
    let block := correctedBlock s.useFec s.expectedOffset raw offset
    let s :=
      if block.offset = s.expectedOffset then
        { s with
          currentGroup := s.currentGroup.setBlock (getBlockNumberForOffset s.expectedOffset)
            { block with isReceived := true } }
      else s
    let nextOffset := getNextOffsetFor s.expectedOffset
    let s := if nextOffset = .a then s.handleNewlyReceivedGroup else s
    { s with expectedOffset := nextOffset }

/-- `BlockStream::findBlockInInputRegister`. -/
def findBlockInInputRegister (s : BlockStream) : BlockStream :=
  let raw : BitVec 26 := s.inputRegister.setWidth 26
  let offset := getOffsetForSyndrome (calculateSyndrome raw)
  let s := s.acquireSync offset
  if s.isInSync then s.takeBlock raw offset else s

/-- `BlockStream::pushBit`. -/
def pushBit (s : BlockStream) (bit : Bool) : BlockStream :=
  let s := { s with
    inputRegister := (s.inputRegister <<< 1) + (BitVec.ofBool bit).setWidth 32
    numBitsUntilNextBlock := s.numBitsUntilNextBlock - 1
    bitcount := s.bitcount + 1 }
  if s.numBitsUntilNextBlock = 0 then
    let s := s.findBlockInInputRegister
    { s with numBitsUntilNextBlock := if s.isInSync then kBlockLength else 1 }
  else s

/-- `BlockStream::popGroup`. -/
def popGroup (s : BlockStream) : Group × BlockStream :=
  (s.readyGroup, { s with hasGroupReady := false })

end BlockStream

/-! ### Groups handed on (`rds_decoder.cpp`) -/

/-- `mapErr` of `packErrors`. -/
def mapErr (g : Group) (b : BlockNumber) : BitVec 8 :=
  if g.has b then (if g.hadErrors b then 1 else 0) else 3

/-- `RDSDecoder::Impl::packErrors`. -/
def packErrors (g : Group) : BitVec 8 :=
  (mapErr g .block1 <<< 6) ||| (mapErr g .block2 <<< 4) ||| (mapErr g .block3 <<< 2) |||
    mapErr g .block4

/-- The data of a block, 0 if it is missing. -/
def dataOrZero (g : Group) (b : BlockNumber) : BitVec 16 := if g.has b then g.get b else 0

/-- What `emitGroups` passes on. -/
def toRdsGroup (g : Group) : RdsGroup :=
  ⟨dataOrZero g .block1, dataOrZero g .block2, dataOrZero g .block3, dataOrZero g .block4,
    packErrors g⟩

/-- One round of the loop of `RDSDecoder::Impl::emitGroups`. -/
def emitGroup (s : BlockStream) (bit : Bool) : BlockStream × List RdsGroup :=
  let s := s.pushBit bit
  if s.hasGroupReady then
    let (g, s) := s.popGroup
    (s, [toRdsGroup g])
  else (s, [])

/-- `RDSDecoder::Impl::emitGroups`: the groups in the order of the calls. -/
def emitGroups (s : BlockStream) : List Bool → BlockStream × List RdsGroup
  | [] => (s, [])
  | bit :: bits =>
      let (s, out) := emitGroup s bit
      let (s, groups) := emitGroups s bits
      (s, out ++ groups)

/-! ### Bits and words -/

/-- The bits of a word, in the order they are sent. -/
def wordBits (w : BitVec 26) : List Bool := (List.range 26).map fun i => w.getLsbD (25 - i)

@[simp] theorem length_wordBits (w : BitVec 26) : (wordBits w).length = 26 := by simp [wordBits]

/-- One bit into the input register. -/
def shiftBit (register : BitVec 32) (bit : Bool) : BitVec 32 :=
  (register <<< 1) + (BitVec.ofBool bit).setWidth 32

theorem getLsbD_shiftBit (r : BitVec 32) (bit : Bool) (i : Nat) :
    (shiftBit r bit).getLsbD i = if i = 0 then bit else decide (i < 32) && r.getLsbD (i - 1) := by
  have hor : shiftBit r bit = (r <<< 1) ||| (BitVec.ofBool bit).setWidth 32 := by
    apply BitVec.add_eq_or_of_and_eq_zero
    apply BitVec.eq_of_getLsbD_eq
    intro j hj
    cases j <;> simp
  rw [hor]
  cases i with
  | zero => simp
  | succ i => simp

/-- The register holds the last bits that were shifted in, before them what
    it held before. -/
theorem getLsbD_foldl_shiftBit (r : BitVec 32) (bits : List Bool) {i : Nat} (hi : i < 32) :
    (bits.foldl shiftBit r).getLsbD i =
      if i < bits.length then bits.getD (bits.length - 1 - i) false
      else r.getLsbD (i - bits.length) := by
  induction bits using List.reverseRecOn generalizing i with
  | nil => simp
  | append_singleton bits bit ih =>
    rw [List.foldl_append, List.foldl_cons, List.foldl_nil, getLsbD_shiftBit]
    simp only [List.length_append, List.length_singleton]
    cases i with
    | zero => simp
    | succ i =>
      have hlast : bits.length + 1 - 1 - (i + 1) = bits.length - 1 - i := by omega
      rw [if_neg (by omega), Nat.add_sub_cancel, ih (by omega), decide_eq_true hi, Bool.true_and,
        hlast]
      by_cases hlt : i < bits.length
      · rw [if_pos hlt, if_pos (by omega), List.getD_eq_getElem?_getD, List.getD_eq_getElem?_getD,
          List.getElem?_append_left (by omega)]
      · rw [if_neg hlt, if_neg (by omega), Nat.add_sub_add_right]

/-- After the bits of a word the register ends with it. -/
theorem setWidth_foldl_wordBits (r : BitVec 32) (w : BitVec 26) :
    ((wordBits w).foldl shiftBit r).setWidth 26 = w := by
  apply BitVec.eq_of_getLsbD_eq
  intro i hi
  rw [BitVec.getLsbD_setWidth, getLsbD_foldl_shiftBit _ _ (by omega), length_wordBits, if_pos hi,
    decide_eq_true hi, Bool.true_and]
  have hindex : 26 - 1 - i < 26 := by omega
  simp only [wordBits, List.getD_eq_getElem?_getD, List.getElem?_map,
    List.getElem?_range hindex, Option.map_some, Option.getD_some]
  congr 1
  omega

namespace BlockStream

/-- Bits shifted in, whatever else they lead to. -/
def skip (s : BlockStream) (bits : List Bool) : BlockStream :=
  { s with
    bitcount := s.bitcount + BitVec.ofNat 32 bits.length
    numBitsUntilNextBlock := s.numBitsUntilNextBlock - bits.length
    inputRegister := bits.foldl shiftBit s.inputRegister }

theorem skip_append (s : BlockStream) (bits bits' : List Bool) :
    (s.skip bits).skip bits' = s.skip (bits ++ bits') := by
  simp only [skip, List.foldl_append, List.length_append, BlockStream.mk.injEq, and_true]
  constructor
  · rw [BitVec.add_assoc, ← BitVec.ofNat_add]
  · omega

/-- A bit is shifted in, and then it may complete a block. -/
theorem pushBit_eq (s : BlockStream) (bit : Bool) :
    s.pushBit bit =
      if s.numBitsUntilNextBlock - 1 = 0 then
        let t := (s.skip [bit]).findBlockInInputRegister
        { t with numBitsUntilNextBlock := if t.isInSync then kBlockLength else 1 }
      else s.skip [bit] := rfl

end BlockStream

theorem emitGroups_append (s : BlockStream) (bits bits' : List Bool) :
    emitGroups s (bits ++ bits') =
      ((emitGroups (emitGroups s bits).1 bits').1,
        (emitGroups s bits).2 ++ (emitGroups (emitGroups s bits).1 bits').2) := by
  induction bits generalizing s with
  | nil => rfl
  | cons bit bits ih => simp only [List.cons_append, emitGroups, ih, List.append_assoc]

/-- Until the next block is complete a bit is only shifted in. -/
theorem emitGroups_of_lt {s : BlockStream} (hready : s.hasGroupReady = false) (bits : List Bool)
    (h : bits.length < s.numBitsUntilNextBlock) : emitGroups s bits = (s.skip bits, []) := by
  induction bits generalizing s with
  | nil => simp [emitGroups, BlockStream.skip]
  | cons bit bits ih =>
    rw [List.length_cons] at h
    have hone : emitGroup s bit = (s.skip [bit], []) := by
      have hpush : s.pushBit bit = s.skip [bit] := by
        rw [s.pushBit_eq, if_neg (by omega)]
      simp only [emitGroup, hpush]
      rw [if_neg (by simpa [BlockStream.skip] using hready)]
    have hrest := ih (s := s.skip [bit]) hready (by simp [BlockStream.skip]; omega)
    simp only [emitGroups, hone, hrest, List.nil_append, BlockStream.skip_append,
      List.singleton_append]

/-- The offset a received word has. -/
def offsetOf (w : BitVec 26) : Offset := getOffsetForSyndrome (calculateSyndrome w)

/-- The word at the end of the input register. -/
def BlockStream.lastWord (s : BlockStream) : BitVec 26 := s.inputRegister.setWidth 26

@[simp] theorem lastWord_skip_wordBits (s : BlockStream) (w : BitVec 26) :
    (s.skip (wordBits w)).lastWord = w := setWidth_foldl_wordBits _ _

/-! ### The last bit of a block -/

/-- The next block is looked for 26 bits later in sync, else with the next
    bit; a group that is ready is handed on. -/
def handOn (s : BlockStream) : BlockStream × List RdsGroup :=
  let s := { s with numBitsUntilNextBlock := if s.isInSync then kBlockLength else 1 }
  if s.hasGroupReady then ({ s with hasGroupReady := false }, [toRdsGroup s.readyGroup])
  else (s, [])

/-- A bit that completes a block. -/
theorem emitGroup_of_last {s : BlockStream} (hlast : s.numBitsUntilNextBlock = 1) (bit : Bool) :
    emitGroup s bit = handOn (s.skip [bit]).findBlockInInputRegister := by
  simp only [emitGroup, BlockStream.pushBit_eq, hlast, Nat.sub_self, if_true]
  rfl

/-- In sync it is taken, whatever it is. -/
theorem findBlock_of_inSync {s : BlockStream} (hsync : s.isInSync = true) :
    s.findBlockInInputRegister = s.takeBlock s.lastWord (offsetOf s.lastWord) := by
  simp only [BlockStream.findBlockInInputRegister, BlockStream.acquireSync, hsync, if_true]
  rfl

/-- In sync and between two blocks the bits are taken word by word. -/
theorem emitGroups_wordBits {s : BlockStream} (hsync : s.isInSync = true)
    (hready : s.hasGroupReady = false) (hbits : s.numBitsUntilNextBlock = kBlockLength)
    (w : BitVec 26) :
    emitGroups s (wordBits w) = handOn ((s.skip (wordBits w)).takeBlock w (offsetOf w)) := by
  obtain ⟨bits, bit, hsplit⟩ : ∃ bits bit, wordBits w = bits ++ [bit] :=
    ⟨_, _, (List.dropLast_append_getLast (List.ne_nil_of_length_pos (by simp))).symm⟩
  have hlen : bits.length = 25 := by simpa using (congrArg List.length hsplit).symm
  have hskip := emitGroups_of_lt hready bits (by rw [hlen, hbits]; decide)
  have hlast : (s.skip bits).numBitsUntilNextBlock = 1 := by
    simp only [BlockStream.skip, hbits, hlen]
    rfl
  have hsync' : (s.skip (wordBits w)).isInSync = true := hsync
  have hemit : emitGroup (s.skip bits) bit =
      handOn ((s.skip (wordBits w)).takeBlock w (offsetOf w)) := by
    rw [emitGroup_of_last hlast, BlockStream.skip_append, ← hsplit, findBlock_of_inSync hsync',
      lastWord_skip_wordBits]
  rw [hsplit, emitGroups_append, hskip, ← hsplit]
  simp only [emitGroups, hemit, List.nil_append, List.append_nil]

end FmSdrTuner.Rds

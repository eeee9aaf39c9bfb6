import FmSdrTuner.Rds.BlockSync

/-! # Reception of groups

    What a stream in sync makes of the words it is given, whatever they
    are: block by block it tells the data from missing ones, and it hands
    on a group for every four words until too many were wrong.

    Main results: `sync_kept_iff_tolerable`, `groups_received` and
    `groups_roundtrip`. -/

namespace FmSdrTuner.Rds

/-! ### One block -/

/-- The offset a word is compared with where `expected` comes next. -/
def comparedOffset (expected : Offset) (w : BitVec 26) : Offset :=
  BlockStream.switchOffset expected (offsetOf w)

/-- 1 for a word that counts as wrong. -/
def wordError (expected : Offset) (w : BitVec 26) : Nat :=
  if offsetOf w ≠ comparedOffset expected w then 1 else 0

/-- What is received of a word: the data, and whether it had errors; or
    nothing. -/
def reception (useFec : Bool) (expected : Offset) (w : BitVec 26) : Option (BitVec 16 × Bool) :=
  let block := correctedBlock useFec (comparedOffset expected w) w (offsetOf w)
  if block.offset = comparedOffset expected w then some (block.data, block.hadErrors) else none

/-- The group with a word taken where `expected` comes next. -/
def Group.take (g : Group) (useFec : Bool) (expected : Offset) (w : BitVec 26) : Group :=
  let block := correctedBlock useFec (comparedOffset expected w) w (offsetOf w)
  if block.offset = comparedOffset expected w then
    g.setBlock (getBlockNumberForOffset (comparedOffset expected w))
      { block with isReceived := true }
  else g

theorem switchOffset_cases (expected offset : Offset) :
    BlockStream.switchOffset expected offset = expected ∨
      (expected = .c ∧ offset = .cPrime ∧ BlockStream.switchOffset expected offset = .cPrime) := by
  unfold BlockStream.switchOffset
  split
  · next h => exact Or.inr ⟨h.1, h.2, rfl⟩
  · exact Or.inl rfl

@[simp] theorem getNextOffsetFor_switchOffset (expected offset : Offset) :
    getNextOffsetFor (BlockStream.switchOffset expected offset) = getNextOffsetFor expected := by
  rcases switchOffset_cases expected offset with h | ⟨rfl, -, h⟩ <;> rw [h]
  rfl

theorem getNextOffsetFor_ne_invalid (o : Offset) : getNextOffsetFor o ≠ .invalid := by
  cases o <;> decide

@[simp] theorem getBlockNumberForOffset_switchOffset (expected offset : Offset) :
    getBlockNumberForOffset (BlockStream.switchOffset expected offset) =
      getBlockNumberForOffset expected := by
  rcases switchOffset_cases expected offset with h | ⟨rfl, -, h⟩ <;> rw [h]
  rfl

/-- All that `takeBlock` does with a word. -/
theorem takeBlock_eq (s : BlockStream) (w : BitVec 26) :
    s.takeBlock w (offsetOf w) =
      let errors := s.blockErrorSum50.push (wordError s.expectedOffset w)
      let group := s.currentGroup.take s.useFec s.expectedOffset w
      if errors.getSum > kMaxErrorsToleratedOver50Blocks then
        { s with
          expectedOffset := comparedOffset s.expectedOffset w
          isInSync := false
          blockErrorSum50 := errors.clear }
      else if getNextOffsetFor s.expectedOffset = .a then
        { s with
          expectedOffset := getNextOffsetFor s.expectedOffset
          blockErrorSum50 := errors
          currentGroup := .initial
          readyGroup := group
          hasGroupReady := true }
      else
        { s with
          expectedOffset := getNextOffsetFor s.expectedOffset
          blockErrorSum50 := errors
          currentGroup := group } := by
  have herror : (if offsetOf w ≠ BlockStream.switchOffset s.expectedOffset (offsetOf w) then 1
      else 0) = wordError s.expectedOffset w := rfl
  simp only [BlockStream.takeBlock, herror, Group.take, comparedOffset]
  by_cases hsum : (s.blockErrorSum50.push (wordError s.expectedOffset w)).getSum >
      kMaxErrorsToleratedOver50Blocks
  · rw [if_pos hsum, if_pos hsum]
  · rw [if_neg hsum, if_neg hsum]
    by_cases htaken : (correctedBlock s.useFec
        (BlockStream.switchOffset s.expectedOffset (offsetOf w)) w (offsetOf w)).offset =
          BlockStream.switchOffset s.expectedOffset (offsetOf w) <;>
      by_cases hlast : getNextOffsetFor s.expectedOffset = .a <;>
        simp [htaken, hlast, BlockStream.handleNewlyReceivedGroup]

/-! ### A stream in sync -/

/-- The errors a stream in sync tolerates: at most 42 in the last 50 words
    since it found sync. -/
def Tolerable (since : List Nat) : Prop :=
  (since.rtake 50).sum ≤ kMaxErrorsToleratedOver50Blocks

instance (since : List Nat) : Decidable (Tolerable since) :=
  inferInstanceAs (Decidable (_ ≤ _))

/-- A stream in sync that expects `expected`, with the errors of the words
    since it found sync and the blocks of the group it is in. -/
structure InSync (s : BlockStream) (useFec : Bool) (expected : Offset) (since : List Nat)
    (group : Group) : Prop where
  isInSync : s.isInSync = true
  hasGroupReady : s.hasGroupReady = false
  useFec_eq : s.useFec = useFec
  expected_eq : s.expectedOffset = expected
  errors : s.blockErrorSum50.Since since
  group_eq : s.currentGroup = group
  valid : expected ≠ .invalid
  tolerable : Tolerable since
  fresh : expected = .a → group = .initial

/-- One that is between two blocks. -/
structure Locked (s : BlockStream) (useFec : Bool) (expected : Offset) (since : List Nat)
    (group : Group) : Prop extends InSync s useFec expected since group where
  numBits : s.numBitsUntilNextBlock = kBlockLength

/-- A stream out of sync, which looks for a block after every bit. -/
structure Searching (s : BlockStream) (useFec : Bool) : Prop where
  isInSync : s.isInSync = false
  hasGroupReady : s.hasGroupReady = false
  useFec_eq : s.useFec = useFec
  errors : s.blockErrorSum50.Since []
  numBits : s.numBitsUntilNextBlock = 1

namespace InSync
variable {s : BlockStream} {useFec : Bool} {expected : Offset} {since : List Nat} {group : Group}

theorem skip (h : InSync s useFec expected since group) (bits : List Bool) :
    InSync (s.skip bits) useFec expected since group :=
  { h with }

/-- One word that leaves the errors tolerable. -/
theorem handOn (h : InSync s useFec expected since group) {w : BitVec 26}
    (htol : Tolerable (since ++ [wordError expected w])) :
    ∃ s', Rds.handOn (s.takeBlock w (offsetOf w)) = (s', if getNextOffsetFor expected = .a then
        [toRdsGroup (group.take useFec expected w)] else []) ∧
      Locked s' useFec (getNextOffsetFor expected) (since ++ [wordError expected w])
        (if getNextOffsetFor expected = .a then .initial else group.take useFec expected w) := by
  obtain ⟨hsync, hready, rfl, rfl, herrors, rfl, -, -, -⟩ := h
  have hpush := herrors.push (wordError s.expectedOffset w)
  have hsum : ¬ (s.blockErrorSum50.push (wordError s.expectedOffset w)).getSum >
      kMaxErrorsToleratedOver50Blocks := by
    rw [hpush.getSum]
    exact Nat.not_lt.mpr htol
  have hnext := getNextOffsetFor_ne_invalid s.expectedOffset
  simp only [Rds.handOn, takeBlock_eq, if_neg hsum]
  by_cases hlast : getNextOffsetFor s.expectedOffset = .a
  · simp only [if_pos hlast, hsync, if_true]
    exact ⟨_, rfl, ⟨rfl, rfl, rfl, rfl, hpush, rfl, hnext, htol, fun _ => rfl⟩, rfl⟩
  · simp only [if_neg hlast, hsync, hready, if_true]
    exact ⟨_, rfl, ⟨rfl, rfl, rfl, rfl, hpush, rfl, hnext, htol, fun h => absurd h hlast⟩, rfl⟩

/-- One word too many that is wrong. -/
theorem handOn_lost (h : InSync s useFec expected since group) {w : BitVec 26}
    (hmany : ¬ Tolerable (since ++ [wordError expected w])) :
    ∃ s', Rds.handOn (s.takeBlock w (offsetOf w)) = (s', []) ∧ Searching s' useFec := by
  obtain ⟨hsync, hready, rfl, rfl, herrors, rfl, -, -, -⟩ := h
  have hpush := herrors.push (wordError s.expectedOffset w)
  have hsum : (s.blockErrorSum50.push (wordError s.expectedOffset w)).getSum >
      kMaxErrorsToleratedOver50Blocks := by
    rw [hpush.getSum]
    exact Nat.not_le.mp hmany
  simp only [Rds.handOn, takeBlock_eq, if_pos hsum, hready]
  exact ⟨_, rfl, rfl, rfl, rfl, RunningSum.Since.clear _, rfl⟩

end InSync

namespace Locked
variable {s : BlockStream} {useFec : Bool} {expected : Offset} {since : List Nat} {group : Group}

theorem emitGroups_wordBits (h : Locked s useFec expected since group) (w : BitVec 26) :
    emitGroups s (wordBits w) = handOn ((s.skip (wordBits w)).takeBlock w (offsetOf w)) :=
  Rds.emitGroups_wordBits h.isInSync h.hasGroupReady h.numBits w

/-- One word that leaves the errors tolerable, bit by bit. -/
theorem receiveWord (h : Locked s useFec expected since group) {w : BitVec 26}
    (htol : Tolerable (since ++ [wordError expected w])) :
    ∃ s', emitGroups s (wordBits w) = (s', if getNextOffsetFor expected = .a then
        [toRdsGroup (group.take useFec expected w)] else []) ∧
      Locked s' useFec (getNextOffsetFor expected) (since ++ [wordError expected w])
        (if getNextOffsetFor expected = .a then .initial else group.take useFec expected w) := by
  rw [h.emitGroups_wordBits]
  exact (h.toInSync.skip (wordBits w)).handOn htol

/-- One word too many that is wrong, bit by bit. -/
theorem receiveWord_lost (h : Locked s useFec expected since group) {w : BitVec 26}
    (hmany : ¬ Tolerable (since ++ [wordError expected w])) :
    ∃ s', emitGroups s (wordBits w) = (s', []) ∧ Searching s' useFec := by
  rw [h.emitGroups_wordBits]
  exact (h.toInSync.skip (wordBits w)).handOn_lost hmany

end Locked

/-! ### Many words -/

/-- The errors of words in turn. -/
def wordErrors (expected : Offset) : List (BitVec 26) → List Nat
  | [] => []
  | w :: ws => wordError expected w :: wordErrors (getNextOffsetFor expected) ws

/-- Every one of the words leaves the errors tolerable. -/
def Tolerated (since : List Nat) : List Nat → Prop
  | [] => True
  | e :: es => Tolerable (since ++ [e]) ∧ Tolerated (since ++ [e]) es

instance decidableTolerated : ∀ since es, Decidable (Tolerated since es)
  | _, [] => isTrue trivial
  | since, e :: es =>
      have := decidableTolerated (since ++ [e]) es
      inferInstanceAs (Decidable (_ ∧ Tolerated (since ++ [e]) es))

theorem wordErrors_append (expected : Offset) (ws ws' : List (BitVec 26)) :
    wordErrors expected (ws ++ ws') =
      wordErrors expected ws ++ wordErrors (getNextOffsetFor^[ws.length] expected) ws' := by
  induction ws generalizing expected with
  | nil => rfl
  | cons w ws ih => simp only [List.cons_append, wordErrors, ih, List.length_cons,
      Function.iterate_succ_apply]

theorem tolerated_append {since es es' : List Nat} :
    Tolerated since (es ++ es') ↔ Tolerated since es ∧ Tolerated (since ++ es) es' := by
  induction es generalizing since with
  | nil => simp [Tolerated]
  | cons e es ih => simp [Tolerated, ih, and_assoc]

/-- A stream stays in sync as long as the errors are tolerable. -/
theorem Locked.receiveWords {s : BlockStream} {useFec : Bool} {expected : Offset}
    {since : List Nat} {group : Group} (h : Locked s useFec expected since group)
    {ws : List (BitVec 26)} (htol : Tolerated since (wordErrors expected ws)) :
    ∃ group', Locked (emitGroups s (ws.flatMap wordBits)).1 useFec
      (getNextOffsetFor^[ws.length] expected) (since ++ wordErrors expected ws) group' := by
  induction ws generalizing s expected since group with
  | nil => exact ⟨group, by simpa [wordErrors, emitGroups] using h⟩
  | cons w ws ih =>
    obtain ⟨s', hreceive, hsync⟩ := h.receiveWord htol.1
    obtain ⟨group', hrest⟩ := ih hsync htol.2
    refine ⟨group', ?_⟩
    rw [List.flatMap_cons, emitGroups_append, hreceive]
    simpa [wordErrors] using hrest

/-- Sync is lost with the first word that makes too many of the last 50
    wrong, and not before. -/
theorem sync_kept_iff_tolerable {s : BlockStream} {useFec : Bool} {expected : Offset}
    {since : List Nat} {group : Group} (h : Locked s useFec expected since group)
    (ws : List (BitVec 26)) (htol : Tolerated since (wordErrors expected ws)) (w : BitVec 26) :
    ∃ s' out, emitGroups s ((ws ++ [w]).flatMap wordBits) = (s', out) ∧
      (Tolerable (since ++ wordErrors expected (ws ++ [w])) →
        ∃ group', Locked s' useFec (getNextOffsetFor^[ws.length + 1] expected)
          (since ++ wordErrors expected (ws ++ [w])) group') ∧
      (¬ Tolerable (since ++ wordErrors expected (ws ++ [w])) → Searching s' useFec) := by
  obtain ⟨group', hsync⟩ := h.receiveWords htol
  have hlater : wordErrors expected (ws ++ [w]) = wordErrors expected ws ++
      [wordError (getNextOffsetFor^[ws.length] expected) w] := wordErrors_append expected ws [w]
  rw [List.flatMap_append, List.flatMap_singleton, emitGroups_append, hlater,
    ← List.append_assoc, Function.iterate_succ_apply']
  by_cases hlast : Tolerable (since ++ wordErrors expected ws ++
      [wordError (getNextOffsetFor^[ws.length] expected) w])
  · obtain ⟨t, hreceive, ht⟩ := hsync.receiveWord hlast
    rw [hreceive]
    exact ⟨t, _, rfl, fun _ => ⟨_, ht⟩, fun hmany => absurd hlast hmany⟩
  · obtain ⟨t, hreceive, ht⟩ := hsync.receiveWord_lost hlast
    rw [hreceive]
    exact ⟨t, _, rfl, fun htol' => absurd htol' hlast, fun _ => ht⟩

/-- A stream that has just found sync. -/
def justLocked : BlockStream :=
  { BlockStream.initial true with isInSync := true, numBitsUntilNextBlock := kBlockLength }

theorem locked_justLocked : Locked justLocked true .a [] .initial where
  isInSync := rfl
  hasGroupReady := rfl
  useFec_eq := rfl
  expected_eq := rfl
  errors := RunningSum.Since.initial
  group_eq := rfl
  valid := by decide
  tolerable := by decide
  fresh _ := rfl
  numBits := rfl

/-- One wrong word does not end it. -/
theorem locked_after_wrong_word :
    ∃ s' out, emitGroups justLocked (([] ++ [0]).flatMap wordBits) = (s', out) ∧
      (Tolerable ([] ++ wordErrors .a ([] ++ [0])) →
        ∃ group', Locked s' true (getNextOffsetFor^[0 + 1] .a) ([] ++ wordErrors .a ([] ++ [0]))
          group') ∧
      (¬ Tolerable ([] ++ wordErrors .a ([] ++ [0])) → Searching s' true) :=
  sync_kept_iff_tolerable locked_justLocked [] trivial 0

/-! ### Groups -/

/-- What a group holds of a block. -/
def Group.reception (g : Group) (b : BlockNumber) : Option (BitVec 16 × Bool) :=
  if g.has b then some (g.get b, g.hadErrors b) else none

theorem BlockNumber.index_injective : Function.Injective BlockNumber.index := by
  intro a b h
  cases a <;> cases b <;> first | rfl | exact absurd h (by decide)

@[simp] theorem Group.reception_initial (b : BlockNumber) : Group.initial.reception b = none := by
  simp [Group.reception, Group.has, Group.initial, Block.initial]

/-- A word goes to its own block of the group, if it is received. -/
theorem Group.reception_take (g : Group) (useFec : Bool) (expected : Offset) (w : BitVec 26)
    (b : BlockNumber) :
    (g.take useFec expected w).reception b =
      if b = getBlockNumberForOffset expected then
        (Rds.reception useFec expected w).or (g.reception b)
      else g.reception b := by
  simp only [Group.take, Rds.reception]
  split
  · by_cases hb : b = getBlockNumberForOffset expected
    · subst hb
      simp [Group.reception, Group.has, Group.get, Group.hadErrors, Group.setBlock, comparedOffset]
    · have hindex : ((getBlockNumberForOffset expected).index : Nat) ≠ b.index := fun heq =>
        hb (BlockNumber.index_injective (Fin.ext heq)).symm
      have hother : ∀ block, (g.setBlock (getBlockNumberForOffset expected) block).blocks[b.index] =
          g.blocks[b.index] := fun block => Vector.getElem_set_ne (Fin.isLt _) (Fin.isLt _) hindex
      rw [if_neg hb]
      simp only [Group.reception, Group.has, Group.get, Group.hadErrors, comparedOffset,
        getBlockNumberForOffset_switchOffset, hother]
      rfl
  · split <;> simp

/-- The four words of a group. -/
structure GroupWords where
  a : BitVec 26
  b : BitVec 26
  c : BitVec 26
  d : BitVec 26
  deriving DecidableEq, Repr

namespace GroupWords

def words (g : GroupWords) : List (BitVec 26) := [g.a, g.b, g.c, g.d]

def bits (g : GroupWords) : List Bool := g.words.flatMap wordBits

def errors (g : GroupWords) : List Nat := wordErrors .a g.words

end GroupWords

/-- The data to hand on for a block, 0 if it is missing. -/
def receivedData (r : Option (BitVec 16 × Bool)) : BitVec 16 := (r.map Prod.fst).getD 0

/-- The error field: 0 received, 1 with errors, 3 missing. -/
def receivedErr : Option (BitVec 16 × Bool) → BitVec 8
  | some (_, false) => 0
  | some (_, true) => 1
  | none => 3

/-- The group to hand on for four words. -/
def groupOf (useFec : Bool) (g : GroupWords) : RdsGroup :=
  let a := reception useFec .a g.a
  let b := reception useFec .b g.b
  let c := reception useFec .c g.c
  let d := reception useFec .d g.d
  ⟨receivedData a, receivedData b, receivedData c, receivedData d,
    (receivedErr a <<< 6) ||| (receivedErr b <<< 4) ||| (receivedErr c <<< 2) ||| receivedErr d⟩

theorem dataOrZero_eq (g : Group) (b : BlockNumber) :
    dataOrZero g b = receivedData (g.reception b) := by
  unfold dataOrZero Group.reception
  split <;> rfl

theorem mapErr_eq (g : Group) (b : BlockNumber) : mapErr g b = receivedErr (g.reception b) := by
  unfold mapErr Group.reception
  split
  · cases g.hadErrors b <;> rfl
  · rfl

theorem toRdsGroup_take (useFec : Bool) (g : GroupWords) :
    toRdsGroup ((((Group.initial.take useFec .a g.a).take useFec .b g.b).take useFec .c g.c).take
      useFec .d g.d) = groupOf useFec g := by
  simp [toRdsGroup, packErrors, dataOrZero_eq, mapErr_eq, Group.reception_take, groupOf,
    getBlockNumberForOffset]

/-- The four words of a group from its first on. -/
theorem Locked.receiveGroup {s : BlockStream} {useFec : Bool} {since : List Nat}
    (h : Locked s useFec .a since .initial) {g : GroupWords} (htol : Tolerated since g.errors) :
    ∃ s', emitGroups s g.bits = (s', [groupOf useFec g]) ∧
      Locked s' useFec .a (since ++ g.errors) .initial := by
  obtain ⟨htola, htolb, htolc, htold, -⟩ := htol
  obtain ⟨sa, ha, hsa⟩ := h.receiveWord htola
  obtain ⟨sb, hb, hsb⟩ := hsa.receiveWord htolb
  obtain ⟨sc, hc, hsc⟩ := hsb.receiveWord htolc
  obtain ⟨sd, hd, hsd⟩ := hsc.receiveWord htold
  refine ⟨sd, ?_, ?_⟩
  · simp only [GroupWords.bits, GroupWords.words, List.flatMap_cons, List.flatMap_nil,
      List.append_nil, emitGroups_append]
    rw [ha, hb, hc, hd]
    simp only [getNextOffsetFor, ← toRdsGroup_take]
    rfl
  · simpa [GroupWords.errors, GroupWords.words, wordErrors, getNextOffsetFor] using hsd

/-- In sync, whatever the words are, one group is handed on for every four
    of them, as long as the errors are tolerable. -/
theorem groups_received {s : BlockStream} {useFec : Bool} {since : List Nat}
    (h : Locked s useFec .a since .initial) (gs : List GroupWords)
    (htol : Tolerated since (gs.flatMap GroupWords.errors)) :
    ∃ s', emitGroups s (gs.flatMap GroupWords.bits) = (s', gs.map (groupOf useFec)) ∧
      Locked s' useFec .a (since ++ gs.flatMap GroupWords.errors) .initial := by
  induction gs generalizing s since with
  | nil => exact ⟨s, rfl, by simpa using h⟩
  | cons g gs ih =>
    rw [List.flatMap_cons, tolerated_append] at htol
    obtain ⟨s', hfirst, hsync⟩ := h.receiveGroup htol.1
    obtain ⟨s'', hrest, hsync'⟩ := ih hsync htol.2
    refine ⟨s'', ?_, by simpa [List.append_assoc] using hsync'⟩
    rw [List.flatMap_cons, emitGroups_append, hfirst, hrest]
    rfl

/-- Four words that are no blocks make a group with nothing in it. -/
theorem one_empty_group :
    ∃ s', emitGroups justLocked ([⟨0, 0, 0, 0⟩].flatMap GroupWords.bits) =
        (s', [⟨0, 0, 0, 0⟩].map (groupOf true)) ∧
      Locked s' true .a ([] ++ [⟨0, 0, 0, 0⟩].flatMap GroupWords.errors) .initial :=
  groups_received locked_justLocked [⟨0, 0, 0, 0⟩] (by decide +kernel)

/-! ### Transmission with errors -/

theorem comparedOffset_ne_invalid {expected : Offset} (h : expected ≠ .invalid) (w : BitVec 26) :
    comparedOffset expected w ≠ .invalid := by
  rcases switchOffset_cases expected (offsetOf w) with heq | ⟨-, -, heq⟩ <;>
    rw [comparedOffset, heq]
  · exact h
  · decide

theorem syndrome_ne_zero_of_mem_burstErrors {e : BitVec 26} (he : e ∈ burstErrors) :
    calculateSyndrome e ≠ 0 := by
  have hall : burstErrors.all (fun e => calculateSyndrome e != 0) = true := by decide +kernel
  simpa using List.all_eq_true.mp hall e he

theorem reception_eq (useFec : Bool) (expected : Offset) (w : BitVec 26) :
    reception useFec expected w =
      if offsetOf w = comparedOffset expected w then some (blockData w, false)
      else if useFec ∧ (correctBurstErrors w (comparedOffset expected w)).succeeded then
        some (blockData (correctBurstErrors w (comparedOffset expected w)).correctedBits, true)
      else none := by
  simp only [reception, correctedBlock]
  by_cases heq : offsetOf w = comparedOffset expected w
  · simp [heq]
  · by_cases hfec : useFec ∧ (correctBurstErrors w (comparedOffset expected w)).succeeded
    · simp [heq, hfec]
    · rw [if_neg heq, if_neg hfec]
      cases useFec
      · simp [heq]
      · simp only [true_and, Bool.not_eq_true] at hfec
        simp [heq, hfec]

/-- A block is received without errors exactly if it is one as it is sent. -/
theorem reception_eq_clean_iff {expected : Offset} (h : expected ≠ .invalid) (useFec : Bool)
    (w : BitVec 26) (data : BitVec 16) :
    reception useFec expected w = some (data, false) ↔
      w = encodeBlock data (comparedOffset expected w) := by
  have hoffset := offset_eq_iff (comparedOffset_ne_invalid h w) w
  rw [reception_eq]
  by_cases heq : offsetOf w = comparedOffset expected w
  · rw [if_pos heq]
    have hword := hoffset.mp heq
    constructor
    · intro hdata
      simp only [Option.some.injEq, Prod.mk.injEq, and_true] at hdata
      rwa [hdata] at hword
    · intro hencode
      have hdata := congrArg blockData hencode
      rw [blockData_encodeBlock] at hdata
      rw [hdata]
  · rw [if_neg heq]
    constructor
    · intro hnone
      split at hnone <;> simp at hnone
    · intro hencode
      have hdata := congrArg blockData hencode
      rw [blockData_encodeBlock] at hdata
      exact absurd (hoffset.mpr (by rw [hdata]; exact hencode)) heq

/-- It is received with errors exactly if correction is enabled and one
    burst of one or two bits is all that is wrong. -/
theorem reception_eq_corrected_iff {expected : Offset} (h : expected ≠ .invalid) (useFec : Bool)
    (w : BitVec 26) (data : BitVec 16) :
    reception useFec expected w = some (data, true) ↔
      useFec = true ∧ w ^^^ encodeBlock data (comparedOffset expected w) ∈ burstErrors := by
  have hcompared := comparedOffset_ne_invalid h w
  have hoffset := offset_eq_iff hcompared w
  rw [reception_eq]
  by_cases heq : offsetOf w = comparedOffset expected w
  · -- the word has no syndrome left to correct
    have hsyndrome :
        calculateSyndrome (w ^^^ encodeBlock data (comparedOffset expected w)) = 0 := by
      rw [← calculateSyndrome_xorLinear.eq_iff_xor, calculateSyndrome_encodeBlock]
      exact (getOffsetForSyndrome_eq_iff hcompared _).mp heq
    rw [if_pos heq]
    constructor
    · intro hdata
      simp at hdata
    · rintro ⟨-, hmem⟩
      exact absurd hsyndrome (syndrome_ne_zero_of_mem_burstErrors hmem)
  · rw [if_neg heq]
    have hcorrect := correctBurstErrors_eq_iff hcompared w
    constructor
    · intro hsome
      split at hsome
      · next hfec =>
        simp only [Option.some.injEq, Prod.mk.injEq, and_true] at hsome
        obtain ⟨⟨data', hword⟩, hmem⟩ := (hcorrect
          (correctBurstErrors w (comparedOffset expected w)).correctedBits).mp (by
            rw [← hfec.2])
        rw [hword, blockData_encodeBlock] at hsome
        rw [hword, hsome] at hmem
        exact ⟨hfec.1, hmem⟩
      · cases hsome
    · rintro ⟨hfec, hmem⟩
      rw [(hcorrect _).mpr ⟨⟨data, rfl⟩, hmem⟩, if_pos ⟨hfec, rfl⟩]
      simp

/-- A burst that correction can take back, or no error. -/
def Correctable (e : BitVec 26) : Prop := e = 0 ∨ e ∈ burstErrors

instance (e : BitVec 26) : Decidable (Correctable e) := inferInstanceAs (Decidable (_ ∨ _))

/-- 1 for a block that was hit. -/
def hit (e : BitVec 26) : Nat := if e = 0 then 0 else 1

theorem xor_xor_cancel (a b : BitVec 26) : a ^^^ b ^^^ a = b := by
  rw [BitVec.xor_comm a b, BitVec.xor_assoc, BitVec.xor_self, BitVec.xor_zero]

/-- A block of offset C with such a burst is not taken for one of C'. -/
theorem comparedOffset_sent (expected : Offset) (data : BitVec 16) {e : BitVec 26}
    (he : Correctable e) :
    comparedOffset expected (encodeBlock data expected ^^^ e) = expected := by
  rcases switchOffset_cases expected (offsetOf (encodeBlock data expected ^^^ e)) with
    heq | ⟨rfl, hprime, -⟩
  · exact heq
  · have hall : burstErrors.all (fun e => calculateSyndrome ((offsetWord .c).setWidth 26) ^^^
        calculateSyndrome e != calculateSyndrome ((offsetWord .cPrime).setWidth 26)) = true := by
      decide +kernel
    rw [offsetOf, getOffsetForSyndrome_eq_iff (by decide), calculateSyndrome_xorLinear.map_xor,
      calculateSyndrome_encodeBlock] at hprime
    rcases he with rfl | hmem
    · rw [calculateSyndrome_xorLinear.map_zero] at hprime
      exact absurd hprime (by decide +kernel)
    · exact absurd hprime (by simpa using List.all_eq_true.mp hall e hmem)

/-- The data of a block come through, and the error field tells whether it
    was hit. -/
theorem reception_sent {expected : Offset} (h : expected ≠ .invalid) (data : BitVec 16)
    {e : BitVec 26} (he : Correctable e) :
    reception true expected (encodeBlock data expected ^^^ e) = some (data, decide (e ≠ 0)) := by
  have hcompared := comparedOffset_sent expected data he
  by_cases hzero : e = 0
  · subst hzero
    have hclean := reception_eq_clean_iff h true (encodeBlock data expected ^^^ 0) data
    rw [hcompared] at hclean
    simpa using hclean.mpr (BitVec.xor_zero)
  · have hmem := he.resolve_left hzero
    have hcorrected := reception_eq_corrected_iff h true (encodeBlock data expected ^^^ e) data
    rw [hcompared, xor_xor_cancel] at hcorrected
    rw [hcorrected.mpr ⟨rfl, hmem⟩, decide_eq_true hzero]

theorem wordError_sent {expected : Offset} (h : expected ≠ .invalid) (data : BitVec 16)
    {e : BitVec 26} (he : Correctable e) :
    wordError expected (encodeBlock data expected ^^^ e) = hit e := by
  have hsyndrome : offsetOf (encodeBlock data expected ^^^ e) = expected ↔
      calculateSyndrome e = 0 := by
    rw [offsetOf, getOffsetForSyndrome_eq_iff h, calculateSyndrome_xorLinear.map_xor,
      calculateSyndrome_encodeBlock]
    constructor
    · intro heq
      have hcancel := congrArg (calculateSyndrome ((offsetWord expected).setWidth 26) ^^^ ·) heq
      simpa [← BitVec.xor_assoc] using hcancel
    · intro hzero
      rw [hzero]
      exact BitVec.xor_zero
  have hzero : calculateSyndrome e = 0 ↔ e = 0 := by
    constructor
    · intro hsyn
      exact he.resolve_right fun hmem => syndrome_ne_zero_of_mem_burstErrors hmem hsyn
    · rintro rfl
      exact calculateSyndrome_xorLinear.map_zero
  rw [wordError, comparedOffset_sent expected data he, hit]
  by_cases he0 : e = 0
  · rw [if_pos he0, if_neg (not_not.mpr (hsyndrome.mpr (hzero.mpr he0)))]
  · rw [if_neg he0, if_pos (mt hsyndrome.mp (mt hzero.mp he0))]

/-- A group to send. The third block of a version B group has offset C'. -/
structure SentGroup where
  a : BitVec 16
  b : BitVec 16
  c : BitVec 16
  d : BitVec 16
  versionB : Bool
  deriving DecidableEq, Repr

/-- What is wrong with the four words on the way. -/
structure GroupNoise where
  a : BitVec 26
  b : BitVec 26
  c : BitVec 26
  d : BitVec 26
  deriving DecidableEq, Repr

/-- At most one burst in every block, and none in the third of a version B
    group. -/
structure GroupNoise.Correctable (e : GroupNoise) (g : SentGroup) : Prop where
  a : Rds.Correctable e.a
  b : Rds.Correctable e.b
  c : Rds.Correctable e.c
  d : Rds.Correctable e.d
  versionB : g.versionB = true → e.c = 0

/-- The words that arrive. -/
def SentGroup.arriving (g : SentGroup) (e : GroupNoise) : GroupWords :=
  ⟨encodeBlock g.a .a ^^^ e.a, encodeBlock g.b .b ^^^ e.b,
    encodeBlock g.c (if g.versionB then .cPrime else .c) ^^^ e.c, encodeBlock g.d .d ^^^ e.d⟩

/-- The group that was sent, with the blocks that were hit marked. -/
def SentGroup.handedOn (g : SentGroup) (e : GroupNoise) : RdsGroup :=
  let mark (e : BitVec 26) : BitVec 8 := if e = 0 then 0 else 1
  ⟨g.a, g.b, g.c, g.d, (mark e.a <<< 6) ||| (mark e.b <<< 4) ||| (mark e.c <<< 2) ||| mark e.d⟩

/-- The blocks that were hit, in the order they were sent. -/
def GroupNoise.hits (e : GroupNoise) : List Nat := [hit e.a, hit e.b, hit e.c, hit e.d]

theorem reception_sent_third {g : SentGroup} {e : GroupNoise} (he : e.Correctable g) :
    reception true .c (g.arriving e).c = some (g.c, decide (e.c ≠ 0)) ∧
      wordError .c (g.arriving e).c = hit e.c := by
  cases hversion : g.versionB with
  | false =>
    simp only [SentGroup.arriving, hversion]
    exact ⟨reception_sent (by decide) g.c he.c, wordError_sent (by decide) g.c he.c⟩
  | true =>
    have hclean := he.versionB hversion
    have hoffset : offsetOf (encodeBlock g.c .cPrime) = .cPrime :=
      (offset_eq_iff (by decide) _).mpr (by rw [blockData_encodeBlock])
    have hcompared : comparedOffset .c (encodeBlock g.c .cPrime) = .cPrime := by
      rw [comparedOffset, hoffset]
      rfl
    have hword : (g.arriving e).c = encodeBlock g.c .cPrime := by
      simp only [SentGroup.arriving, hversion, hclean, if_true]
      exact BitVec.xor_zero
    rw [hword, hclean]
    constructor
    · exact (reception_eq_clean_iff (by decide) true _ _).mpr (by rw [hcompared])
    · simp [wordError, hcompared, hoffset, hit]

theorem groupOf_arriving {g : SentGroup} {e : GroupNoise} (he : e.Correctable g) :
    groupOf true (g.arriving e) = g.handedOn e := by
  have herr : ∀ data : BitVec 16, ∀ x : BitVec 26,
      receivedErr (some (data, decide (x ≠ 0))) = if x = 0 then 0 else 1 := by
    intro data x
    by_cases hx : x = 0
    · rw [if_pos hx, decide_eq_false (not_not.mpr hx)]
      rfl
    · rw [if_neg hx, decide_eq_true hx]
      rfl
  have ha : reception true .a (g.arriving e).a = some (g.a, decide (e.a ≠ 0)) :=
    reception_sent (by decide) g.a he.a
  have hb : reception true .b (g.arriving e).b = some (g.b, decide (e.b ≠ 0)) :=
    reception_sent (by decide) g.b he.b
  have hd : reception true .d (g.arriving e).d = some (g.d, decide (e.d ≠ 0)) :=
    reception_sent (by decide) g.d he.d
  simp only [groupOf, ha, hb, (reception_sent_third he).1, hd, herr]
  rfl

theorem errors_arriving {g : SentGroup} {e : GroupNoise} (he : e.Correctable g) :
    (g.arriving e).errors = e.hits := by
  have ha : wordError .a (g.arriving e).a = hit e.a := wordError_sent (by decide) g.a he.a
  have hb : wordError .b (g.arriving e).b = hit e.b := wordError_sent (by decide) g.b he.b
  have hd : wordError .d (g.arriving e).d = hit e.d := wordError_sent (by decide) g.d he.d
  simp only [GroupWords.errors, GroupWords.words, wordErrors, getNextOffsetFor, ha, hb,
    (reception_sent_third he).2, hd, GroupNoise.hits]

/-- Groups are handed on as they were sent, through at most one burst of one
    or two bits in every block. -/
theorem groups_roundtrip {s : BlockStream} {since : List Nat}
    (h : Locked s true .a since .initial) (sent : List (SentGroup × GroupNoise))
    (hnoise : ∀ p ∈ sent, p.2.Correctable p.1)
    (htol : Tolerated since (sent.flatMap fun p => p.2.hits)) :
    ∃ s', emitGroups s (sent.flatMap fun p => (p.1.arriving p.2).bits) =
        (s', sent.map fun p => p.1.handedOn p.2) ∧
      Locked s' true .a (since ++ sent.flatMap fun p => p.2.hits) .initial := by
  have herrors : (sent.map fun p => p.1.arriving p.2).flatMap GroupWords.errors =
      sent.flatMap fun p => p.2.hits := by
    rw [List.flatMap_map]
    exact List.flatMap_congr fun p hp => errors_arriving (hnoise p hp)
  obtain ⟨s', hemit, hsync⟩ := groups_received h
    (sent.map fun p => p.1.arriving p.2) (by rwa [herrors])
  rw [herrors] at hsync
  rw [List.flatMap_map, List.map_map] at hemit
  refine ⟨s', ?_, hsync⟩
  rw [hemit]
  congr 1
  exact List.map_congr_left fun p hp => groupOf_arriving (hnoise p hp)

/-- One group with a burst in the second block. -/
theorem one_group_with_burst :
    ∃ s', emitGroups justLocked ([((⟨0x54A8, 0x0409, 0xF9C8, 0x0E83, false⟩ : SentGroup),
        (⟨0, 0b110000, 0, 0⟩ : GroupNoise))].flatMap fun p => (p.1.arriving p.2).bits) =
        (s', [⟨0x54A8, 0x0409, 0xF9C8, 0x0E83, 0b00010000⟩]) ∧
      Locked s' true .a [0, 1, 0, 0] .initial :=
  groups_roundtrip locked_justLocked [(⟨0x54A8, 0x0409, 0xF9C8, 0x0E83, false⟩,
    ⟨0, 0b110000, 0, 0⟩)] (by
      intro p hp
      rw [List.mem_singleton.mp hp]
      exact ⟨Or.inl rfl, Or.inr (by decide +kernel), Or.inl rfl, Or.inl rfl, fun _ => rfl⟩)
    (by decide +kernel)

end FmSdrTuner.Rds

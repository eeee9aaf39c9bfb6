import FmSdrTuner.Rds.GroupReception

/-! # Finding sync

    A stream that is out of sync needs three blocks in the right rhythm. One
    that follows a rhythm that is not there takes every word for an error
    and gives it up after 43 of them. So a clean transmission is found from
    any state, within 46 of its blocks.

    Main results: `valid_emitGroups`, `sync_of_three_blocks` and
    `groups_after_recovery`. -/

namespace FmSdrTuner.Rds

variable {s : BlockStream} {useFec : Bool}

/-! ### The states between two bits -/

theorem comparedOffset_self (w : BitVec 26) : comparedOffset (offsetOf w) w = offsetOf w := by
  rcases switchOffset_cases (offsetOf w) (offsetOf w) with h | ⟨-, hprime, h⟩
  · exact h
  · rw [comparedOffset, h, hprime]

/-- What holds of a stream between two bits: it is out of sync, or in sync
    with an offset that can be looked up. -/
def Valid (s : BlockStream) (useFec : Bool) : Prop :=
  Searching s useFec ∨
    ∃ previous since group, InSync s useFec (getNextOffsetFor previous) since group ∧
      1 ≤ s.numBitsUntilNextBlock ∧ s.numBitsUntilNextBlock ≤ kBlockLength

theorem valid_initial (useFec : Bool) : Valid (BlockStream.initial useFec) useFec :=
  Or.inl ⟨rfl, rfl, rfl, RunningSum.Since.initial, rfl⟩

/-- Three blocks in rhythm, the last of them in the register. -/
def SyncFound (s : BlockStream) : Prop :=
  offsetOf s.lastWord ≠ .invalid ∧
    (s.syncBuffer.push (offsetOf s.lastWord) s.bitcount).isSequenceFound = true

instance (s : BlockStream) : Decidable (SyncFound s) := inferInstanceAs (Decidable (_ ∧ _))

/-- The buffer after a look at the word in the register. -/
def pulsesAfter (s : BlockStream) : SyncPulseBuffer :=
  if offsetOf s.lastWord ≠ .invalid then s.syncBuffer.push (offsetOf s.lastWord) s.bitcount
  else s.syncBuffer

/-- Out of sync, and nothing found. -/
theorem findBlock_of_missed (hsync : s.isInSync = false) (hmissed : ¬ SyncFound s) :
    s.findBlockInInputRegister = { s with syncBuffer := pulsesAfter s } := by
  have hraw : getOffsetForSyndrome (calculateSyndrome (s.inputRegister.setWidth 26)) =
      offsetOf s.lastWord := rfl
  by_cases hoffset : offsetOf s.lastWord = .invalid
  · have hsame : ({ s with syncBuffer := pulsesAfter s } : BlockStream) = s := by
      rw [pulsesAfter, if_neg (not_not.mpr hoffset)]
    rw [hsame]
    simp [BlockStream.findBlockInInputRegister, BlockStream.acquireSync, hraw, hsync, hoffset]
  · have hnone : ¬ (s.syncBuffer.push (offsetOf s.lastWord) s.bitcount).isSequenceFound = true :=
      fun hfound => hmissed ⟨hoffset, hfound⟩
    rw [pulsesAfter, if_pos hoffset]
    simp [BlockStream.findBlockInInputRegister, BlockStream.acquireSync, hraw, hsync, hoffset,
      hnone]

/-- Out of sync, and sync is found: the block counts as the first one. -/
theorem findBlock_of_found (hsync : s.isInSync = false) (hfound : SyncFound s) :
    s.findBlockInInputRegister =
      ({ s with
        syncBuffer := pulsesAfter s
        isInSync := true
        expectedOffset := offsetOf s.lastWord
        currentGroup := .initial } : BlockStream).takeBlock s.lastWord (offsetOf s.lastWord) := by
  have hraw : getOffsetForSyndrome (calculateSyndrome (s.inputRegister.setWidth 26)) =
      offsetOf s.lastWord := rfl
  simp only [BlockStream.findBlockInInputRegister, BlockStream.acquireSync, hraw, hsync,
    pulsesAfter]
  simp only [hfound.1, hfound.2, ne_eq, not_false_eq_true, if_true, Bool.false_eq_true, if_false]
  rfl

namespace Searching

/-- A bit out of sync that does not find it. -/
theorem emitGroup_missed (h : Searching s useFec) {bit : Bool}
    (hmissed : ¬ SyncFound (s.skip [bit])) :
    ∃ s', emitGroup s bit = (s', []) ∧ Searching s' useFec ∧
      s'.syncBuffer = pulsesAfter (s.skip [bit]) ∧ s'.bitcount = s.bitcount + 1 ∧
      s'.inputRegister = shiftBit s.inputRegister bit := by
  have hsync : (s.skip [bit]).isInSync = false := h.isInSync
  have hready : (s.skip [bit]).hasGroupReady = false := h.hasGroupReady
  rw [emitGroup_of_last h.numBits, findBlock_of_missed hsync hmissed]
  simp only [handOn, hsync, hready]
  exact ⟨_, rfl, ⟨rfl, rfl, h.useFec_eq, h.errors, rfl⟩, rfl, rfl, rfl⟩

/-- A bit that finds sync. -/
theorem emitGroup_found (h : Searching s useFec) {bit : Bool} (hfound : SyncFound (s.skip [bit])) :
    ∃ s' out group, emitGroup s bit = (s', out) ∧
      Locked s' useFec (getNextOffsetFor (offsetOf (s.skip [bit]).lastWord)) [0] group := by
  have hsync : (s.skip [bit]).isInSync = false := h.isInSync
  rw [emitGroup_of_last h.numBits, findBlock_of_found hsync hfound]
  have hin : InSync { s.skip [bit] with
      syncBuffer := pulsesAfter (s.skip [bit])
      isInSync := true
      expectedOffset := offsetOf (s.skip [bit]).lastWord
      currentGroup := Group.initial } useFec (offsetOf (s.skip [bit]).lastWord) [] .initial :=
    ⟨rfl, h.hasGroupReady, h.useFec_eq, rfl, h.errors, rfl, hfound.1, by decide, fun _ => rfl⟩
  have herror : wordError (offsetOf (s.skip [bit]).lastWord) (s.skip [bit]).lastWord = 0 := by
    rw [wordError, comparedOffset_self]
    exact if_neg (not_not.mpr rfl)
  obtain ⟨s', hemit, hlocked⟩ := hin.handOn (w := (s.skip [bit]).lastWord) (by
    rw [herror]
    decide)
  rw [herror] at hlocked
  exact ⟨s', _, _, hemit, hlocked⟩

end Searching

namespace InSync
variable {expected : Offset} {since : List Nat} {group : Group}

/-- In sync the register is not looked at before a block is complete. -/
theorem emitGroup_of_lt (h : InSync s useFec expected since group)
    (hbits : 1 < s.numBitsUntilNextBlock) (bit : Bool) :
    emitGroup s bit = (s.skip [bit], []) := by
  have hskip := emitGroups_of_lt h.hasGroupReady [bit] (by simpa using hbits)
  simp only [emitGroups, List.append_nil] at hskip
  exact Prod.ext (congrArg Prod.fst hskip) (congrArg Prod.snd hskip)

theorem emitGroup_of_last (h : InSync s useFec expected since group)
    (hlast : s.numBitsUntilNextBlock = 1) (bit : Bool) :
    emitGroup s bit = Rds.handOn ((s.skip [bit]).takeBlock (s.skip [bit]).lastWord
      (offsetOf (s.skip [bit]).lastWord)) := by
  rw [Rds.emitGroup_of_last hlast, findBlock_of_inSync (h.skip [bit]).isInSync]

end InSync

/-! ### Every run -/

theorem valid_emitGroup (h : Valid s useFec) (bit : Bool) : Valid (emitGroup s bit).1 useFec := by
  rcases h with h | ⟨previous, since, group, h, hpos, hle⟩
  · by_cases hfound : SyncFound (s.skip [bit])
    · obtain ⟨s', out, group, hemit, hlocked⟩ := h.emitGroup_found hfound
      rw [hemit]
      exact Or.inr ⟨_, _, _, hlocked.toInSync, by rw [hlocked.numBits]; decide,
        hlocked.numBits.le⟩
    · obtain ⟨s', hemit, hsearching, -⟩ := h.emitGroup_missed hfound
      rw [hemit]
      exact Or.inl hsearching
  · by_cases hlast : s.numBitsUntilNextBlock = 1
    · rw [h.emitGroup_of_last hlast]
      by_cases htol : Tolerable (since ++
          [wordError (getNextOffsetFor previous) (s.skip [bit]).lastWord])
      · obtain ⟨s', hemit, hlocked⟩ := (h.skip [bit]).handOn htol
        rw [hemit]
        exact Or.inr ⟨_, _, _, hlocked.toInSync, by rw [hlocked.numBits]; decide,
          hlocked.numBits.le⟩
      · obtain ⟨s', hemit, hsearching⟩ := (h.skip [bit]).handOn_lost htol
        rw [hemit]
        exact Or.inl hsearching
    · rw [h.emitGroup_of_lt (by omega) bit]
      refine Or.inr ⟨previous, since, group, h.skip [bit], ?_, ?_⟩
      · simp only [BlockStream.skip, List.length_singleton]
        omega
      · simp only [BlockStream.skip, List.length_singleton]
        omega

theorem valid_emitGroups (h : Valid s useFec) (bits : List Bool) :
    Valid (emitGroups s bits).1 useFec := by
  induction bits generalizing s with
  | nil => exact h
  | cons bit bits ih => exact ih (valid_emitGroup h bit)

/-- Whatever bits come in, a stream that is in sync expects an offset that
    the table of errors has an entry for, and has had at most 42 errors in
    the last 50 blocks; one that is not looks for a block with every bit. -/
theorem valid_run (useFec : Bool) (bits : List Bool) :
    Valid (emitGroups (BlockStream.initial useFec) bits).1 useFec :=
  valid_emitGroups (valid_initial useFec) bits

/-! ### Where sync is found -/

/-- The word that ends with bit `n` of a transmission. -/
def wordAt (bits : List Bool) (n : Nat) : BitVec 26 := ((bits.take n).foldl shiftBit 0).setWidth 26

/-- A pulse that was noted at bit `n`. -/
def pulseAt (bits : List Bool) (n : Nat) : SyncPulse :=
  ⟨offsetOf (wordAt bits n), BitVec.ofNat 32 n⟩

theorem wordAt_append {bits bits' : List Bool} {n : Nat} (hn : n ≤ bits.length) :
    wordAt (bits ++ bits') n = wordAt bits n := by
  rw [wordAt, List.take_append_of_le_length hn, wordAt]

/-- The blocks noted while out of sync, by the bits they end with. -/
structure PulseLog (bits : List Bool) (s : BlockStream) (log : List Nat) : Prop where
  bitcount : s.bitcount = BitVec.ofNat 32 bits.length
  inputRegister : s.inputRegister = bits.foldl shiftBit 0
  pulses : s.syncBuffer.pulses.toList =
    (List.replicate 4 (⟨.invalid, 0⟩ : SyncPulse) ++ log.map (pulseAt bits)).rtake 4
  increasing : log.Pairwise (· < ·)
  range : ∀ n ∈ log, 0 < n ∧ n ≤ bits.length

theorem takeBlock_frame (s : BlockStream) (w : BitVec 26) :
    let s' := s.takeBlock w (offsetOf w)
    s'.bitcount = s.bitcount ∧ s'.inputRegister = s.inputRegister ∧
      s'.syncBuffer = s.syncBuffer := by
  intro s'
  simp only [s', takeBlock_eq]
  split
  · exact ⟨rfl, rfl, rfl⟩
  · split <;> exact ⟨rfl, rfl, rfl⟩

theorem handOn_frame (s : BlockStream) :
    (handOn s).1.bitcount = s.bitcount ∧ (handOn s).1.inputRegister = s.inputRegister ∧
      (handOn s).1.syncBuffer = s.syncBuffer := by
  simp only [handOn]
  split <;> exact ⟨rfl, rfl, rfl⟩

/-- Only a bit out of sync may add a pulse. -/
theorem emitGroup_frame (h : Valid s useFec) (bit : Bool) :
    (emitGroup s bit).1.bitcount = s.bitcount + 1 ∧
      (emitGroup s bit).1.inputRegister = shiftBit s.inputRegister bit ∧
      (emitGroup s bit).1.syncBuffer =
        if s.isInSync then s.syncBuffer else pulsesAfter (s.skip [bit]) := by
  rcases h with h | ⟨previous, since, group, h, hpos, hle⟩
  · rw [h.isInSync, if_neg Bool.false_ne_true]
    have hsync : (s.skip [bit]).isInSync = false := h.isInSync
    rw [emitGroup_of_last h.numBits]
    obtain ⟨hcount, hregister, hbuffer⟩ := handOn_frame (s.skip [bit]).findBlockInInputRegister
    rw [hcount, hregister, hbuffer]
    by_cases hfound : SyncFound (s.skip [bit])
    · rw [findBlock_of_found hsync hfound]
      obtain ⟨hcount', hregister', hbuffer'⟩ := takeBlock_frame _ (s.skip [bit]).lastWord
      rw [hcount', hregister', hbuffer']
      exact ⟨rfl, rfl, rfl⟩
    · rw [findBlock_of_missed hsync hfound]
      exact ⟨rfl, rfl, rfl⟩
  · rw [h.isInSync, if_pos rfl]
    by_cases hlast : s.numBitsUntilNextBlock = 1
    · rw [h.emitGroup_of_last hlast]
      obtain ⟨hcount, hregister, hbuffer⟩ := handOn_frame
        ((s.skip [bit]).takeBlock (s.skip [bit]).lastWord (offsetOf (s.skip [bit]).lastWord))
      obtain ⟨hcount', hregister', hbuffer'⟩ :=
        takeBlock_frame (s.skip [bit]) (s.skip [bit]).lastWord
      rw [hcount, hregister, hbuffer, hcount', hregister', hbuffer']
      exact ⟨rfl, rfl, rfl⟩
    · rw [h.emitGroup_of_lt (by omega) bit]
      exact ⟨rfl, rfl, rfl⟩

namespace PulseLog
variable {bits : List Bool} {log : List Nat}

theorem initial (useFec : Bool) : PulseLog [] (BlockStream.initial useFec) [] where
  bitcount := rfl
  inputRegister := rfl
  pulses := rfl
  increasing := List.Pairwise.nil
  range n hn := by simp at hn

/-- What was noted stays noted with more bits. -/
theorem map_pulseAt_append (hrange : ∀ n ∈ log, 0 < n ∧ n ≤ bits.length) (bit : Bool) :
    log.map (pulseAt (bits ++ [bit])) = log.map (pulseAt bits) := by
  apply List.map_congr_left
  intro n hn
  rw [pulseAt, wordAt_append (hrange n hn).2, pulseAt]

/-- The newest of the four pulses is the one just pushed. -/
theorem toList_push (b : SyncPulseBuffer) (offset : Offset) (bitcount : BitVec 32) :
    (b.push offset bitcount).pulses.toList = b.pulses.toList.tail ++ [⟨offset, bitcount⟩] := by
  obtain ⟨⟨⟨pulses⟩, hlen⟩⟩ := b
  match pulses, hlen with
  | [p, q, r, t], _ => rfl

theorem emitGroup (h : PulseLog bits s log) (hvalid : Valid s useFec) (bit : Bool) :
    ∃ log', PulseLog (bits ++ [bit]) (Rds.emitGroup s bit).1 log' := by
  obtain ⟨hcount, hregister, hbuffer⟩ := emitGroup_frame hvalid bit
  have hcount' : s.bitcount + 1 = BitVec.ofNat 32 (bits ++ [bit]).length := by
    rw [h.bitcount, List.length_append, List.length_singleton, BitVec.ofNat_add]
    rfl
  have hregister' : shiftBit s.inputRegister bit = (bits ++ [bit]).foldl shiftBit 0 := by
    rw [h.inputRegister, List.foldl_append]
    rfl
  have hword : (s.skip [bit]).lastWord = wordAt (bits ++ [bit]) (bits ++ [bit]).length := by
    rw [wordAt, List.take_length, ← hregister']
    rfl
  have hrange : ∀ n ∈ log, 0 < n ∧ n ≤ (bits ++ [bit]).length := by
    intro n hn
    have hold := h.range n hn
    rw [List.length_append]
    omega
  have hmap := map_pulseAt_append h.range bit
  by_cases hpulse : s.isInSync = false ∧ offsetOf (s.skip [bit]).lastWord ≠ .invalid
  · -- one more pulse, at this bit
    refine ⟨log ++ [(bits ++ [bit]).length], hcount.trans hcount', hregister.trans hregister', ?_,
      ?_, ?_⟩
    · rw [hbuffer, hpulse.1, if_neg Bool.false_ne_true, pulsesAfter, if_pos hpulse.2, toList_push,
        List.map_append, hmap]
      have hcountSkip : (s.skip [bit]).bitcount = BitVec.ofNat 32 (bits ++ [bit]).length := hcount'
      have hsame : (s.skip [bit]).syncBuffer = s.syncBuffer := rfl
      rw [hsame, h.pulses, hcountSkip, hword, List.map_singleton, ← pulseAt, ← List.append_assoc]
      exact tail_rtake_append (by decide) (by simp) _
    · rw [List.pairwise_append]
      refine ⟨h.increasing, List.pairwise_singleton _ _, ?_⟩
      intro m hm n hn
      have hold := h.range m hm
      rw [List.mem_singleton] at hn
      rw [hn, List.length_append, List.length_singleton]
      omega
    · intro n hn
      rcases List.mem_append.mp hn with hn | hn
      · exact hrange n hn
      · rw [List.mem_singleton] at hn
        rw [hn]
        simp
  · -- in sync, or no offset word: the buffer of pulses is left alone
    refine ⟨log, hcount.trans hcount', hregister.trans hregister', ?_, h.increasing, hrange⟩
    have hsame : (Rds.emitGroup s bit).1.syncBuffer = s.syncBuffer := by
      rw [hbuffer]
      split
      · rfl
      · next hout =>
        have hnone : ¬ offsetOf (s.skip [bit]).lastWord ≠ .invalid := fun hoffset =>
          hpulse ⟨by simpa using hout, hoffset⟩
        rw [pulsesAfter, if_neg hnone]
        rfl
    rw [hsame, h.pulses, hmap]

theorem emitGroups (useFec : Bool) (bits : List Bool) :
    ∃ log, PulseLog bits (Rds.emitGroups (BlockStream.initial useFec) bits).1 log := by
  induction bits using List.reverseRecOn with
  | nil => exact ⟨[], initial useFec⟩
  | append_singleton bits bit ih =>
    obtain ⟨log, hlog⟩ := ih
    rw [emitGroups_append]
    exact hlog.emitGroup (valid_emitGroups (valid_initial useFec) bits) bit

/-- An older pulse in the buffer is one of the last that were noted, unless
    nothing was. -/
theorem getElem_push (h : PulseLog bits s log) (offset : Offset) (bitcount : BitVec 32) {i : Nat}
    (hi : i < 3) (hvalid : (s.syncBuffer.push offset bitcount).pulses[i].offset ≠ .invalid) :
    3 ≤ log.length + i ∧ ∃ hk : log.length + i - 3 < log.length,
      (s.syncBuffer.push offset bitcount).pulses[i] = pulseAt bits log[log.length + i - 3] := by
  have hlist := toList_push s.syncBuffer offset bitcount
  rw [h.pulses, tail_rtake_append (by decide) (by simp)] at hlist
  have hentry : (s.syncBuffer.push offset bitcount).pulses[i]? =
      (List.replicate 4 (⟨.invalid, 0⟩ : SyncPulse) ++
        log.map (pulseAt bits))[log.length + 1 + i]? := by
    rw [← Vector.getElem?_toList, hlist, List.rtake, List.getElem?_drop]
    have hlen : (List.replicate 4 (⟨.invalid, 0⟩ : SyncPulse) ++ log.map (pulseAt bits) ++
        [(⟨offset, bitcount⟩ : SyncPulse)]).length - 4 = log.length + 1 := by
      simp only [List.length_append, List.length_replicate, List.length_map, List.length_singleton]
      omega
    rw [hlen, List.getElem?_append_left]
    simp only [List.length_append, List.length_replicate, List.length_map]
    omega
  rw [Vector.getElem?_eq_getElem (by omega)] at hentry
  by_cases hold : log.length + 1 + i < 4
  · -- still one of the pulses the buffer started with
    rw [List.getElem?_append_left (by simpa using hold), List.getElem?_replicate, if_pos hold,
      Option.some.injEq] at hentry
    rw [hentry] at hvalid
    exact absurd rfl hvalid
  · rw [List.getElem?_append_right (by simp; omega), List.length_replicate, List.getElem?_map,
      show log.length + 1 + i - 4 = log.length + i - 3 by omega] at hentry
    have hk : log.length + i - 3 < log.length := by omega
    rw [List.getElem?_eq_getElem hk, Option.map_some, Option.some.injEq] at hentry
    exact ⟨by omega, hk, hentry⟩

/-- A sequence that is found consists of the last block and two that were
    noted before. -/
theorem exists_of_sequence (h : PulseLog bits s log) {offset : Offset} {bitcount : BitVec 32}
    (hfound : (s.syncBuffer.push offset bitcount).isSequenceFound = true) :
    ∃ i ∈ log, ∃ j ∈ log, i < j ∧ (pulseAt bits j).couldFollow (pulseAt bits i) = true ∧
      SyncPulse.couldFollow ⟨offset, bitcount⟩ (pulseAt bits j) = true := by
  obtain ⟨i, j, hij, hj, hthird, hsecond⟩ : ∃ i j : Nat, ∃ hij : i < j, ∃ hj : j < 3,
      SyncPulse.couldFollow ⟨offset, bitcount⟩
        (s.syncBuffer.push offset bitcount).pulses[j] = true ∧
      (s.syncBuffer.push offset bitcount).pulses[j].couldFollow
        (s.syncBuffer.push offset bitcount).pulses[i] = true := by
    have hnew : (s.syncBuffer.push offset bitcount).pulses[3] = ⟨offset, bitcount⟩ := rfl
    simp only [SyncPulseBuffer.isSequenceFound, Bool.or_eq_true, Bool.and_eq_true, hnew] at hfound
    rcases hfound with (hpair | hpair) | hpair
    · exact ⟨0, 1, by decide, by decide, hpair⟩
    · exact ⟨0, 2, by decide, by decide, hpair⟩
    · exact ⟨1, 2, by decide, by decide, hpair⟩
  have hvalid := hsecond
  simp only [SyncPulse.couldFollow, decide_eq_true_eq] at hvalid
  obtain ⟨-, hkj, hpj⟩ := h.getElem_push offset bitcount hj hvalid.2.2.1
  obtain ⟨hlong, hki, hpi⟩ := h.getElem_push offset bitcount (by omega) hvalid.2.2.2.1
  rw [hpj] at hthird
  rw [hpi, hpj] at hsecond
  exact ⟨_, List.getElem_mem hki, _, List.getElem_mem hkj,
    List.pairwise_iff_getElem.mp h.increasing _ _ hki hkj (by omega), hsecond, hthird⟩

end PulseLog

/-- Two blocks in rhythm: the bits they end with are up to six whole blocks
    apart, modulo 2^32, as many as their offsets are. -/
def InRhythm (bits : List Bool) (m n : Nat) : Prop :=
  offsetOf (wordAt bits m) ≠ .invalid ∧ offsetOf (wordAt bits n) ≠ .invalid ∧
    ∃ k ≤ 6, (n - m) % 2 ^ 32 = 26 * k ∧
      ((getBlockNumberForOffset (offsetOf (wordAt bits m))).index + k) % 4 =
        ((getBlockNumberForOffset (offsetOf (wordAt bits n))).index : Nat)

theorem inRhythm_of_couldFollow {bits : List Bool} {m n : Nat} (hmn : m ≤ n)
    (h : (pulseAt bits n).couldFollow (pulseAt bits m) = true) : InRhythm bits m n := by
  have hdistance : ((pulseAt bits n).bitPosition - (pulseAt bits m).bitPosition).toNat =
      (n - m) % 2 ^ 32 := by
    simp only [pulseAt, BitVec.toNat_sub, BitVec.toNat_ofNat]
    omega
  simp only [SyncPulse.couldFollow, hdistance, kBlockLength, decide_eq_true_eq] at h
  obtain ⟨hmod, hle, hn, hm, hnumber⟩ := h
  exact ⟨hm, hn, (n - m) % 2 ^ 32 / 26, hle, by omega, hnumber⟩

/-- Sync is declared only with the last of three blocks in rhythm, and then
    the offset after that block is expected. -/
theorem sync_of_three_blocks (useFec : Bool) (bits : List Bool) (bit : Bool)
    (hout : (emitGroups (BlockStream.initial useFec) bits).1.isInSync = false)
    (hin : (emitGroups (BlockStream.initial useFec) (bits ++ [bit])).1.isInSync = true) :
    (∃ i j, 0 < i ∧ i < j ∧ j < (bits ++ [bit]).length ∧ InRhythm (bits ++ [bit]) i j ∧
        InRhythm (bits ++ [bit]) j (bits ++ [bit]).length) ∧
      (emitGroups (BlockStream.initial useFec) (bits ++ [bit])).1.expectedOffset =
        getNextOffsetFor (offsetOf (wordAt (bits ++ [bit]) (bits ++ [bit]).length)) := by
  obtain ⟨log, hlog⟩ := PulseLog.emitGroups useFec bits
  have hvalid := valid_emitGroups (valid_initial useFec) bits
  generalize hs : (emitGroups (BlockStream.initial useFec) bits).1 = s at *
  have hlast : (emitGroups (BlockStream.initial useFec) (bits ++ [bit])).1 =
      (emitGroup s bit).1 := by
    rw [emitGroups_append, hs]
    rfl
  rw [hlast] at hin ⊢
  have hsearching : Searching s useFec := by
    rcases hvalid with h | ⟨_, _, _, h, -⟩
    · exact h
    · rw [h.isInSync] at hout
      cases hout
  have hfound : SyncFound (s.skip [bit]) := by
    by_contra hmissed
    obtain ⟨s', hemit, hstill, -⟩ := hsearching.emitGroup_missed hmissed
    rw [hemit, hstill.isInSync] at hin
    cases hin
  -- the register and the count after the last bit
  have hnow : (⟨offsetOf (s.skip [bit]).lastWord, (s.skip [bit]).bitcount⟩ : SyncPulse) =
      pulseAt (bits ++ [bit]) (bits ++ [bit]).length := by
    have hregister : (s.skip [bit]).inputRegister = (bits ++ [bit]).foldl shiftBit 0 := by
      rw [List.foldl_append, ← hlog.inputRegister]
      rfl
    have hcount : (s.skip [bit]).bitcount = BitVec.ofNat 32 (bits ++ [bit]).length := by
      rw [List.length_append, BitVec.ofNat_add, ← hlog.bitcount]
      rfl
    rw [pulseAt, wordAt, List.take_length, ← hregister, hcount]
    rfl
  have hold : ∀ n ∈ log, pulseAt bits n = pulseAt (bits ++ [bit]) n := by
    intro n hn
    rw [pulseAt, pulseAt, wordAt_append (hlog.range n hn).2]
  constructor
  · obtain ⟨i, hi, j, hj, hij, hsecond, hthird⟩ := hlog.exists_of_sequence hfound.2
    rw [hold i hi, hold j hj] at hsecond
    rw [hnow, hold j hj] at hthird
    have hle : j < (bits ++ [bit]).length := by
      rw [List.length_append]
      exact Nat.lt_succ_of_le (hlog.range j hj).2
    exact ⟨i, j, (hlog.range i hi).1, hij, hle, inRhythm_of_couldFollow hij.le hsecond,
      inRhythm_of_couldFollow hle.le hthird⟩
  · obtain ⟨s', out, group, hemit, hlocked⟩ := hsearching.emitGroup_found hfound
    rw [hemit]
    have hoffset := congrArg SyncPulse.offset hnow
    rw [hlocked.expected_eq]
    exact congrArg getNextOffsetFor hoffset

/-- The first three blocks of a group. -/
def threeBlocks : List Bool :=
  [encodeBlock 0x54A8 .a, encodeBlock 0x0409 .b, encodeBlock 0xF9C8 .c].flatMap wordBits

theorem sync_of_one_group :
    (∃ i j, 0 < i ∧ i < j ∧ j < (threeBlocks.dropLast ++ [true]).length ∧
        InRhythm (threeBlocks.dropLast ++ [true]) i j ∧
        InRhythm (threeBlocks.dropLast ++ [true]) j (threeBlocks.dropLast ++ [true]).length) ∧
      (emitGroups (BlockStream.initial true) (threeBlocks.dropLast ++ [true])).1.expectedOffset =
        getNextOffsetFor (offsetOf (wordAt (threeBlocks.dropLast ++ [true])
          (threeBlocks.dropLast ++ [true]).length)) :=
  sync_of_three_blocks true threeBlocks.dropLast true (by decide +kernel) (by decide +kernel)

/-! ### Clean blocks and nothing between them -/

/-- A block as it should be where `expected` comes next. -/
def Clean (expected : Offset) (w : BitVec 26) : Prop := offsetOf w = comparedOffset expected w

/-- No word that ends with one of the bits has an offset. -/
def QuietBits (register : BitVec 32) : List Bool → Prop
  | [] => True
  | bit :: bits =>
      offsetOf ((shiftBit register bit).setWidth 26) = .invalid ∧
        QuietBits (shiftBit register bit) bits

/-- None of the words that straddle two blocks has an offset. -/
def Quiet (v w : BitVec 26) : Prop :=
  ∀ i < 26, 0 < i → offsetOf ((v ++ w).extractLsb' (26 - i) 26) = .invalid

instance (v w : BitVec 26) : Decidable (Quiet v w) := inferInstanceAs (Decidable (∀ i < 26, _ → _))

/-- Only where a block ends a word has an offset. -/
def QuietBetween (register : BitVec 32) : List (BitVec 26) → Prop
  | [] => True
  | w :: ws =>
      QuietBits register (wordBits w).dropLast ∧
        QuietBetween ((wordBits w).foldl shiftBit register) ws

theorem quietBits_append {r : BitVec 32} {bits bits' : List Bool} :
    QuietBits r (bits ++ bits') ↔ QuietBits r bits ∧ QuietBits (bits.foldl shiftBit r) bits' := by
  induction bits generalizing r with
  | nil => simp [QuietBits]
  | cons bit bits ih => simp [QuietBits, ih, and_assoc]

theorem quietBits_of_take {r : BitVec 32} {bits : List Bool}
    (h : ∀ n ≤ bits.length, 0 < n →
      offsetOf (((bits.take n).foldl shiftBit r).setWidth 26) = .invalid) : QuietBits r bits := by
  induction bits generalizing r with
  | nil => trivial
  | cons bit bits ih =>
    constructor
    · exact h 1 (by simp) (by decide)
    · apply ih
      intro n hn hpos
      exact h (n + 1) (by simpa using hn) (by omega)

/-- Between the bits of a block the register straddles it and the last. -/
theorem setWidth_foldl_take (r : BitVec 32) (w : BitVec 26) {n : Nat} (hn : n ≤ 26) :
    (((wordBits w).take n).foldl shiftBit r).setWidth 26 =
      (r.setWidth 26 ++ w).extractLsb' (26 - n) 26 := by
  apply BitVec.eq_of_getLsbD_eq
  intro j hj
  have hlen : ((wordBits w).take n).length = n := by simp [hn]
  rw [BitVec.getLsbD_setWidth, decide_eq_true hj, Bool.true_and,
    getLsbD_foldl_shiftBit _ _ (by omega), hlen, BitVec.getLsbD_extractLsb', decide_eq_true hj,
    Bool.true_and, BitVec.getLsbD_append]
  by_cases hlt : j < n
  · have hindex : n - 1 - j < 26 := by omega
    rw [if_pos hlt, if_pos (by omega), List.getD_eq_getElem?_getD,
      List.getElem?_take_of_lt (by omega)]
    simp only [wordBits, List.getElem?_map, List.getElem?_range hindex, Option.map_some,
      Option.getD_some]
    congr 1
    omega
  · have hindex : 26 - n + j - 26 = j - n := by omega
    rw [if_neg hlt, if_neg (by omega), hindex, BitVec.getLsbD_setWidth, decide_eq_true (by omega),
      Bool.true_and]

/-- It is enough to look at neighbours. -/
theorem quietBetween_of_isChain {r : BitVec 32} {ws : List (BitVec 26)}
    (h : (r.setWidth 26 :: ws).IsChain Quiet) : QuietBetween r ws := by
  induction ws generalizing r with
  | nil => trivial
  | cons w ws ih =>
    rw [List.isChain_cons_cons] at h
    constructor
    · apply quietBits_of_take
      intro n hn hpos
      rw [List.length_dropLast, length_wordBits] at hn
      have htake : (wordBits w).dropLast.take n = (wordBits w).take n := by
        rw [List.dropLast_eq_take, List.take_take, length_wordBits, Nat.min_eq_left hn]
      rw [htake, setWidth_foldl_take r w (by omega)]
      exact h.1 n (by omega) hpos
    · apply ih
      rw [setWidth_foldl_wordBits]
      exact h.2

theorem QuietBits.last {r : BitVec 32} {bits : List Bool} (h : QuietBits r bits) (hne : bits ≠ []) :
    offsetOf ((bits.foldl shiftBit r).setWidth 26) = .invalid := by
  induction bits generalizing r with
  | nil => exact absurd rfl hne
  | cons bit bits ih =>
    by_cases hnil : bits = []
    · subst hnil
      exact h.1
    · exact ih h.2 hnil

theorem wordError_of_clean {expected : Offset} {w : BitVec 26} (h : Clean expected w) :
    wordError expected w = 0 := if_neg (not_not.mpr h)

theorem wordError_of_invalid {expected : Offset} (hvalid : expected ≠ .invalid) {w : BitVec 26}
    (h : offsetOf w = .invalid) : wordError expected w = 1 :=
  if_pos fun heq => comparedOffset_ne_invalid hvalid w (heq.symm.trans h)

/-- A clean block is wrong everywhere else in the rhythm. -/
theorem wordError_of_other {previous previous' : Offset} {w : BitVec 26}
    (h : Clean (getNextOffsetFor previous) w)
    (hne : getNextOffsetFor previous' ≠ getNextOffsetFor previous) :
    wordError (getNextOffsetFor previous') w = 1 := by
  refine if_pos fun heq => ?_
  rw [show offsetOf w = _ from h] at heq
  have hnumber := congrArg getBlockNumberForOffset heq
  rw [comparedOffset, comparedOffset, getBlockNumberForOffset_switchOffset,
    getBlockNumberForOffset_switchOffset] at hnumber
  cases previous <;> cases previous' <;> simp_all [getNextOffsetFor, getBlockNumberForOffset]

/-! ### Errors that add up -/

theorem sum_drop_le (l : List Nat) (n : Nat) : (l.drop n).sum ≤ l.sum := by
  have hsplit : (l.take n).sum + (l.drop n).sum = l.sum := by
    rw [← List.sum_append, List.take_append_drop]
  omega

/-- Another block without an error is always tolerable. -/
theorem Tolerable.zero {since : List Nat} (h : Tolerable since) : Tolerable (since ++ [0]) := by
  have hmono : ((since ++ [0]).rtake 50).sum ≤ (since.rtake 50).sum := by
    simp only [List.rtake, List.length_append, List.length_singleton]
    by_cases hlong : 50 ≤ since.length
    · have hone : since.length + 1 - 50 = since.length - 50 + 1 := by omega
      rw [hone, List.drop_append_of_le_length (by omega), List.sum_append, ← List.drop_drop]
      simpa using sum_drop_le (since.drop (since.length - 50)) 1
    · rw [show since.length + 1 - 50 = 0 by omega, show since.length - 50 = 0 by omega]
      simp
  exact Nat.le_trans hmono h

theorem Tolerable.zeros {since : List Nat} (h : Tolerable since) :
    ∀ n, Tolerated since (List.replicate n 0) := by
  intro n
  induction n generalizing since with
  | zero => trivial
  | succ n ih => exact ⟨h.zero, ih h.zero⟩

/-- At most 42 errors in a row are tolerable. -/
theorem Tolerable.replicate_le {since : List Nat} {k : Nat}
    (h : Tolerable (since ++ List.replicate k 1)) : k ≤ 42 := by
  by_contra hmany
  have hsum : ((since ++ List.replicate k 1).rtake 50).sum ≥ 43 := by
    rw [List.rtake, List.drop_append, List.sum_append, List.drop_replicate, List.sum_replicate_nat]
    simp only [List.length_append, List.length_replicate, Nat.mul_one]
    omega
  have hbound : ((since ++ List.replicate k 1).rtake 50).sum ≤ 42 := h
  omega

/-! ### One block after another -/

/-- The pulses that were noted at the last one or two blocks, in the
    rhythm in which `expected` comes next. -/
inductive Noted (s : BlockStream) : Nat → Offset → Prop where
  | none {expected : Offset} : Noted s 0 expected
  | one {expected o : Offset} (ho : o ≠ .invalid)
      (hnext : ((getBlockNumberForOffset o).index + 1) % 4 =
        ((getBlockNumberForOffset expected).index : Nat))
      (hlast : s.syncBuffer.pulses[3] = ⟨o, s.bitcount⟩) : Noted s 1 expected
  | two {expected o o' : Offset} (ho : o ≠ .invalid) (ho' : o' ≠ .invalid)
      (hnext : ((getBlockNumberForOffset o).index + 1) % 4 =
        ((getBlockNumberForOffset expected).index : Nat))
      (hnext' : ((getBlockNumberForOffset o').index + 1) % 4 =
        ((getBlockNumberForOffset o).index : Nat))
      (hlast : s.syncBuffer.pulses[3] = ⟨o, s.bitcount⟩)
      (hbefore : s.syncBuffer.pulses[2] = ⟨o', s.bitcount - 26⟩) : Noted s 2 expected

theorem index_getNextOffsetFor {o : Offset} (ho : o ≠ .invalid) :
    ((getBlockNumberForOffset o).index + 1) % 4 =
      ((getBlockNumberForOffset (getNextOffsetFor o)).index : Nat) := by
  cases o <;> first | rfl | exact absurd rfl ho

theorem couldFollow_next {o o' : Offset} (ho : o ≠ .invalid) (ho' : o' ≠ .invalid)
    (hnext : ((getBlockNumberForOffset o).index + 1) % 4 =
      ((getBlockNumberForOffset o').index : Nat)) (position : BitVec 32) :
    SyncPulse.couldFollow ⟨o', position⟩ ⟨o, position - 26⟩ = true := by
  have hdistance : (position - (position - 26)).toNat = 26 := by bv_omega
  simp only [SyncPulse.couldFollow, hdistance, decide_eq_true_eq]
  exact ⟨rfl, by decide, ho', ho, hnext⟩

namespace Searching

/-- Out of sync nothing happens while no word has an offset. -/
theorem emitGroups_quiet (h : Searching s useFec) {bits : List Bool}
    (hquiet : QuietBits s.inputRegister bits) :
    ∃ s', emitGroups s bits = (s', []) ∧ Searching s' useFec ∧ s'.syncBuffer = s.syncBuffer ∧
      s'.bitcount = s.bitcount + BitVec.ofNat 32 bits.length ∧
      s'.inputRegister = bits.foldl shiftBit s.inputRegister := by
  induction bits generalizing s with
  | nil => exact ⟨s, rfl, h, rfl, by simp, rfl⟩
  | cons bit bits ih =>
    have hoffset : offsetOf (s.skip [bit]).lastWord = .invalid := hquiet.1
    obtain ⟨t, hemit, ht, hbuffer, hcount, hregister⟩ :=
      h.emitGroup_missed fun hfound => hfound.1 hoffset
    obtain ⟨s', hrest, hs', hbuffer', hcount', hregister'⟩ :=
      ih ht (by rw [hregister]; exact hquiet.2)
    refine ⟨s', ?_, hs', ?_, ?_, ?_⟩
    · simp only [emitGroups, hemit, hrest, List.append_nil]
    · rw [hbuffer', hbuffer, pulsesAfter, if_neg (not_not.mpr hoffset)]
      rfl
    · rw [hcount', hcount, BitVec.add_assoc, List.length_cons, Nat.add_comm, BitVec.ofNat_add]
      rfl
    · rw [hregister', hregister, List.foldl_cons]

/-- Up to the end of a clean block, with nothing before it: sync is found, or
    the block is noted. -/
theorem throughBlock (h : Searching s useFec) {previous : Offset} {w : BitVec 26}
    (hclean : Clean (getNextOffsetFor previous) w) {bits : List Bool} {bit : Bool}
    (hquiet : QuietBits s.inputRegister bits) (hword : (s.skip (bits ++ [bit])).lastWord = w) :
    (∃ since group, Locked (emitGroups s (bits ++ [bit])).1 useFec
        (getNextOffsetFor (getNextOffsetFor previous)) since group) ∨
      let s' := (emitGroups s (bits ++ [bit])).1
      Searching s' useFec ∧
        s'.bitcount = s.bitcount + BitVec.ofNat 32 (bits ++ [bit]).length ∧
        s'.syncBuffer = s.syncBuffer.push (offsetOf w) s'.bitcount ∧
        (s.syncBuffer.push (offsetOf w) s'.bitcount).isSequenceFound = false := by
  obtain ⟨t, hemit, ht, hbuffer, hcount, hregister⟩ := h.emitGroups_quiet hquiet
  have hlast : (t.skip [bit]).lastWord = w := by
    rw [← hword, BlockStream.lastWord, BlockStream.lastWord, BlockStream.skip, BlockStream.skip,
      hregister, List.foldl_append]
  have hvalid : offsetOf w ≠ .invalid := by
    rw [show offsetOf w = _ from hclean]
    exact comparedOffset_ne_invalid (getNextOffsetFor_ne_invalid _) w
  have hnext : getNextOffsetFor (offsetOf w) = getNextOffsetFor (getNextOffsetFor previous) := by
    rw [show offsetOf w = _ from hclean]
    exact getNextOffsetFor_switchOffset _ _
  have hrun : (emitGroups s (bits ++ [bit])).1 = (emitGroup t bit).1 := by
    rw [emitGroups_append, hemit]
    rfl
  rw [hrun]
  by_cases hfound : SyncFound (t.skip [bit])
  · obtain ⟨s', out, group, hstep, hlocked⟩ := ht.emitGroup_found hfound
    rw [hlast, hnext] at hlocked
    rw [hstep]
    exact Or.inl ⟨_, _, hlocked⟩
  · obtain ⟨s', hstep, hs', hbuffer', hcount', -⟩ := ht.emitGroup_missed hfound
    have hpush : pulsesAfter (t.skip [bit]) = s.syncBuffer.push (offsetOf w) s'.bitcount := by
      rw [pulsesAfter, hlast, if_pos hvalid, hcount', ← hbuffer]
      rfl
    rw [hstep]
    refine Or.inr ⟨hs', ?_, hbuffer'.trans hpush, ?_⟩
    · rw [hcount', hcount, List.length_append, BitVec.ofNat_add, BitVec.add_assoc]
      rfl
    · -- the search would have ended on a sequence in the buffer
      by_contra hseq
      apply hfound
      refine ⟨by rwa [hlast], ?_⟩
      have hsame : (t.skip [bit]).syncBuffer.push (offsetOf w) (t.skip [bit]).bitcount =
          s.syncBuffer.push (offsetOf w) s'.bitcount := by
        rw [hcount', ← hbuffer]
        rfl
      rw [hlast, hsame]
      simpa using hseq

end Searching

/-- How far a stream is from following the blocks, `expected` being what
    really comes next: in sync with them; or out of sync, with the last
    blocks noted; or in sync with something else, and the words it took
    lately were all wrong. At most `n` blocks are missing. -/
inductive Recovering (s : BlockStream) (useFec : Bool) (expected : Offset) (n : Nat) : Prop where
  | following {since : List Nat} {group : Group} (h : Locked s useFec expected since group)
  | searching {noted : Nat} (h : Searching s useFec) (hnoted : Noted s noted expected)
      (hn : 3 - noted ≤ n)
  | misled {previous : Offset} {since : List Nat} {wrong : Nat} {group : Group}
      (h : InSync s useFec (getNextOffsetFor previous) (since ++ List.replicate wrong 1) group)
      (hpos : 1 ≤ s.numBitsUntilNextBlock) (hle : s.numBitsUntilNextBlock ≤ kBlockLength)
      (hother : s.numBitsUntilNextBlock = kBlockLength → getNextOffsetFor previous ≠ expected)
      (hn : 46 - wrong ≤ n)

namespace Recovering
variable {previous : Offset} {w : BitVec 26} {n : Nat}

theorem mono {expected : Offset} {m : Nat} (h : Recovering s useFec expected m) (hle : m ≤ n) :
    Recovering s useFec expected n := by
  cases h with
  | following h => exact .following h
  | searching h hnoted hn => exact .searching h hnoted (by omega)
  | misled h hpos hle' hother hn => exact .misled h hpos hle' hother (by omega)

/-- Out of sync up to the end of a block: one more is noted, or sync found. -/
theorem of_searching (h : Searching s useFec) {noted : Nat}
    (hnoted : Noted s noted (getNextOffsetFor previous))
    (hclean : Clean (getNextOffsetFor previous) w) {bits : List Bool} {bit : Bool}
    (hquiet : QuietBits s.inputRegister bits) (hword : (s.skip (bits ++ [bit])).lastWord = w)
    (hlen : noted = 0 ∨ (bits ++ [bit]).length = 26) :
    Recovering (emitGroups s (bits ++ [bit])).1 useFec
      (getNextOffsetFor (getNextOffsetFor previous)) (2 - noted) := by
  have hoffset : offsetOf w ≠ .invalid := by
    rw [show offsetOf w = _ from hclean]
    exact comparedOffset_ne_invalid (getNextOffsetFor_ne_invalid _) w
  have hnumber : getBlockNumberForOffset (offsetOf w) =
      getBlockNumberForOffset (getNextOffsetFor previous) := by
    rw [show offsetOf w = _ from hclean]
    exact getBlockNumberForOffset_switchOffset _ _
  have hnext : ((getBlockNumberForOffset (offsetOf w)).index + 1) % 4 = ((getBlockNumberForOffset
      (getNextOffsetFor (getNextOffsetFor previous))).index : Nat) := by
    rw [hnumber]
    exact index_getNextOffsetFor (getNextOffsetFor_ne_invalid _)
  rcases h.throughBlock hclean hquiet hword with
    ⟨since, group, hlocked⟩ | ⟨hs', hcount, hbuffer, hseq⟩
  · exact .following hlocked
  · generalize (emitGroups s (bits ++ [bit])).1 = s' at *
    have hnew : s'.syncBuffer.pulses[3] = ⟨offsetOf w, s'.bitcount⟩ := by
      rw [hbuffer]
      rfl
    have hold : s'.syncBuffer.pulses[2] = s.syncBuffer.pulses[3] := by
      rw [hbuffer]
      rfl
    have hback : (bits ++ [bit]).length = 26 → s.bitcount = s'.bitcount - 26 := by
      intro hlen
      rw [hcount, hlen]
      bv_omega
    cases hnoted with
    | none => exact .searching hs' (.one hoffset hnext hnew) (by omega)
    | one ho hfollows hlast =>
      rw [← hnumber] at hfollows
      have hbefore := hback (hlen.resolve_left (by decide))
      exact .searching hs' (.two hoffset ho hnext hfollows hnew (by rw [hold, hlast, hbefore]))
        (by omega)
    | two ho ho' hfollows hfollows' hlast hbefore =>
      -- the third block in a row would have been found
      rw [← hnumber] at hfollows
      have hthird := couldFollow_next ho hoffset hfollows s'.bitcount
      have hsecond := couldFollow_next ho' ho hfollows' s.bitcount
      rw [← hback (hlen.resolve_left (by decide)), ← hlast] at hthird
      rw [← hlast, ← hbefore] at hsecond
      have hsequence : (s.syncBuffer.push (offsetOf w) s'.bitcount).isSequenceFound = true := by
        simp only [SyncPulseBuffer.isSequenceFound, Bool.or_eq_true, Bool.and_eq_true]
        exact Or.inr ⟨hthird, hsecond⟩
      rw [hseq] at hsequence
      cases hsequence

end Recovering

/-- The bits that come in go through the register. -/
theorem inputRegister_emitGroups (h : Valid s useFec) (bits : List Bool) :
    (emitGroups s bits).1.inputRegister = bits.foldl shiftBit s.inputRegister := by
  induction bits generalizing s with
  | nil => rfl
  | cons bit bits ih =>
    show (emitGroups (emitGroup s bit).1 bits).1.inputRegister = _
    rw [ih (valid_emitGroup h bit), (emitGroup_frame h bit).2.1, List.foldl_cons]

/-- The bits up to the end of the next word a stream in sync takes. -/
theorem InSync.emitGroups_next {expected : Offset} {since : List Nat} {group : Group}
    (h : InSync s useFec expected since group) {bits : List Bool} (hpos : 0 < bits.length)
    (hlen : bits.length = s.numBitsUntilNextBlock) :
    (emitGroups s bits).1 = (Rds.handOn ((s.skip bits).takeBlock (s.skip bits).lastWord
      (offsetOf (s.skip bits).lastWord))).1 := by
  obtain ⟨init, bit, rfl⟩ : ∃ init bit, bits = init ++ [bit] :=
    ⟨_, _, (List.dropLast_append_getLast (List.ne_nil_of_length_pos hpos)).symm⟩
  rw [List.length_append, List.length_singleton] at hlen
  have hinit := emitGroups_of_lt h.hasGroupReady init (by omega)
  have hlast : (s.skip init).numBitsUntilNextBlock = 1 := by
    simp only [BlockStream.skip]
    omega
  rw [emitGroups_append, hinit, ← BlockStream.skip_append]
  show (emitGroup (s.skip init) bit).1 = _
  rw [(h.skip init).emitGroup_of_last hlast]

theorem getNextOffsetFor_injective {p q : Offset}
    (h : getNextOffsetFor (getNextOffsetFor p) = getNextOffsetFor (getNextOffsetFor q)) :
    getNextOffsetFor p = getNextOffsetFor q := by
  cases p <;> cases q <;> first | rfl | exact absurd h (by decide)

namespace Recovering
variable {previous : Offset} {w : BitVec 26} {n : Nat}

/-- In sync with something else: the word it takes is wrong. -/
theorem of_misled {previous' : Offset} {since : List Nat} {wrong : Nat} {group : Group}
    (h : InSync s useFec (getNextOffsetFor previous') (since ++ List.replicate wrong 1) group)
    (hpos : 1 ≤ s.numBitsUntilNextBlock) (hle : s.numBitsUntilNextBlock ≤ kBlockLength)
    (hother : s.numBitsUntilNextBlock = kBlockLength →
      getNextOffsetFor previous' ≠ getNextOffsetFor previous)
    (hn : 46 - wrong ≤ n + 1) (hclean : Clean (getNextOffsetFor previous) w)
    (hquiet : QuietBits s.inputRegister (wordBits w).dropLast) :
    Recovering (emitGroups s (wordBits w)).1 useFec (getNextOffsetFor (getNextOffsetFor previous))
      n := by
  have hwrong := h.tolerable.replicate_le
  have hvalid : Valid s useFec := Or.inr ⟨_, _, _, h, hpos, hle⟩
  obtain ⟨bits, rest, hsplit, hlen⟩ : ∃ bits rest, wordBits w = bits ++ rest ∧
      bits.length = s.numBitsUntilNextBlock := by
    refine ⟨_, _, (List.take_append_drop s.numBitsUntilNextBlock (wordBits w)).symm, ?_⟩
    rw [List.length_take, length_wordBits]
    exact Nat.min_eq_left hle
  have hrest : bits.length + rest.length = 26 := by
    rw [← List.length_append, ← hsplit, length_wordBits]
  -- the word taken has no offset, or the one of another block
  have herror : wordError (getNextOffsetFor previous') (s.skip bits).lastWord = 1 := by
    cases hr : rest using List.reverseRecOn with
    | nil =>
      rw [hr, List.append_nil] at hsplit
      rw [← hsplit, lastWord_skip_wordBits]
      refine wordError_of_other hclean (hother ?_)
      rw [← hlen, ← hsplit, length_wordBits]
      rfl
    | append_singleton init bit =>
      have hdrop : (wordBits w).dropLast = bits ++ init := by
        rw [hsplit, hr, ← List.append_assoc, List.dropLast_concat]
      rw [hdrop, quietBits_append] at hquiet
      exact wordError_of_invalid (getNextOffsetFor_ne_invalid _)
        (hquiet.1.last (List.ne_nil_of_length_pos (by omega)))
  have hnext := h.emitGroups_next (by omega) hlen
  rw [hsplit, emitGroups_append]
  by_cases htol : Tolerable (since ++ List.replicate wrong 1 ++
      [wordError (getNextOffsetFor previous') (s.skip bits).lastWord])
  · -- misled for one more word
    obtain ⟨t, hemit, ht⟩ := (h.skip bits).handOn htol
    rw [hemit] at hnext
    have hskip := emitGroups_of_lt ht.hasGroupReady rest (by
      rw [ht.numBits, kBlockLength]
      omega)
    rw [herror, List.append_assoc, ← List.replicate_succ'] at ht
    rw [hnext, hskip]
    have hbits : (t.skip rest).numBitsUntilNextBlock = s.numBitsUntilNextBlock := by
      simp only [BlockStream.skip, ht.numBits, kBlockLength]
      omega
    refine .misled (ht.toInSync.skip rest) (hbits.symm ▸ hpos) (hbits.symm ▸ hle) ?_ (by omega)
    intro hboundary heq
    exact hother (hbits.symm.trans hboundary) (getNextOffsetFor_injective heq)
  · -- one word too many
    obtain ⟨t, hemit, ht⟩ := (h.skip bits).handOn_lost htol
    rw [hemit] at hnext
    have hregister : t.inputRegister = bits.foldl shiftBit s.inputRegister := by
      rw [← inputRegister_emitGroups hvalid bits, hnext]
    rw [hnext]
    cases hr : rest using List.reverseRecOn with
    | nil => exact .searching ht .none (by omega)
    | append_singleton init bit =>
      have hdrop : (wordBits w).dropLast = bits ++ init := by
        rw [hsplit, hr, ← List.append_assoc, List.dropLast_concat]
      rw [hdrop, quietBits_append, ← hregister] at hquiet
      have hword : (t.skip (init ++ [bit])).lastWord = w := by
        have hend := lastWord_skip_wordBits s w
        rw [hsplit, hr] at hend
        rw [← hend]
        simp only [BlockStream.lastWord, BlockStream.skip, hregister, List.foldl_append]
      exact (of_searching ht .none hclean hquiet.2 hword (Or.inl rfl)).mono (by omega)

/-- In step with the blocks: nothing is wrong with this one. -/
theorem of_following {since : List Nat} {group : Group}
    (h : Locked s useFec (getNextOffsetFor previous) since group)
    (hclean : Clean (getNextOffsetFor previous) w) :
    Recovering (emitGroups s (wordBits w)).1 useFec (getNextOffsetFor (getNextOffsetFor previous))
      n := by
  have hzero := wordError_of_clean hclean
  obtain ⟨s', hemit, hlocked⟩ := h.receiveWord (by rw [hzero]; exact h.tolerable.zero)
  rw [hemit]
  exact .following hlocked

/-- Every clean block brings the stream closer. -/
theorem step (h : Recovering s useFec (getNextOffsetFor previous) (n + 1))
    (hclean : Clean (getNextOffsetFor previous) w)
    (hquiet : QuietBits s.inputRegister (wordBits w).dropLast) :
    Recovering (emitGroups s (wordBits w)).1 useFec (getNextOffsetFor (getNextOffsetFor previous))
      n := by
  cases h with
  | following h => exact of_following h hclean
  | searching h hnoted hn =>
    have hsplit : wordBits w = (wordBits w).dropLast ++ [w.getLsbD 0] := rfl
    have hword : (s.skip ((wordBits w).dropLast ++ [w.getLsbD 0])).lastWord = w := by
      rw [← hsplit, lastWord_skip_wordBits]
    have hstep := of_searching h hnoted hclean hquiet hword (Or.inr (by simp))
    rw [← hsplit] at hstep
    exact hstep.mono (by omega)
  | misled h hpos hle hother hn => exact of_misled h hpos hle hother hn hclean hquiet

/-- None is missing any more. -/
theorem locked_of_zero {expected : Offset} (h : Recovering s useFec expected 0) :
    ∃ since group, Locked s useFec expected since group := by
  cases h with
  | following h => exact ⟨_, _, h⟩
  | searching h hnoted hn => cases hnoted <;> omega
  | misled h hpos hle hother hn =>
    have hwrong := h.tolerable.replicate_le
    omega

/-- Any stream is at most 46 blocks away. -/
theorem of_valid (h : Valid s useFec) (previous : Offset) :
    Recovering s useFec (getNextOffsetFor previous) 46 := by
  rcases h with h | ⟨previous', since, group, h, hpos, hle⟩
  · exact .searching h .none (by decide)
  · by_cases hright : s.numBitsUntilNextBlock = kBlockLength ∧
        getNextOffsetFor previous' = getNextOffsetFor previous
    · rw [hright.2] at h
      exact .following ⟨h, hright.1⟩
    · have hnone : InSync s useFec (getNextOffsetFor previous') (since ++ List.replicate 0 1)
          group := by simpa using h
      refine .misled hnone hpos hle (fun hbits heq => ?_) (by decide)
      exact hright ⟨hbits, heq⟩

end Recovering

/-- The blocks are clean and follow each other, and there is nothing between
    them. -/
theorem locked_after (h : Valid s useFec) (previous : Offset) {ws : List (BitVec 26)}
    (hlen : 46 ≤ ws.length)
    (hclean : wordErrors (getNextOffsetFor previous) ws = List.replicate ws.length 0)
    (hquiet : (s.lastWord :: ws).IsChain Quiet) :
    ∃ since group, Locked (emitGroups s (ws.flatMap wordBits)).1 useFec
      (getNextOffsetFor^[ws.length] (getNextOffsetFor previous)) since group := by
  suffices hrun : ∀ n, Recovering s useFec (getNextOffsetFor previous) n →
      Recovering (emitGroups s (ws.flatMap wordBits)).1 useFec
        (getNextOffsetFor^[ws.length] (getNextOffsetFor previous)) (n - ws.length) by
    have hzero := hrun 46 (.of_valid h previous)
    rw [show 46 - ws.length = 0 by omega] at hzero
    exact hzero.locked_of_zero
  have hbetween := quietBetween_of_isChain hquiet
  clear hlen hquiet
  induction ws generalizing s previous with
  | nil => exact fun n hn => hn
  | cons w ws ih =>
    intro n hn
    simp only [wordErrors, List.length_cons, List.replicate_succ, List.cons.injEq] at hclean
    have hblock : Clean (getNextOffsetFor previous) w := by
      by_contra hwrong
      have hone : wordError (getNextOffsetFor previous) w = 1 := if_pos hwrong
      rw [hone] at hclean
      exact absurd hclean.1 (by decide)
    have hstep : Recovering (emitGroups s (wordBits w)).1 useFec
        (getNextOffsetFor (getNextOffsetFor previous)) (n - 1) := by
      cases n with
      | zero =>
        obtain ⟨since, group, hlocked⟩ := hn.locked_of_zero
        exact .of_following hlocked hblock
      | succ n => exact hn.step hblock hbetween.1
    have hrest := ih (valid_emitGroups h (wordBits w)) _ hclean.2
      (by rw [inputRegister_emitGroups h]; exact hbetween.2) (n - 1) hstep
    rw [List.flatMap_cons, emitGroups_append, List.length_cons, Function.iterate_succ_apply]
    rw [show n - (ws.length + 1) = n - 1 - ws.length by omega]
    exact hrest

/-- No error in any of the four blocks. -/
def GroupNoise.none : GroupNoise := ⟨0, 0, 0, 0⟩

theorem GroupNoise.none_correctable (g : SentGroup) : GroupNoise.none.Correctable g :=
  ⟨Or.inl rfl, Or.inl rfl, Or.inl rfl, Or.inl rfl, fun _ => rfl⟩

/-- The words of groups that arrive without errors. -/
def cleanWords (sent : List SentGroup) : List (BitVec 26) :=
  sent.flatMap fun g => (g.arriving .none).words

theorem length_cleanWords (sent : List SentGroup) : (cleanWords sent).length = 4 * sent.length := by
  induction sent with
  | nil => rfl
  | cons g sent ih =>
    rw [cleanWords, List.flatMap_cons, List.length_append, ← cleanWords, ih, List.length_cons]
    simp only [GroupWords.words, List.length_cons, List.length_nil]
    omega

theorem wordErrors_cleanWords (sent : List SentGroup) :
    wordErrors .a (cleanWords sent) = List.replicate (4 * sent.length) 0 := by
  induction sent with
  | nil => rfl
  | cons g sent ih =>
    have hgroup : wordErrors .a (g.arriving .none).words = [0, 0, 0, 0] :=
      errors_arriving (GroupNoise.none_correctable g)
    rw [cleanWords, List.flatMap_cons, wordErrors_append, hgroup, ← cleanWords]
    have hround : getNextOffsetFor^[(g.arriving .none).words.length] .a = .a := rfl
    rw [hround, ih, List.length_cons, Nat.mul_succ, Nat.add_comm, List.replicate_add]
    rfl

/-- From any state, twelve groups that arrive without errors, with no word
    across two blocks that looks like one, are enough: all groups after
    them are handed on as they were sent. -/
theorem groups_after_recovery (h : Valid s true) {first : List SentGroup} (rest : List SentGroup)
    (hfirst : 12 ≤ first.length) (hquiet : (s.lastWord :: cleanWords first).IsChain Quiet) :
    ∃ out, (emitGroups s ((cleanWords (first ++ rest)).flatMap wordBits)).2 =
      out ++ rest.map fun g => g.handedOn .none := by
  have hzeros := wordErrors_cleanWords first
  obtain ⟨since, group, hlocked⟩ := locked_after h .d
    (by rw [length_cleanWords]; omega) (by rw [length_cleanWords]; exact hzeros) hquiet
  -- whole groups lead back to block A, where the next group begins
  have hround : ∀ k, getNextOffsetFor^[4 * k] .a = .a := by
    intro k
    induction k with
    | zero => rfl
    | succ k ih =>
      rw [Nat.mul_succ, Nat.add_comm, Function.iterate_add_apply, ih]
      rfl
  have hstart : getNextOffsetFor^[(cleanWords first).length] (getNextOffsetFor .d) = .a := by
    rw [length_cleanWords]
    exact hround _
  rw [hstart] at hlocked
  obtain rfl := hlocked.fresh rfl
  have herrors : (rest.map fun g => g.arriving .none).flatMap GroupWords.errors =
      List.replicate (4 * rest.length) 0 := by
    induction rest with
    | nil => rfl
    | cons g rest ih =>
      rw [List.map_cons, List.flatMap_cons, ih, errors_arriving (GroupNoise.none_correctable g),
        List.length_cons, Nat.mul_succ, Nat.add_comm, List.replicate_add]
      rfl
  obtain ⟨s', hemit, -⟩ := groups_received hlocked (rest.map fun g => g.arriving .none) (by
    rw [herrors]
    exact hlocked.tolerable.zeros _)
  refine ⟨(emitGroups s ((cleanWords first).flatMap wordBits)).2, ?_⟩
  have hbits : (cleanWords (first ++ rest)).flatMap wordBits =
      (cleanWords first).flatMap wordBits ++
        (rest.map fun g => g.arriving .none).flatMap GroupWords.bits := by
    simp only [cleanWords, List.flatMap_append, List.flatMap_map, GroupWords.bits,
      List.flatMap_assoc]
  have hgroups : (rest.map fun g => g.arriving .none).map (groupOf true) =
      rest.map fun g => g.handedOn .none := by
    rw [List.map_map]
    exact List.map_congr_left fun g _ => groupOf_arriving (GroupNoise.none_correctable g)
  rw [hbits, emitGroups_append, hemit, hgroups]

/-- A group of a station. -/
def stationGroup : SentGroup := ⟨0x54A8, 0x0409, 0xF9C8, 0x0E83, false⟩

theorem group_after_twelve :
    ∃ out, (emitGroups (BlockStream.initial true)
        ((cleanWords (List.replicate 12 stationGroup ++ [stationGroup])).flatMap wordBits)).2 =
      out ++ [⟨0x54A8, 0x0409, 0xF9C8, 0x0E83, 0⟩] :=
  groups_after_recovery (valid_initial true) [stationGroup] (by decide)
    (by decide +kernel)

end FmSdrTuner.Rds

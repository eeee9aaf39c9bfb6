import FmSdrTuner.Framework.SyndromeCode

/-! # The RDS block code

    A block has 26 bits: 16 data bits and a checkword of 10 bits with the
    offset word of its place in the group added. `block_sync.cpp` takes the
    syndrome of a word for the offset, and corrects bursts of one or two
    bits. -/

namespace FmSdrTuner

/-! ### The code (`block_sync.cpp`) -/

/-- `Offset`. -/
inductive Offset where
  | a
  | b
  | c
  | cPrime
  | d
  | invalid
  deriving DecidableEq, Repr

/-- `eBlockNumber`. -/
inductive BlockNumber where
  | block1
  | block2
  | block3
  | block4
  deriving DecidableEq, Repr

def BlockNumber.index : BlockNumber → Fin 4
  | .block1 => 0
  | .block2 => 1
  | .block3 => 2
  | .block4 => 3

namespace Rds

/-- `getBlockNumberForOffset`. -/
def getBlockNumberForOffset : Offset → BlockNumber
  | .a => .block1
  | .b => .block2
  | .c => .block3
  | .cPrime => .block3
  | .d => .block4
  | .invalid => .block1

/-- `getNextOffsetFor`. -/
def getNextOffsetFor : Offset → Offset
  | .a => .b
  | .b => .c
  | .c => .d
  | .cPrime => .d
  | .d => .a
  | .invalid => .a

/-- `getOffsetForSyndrome`. -/
def getOffsetForSyndrome (syndrome : BitVec 10) : Offset :=
  if syndrome = 0b1111011000 then .a
  else if syndrome = 0b1111010100 then .b
  else if syndrome = 0b1001011100 then .c
  else if syndrome = 0b1111001100 then .cPrime
  else if syndrome = 0b1001011000 then .d
  else .invalid

def parityCheckMatrix : List (BitVec 10) := [
  0b1000000000,
  0b0100000000,
  0b0010000000,
  0b0001000000,
  0b0000100000,
  0b0000010000,
  0b0000001000,
  0b0000000100,
  0b0000000010,
  0b0000000001,
  0b1011011100,
  0b0101101110,
  0b0010110111,
  0b1010000111,
  0b1110011111,
  0b1100010011,
  0b1101010101,
  0b1101110110,
  0b0110111011,
  0b1000000001,
  0b1111011100,
  0b0111101110,
  0b0011110111,
  0b1010100111,
  0b1110001111,
  0b1100011011]

/-- `calculateSyndrome`: the rows for the bits that are set, modulo two. -/
def calculateSyndrome (inputVector : BitVec 26) : BitVec 10 :=
  (List.range 26).foldl
    (fun result k =>
      result ^^^ (if inputVector.getLsbD k then parityCheckMatrix.getD (25 - k) 0 else 0))
    0

/-- `offset_words`. -/
def offsetWord : Offset → BitVec 10
  | .a => 0b0011111100
  | .b => 0b0110011000
  | .c => 0b0101101000
  | .cPrime => 0b1101010000
  | .d => 0b0110110100
  | .invalid => 0

/-- Bursts of one or two bits; one that starts at the last bit has one. -/
def burstErrors : List (BitVec 26) :=
  ([0b1, 0b11] : List (BitVec 26)).flatMap fun errorBits =>
    (List.range 26).map fun shift => errorBits <<< shift

/-- `makeErrorLookupTable`. -/
def errorLookupTable (offset : Offset) : List (BitVec 10 × BitVec 26) :=
  if offset = .invalid then []
  else errorTable calculateSyndrome burstErrors ((offsetWord offset).setWidth 26)

/-- `ErrorCorrectionResult`. -/
structure ErrorCorrectionResult where
  succeeded : Bool
  correctedBits : BitVec 26
  deriving DecidableEq, Repr

/-- `correctBurstErrors`. -/
def correctBurstErrors (raw : BitVec 26) (expectedOffset : Offset) : ErrorCorrectionResult :=
  let syndrome := calculateSyndrome raw
  match (errorLookupTable expectedOffset).find? (fun p => p.1 = syndrome) with
  | some search => ⟨true, raw ^^^ search.2⟩
  | none => ⟨false, raw⟩

/-- The data bits of a block. -/
def blockData (raw : BitVec 26) : BitVec 16 := (raw >>> 10).setWidth 16

/-! ### The transmitter -/

/-- Multiplication by x modulo the generator polynomial
    x^10 + x^8 + x^7 + x^5 + x^4 + x^3 + 1. -/
def mulX (r : BitVec 10) : BitVec 10 := (r <<< 1) ^^^ (if r.getLsbD 9 then 0b0110111001 else 0)

/-- The checkword of some data: the remainder of the data times x^10. -/
def checkword (data : BitVec 16) : BitVec 10 :=
  (List.range 16).foldl
    (fun r i => mulX (r ^^^ (if data.getLsbD (15 - i) then 0b1000000000 else 0))) 0

/-- A block as it is sent. -/
def encodeBlock (data : BitVec 16) (offset : Offset) : BitVec 26 :=
  data ++ (checkword data ^^^ offsetWord offset)

/-! ### The syndrome is linear -/

theorem calculateSyndrome_xorLinear : XorLinear calculateSyndrome :=
  XorLinear.foldl (fun a b r s k => by
    rw [(XorLinear.row k _).map_xor]
    ac_rfl) _

theorem mulX_xorLinear : XorLinear mulX where
  map_xor a b := by
    unfold mulX
    rw [BitVec.shiftLeft_xor_distrib, (XorLinear.row 9 _).map_xor]
    ac_rfl

theorem checkword_xorLinear : XorLinear checkword :=
  XorLinear.foldl (fun a b r s i => by
    rw [← mulX_xorLinear.map_xor, (XorLinear.row (15 - i) _).map_xor]
    congr 1
    ac_rfl) _

theorem setWidth_xorLinear (m n : Nat) : XorLinear (BitVec.setWidth n : BitVec m → BitVec n) :=
  ⟨fun _ _ => BitVec.setWidth_xor⟩

theorem shiftLeft_xorLinear (n i : Nat) : XorLinear fun v : BitVec n => v <<< i :=
  ⟨fun _ _ => BitVec.shiftLeft_xor_distrib _ _ _⟩

/-- The bit 0 of a product tells whether the polynomial was taken off. -/
theorem mulX_eq_zero {r : BitVec 10} (h : mulX r = 0) : r = 0 := by
  have hmsb : r.getLsbD 9 = false := by
    have hbit := congrArg (BitVec.getLsbD · 0) h
    cases hr : r.getLsbD 9 with
    | false => rfl
    | true => simp [mulX, hr] at hbit
  have hshift : r <<< 1 = 0 := by
    simp only [mulX, hmsb, Bool.false_eq_true, if_false] at h
    simpa using h
  apply BitVec.eq_of_getLsbD_eq
  intro i hi
  by_cases hlast : i = 9
  · rw [hlast, hmsb]
    rfl
  · have hbit := congrArg (BitVec.getLsbD · (i + 1)) hshift
    simp only [BitVec.getLsbD_shiftLeft] at hbit
    have hlt : i + 1 < 10 := by omega
    simpa [hlt] using hbit

/-- One place to the left in the block multiplies the syndrome by x. -/
theorem calculateSyndrome_shiftLeft (w : BitVec 25) :
    calculateSyndrome (w.setWidth 26 <<< 1) = mulX (calculateSyndrome (w.setWidth 26)) := by
  refine XorLinear.eq_of_twoPow (f := fun w : BitVec 25 => calculateSyndrome (w.setWidth 26 <<< 1))
    (g := fun w => mulX (calculateSyndrome (w.setWidth 26))) ?_ ?_ ?_ w
  · exact (calculateSyndrome_xorLinear.comp (shiftLeft_xorLinear 26 1)).comp
      (setWidth_xorLinear 25 26)
  · exact (mulX_xorLinear.comp calculateSyndrome_xorLinear).comp (setWidth_xorLinear 25 26)
  · have hall : (List.range 25).all (fun i =>
        calculateSyndrome ((BitVec.twoPow 25 i).setWidth 26 <<< 1) ==
          mulX (calculateSyndrome ((BitVec.twoPow 25 i).setWidth 26))) = true := by decide +kernel
    intro i hi
    simpa using List.all_eq_true.mp hall i (List.mem_range.mpr hi)

/-- The syndrome of the last ten bits determines them. -/
theorem mulX_iterate_calculateSyndrome (c : BitVec 10) :
    mulX^[16] (calculateSyndrome (c.setWidth 26)) = c := by
  refine XorLinear.eq_of_twoPow
    (f := fun c : BitVec 10 => mulX^[16] (calculateSyndrome (c.setWidth 26))) (g := fun c => c)
    ?_ ⟨fun _ _ => rfl⟩ ?_ c
  · exact ((mulX_xorLinear.iterate 16).comp calculateSyndrome_xorLinear).comp
      (setWidth_xorLinear 10 26)
  · have hall : (List.range 10).all (fun i =>
        mulX^[16] (calculateSyndrome ((BitVec.twoPow 10 i).setWidth 26)) ==
          BitVec.twoPow 10 i) = true := by decide +kernel
    intro i hi
    simpa using List.all_eq_true.mp hall i (List.mem_range.mpr hi)

theorem calculateSyndrome_low_eq_zero {c : BitVec 10} (h : calculateSyndrome (c.setWidth 26) = 0) :
    c = 0 := by
  rw [← mulX_iterate_calculateSyndrome c, h]
  exact (mulX_xorLinear.iterate 16).map_zero

/-- A short burst that starts at bit `i`. -/
theorem calculateSyndrome_burst (c : BitVec 10) {i : Nat} (hi : i ≤ 16) :
    calculateSyndrome (c.setWidth 26 <<< i) = mulX^[i] (calculateSyndrome (c.setWidth 26)) := by
  induction i with
  | zero => simp
  | succ i ih =>
    -- nothing is shifted out
    have hfits : (c.setWidth 26 <<< i : BitVec 26) = ((c.setWidth 25 <<< i).setWidth 26) := by
      apply BitVec.eq_of_getLsbD_eq
      intro j hj
      simp only [BitVec.getLsbD_shiftLeft, BitVec.getLsbD_setWidth]
      by_cases hj' : j < 25
      · simp [hj, hj']
        grind
      · have hhigh : c.getLsbD (j - i) = false := BitVec.getLsbD_of_ge _ _ (by omega)
        simp [hhigh, hj']
    rw [BitVec.shiftLeft_add, hfits, calculateSyndrome_shiftLeft, ← hfits, ih (by omega),
      Function.iterate_succ_apply']

theorem calculateSyndrome_burst_ne_zero {c : BitVec 10} (hc : c ≠ 0) {i : Nat} (hi : i ≤ 16) :
    calculateSyndrome (c.setWidth 26 <<< i) ≠ 0 := by
  have hiter : ∀ m r, mulX^[m] r = 0 → r = 0 := by
    intro m r h
    induction m generalizing r with
    | zero => exact h
    | succ m ih => exact mulX_eq_zero (ih _ h)
  intro hzero
  rw [calculateSyndrome_burst c hi] at hzero
  exact hc (calculateSyndrome_low_eq_zero (hiter _ _ hzero))

/-! ### Blocks as they are sent -/

/-- The syndromes of the offset words. -/
def syndromeOf : Offset → BitVec 10
  | .a => 0b1111011000
  | .b => 0b1111010100
  | .c => 0b1001011100
  | .cPrime => 0b1111001100
  | .d => 0b1001011000
  | .invalid => 0

/-- `getOffsetForSyndrome` knows the syndromes of the offset words. -/
theorem getOffsetForSyndrome_eq_iff {o : Offset} (ho : o ≠ .invalid) (s : BitVec 10) :
    getOffsetForSyndrome s = o ↔ s = calculateSyndrome ((offsetWord o).setWidth 26) := by
  have hword : ∀ o, o ≠ .invalid →
      calculateSyndrome ((offsetWord o).setWidth 26) = syndromeOf o := by
    intro o ho
    cases o
    case invalid => exact absurd rfl ho
    all_goals decide +kernel
  rw [hword o ho]
  unfold getOffsetForSyndrome
  cases o
  case invalid => exact absurd rfl ho
  all_goals
    simp only [syndromeOf]
    split_ifs <;> simp_all

theorem calculateSyndrome_encodeBlock (data : BitVec 16) (o : Offset) :
    calculateSyndrome (encodeBlock data o) = calculateSyndrome ((offsetWord o).setWidth 26) := by
  have hplain : calculateSyndrome (data ++ checkword data) = 0 := by
    refine XorLinear.eq_of_twoPow (f := fun data => calculateSyndrome (data ++ checkword data))
      (g := fun _ => 0) ?_ ⟨fun _ _ => by simp⟩ ?_ data
    · refine calculateSyndrome_xorLinear.comp (g := fun data => data ++ checkword data) ⟨?_⟩
      intro a b
      rw [checkword_xorLinear.map_xor, BitVec.xor_append]
    · have hall : (List.range 16).all (fun i => calculateSyndrome
          (BitVec.twoPow 16 i ++ checkword (BitVec.twoPow 16 i)) == 0) = true := by
        decide +kernel
      intro i hi
      simpa using List.all_eq_true.mp hall i (List.mem_range.mpr hi)
  have hsplit : encodeBlock data o =
      (data ++ checkword data) ^^^ ((offsetWord o).setWidth 26 : BitVec 26) := by
    have hzero : ((offsetWord o).setWidth 26 : BitVec 26) = 0#16 ++ offsetWord o := by
      apply BitVec.eq_of_getLsbD_eq
      intro j hj
      simp only [BitVec.getLsbD_setWidth, BitVec.getLsbD_append]
      grind
    rw [hzero, BitVec.xor_append, BitVec.xor_zero]
    rfl
  rw [hsplit, calculateSyndrome_xorLinear.map_xor, hplain]
  simp

/-- A word has the data bits and the offset of at most one block. -/
theorem eq_encodeBlock_of_offset {raw : BitVec 26} {o : Offset}
    (h : calculateSyndrome raw = calculateSyndrome ((offsetWord o).setWidth 26)) :
    raw = encodeBlock (blockData raw) o := by
  rw [← calculateSyndrome_encodeBlock (blockData raw), calculateSyndrome_xorLinear.eq_iff_xor] at h
  -- the two words differ in the last ten bits only
  have hlow : raw ^^^ encodeBlock (blockData raw) o =
      ((raw ^^^ encodeBlock (blockData raw) o).setWidth 10).setWidth 26 := by
    apply BitVec.eq_of_getLsbD_eq
    intro j hj
    simp only [BitVec.getLsbD_setWidth, BitVec.getLsbD_xor, encodeBlock, BitVec.getLsbD_append,
      blockData, BitVec.getLsbD_ushiftRight]
    grind
  rw [hlow] at h
  have hnone := calculateSyndrome_low_eq_zero h
  rw [hnone] at hlow
  exact BitVec.xor_eq_zero_iff.mp (by simpa using hlow)

@[simp] theorem blockData_encodeBlock (data : BitVec 16) (o : Offset) :
    blockData (encodeBlock data o) = data := by
  apply BitVec.eq_of_getLsbD_eq
  intro j hj
  simp only [blockData, encodeBlock, BitVec.getLsbD_setWidth, BitVec.getLsbD_ushiftRight,
    BitVec.getLsbD_append]
  grind

/-- The offset of a received word is that of the block that would be sent
    for its data bits. -/
theorem offset_eq_iff {o : Offset} (ho : o ≠ .invalid) (raw : BitVec 26) :
    getOffsetForSyndrome (calculateSyndrome raw) = o ↔ raw = encodeBlock (blockData raw) o := by
  rw [getOffsetForSyndrome_eq_iff ho]
  constructor
  · exact eq_encodeBlock_of_offset
  · intro h
    rw [h, calculateSyndrome_encodeBlock]

/-- A block that has an offset. -/
theorem offset_of_one_block :
    getOffsetForSyndrome (calculateSyndrome (encodeBlock 0x1234 .b)) = .b :=
  (offset_eq_iff (by decide) _).mpr (by rw [blockData_encodeBlock])

/-! ### Correction -/

theorem burstErrors_separates : Separates calculateSyndrome burstErrors := by
  have hall : burstErrors.all (fun e => burstErrors.all fun e' =>
      calculateSyndrome e != calculateSyndrome e' || e == e') = true := by decide +kernel
  intro e he e' he' heq
  have hpair := List.all_eq_true.mp (List.all_eq_true.mp hall e he) e' he'
  simpa [heq] using hpair

/-- What `correctBurstErrors` finds in the table. -/
theorem errorLookupTable_eq_some_iff {o : Offset} (ho : o ≠ .invalid) {raw e : BitVec 26} :
    ((errorLookupTable o).find? (fun p => p.1 = calculateSyndrome raw)).map Prod.snd = some e ↔
      e ∈ burstErrors ∧ raw ^^^ e = encodeBlock (blockData (raw ^^^ e)) o := by
  rw [errorLookupTable, if_neg ho,
    lookup_eq_some_iff calculateSyndrome_xorLinear burstErrors_separates,
    ← getOffsetForSyndrome_eq_iff ho, offset_eq_iff ho]

/-- The correction succeeds exactly for the words that a burst of one or two
    bits made of a block with the expected offset, and gives this block. -/
theorem correctBurstErrors_eq_iff {o : Offset} (ho : o ≠ .invalid) (raw word : BitVec 26) :
    correctBurstErrors raw o = ⟨true, word⟩ ↔
      (∃ data, word = encodeBlock data o) ∧ raw ^^^ word ∈ burstErrors := by
  have hback : ∀ a b : BitVec 26, a ^^^ (a ^^^ b) = b := by
    intro a b
    rw [← BitVec.xor_assoc, BitVec.xor_self, BitVec.zero_xor]
  have hfound : correctBurstErrors raw o = ⟨true, word⟩ ↔
      ((errorLookupTable o).find? (fun p => p.1 = calculateSyndrome raw)).map Prod.snd =
        some (raw ^^^ word) := by
    simp only [correctBurstErrors]
    cases hfind : (errorLookupTable o).find? (fun p => p.1 = calculateSyndrome raw) with
    | none => simp
    | some p =>
      simp only [ErrorCorrectionResult.mk.injEq, true_and, Option.map_some, Option.some.injEq]
      constructor
      · rintro rfl
        exact (hback raw p.2).symm
      · intro h
        rw [h]
        exact hback raw word
  rw [hfound, errorLookupTable_eq_some_iff ho, hback]
  constructor
  · rintro ⟨hmem, hword⟩
    exact ⟨⟨_, hword⟩, hmem⟩
  · rintro ⟨⟨data, rfl⟩, hmem⟩
    exact ⟨hmem, by rw [blockData_encodeBlock]⟩

/-- Two wrong bits in a row are corrected. -/
theorem correct_one_burst :
    correctBurstErrors (encodeBlock 0x1234 .a ^^^ 0b11000) .a =
      ⟨true, encodeBlock 0x1234 .a⟩ := by
  rw [correctBurstErrors_eq_iff (by decide)]
  exact ⟨⟨0x1234, rfl⟩, by decide +kernel⟩

/-! ### Detection -/

/-- Wrong bits that the code tells from none: a burst of up to ten bits, or
    one or two bits anywhere in the block. -/
inductive DetectableError : BitVec 26 → Prop where
  | burst {c : BitVec 10} (hc : c ≠ 0) {i : Nat} (hi : i ≤ 16) :
      DetectableError (c.setWidth 26 <<< i)
  | single {i : Nat} (hi : i < 26) : DetectableError (BitVec.twoPow 26 i)
  | double {i j : Nat} (hij : i < j) (hj : j < 26) :
      DetectableError (BitVec.twoPow 26 i ^^^ BitVec.twoPow 26 j)

theorem calculateSyndrome_twoPow {i : Nat} (hi : i < 26) :
    calculateSyndrome (BitVec.twoPow 26 i) = parityCheckMatrix.getD (25 - i) 0 := by
  have hall : (List.range 26).all (fun i =>
      calculateSyndrome (BitVec.twoPow 26 i) == parityCheckMatrix.getD (25 - i) 0) = true := by
    decide +kernel
  simpa using List.all_eq_true.mp hall i (List.mem_range.mpr hi)

theorem DetectableError.syndrome_ne_zero {e : BitVec 26} (h : DetectableError e) :
    calculateSyndrome e ≠ 0 := by
  cases h with
  | burst hc hi => exact calculateSyndrome_burst_ne_zero hc hi
  | single hi =>
    have hall : (List.range 26).all (fun i => parityCheckMatrix.getD (25 - i) 0 != 0) = true := by
      decide +kernel
    rw [calculateSyndrome_twoPow hi]
    simpa using List.all_eq_true.mp hall _ (List.mem_range.mpr hi)
  | double hij hj =>
    have hall : (List.range 26).all (fun j => (List.range j).all fun i =>
        parityCheckMatrix.getD (25 - i) 0 != parityCheckMatrix.getD (25 - j) 0) = true := by
      decide +kernel
    have hrows := List.all_eq_true.mp (List.all_eq_true.mp hall _ (List.mem_range.mpr hj)) _
      (List.mem_range.mpr hij)
    rw [calculateSyndrome_xorLinear.map_xor, calculateSyndrome_twoPow (by omega),
      calculateSyndrome_twoPow hj]
    intro hzero
    rw [BitVec.xor_eq_zero_iff.mp hzero] at hrows
    simp at hrows

/-- A block with such an error does not keep its offset. -/
theorem offset_ne_of_detectableError {o : Offset} (ho : o ≠ .invalid) (data : BitVec 16)
    {e : BitVec 26} (he : DetectableError e) :
    getOffsetForSyndrome (calculateSyndrome (encodeBlock data o ^^^ e)) ≠ o := by
  intro h
  rw [getOffsetForSyndrome_eq_iff ho, ← calculateSyndrome_encodeBlock data o] at h
  exact calculateSyndrome_xorLinear.ne_of_error he.syndrome_ne_zero _ h

/-- Two wrong bits far apart are noticed. -/
theorem offset_lost_by_two_bits :
    getOffsetForSyndrome (calculateSyndrome
      (encodeBlock 0x1234 .a ^^^ (BitVec.twoPow 26 3 ^^^ BitVec.twoPow 26 20))) ≠ .a :=
  offset_ne_of_detectableError (by decide) 0x1234 (.double (by decide) (by decide))

end Rds

end FmSdrTuner

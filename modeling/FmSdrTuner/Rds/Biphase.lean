import Mathlib.Algebra.Order.BigOperators.Group.List
import Mathlib.Algebra.Order.Field.Rat
import Mathlib.Data.Rat.Lemmas
import Mathlib.Data.Vector.Basic
import Mathlib.Tactic.Linarith
import Mathlib.Tactic.Ring

/-! # Biphase and differential decoding

    A bit is sent as two symbols of opposite phase. The biphase decoder
    takes half the difference of neighbours as the bit; which neighbours
    belong together it decides every 128 symbols, from the size of the
    differences at even and at odd places. The delta decoder takes a change
    for 1, so the sign of the carrier does not matter.

    Main result: `bits_received`. -/

namespace FmSdrTuner.Rds

/-! ### The decoders (`subcarrier.cpp`) -/

/-- `BiphaseDecoder`, with the real part of the last symbol: nothing depends
    on the imaginary part. -/
structure BiphaseDecoder where
  prevPskSymbol : ℚ
  clockHistory : Vector ℚ 128
  clock : Fin 128
  clockPolarity : Nat

namespace BiphaseDecoder

def initial : BiphaseDecoder := ⟨0, Vector.replicate 128 0, 0, 0⟩

/-- The sum over every other place of the history, from `first` on. -/
def everyOther (history : Vector ℚ 128) (first : Fin 2) : ℚ :=
  ((List.finRange 64).map fun i => history[2 * i.val + first.val]).sum

/-- The polarity for a full history; unchanged if nothing speaks for
    either. -/
def nextPolarity (history : Vector ℚ 128) (polarity : Nat) : Nat :=
  let evenSum := everyOther history 0
  let oddSum := everyOther history 1
  if evenSum > oddSum then 0 else if oddSum > evenSum then 1 else polarity

/-- `BiphaseDecoder::push`: the bit, when there is one. -/
def push (s : BiphaseDecoder) (pskSymbol : ℚ) : BiphaseDecoder × Option Bool :=
  let biphaseSymbol := (pskSymbol - s.prevPskSymbol) * (1 / 2)
  let result :=
    if s.clock.val % 2 = s.clockPolarity then some (decide (biphaseSymbol ≥ 0)) else none
  let history := s.clockHistory.set s.clock |biphaseSymbol|
  if h : s.clock.val + 1 < 128 then
    ({ s with prevPskSymbol := pskSymbol, clockHistory := history, clock := ⟨s.clock.val + 1, h⟩ },
      result)
  else
    ({ prevPskSymbol := pskSymbol
       clockHistory := Vector.replicate 128 0
       clock := 0
       clockPolarity := nextPolarity history s.clockPolarity },
      result)

end BiphaseDecoder

/-- `DeltaDecoder`. -/
structure DeltaDecoder where
  prevInput : Bool
  deriving DecidableEq, Repr

/-- `DeltaDecoder::decode`. -/
def DeltaDecoder.decode (s : DeltaDecoder) (inputBit : Bool) : Bool × DeltaDecoder :=
  (inputBit != s.prevInput, ⟨inputBit⟩)

/-- The decoders behind the symbol synchronizer of one subcarrier. -/
structure Demod where
  biphaseDecoder : BiphaseDecoder
  deltaDecoder : DeltaDecoder

def Demod.initial : Demod := ⟨.initial, ⟨false⟩⟩

/-- What `chunkToBits` does with a symbol. -/
def Demod.push (s : Demod) (pskSymbol : ℚ) : Demod × List Bool :=
  match s.biphaseDecoder.push pskSymbol with
  | (biphase, none) => ({ s with biphaseDecoder := biphase }, [])
  | (biphase, some value) =>
      let (bit, delta) := s.deltaDecoder.decode value
      (⟨biphase, delta⟩, [bit])

/-- The bits of some symbols, one after the other. -/
def Demod.pushAll (s : Demod) : List ℚ → Demod × List Bool
  | [] => (s, [])
  | x :: xs =>
      let (s, bits) := s.push x
      let (s, rest) := s.pushAll xs
      (s, bits ++ rest)

theorem Demod.pushAll_append (s : Demod) (xs ys : List ℚ) :
    s.pushAll (xs ++ ys) =
      (((s.pushAll xs).1.pushAll ys).1, (s.pushAll xs).2 ++ ((s.pushAll xs).1.pushAll ys).2) := by
  induction xs generalizing s with
  | nil => rfl
  | cons x xs ih => simp only [List.cons_append, Demod.pushAll, ih, List.append_assoc]

/-! ### One window -/

/-- Half the difference of symbol `n` and the one before. -/
def reading (sym : Nat → ℚ) (n : Nat) : ℚ := (sym n - sym (n - 1)) * (1 / 2)

/-- The sum of every other reading of the window that starts at `start`. -/
def windowSum (sym : Nat → ℚ) (start : Nat) (first : Fin 2) : ℚ :=
  ((List.finRange 64).map fun i => |reading sym (start + (2 * i.val + first.val))|).sum

/-- The decoder has taken `k` symbols of the window that starts at
    `start`. -/
structure Windowed (s : BiphaseDecoder) (sym : Nat → ℚ) (start k : Nat) : Prop where
  clock : s.clock.val = k
  prev : s.prevPskSymbol = sym (start + k - 1)
  history : ∀ i, ∀ hi : i < 128, i < k → s.clockHistory[i] = |reading sym (start + i)|

namespace Windowed
variable {s : BiphaseDecoder} {sym : Nat → ℚ} {start k : Nat}

/-- The bit that a symbol gives. -/
theorem push_snd (h : Windowed s sym start k) :
    (s.push (sym (start + k))).2 =
      if k % 2 = s.clockPolarity then some (decide (reading sym (start + k) ≥ 0)) else none := by
  have hreading : (sym (start + k) - s.prevPskSymbol) * (1 / 2) = reading sym (start + k) := by
    rw [h.prev, reading]
  simp only [BiphaseDecoder.push, hreading, h.clock]
  split <;> rfl

/-- The history with one more reading. -/
theorem set_history (h : Windowed s sym start k) (i : Nat) (hi : i < 128) (hik : i < k + 1) :
    (s.clockHistory.set s.clock |reading sym (start + k)|)[i] = |reading sym (start + i)| := by
  have hclock := h.clock
  by_cases hlast : i = k
  · subst hlast
    simp only [hclock, Vector.getElem_set_self]
  · rw [Vector.getElem_set_ne _ _ (by omega)]
    exact h.history i hi (by omega)

/-- A symbol within the window. -/
theorem push (h : Windowed s sym start k) (hk : k + 1 < 128) :
    Windowed (s.push (sym (start + k))).1 sym start (k + 1) ∧
      (s.push (sym (start + k))).1.clockPolarity = s.clockPolarity := by
  have hreading : (sym (start + k) - s.prevPskSymbol) * (1 / 2) = reading sym (start + k) := by
    rw [h.prev, reading]
  have hclock := h.clock
  simp only [BiphaseDecoder.push, hreading]
  rw [dif_pos (by omega)]
  refine ⟨⟨by simp [hclock], rfl, ?_⟩, rfl⟩
  intro i hi hik
  exact h.set_history i hi hik

/-- The last symbol of the window decides the polarity. -/
theorem push_last (h : Windowed s sym start 127) :
    Windowed (s.push (sym (start + 127))).1 sym (start + 128) 0 ∧
      (s.push (sym (start + 127))).1.clockPolarity =
        if windowSum sym start 0 > windowSum sym start 1 then 0
        else if windowSum sym start 1 > windowSum sym start 0 then 1 else s.clockPolarity := by
  have hreading : (sym (start + 127) - s.prevPskSymbol) * (1 / 2) = reading sym (start + 127) := by
    rw [h.prev, reading]
  have hclock := h.clock
  have hsum : ∀ first, BiphaseDecoder.everyOther
      (s.clockHistory.set s.clock |reading sym (start + 127)|) first =
        windowSum sym start first := by
    intro first
    unfold BiphaseDecoder.everyOther windowSum
    congr 1
    apply List.map_congr_left
    intro i _
    exact h.set_history _ (by omega) (by omega)
  simp only [BiphaseDecoder.push, hreading]
  rw [dif_neg (by omega)]
  refine ⟨⟨rfl, rfl, fun i _ hi => absurd hi (Nat.not_lt_zero i)⟩, ?_⟩
  simp only [BiphaseDecoder.nextPolarity, hsum]

end Windowed

/-! ### The signal -/

/-- The phase of an encoded bit. -/
def level (bit : Bool) : ℚ := if bit then 1 else -1

/-- A bit is two symbols of opposite phase, each of size `A` up to an error
    of at most `ε`. -/
structure Carries (sym : Nat → ℚ) (e : Nat → Bool) (A ε : ℚ) : Prop where
  nonneg : 0 ≤ ε
  small : ε < A
  first : ∀ k, |sym (2 * k) + level (e k) * A| ≤ ε
  second : ∀ k, |sym (2 * k + 1) - level (e k) * A| ≤ ε

/-- The bit that was sent: a change of the encoded one. -/
def dataBit (e : Nat → Bool) (k : Nat) : Bool := e k != e (k - 1)

/-- The number of changes at the even symbols of a window. -/
def changes (e : Nat → Bool) (start : Nat) : Nat :=
  (List.finRange 64).countP fun i => dataBit e ((start + 1) / 2 + i.val)

namespace Carries
variable {sym : Nat → ℚ} {e : Nat → Bool} {A ε : ℚ}

/-- The difference of the two symbols of a bit has its sign. -/
theorem reading_odd (h : Carries sym e A ε) (k : Nat) :
    |reading sym (2 * k + 1) - level (e k) * A| ≤ ε := by
  have hfirst := abs_le.mp (h.first k)
  have hsecond := abs_le.mp (h.second k)
  rw [reading, Nat.add_sub_cancel, abs_le]
  constructor <;> linarith

theorem reading_odd_nonneg (h : Carries sym e A ε) (k : Nat) :
    decide (reading sym (2 * k + 1) ≥ 0) = e k := by
  have hreading := abs_le.mp (h.reading_odd k)
  have hsmall := h.small
  cases hbit : e k with
  | false =>
    rw [hbit] at hreading
    simp only [level, Bool.false_eq_true, if_false] at hreading
    exact decide_eq_false (by linarith)
  | true =>
    rw [hbit] at hreading
    simp only [level, if_true] at hreading
    exact decide_eq_true (by linarith)

theorem le_abs_reading_odd (h : Carries sym e A ε) (k : Nat) :
    A - ε ≤ |reading sym (2 * k + 1)| := by
  have hreading := abs_le.mp (h.reading_odd k)
  cases hbit : e k with
  | false =>
    rw [hbit] at hreading
    simp only [level, Bool.false_eq_true, if_false] at hreading
    exact le_trans (by linarith) (neg_le_abs _)
  | true =>
    rw [hbit] at hreading
    simp only [level, if_true] at hreading
    exact le_trans (by linarith) (le_abs_self _)

/-- The difference of symbols of two bits is small where the bit changes. -/
theorem abs_reading_even_le (h : Carries sym e A ε) {k : Nat} (hk : 0 < k) :
    |reading sym (2 * k)| ≤ (if dataBit e k then 0 else A) + ε := by
  have hfirst := abs_le.mp (h.first k)
  have hsecond := abs_le.mp (h.second (k - 1))
  have hprev : 2 * (k - 1) + 1 = 2 * k - 1 := by omega
  rw [hprev] at hsecond
  have hsmall := h.small
  have hnonneg := h.nonneg
  rw [reading, abs_le]
  unfold dataBit
  cases hbit : e k <;> cases hbit' : e (k - 1) <;>
    simp only [hbit, hbit', level, Bool.false_eq_true, if_false, if_true, bne_self_eq_false,
      Bool.true_bne, Bool.false_bne, Bool.not_false] at hfirst hsecond ⊢ <;>
    constructor <;> linarith

/-- The right places of a window outweigh the others by the changes. -/
theorem windowSum_sub (h : Carries sym e A ε) {start : Nat} (hstart : 0 < start)
    (right wrong : Fin 2) (hright : (start + right.val) % 2 = 1)
    (hwrong : (start + wrong.val) % 2 = 0) :
    changes e start * A - 128 * ε ≤ windowSum sym start right - windowSum sym start wrong := by
  -- in the right phase every reading is a full symbol
  have hodd : ∀ i : Fin 64, A - ε ≤ |reading sym (start + (2 * i.val + right.val))| := by
    intro i
    have hindex : start + (2 * i.val + right.val) =
        2 * ((start + right.val) / 2 + i.val) + 1 := by omega
    rw [hindex]
    exact h.le_abs_reading_odd _
  -- in the wrong one those across a change of bit cancel
  have heven : ∀ i : Fin 64, |reading sym (start + (2 * i.val + wrong.val))| ≤
      (if dataBit e ((start + 1) / 2 + i.val) then 0 else A) + ε := by
    intro i
    have hindex : start + (2 * i.val + wrong.val) = 2 * ((start + 1) / 2 + i.val) := by omega
    rw [hindex]
    exact h.abs_reading_even_le (by omega)
  have hsumRight : 64 * (A - ε) ≤ windowSum sym start right := by
    have hle := List.sum_le_sum (l := List.finRange 64) (f := fun _ => A - ε)
      (g := fun i => |reading sym (start + (2 * i.val + right.val))|) (fun i _ => hodd i)
    rw [List.map_const', List.sum_replicate, List.length_finRange, nsmul_eq_mul] at hle
    exact_mod_cast hle
  have hsumWrong : windowSum sym start wrong ≤ 64 * ε + (64 - changes e start) * A := by
    have hle := List.sum_le_sum (l := List.finRange 64)
      (f := fun i => |reading sym (start + (2 * i.val + wrong.val))|)
      (g := fun i => (if dataBit e ((start + 1) / 2 + i.val) then 0 else A) + ε)
      (fun i _ => heven i)
    have hcount : ∀ l : List (Fin 64), (l.map fun i =>
        (if dataBit e ((start + 1) / 2 + i.val) then 0 else A) + ε).sum =
        l.length * ε + (l.length - l.countP fun i => dataBit e ((start + 1) / 2 + i.val)) * A := by
      intro l
      induction l with
      | nil => simp
      | cons i l ih =>
        rw [List.map_cons, List.sum_cons, ih, List.countP_cons, List.length_cons]
        split <;> push_cast <;> ring
    rw [hcount, List.length_finRange] at hle
    exact_mod_cast hle
  linarith

end Carries

/-! ### Decoders in step with the signal -/

/-- The decoder takes symbol `n` next, with windows that start at `w` and
    every 128 symbols later, and reads the second symbol of every bit. -/
def Aligned (s : BiphaseDecoder) (sym : Nat → ℚ) (w n : Nat) : Prop :=
  ∃ j k, k < 128 ∧ n = w + 128 * j + k ∧ Windowed s sym (w + 128 * j) k ∧
    s.clockPolarity = (w + 1) % 2

variable {sym : Nat → ℚ} {e : Nat → Bool} {A ε : ℚ} {w n : Nat}

/-- The polarity after a window: right if the changes outweigh the noise, and
    it stays right if the noise does not outweigh them. -/
theorem Windowed.push_last_right {s : BiphaseDecoder} {start : Nat}
    (h : Windowed s sym start 127) (hc : Carries sym e A ε) (hstart : 0 < start)
    (hlively : 128 * ε < changes e start * A ∨
      128 * ε ≤ changes e start * A ∧ s.clockPolarity = (start + 1) % 2) :
    (s.push (sym (start + 127))).1.clockPolarity = (start + 1) % 2 := by
  rw [h.push_last.2]
  rcases Nat.mod_two_eq_zero_or_one start with hparity | hparity
  · -- the second symbols are at the odd places
    have hweight := hc.windowSum_sub hstart 1 0 (by simp; omega)
      (by simpa using hparity)
    have hright : (start + 1) % 2 = 1 := by omega
    rw [hright] at hlively ⊢
    rcases hlively with hmore | ⟨hle, hpol⟩
    · rw [if_neg (by linarith), if_pos (by linarith)]
    · rw [if_neg (by linarith)]
      split
      · rfl
      · exact hpol
  · have hweight := hc.windowSum_sub hstart 0 1 (by simpa using hparity)
      (by simp; omega)
    have hright : (start + 1) % 2 = 0 := by omega
    rw [hright] at hlively ⊢
    rcases hlively with hmore | ⟨hle, hpol⟩
    · rw [if_pos (by linarith)]
    · split
      · rfl
      · rw [if_neg (by linarith)]
        exact hpol

namespace Aligned
variable {s : BiphaseDecoder}

/-- The next symbol: the bit if it is the second one of a bit. -/
theorem push (h : Aligned s sym w n) (hc : Carries sym e A ε) (hw : 0 < w)
    (hlively : ∀ j, 128 * ε ≤ changes e (w + 128 * j) * A) :
    Aligned (s.push (sym n)).1 sym w (n + 1) ∧
      (s.push (sym n)).2 = if n % 2 = 1 then some (e (n / 2)) else none := by
  obtain ⟨j, k, hk, rfl, hwin, hpol⟩ := h
  constructor
  · by_cases hlast : k = 127
    · subst hlast
      have hright := hwin.push_last_right hc (by omega) (Or.inr ⟨hlively j, by omega⟩)
      have hnext : w + 128 * (j + 1) = w + 128 * j + 128 := by omega
      refine ⟨j + 1, 0, by decide, by omega, ?_, by omega⟩
      rw [hnext]
      exact hwin.push_last.1
    · obtain ⟨hnext, hsame⟩ := hwin.push (by omega)
      exact ⟨j, k + 1, by omega, by omega, hnext, hsame.trans hpol⟩
  · rw [hwin.push_snd, hpol]
    by_cases hodd : (w + 128 * j + k) % 2 = 1
    · have hindex : w + 128 * j + k = 2 * ((w + 128 * j + k) / 2) + 1 := by omega
      rw [if_pos hodd, if_pos (by omega), hindex, hc.reading_odd_nonneg]
      congr 2
      omega
    · rw [if_neg hodd, if_neg (by omega)]

end Aligned

/-- The delta decoder holds the last bit, too. -/
def InStep (s : Demod) (sym : Nat → ℚ) (e : Nat → Bool) (w n : Nat) : Prop :=
  Aligned s.biphaseDecoder sym w n ∧ s.deltaDecoder.prevInput = e (n / 2 - 1)

theorem Demod.push_of_none {s : Demod} {x : ℚ} (h : (s.biphaseDecoder.push x).2 = none) :
    s.push x = ({ s with biphaseDecoder := (s.biphaseDecoder.push x).1 }, []) := by
  rw [Demod.push]
  generalize s.biphaseDecoder.push x = p at *
  obtain ⟨biphase, result⟩ := p
  subst h
  rfl

theorem Demod.push_of_some {s : Demod} {x : ℚ} {value : Bool}
    (h : (s.biphaseDecoder.push x).2 = some value) :
    s.push x = (⟨(s.biphaseDecoder.push x).1, ⟨value⟩⟩, [value != s.deltaDecoder.prevInput]) := by
  rw [Demod.push]
  generalize s.biphaseDecoder.push x = p at *
  obtain ⟨biphase, result⟩ := p
  subst h
  rfl

section Run
variable (hc : Carries sym e A ε) (hw : 0 < w)
  (hlively : ∀ j, 128 * ε ≤ changes e (w + 128 * j) * A)
include hc hw hlively

/-- Two symbols bring the delta decoder in step. -/
theorem inStep_of_aligned {s : Demod} (h : Aligned s.biphaseDecoder sym w n) :
    InStep (s.pushAll [sym n, sym (n + 1)]).1 sym e w (n + 2) := by
  obtain ⟨hnext, hbit⟩ := h.push hc hw hlively
  by_cases hodd : n % 2 = 1
  · rw [if_pos hodd] at hbit
    obtain ⟨hnext', hbit'⟩ := hnext.push hc hw hlively
    rw [if_neg (by omega)] at hbit'
    simp only [Demod.pushAll, Demod.push_of_some hbit]
    rw [Demod.push_of_none hbit']
    have hvalue : e (n / 2) = e ((n + 2) / 2 - 1) := by
      congr 1
      omega
    exact ⟨hnext', hvalue⟩
  · rw [if_neg hodd] at hbit
    obtain ⟨hnext', hbit'⟩ := hnext.push hc hw hlively
    rw [if_pos (by omega)] at hbit'
    simp only [Demod.pushAll, Demod.push_of_none hbit]
    rw [Demod.push_of_some hbit']
    have hvalue : e ((n + 1) / 2) = e ((n + 2) / 2 - 1) := by
      congr 1
      omega
    exact ⟨hnext', hvalue⟩

/-- In step every two symbols give the bit that was sent. -/
theorem InStep.pushTwo {s : Demod} (h : InStep s sym e w n) :
    InStep (s.pushAll [sym n, sym (n + 1)]).1 sym e w (n + 2) ∧
      (s.pushAll [sym n, sym (n + 1)]).2 = [dataBit e (n / 2)] := by
  refine ⟨inStep_of_aligned hc hw hlively h.1, ?_⟩
  obtain ⟨hnext, hbit⟩ := h.1.push hc hw hlively
  obtain ⟨-, hbit'⟩ := hnext.push hc hw hlively
  by_cases hodd : n % 2 = 1
  · rw [if_pos hodd] at hbit
    rw [if_neg (by omega)] at hbit'
    simp only [Demod.pushAll, Demod.push_of_some hbit]
    rw [Demod.push_of_none hbit', h.2]
    rfl
  · rw [if_neg hodd] at hbit
    rw [if_pos (by omega)] at hbit'
    simp only [Demod.pushAll, Demod.push_of_none hbit]
    rw [Demod.push_of_some hbit', h.2, show (n + 1) / 2 = n / 2 by omega]
    rfl

theorem InStep.pushAll {s : Demod} (h : InStep s sym e w n) (c : Nat) :
    (s.pushAll ((List.range' n (2 * c)).map sym)).2 =
      (List.range c).map fun i => dataBit e (n / 2 + i) := by
  induction c generalizing s n with
  | zero => rfl
  | succ c ih =>
    obtain ⟨hnext, hbit⟩ := h.pushTwo hc hw hlively
    have hsplit : (List.range' n (2 * (c + 1))).map sym =
        [sym n, sym (n + 1)] ++ (List.range' (n + 2) (2 * c)).map sym := by
      rw [Nat.mul_succ, List.range'_succ, List.range'_succ]
      rfl
    have hrest : ((List.range c).map fun i => dataBit e ((n + 2) / 2 + i)) =
        (List.range c).map fun i => dataBit e (n / 2 + (i + 1)) := by
      apply List.map_congr_left
      intro i _
      congr 1
      omega
    rw [hsplit, Demod.pushAll_append, hbit, ih hnext, hrest, List.range_succ_eq_map, List.map_cons,
      List.map_map]
    rfl

end Run

/-! ### From any state -/

theorem Demod.push_biphaseDecoder (s : Demod) (x : ℚ) :
    (s.push x).1.biphaseDecoder = (s.biphaseDecoder.push x).1 := by
  cases hbit : (s.biphaseDecoder.push x).2 with
  | none => rw [Demod.push_of_none hbit]
  | some value => rw [Demod.push_of_some hbit]

/-- At the end of the window it is in, a decoder in any state begins a new
    one. -/
theorem windowed_of_any (s : Demod) (sym : Nat → ℚ) (m : Nat) :
    Windowed
      (s.pushAll ((List.range' m (128 - s.biphaseDecoder.clock.val)).map sym)).1.biphaseDecoder
      sym (m + (128 - s.biphaseDecoder.clock.val)) 0 := by
  have hclock := s.biphaseDecoder.clock.isLt
  generalize hrest : 127 - s.biphaseDecoder.clock.val = rest
  induction rest generalizing s m with
  | zero =>
    have hlast : ¬ s.biphaseDecoder.clock.val + 1 < 128 := by omega
    have hone : 128 - s.biphaseDecoder.clock.val = 1 := by omega
    simp only [hone, List.range'_one, List.map_cons, List.map_nil, Demod.pushAll,
      Demod.push_biphaseDecoder]
    simp only [BiphaseDecoder.push, dif_neg hlast]
    exact ⟨rfl, rfl, fun i _ hi => absurd hi (Nat.not_lt_zero i)⟩
  | succ rest ih =>
    have hmore : s.biphaseDecoder.clock.val + 1 < 128 := by omega
    have hnext : (s.push (sym m)).1.biphaseDecoder.clock.val =
        s.biphaseDecoder.clock.val + 1 := by
      rw [Demod.push_biphaseDecoder]
      simp only [BiphaseDecoder.push, dif_pos hmore]
    have hsplit : 128 - s.biphaseDecoder.clock.val =
        128 - (s.push (sym m)).1.biphaseDecoder.clock.val + 1 := by omega
    have hrun := ih (s.push (sym m)).1 (m + 1) (by omega) (by omega)
    rw [hsplit, List.range'_succ, List.map_cons]
    simp only [Demod.pushAll]
    rw [show m + (128 - (s.push (sym m)).1.biphaseDecoder.clock.val + 1) =
      m + 1 + (128 - (s.push (sym m)).1.biphaseDecoder.clock.val) by omega]
    exact hrun

/-- A whole window in which the changes outweigh the noise. -/
theorem aligned_of_windowed {s : Demod} (h : Windowed s.biphaseDecoder sym w 0)
    (hc : Carries sym e A ε) (hw : 0 < w) (hfirst : 128 * ε < changes e w * A) :
    Aligned (s.pushAll ((List.range' w 128).map sym)).1.biphaseDecoder sym w (w + 128) := by
  have hrun : ∀ k ≤ 127,
      Windowed (s.pushAll ((List.range' w k).map sym)).1.biphaseDecoder sym w k := by
    intro k hk
    induction k with
    | zero => exact h
    | succ k ih =>
      have hstep := ((ih (by omega)).push (by omega)).1
      rw [List.range'_concat, List.map_append, Demod.pushAll_append]
      simp only [Nat.one_mul, List.map_cons, List.map_nil, Demod.pushAll,
        Demod.push_biphaseDecoder]
      exact hstep
  have hlast := hrun 127 (by omega)
  have hright := hlast.push_last_right hc hw (Or.inl hfirst)
  have hwin := hlast.push_last.1
  rw [show (128 : Nat) = 127 + 1 from rfl, List.range'_concat, List.map_append,
    Demod.pushAll_append]
  simp only [Nat.one_mul, List.map_cons, List.map_nil, Demod.pushAll, Demod.push_biphaseDecoder]
  exact ⟨1, 0, by decide, by omega, hwin, hright⟩

/-- The symbols a decoder takes from symbol `m` on until it is in step: to
    the end of its window, one more, and the two of one bit. -/
def symbolsToStep (s : Demod) : Nat := 128 - s.biphaseDecoder.clock.val + 130

/-- Whatever state the decoders are in, these symbols bring them in step, if
    the changes outweigh the noise in the first whole window, and the noise
    does not outweigh them in one later. -/
theorem inStep_of_any (hc : Carries sym e A ε) (s : Demod) (m : Nat)
    (hfirst : 128 * ε < changes e (m + (128 - s.biphaseDecoder.clock.val)) * A)
    (hlively : ∀ j, 128 * ε ≤
      changes e (m + (128 - s.biphaseDecoder.clock.val) + 128 * j) * A) :
    InStep (s.pushAll ((List.range' m (symbolsToStep s)).map sym)).1 sym e
      (m + (128 - s.biphaseDecoder.clock.val)) (m + symbolsToStep s) := by
  have hclock := s.biphaseDecoder.clock.isLt
  have hbegin := windowed_of_any s sym m
  generalize hsteps : 128 - s.biphaseDecoder.clock.val = steps at *
  have hw : 0 < m + steps := by omega
  have haligned := aligned_of_windowed hbegin hc hw hfirst
  have hstep := inStep_of_aligned hc hw hlively haligned
  -- the rest of a window, a whole one, and the two symbols of one bit
  have hsplit : (List.range' m (symbolsToStep s)).map sym =
      (List.range' m steps).map sym ++ ((List.range' (m + steps) 128).map sym ++
        [sym (m + steps + 128), sym (m + steps + 128 + 1)]) := by
    have htotal : symbolsToStep s = steps + (128 + 2) := by
      rw [symbolsToStep, hsteps]
    have htwo : [sym (m + steps + 128), sym (m + steps + 128 + 1)] =
        (List.range' (m + steps + 128) 2).map sym := rfl
    rw [htotal, htwo, ← List.map_append, ← List.map_append, ← List.range'_append_1,
      ← List.range'_append_1]
  have hindex : m + symbolsToStep s = m + steps + 128 + 2 := by
    rw [symbolsToStep, hsteps]
    omega
  rw [hsplit, hindex]
  simp only [Demod.pushAll_append]
  exact hstep

/-- Whatever state the decoders are in: after at most 258 symbols, whatever
    bits these give, all further bits are those that were sent, if the
    changes outweigh the noise in the first whole window, and the noise does
    not outweigh them in one later. -/
theorem bits_received (hc : Carries sym e A ε) (s : Demod) (m : Nat)
    (hfirst : 128 * ε < changes e (m + (128 - s.biphaseDecoder.clock.val)) * A)
    (hlively : ∀ j, 128 * ε ≤
      changes e (m + (128 - s.biphaseDecoder.clock.val) + 128 * j) * A) (c : Nat) :
    (s.pushAll ((List.range' m (symbolsToStep s + 2 * c)).map sym)).2 =
      (s.pushAll ((List.range' m (symbolsToStep s)).map sym)).2 ++
        (List.range c).map fun i => dataBit e ((m + symbolsToStep s) / 2 + i) := by
  have hclock := s.biphaseDecoder.clock.isLt
  have hstep := inStep_of_any hc s m hfirst hlively
  rw [← List.range'_append_1, List.map_append, Demod.pushAll_append,
    InStep.pushAll hc (by omega) hlively hstep c]

/-! ### A transmitter -/

/-- Differential encoding. -/
def encode (bits : List Bool) (k : Nat) : Bool := (bits.take k).foldl xor false

/-- Two symbols for every encoded bit. -/
def modulate (e : Nat → Bool) (n : Nat) : ℚ :=
  if n % 2 = 0 then -level (e (n / 2)) else level (e (n / 2))

theorem dataBit_encode {bits : List Bool} {k : Nat} (hk : k < bits.length) :
    dataBit (encode bits) (k + 1) = bits[k] := by
  have hnext : encode bits (k + 1) = xor (encode bits k) bits[k] := by
    rw [encode, List.take_succ_eq_append_getElem hk, List.foldl_append]
    rfl
  rw [dataBit, hnext, Nat.add_sub_cancel]
  cases encode bits k <;> cases bits[k] <;> rfl

/-- The bits of a list, in the order they are sent. -/
theorem map_dataBit_encode (before bits : List Bool) :
    (List.range bits.length).map
      (fun i => dataBit (encode (before ++ bits)) (before.length + 1 + i)) = bits := by
  apply List.ext_getElem
  · simp
  · intro i hi hi'
    rw [List.getElem_map, List.getElem_range, Nat.add_right_comm,
      dataBit_encode (by rw [List.length_append]; omega), List.getElem_append_right (by omega)]
    congr 1
    omega

theorem carries_modulate (e : Nat → Bool) : Carries (modulate e) e 1 0 where
  nonneg := le_refl 0
  small := by norm_num
  first k := by
    have heven : 2 * k % 2 = 0 := by omega
    have hhalf : 2 * k / 2 = k := by omega
    rw [modulate, if_pos heven, hhalf]
    simp
  second k := by
    have hodd : ¬ (2 * k + 1) % 2 = 0 := by omega
    have hhalf : (2 * k + 1) / 2 = k := by omega
    rw [modulate, if_neg hodd, hhalf]
    simp

/-- Noise on top of a signal that still carries its bits. -/
theorem Carries.add_noise (h : Carries sym e A ε) {noise : Nat → ℚ} {δ : ℚ}
    (hnoise : ∀ n, |noise n| ≤ δ) (hsmall : ε + δ < A) :
    Carries (fun n => sym n + noise n) e A (ε + δ) where
  nonneg := add_nonneg h.nonneg (le_trans (abs_nonneg _) (hnoise 0))
  small := hsmall
  first k := by
    have hsum := abs_add_le (sym (2 * k) + level (e k) * A) (noise (2 * k))
    rw [add_right_comm]
    exact le_trans hsum (add_le_add (h.first k) (hnoise _))
  second k := by
    have hsum := abs_add_le (sym (2 * k + 1) - level (e k) * A) (noise (2 * k + 1))
    rw [add_sub_right_comm]
    exact le_trans hsum (add_le_add (h.second k) (hnoise _))

/-- An encoded bit that always changes. -/
def alternating (k : Nat) : Bool := decide (k % 2 = 1)

theorem changes_alternating {start : Nat} (hstart : 0 < start) :
    changes alternating start = 64 := by
  have hall : ∀ i ∈ List.finRange 64,
      dataBit alternating ((start + 1) / 2 + i.val) = true := by
    intro i _
    rw [dataBit, alternating, alternating, bne_iff_ne, ne_eq, decide_eq_decide]
    omega
  rw [changes, List.countP_eq_length.mpr hall, List.length_finRange]

/-- A decoder in the middle of a window, with the wrong polarity and a
    history that came from somewhere else. -/
def strayDemod : Demod := ⟨⟨1 / 3, Vector.replicate 128 5, 77, 1⟩, ⟨true⟩⟩

/-- Bits that are all 1, with noise, into a stray decoder: after 181 symbols
    they are received. -/
theorem ones_received :
    let sym := fun n => modulate alternating n + if n % 3 = 0 then 1 / 50 else -1 / 100
    (strayDemod.pushAll ((List.range' 5 (181 + 2 * 3)).map sym)).2 =
      (strayDemod.pushAll ((List.range' 5 181).map sym)).2 ++ [true, true, true] := by
  have hnoise : ∀ n : Nat, |(if n % 3 = 0 then 1 / 50 else -1 / 100 : ℚ)| ≤ 1 / 50 := by
    intro n
    split <;> norm_num [abs_le]
  have hcarries := (carries_modulate alternating).add_noise hnoise (by norm_num)
  exact bits_received hcarries strayDemod 5
    (by
      rw [changes_alternating (by omega)]
      norm_num)
    (fun j => by
      rw [changes_alternating (by omega)]
      norm_num) 3

end FmSdrTuner.Rds

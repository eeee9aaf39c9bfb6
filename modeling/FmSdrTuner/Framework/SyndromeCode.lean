import Mathlib.Data.List.Basic
import Mathlib.Logic.Function.Iterate
import Mathlib.Tactic.Common

/-! # Syndromes and error tables

    The syndrome of a word under a parity-check matrix respects exclusive
    or, so what an error adds to it does not depend on the word. A decoder
    that looks the syndrome up in a table of error patterns therefore finds
    the error of every word that is one of these patterns away from a code
    word, and of no other.

    * `XorLinear`: maps of words that respect exclusive or; they are equal
      if they agree on the words with one bit (`XorLinear.eq_of_twoPow`);
    * `lookup_eq_some_iff`: what a table finds;
    * `XorLinear.ne_of_error`: what a syndrome detects. -/

namespace FmSdrTuner

/-- A map of words that respects exclusive or. -/
structure XorLinear {n k : Nat} (f : BitVec n → BitVec k) : Prop where
  map_xor : ∀ a b, f (a ^^^ b) = f a ^^^ f b

namespace XorLinear
variable {n k : Nat} {f g : BitVec n → BitVec k}

theorem map_zero (hf : XorLinear f) : f 0 = 0 := by
  have hzero := hf.map_xor 0 0
  simpa using hzero

theorem xor (hf : XorLinear f) (hg : XorLinear g) : XorLinear fun v => f v ^^^ g v where
  map_xor a b := by
    rw [hf.map_xor, hg.map_xor, BitVec.xor_assoc, BitVec.xor_assoc, ← BitVec.xor_assoc (f b),
      ← BitVec.xor_assoc (g a), BitVec.xor_comm (f b) (g a)]

/-- One row of a matrix times the coefficient of the word. -/
theorem row (i : Nat) (c : BitVec k) :
    XorLinear fun v : BitVec n => if v.getLsbD i then c else 0 where
  map_xor a b := by
    rw [BitVec.getLsbD_xor]
    cases a.getLsbD i <;> cases b.getLsbD i <;> simp

/-- A loop over the bits of a word whose body respects exclusive or. -/
theorem foldl {ι : Type*} {step : BitVec n → BitVec k → ι → BitVec k}
    (hstep : ∀ a b r s i, step (a ^^^ b) (r ^^^ s) i = step a r i ^^^ step b s i) (l : List ι) :
    XorLinear fun v => l.foldl (step v) 0 := by
  have hboth : ∀ (l : List ι) (a b : BitVec n) (r s : BitVec k),
      l.foldl (step (a ^^^ b)) (r ^^^ s) = l.foldl (step a) r ^^^ l.foldl (step b) s := by
    intro l a b
    induction l with
    | nil => intro r s; rfl
    | cons i l ih =>
      intro r s
      rw [List.foldl_cons, List.foldl_cons, List.foldl_cons, hstep]
      exact ih _ _
  exact ⟨fun a b => by simpa using hboth l a b 0 0⟩

/-- The low bits of a word, with one more. -/
theorem low_succ (v : BitVec n) (m : Nat) :
    (v.setWidth (m + 1)).setWidth n =
      (v.setWidth m).setWidth n ^^^ (if v.getLsbD m then BitVec.twoPow n m else 0) := by
  apply BitVec.eq_of_getLsbD_eq
  intro i hi
  split <;> simp [BitVec.getLsbD_setWidth, BitVec.getLsbD_twoPow] <;> grind

/-- Linear maps that agree on the words with one bit are equal. -/
theorem eq_of_twoPow (hf : XorLinear f) (hg : XorLinear g)
    (h : ∀ i < n, f (BitVec.twoPow n i) = g (BitVec.twoPow n i)) (v : BitVec n) : f v = g v := by
  have hlow : ∀ m ≤ n, f ((v.setWidth m).setWidth n) = g ((v.setWidth m).setWidth n) := by
    intro m hm
    induction m with
    | zero =>
      have hzero : (v.setWidth 0).setWidth n = 0 := by
        apply BitVec.eq_of_getLsbD_eq
        intro i hi
        simp [BitVec.getLsbD_setWidth]
      rw [hzero, hf.map_zero, hg.map_zero]
    | succ m ih =>
      rw [low_succ, hf.map_xor, hg.map_xor, ih (by omega)]
      split
      · rw [h m (by omega)]
      · rw [hf.map_zero, hg.map_zero]
  simpa using hlow n (Nat.le_refl n)

theorem comp {m : Nat} {g : BitVec m → BitVec n} (hf : XorLinear f) (hg : XorLinear g) :
    XorLinear fun v => f (g v) where
  map_xor a b := by rw [hg.map_xor, hf.map_xor]

theorem iterate {f : BitVec k → BitVec k} (hf : XorLinear f) (m : Nat) : XorLinear f^[m] where
  map_xor a b := by
    induction m generalizing a b with
    | zero => rfl
    | succ m ih => rw [Function.iterate_succ_apply, Function.iterate_succ_apply,
        Function.iterate_succ_apply, hf.map_xor, ih]

/-- A word has the syndrome of another exactly if their difference has
    none. -/
theorem eq_iff_xor (hf : XorLinear f) {a b : BitVec n} : f a = f b ↔ f (a ^^^ b) = 0 := by
  rw [hf.map_xor]
  exact BitVec.xor_eq_zero_iff.symm

/-- An error that has a syndrome changes the one of every word. -/
theorem ne_of_error (hf : XorLinear f) {e : BitVec n} (he : f e ≠ 0) (c : BitVec n) :
    f (c ^^^ e) ≠ f c := by
  intro heq
  rw [hf.eq_iff_xor, BitVec.xor_comm c e, BitVec.xor_assoc, BitVec.xor_self] at heq
  exact he (by simpa using heq)

end XorLinear

/-! ### Tables of errors -/

section Table
variable {n k : Nat} (syndrome : BitVec n → BitVec k)

/-- The errors with the syndromes they give the word `offset`. -/
def errorTable (errors : List (BitVec n)) (offset : BitVec n) : List (BitVec k × BitVec n) :=
  errors.map fun e => (syndrome (e ^^^ offset), e)

/-- No two errors of the list have the same syndrome. -/
def Separates (errors : List (BitVec n)) : Prop :=
  ∀ e ∈ errors, ∀ e' ∈ errors, syndrome e = syndrome e' → e = e'

variable {syndrome}

/-- A table finds the error that turns a word into one with the syndrome of
    `offset`. -/
theorem lookup_eq_some_iff (hlin : XorLinear syndrome) {errors : List (BitVec n)}
    (hsep : Separates syndrome errors) {offset r e : BitVec n} :
    ((errorTable syndrome errors offset).find? (fun p => p.1 = syndrome r)).map Prod.snd = some e ↔
      e ∈ errors ∧ syndrome (r ^^^ e) = syndrome offset := by
  have hshift : ∀ e', syndrome (e' ^^^ offset) = syndrome r ↔
      syndrome (r ^^^ e') = syndrome offset := by
    intro e'
    rw [hlin.eq_iff_xor, hlin.eq_iff_xor]
    have hword : e' ^^^ offset ^^^ r = r ^^^ e' ^^^ offset := by
      rw [BitVec.xor_comm, ← BitVec.xor_assoc]
    rw [hword]
  rw [errorTable, List.find?_map, Option.map_map, Option.map_eq_some_iff]
  constructor
  · rintro ⟨e', hfind, rfl⟩
    have hmem := List.mem_of_find?_eq_some hfind
    have hsyndrome := List.find?_some hfind
    exact ⟨hmem, (hshift e').mp (by simpa using hsyndrome)⟩
  · rintro ⟨hmem, hsyndrome⟩
    have hhit : ((fun p : BitVec k × BitVec n => decide (p.1 = syndrome r)) ∘
        fun e => (syndrome (e ^^^ offset), e)) e = true := by
      simpa using (hshift e).mpr hsyndrome
    cases hfind : errors.find? ((fun p : BitVec k × BitVec n => decide (p.1 = syndrome r)) ∘
        fun e => (syndrome (e ^^^ offset), e)) with
    | none => exact absurd hhit (List.find?_eq_none.mp hfind e hmem)
    | some e' =>
      -- any other error that is found has the same syndrome
      have hother := (hshift e').mp (by simpa using List.find?_some hfind)
      have hsame : syndrome e' = syndrome e := by
        rw [hlin.map_xor] at hsyndrome hother
        have hxor := hother.trans hsyndrome.symm
        simpa using hxor
      exact ⟨e', rfl, hsep e' (List.mem_of_find?_eq_some hfind) e hmem hsame⟩

end Table

end FmSdrTuner

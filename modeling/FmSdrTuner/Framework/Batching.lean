import Mathlib.Data.List.Basic

/-! # Batches of consecutive indices

    A loop over the indices below `n` collects what is missing into
    batches: a batch starts at a missing index and is extended as long as
    the next index is missing too and still fits. The loop treats each
    batch before it looks for the next one.

    * `extend`: the last index of a batch;
    * `batches`: the batches of a fixed set of missing indices. They
      partition it (`mem_batches_iff`, `batches_pairwise`) and every one
      fits (`batches_fit`);
    * `loop`: the loop over a state. If treating a batch fills it and
      leaves the rest alone, the loop treats just the batches of the
      state it starts from (`loop_eq_foldl`) and fills everything
      (`loop_fills`). -/

namespace FmSdrTuner

namespace Batching

variable {σ : Type*} (missing : Nat → Bool) (fits : Nat → Nat → Bool) (n : Nat)

/-! ### One batch -/

/-- The last index of the batch that starts at `first` and has reached `last`. -/
def extend (first last : Nat) : Nat :=
  if last + 1 < n ∧ missing (last + 1) = true ∧ fits first (last + 1) = true then
    extend first (last + 1)
  else last
termination_by n - last

section extend
variable {missing fits n} {first last c : Nat}

theorem le_extend : last ≤ extend missing fits n first last := by
  induction last using extend.induct missing fits n first with
  | case1 last h ih =>
    rw [extend, if_pos h]
    omega
  | case2 last h =>
    have hstop : extend missing fits n first last = last := by rw [extend, if_neg h]
    exact Nat.le_of_eq hstop.symm

theorem extend_lt (hlast : last < n) : extend missing fits n first last < n := by
  induction last using extend.induct missing fits n first with
  | case1 last h ih =>
    rw [extend, if_pos h]
    exact ih h.1
  | case2 last h => rwa [extend, if_neg h]

theorem extend_missing (hc : last < c) (hc' : c ≤ extend missing fits n first last) :
    missing c = true := by
  induction last using extend.induct missing fits n first with
  | case1 last h ih =>
    rw [extend, if_pos h] at hc'
    by_cases heq : c = last + 1
    · rw [heq]
      exact h.2.1
    · exact ih (by omega) hc'
  | case2 last h =>
    rw [extend, if_neg h] at hc'
    omega

theorem extend_fits : extend missing fits n first last = last ∨
    fits first (extend missing fits n first last) = true := by
  induction last using extend.induct missing fits n first with
  | case1 last h ih =>
    rw [extend, if_pos h]
    rcases ih with heq | hfits
    · rw [heq]
      exact Or.inr h.2.2
    · exact Or.inr hfits
  | case2 last h => exact Or.inl (by rw [extend, if_neg h])

/-- Only the indices of the batch are looked at. -/
theorem extend_congr {missing' : Nat → Bool} (h : ∀ c, last < c → missing c = missing' c) :
    extend missing fits n first last = extend missing' fits n first last := by
  induction last using extend.induct missing fits n first with
  | case1 last hmore ih =>
    have hnext : missing (last + 1) = missing' (last + 1) := h (last + 1) (by omega)
    have hmore' := hmore
    rw [hnext] at hmore'
    conv_lhs => rw [extend, if_pos hmore]
    conv_rhs => rw [extend, if_pos hmore']
    exact ih fun c hc => h c (by omega)
  | case2 last hmore =>
    have hnext : missing (last + 1) = missing' (last + 1) := h (last + 1) (by omega)
    have hmore' := hmore
    rw [hnext] at hmore'
    conv_lhs => rw [extend, if_neg hmore]
    conv_rhs => rw [extend, if_neg hmore']

end extend

/-! ### All batches -/

/-- The batches from index `i` on, as pairs of the first and the last index. -/
def batches (i : Nat) : List (Nat × Nat) :=
  if i < n then
    if missing i = true then
      (i, extend missing fits n i i) :: batches (extend missing fits n i i + 1)
    else batches (i + 1)
  else []
termination_by n - i
decreasing_by
  · have hle : i ≤ extend missing fits n i i := le_extend
    omega
  · omega

section batches
variable {missing fits n} {i c : Nat} {b : Nat × Nat}

/-- A batch lies from `i` on and below `n`, and consists of missing indices. -/
theorem mem_batches (hb : b ∈ batches missing fits n i) :
    i ≤ b.1 ∧ b.1 ≤ b.2 ∧ b.2 < n ∧ ∀ c, b.1 ≤ c → c ≤ b.2 → missing c = true := by
  induction i using batches.induct missing fits n with
  | case1 i hi hmissing ih =>
    rw [batches, if_pos hi, if_pos hmissing] at hb
    rcases List.mem_cons.mp hb with rfl | hlater
    · refine ⟨Nat.le_refl i, le_extend, extend_lt hi, ?_⟩
      intro c hc hc'
      by_cases heq : c = i
      · rw [heq]
        exact hmissing
      · exact extend_missing (by omega) hc'
    · have hle : i ≤ extend missing fits n i i := le_extend
      obtain ⟨hfrom, hrest⟩ := ih hlater
      exact ⟨by omega, hrest⟩
  | case2 i hi hmissing ih =>
    rw [batches, if_pos hi, if_neg hmissing] at hb
    obtain ⟨hfrom, hrest⟩ := ih hb
    exact ⟨by omega, hrest⟩
  | case3 i hi =>
    rw [batches, if_neg hi] at hb
    cases hb

/-- A batch is a single index or fits. -/
theorem batches_fit (hb : b ∈ batches missing fits n i) : b.2 = b.1 ∨ fits b.1 b.2 = true := by
  induction i using batches.induct missing fits n with
  | case1 i hi hmissing ih =>
    rw [batches, if_pos hi, if_pos hmissing] at hb
    rcases List.mem_cons.mp hb with rfl | hlater
    · exact extend_fits
    · exact ih hlater
  | case2 i hi hmissing ih =>
    rw [batches, if_pos hi, if_neg hmissing] at hb
    exact ih hb
  | case3 i hi =>
    rw [batches, if_neg hi] at hb
    cases hb

theorem batches_cover (hc : i ≤ c) (hn : c < n) (hmissing : missing c = true) :
    ∃ b ∈ batches missing fits n i, b.1 ≤ c ∧ c ≤ b.2 := by
  induction i using batches.induct missing fits n with
  | case1 i hi hfirst ih =>
    rw [batches, if_pos hi, if_pos hfirst]
    by_cases hin : c ≤ extend missing fits n i i
    -- in the first batch, or in a later one
    · exact ⟨_, List.mem_cons_self, hc, hin⟩
    · obtain ⟨b, hb, hbounds⟩ := ih (by omega)
      exact ⟨b, List.mem_cons_of_mem _ hb, hbounds⟩
  | case2 i hi hpresent ih =>
    rw [batches, if_pos hi, if_neg hpresent]
    have hne : c ≠ i := by
      intro heq
      exact hpresent (heq ▸ hmissing)
    exact ih (by omega)
  | case3 i hi => exact absurd hn (by omega)

/-- The batches cover the missing indices, and no others. -/
theorem mem_batches_iff : (∃ b ∈ batches missing fits n i, b.1 ≤ c ∧ c ≤ b.2) ↔
    i ≤ c ∧ c < n ∧ missing c = true := by
  constructor
  · rintro ⟨b, hb, hfirst, hlast⟩
    obtain ⟨hfrom, -, hbelow, hmissing⟩ := mem_batches hb
    exact ⟨by omega, by omega, hmissing c hfirst hlast⟩
  · rintro ⟨hc, hn, hmissing⟩
    exact batches_cover hc hn hmissing

/-- The batches are disjoint and in ascending order. -/
theorem batches_pairwise : (batches missing fits n i).Pairwise fun b b' => b.2 < b'.1 := by
  induction i using batches.induct missing fits n with
  | case1 i hi hmissing ih =>
    rw [batches, if_pos hi, if_pos hmissing]
    refine List.Pairwise.cons ?_ ih
    intro b hb
    have hfrom := (mem_batches hb).1
    omega
  | case2 i hi hmissing ih =>
    rw [batches, if_pos hi, if_neg hmissing]
    exact ih
  | case3 i hi =>
    rw [batches, if_neg hi]
    exact List.Pairwise.nil

/-- Only the indices from `i` on are looked at. -/
theorem batches_congr {missing' : Nat → Bool} (h : ∀ c, i ≤ c → missing c = missing' c) :
    batches missing fits n i = batches missing' fits n i := by
  induction i using batches.induct missing fits n with
  | case1 i hi hmissing ih =>
    have hle : i ≤ extend missing fits n i i := le_extend
    have hmissing' : missing' i = true := h i (Nat.le_refl i) ▸ hmissing
    have hextend : extend missing fits n i i = extend missing' fits n i i :=
      extend_congr fun c hc => h c (by omega)
    conv_lhs => rw [batches, if_pos hi, if_pos hmissing]
    conv_rhs => rw [batches, if_pos hi, if_pos hmissing', ← hextend]
    rw [ih fun c hc => h c (by omega)]
  | case2 i hi hmissing ih =>
    have hmissing' : ¬ missing' i = true := h i (Nat.le_refl i) ▸ hmissing
    conv_lhs => rw [batches, if_pos hi, if_neg hmissing]
    conv_rhs => rw [batches, if_pos hi, if_neg hmissing']
    exact ih fun c hc => h c (by omega)
  | case3 i hi =>
    conv_lhs => rw [batches, if_neg hi]
    conv_rhs => rw [batches, if_neg hi]

theorem batches_eq_nil_iff : batches missing fits n i = [] ↔
    ∀ c, i ≤ c → c < n → missing c = false := by
  constructor
  · intro hnil c hc hn
    by_contra hmissing
    obtain ⟨b, hb, -⟩ : ∃ b ∈ batches missing fits n i, b.1 ≤ c ∧ c ≤ b.2 :=
      batches_cover hc hn (by simpa using hmissing)
    rw [hnil] at hb
    cases hb
  · intro hnone
    apply List.eq_nil_iff_forall_not_mem.mpr
    intro b hb
    obtain ⟨hfrom, hle, hbelow, hmissing⟩ := mem_batches hb
    have hfirst := hmissing b.1 (Nat.le_refl _) hle
    rw [hnone b.1 hfrom (by omega)] at hfirst
    cases hfirst

end batches

/-! ### The loop -/

/-- Treat batch after batch from index `i` on; `missing` is asked of the
    state as it is when its turn comes. -/
def loop (missing : σ → Nat → Bool) (fits : Nat → Nat → Bool) (n : Nat)
    (treat : σ → Nat → Nat → σ) (s : σ) (i : Nat) : σ :=
  if i < n then
    if missing s i = true then
      loop missing fits n treat (treat s i (extend (missing s) fits n i i))
        (extend (missing s) fits n i i + 1)
    else loop missing fits n treat s (i + 1)
  else s
termination_by n - i
decreasing_by
  · have hle : i ≤ extend (missing s) fits n i i := le_extend
    omega
  · omega

section loop
variable {missing : σ → Nat → Bool} {fits : Nat → Nat → Bool} {n : Nat}
  {treat : σ → Nat → Nat → σ}

/-- If treating a batch changes nothing behind it, the loop treats the
    batches of the state it starts from. -/
theorem loop_eq_foldl
    (hframe : ∀ s first last c, last < c → missing (treat s first last) c = missing s c)
    (s : σ) (i : Nat) : loop missing fits n treat s i =
      (batches (missing s) fits n i).foldl (fun s b => treat s b.1 b.2) s := by
  induction s, i using loop.induct missing fits n treat with
  | case1 s i hi hmissing ih =>
    conv_rhs => rw [batches, if_pos hi, if_pos hmissing, List.foldl_cons]
    rw [loop, if_pos hi, if_pos hmissing, ih, batches_congr fun c hc => hframe s i _ c hc]
  | case2 s i hi hmissing ih =>
    conv_rhs => rw [batches, if_pos hi, if_neg hmissing]
    rw [loop, if_pos hi, if_neg hmissing, ih]
  | case3 s i hi => rw [loop, if_neg hi, batches, if_neg hi, List.foldl_nil]

/-- If treating a batch leaves the rest alone and fills the batch, nothing
    is missing after the loop. -/
theorem loop_fills
    (hframe : ∀ s first last c, c < first ∨ last < c →
      missing (treat s first last) c = missing s c)
    (hfill : ∀ s first last c, first ≤ c → c ≤ last → missing (treat s first last) c = false)
    (s : σ) (i c : Nat) (hc : c < n) (hdone : i ≤ c ∨ missing s c = false) :
    missing (loop missing fits n treat s i) c = false := by
  induction s, i using loop.induct missing fits n treat with
  | case1 s i hi hmissing ih =>
    rw [loop, if_pos hi, if_pos hmissing]
    apply ih
    by_cases hbehind : extend (missing s) fits n i i < c
    -- behind the batch, in it, or before it
    · exact Or.inl hbehind
    · refine Or.inr ?_
      by_cases hin : i ≤ c
      · exact hfill s i _ c hin (by omega)
      · rw [hframe s i _ c (Or.inl (by omega))]
        exact hdone.resolve_left hin
  | case2 s i hi hmissing ih =>
    rw [loop, if_pos hi, if_neg hmissing]
    apply ih
    by_cases heq : c = i
    · rw [heq]
      exact Or.inr (Bool.eq_false_iff.mpr hmissing)
    · exact hdone.imp_left fun hle => by omega
  | case3 s i hi =>
    rw [loop, if_neg hi]
    exact hdone.resolve_left (by omega)

end loop

end Batching

end FmSdrTuner

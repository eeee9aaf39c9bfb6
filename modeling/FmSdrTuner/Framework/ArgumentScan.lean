import Mathlib.Data.List.Basic
import Mathlib.Data.List.Induction
import Mathlib.Tactic.Common

/-! # Two scanners over one argument list

    A scanner walks over a list of arguments. Some arguments take the
    following one as their value, so that it is passed over; and of some
    arguments the scanner picks something. Another scanner may pick the
    same but know fewer of the arguments that take a value. It then looks
    at values that it should pass over.

    * `Scanner.scan`: what is picked, with the places;
    * `foreignValues`: the values that only the scanner that knows more
      passes over;
    * `scan_agrees_iff`: the two agree exactly if nothing would be picked of
      a foreign value. -/

namespace FmSdrTuner

/-- What a scanner knows of an argument. -/
structure Scanner (α β : Type*) where
  /-- The argument takes the following one as its value. -/
  takes : α → Bool
  /-- What is picked of it, given the following argument. -/
  picks : α → Option α → Option β

/-- A value that is passed over, where it stands and what follows it. -/
structure PassedValue (α : Type*) where
  place : Nat
  argument : α
  next : Option α

variable {α β : Type*}

namespace Scanner
variable (S T : Scanner α β)

/-- What is picked at a place. -/
def pickAt (i : Nat) (a : α) (next : Option α) : List (Nat × β) :=
  ((S.picks a next).map fun b => (i, b)).toList

/-- What is picked of a list whose first place is `i`. -/
def scan : Nat → List α → List (Nat × β)
  | _, [] => []
  | i, [a] => S.pickAt i a none
  | i, a :: b :: l =>
    S.pickAt i a (some b) ++ if S.takes a then scan (i + 2) l else scan (i + 1) (b :: l)

/-- The values that `T` passes over behind arguments that mean nothing to
    `S`. -/
def foreignValues : Nat → List α → List (PassedValue α)
  | _, [] => []
  | _, [_] => []
  | i, a :: b :: l =>
    if T.takes a then
      (if S.takes a then [] else [⟨i + 1, b, l.head?⟩]) ++ foreignValues (i + 2) l
    else foreignValues (i + 1) (b :: l)

/-- `S` picks the same as `T` and knows some of the arguments that take a
    value: at least all those of which something is picked. -/
structure Restricts : Prop where
  picks_eq : S.picks = T.picks
  takes : ∀ a, S.takes a = true → T.takes a = true
  foreign : ∀ a next, T.takes a = true → S.takes a = false → S.picks a next = none
  value : ∀ a b, S.takes a = true → (S.picks a (some b)).isSome = true

variable {S T}

/-! ### Agreement -/

theorem pickAt_eq (h : S.Restricts T) (i : Nat) (a : α) (next : Option α) :
    S.pickAt i a next = T.pickAt i a next := by
  rw [pickAt, pickAt, h.picks_eq]

theorem takes_of_restricts (h : S.Restricts T) {a : α} (hT : T.takes a = false) :
    S.takes a = false := by
  cases hS : S.takes a with
  | false => rfl
  | true =>
    rw [h.takes a hS] at hT
    cases hT

theorem pickAt_of_none {i : Nat} {a : α} {next : Option α} (h : S.picks a next = none) :
    S.pickAt i a next = [] := by
  rw [pickAt, h]
  rfl

theorem mem_pickAt {i : Nat} {a : α} {next : Option α} {p : Nat × β}
    (hp : p ∈ S.pickAt i a next) : p.1 = i ∧ S.picks a next = some p.2 := by
  rw [pickAt, Option.mem_toList, Option.map_eq_some_iff] at hp
  obtain ⟨b, hb, rfl⟩ := hp
  exact ⟨rfl, hb⟩

theorem mem_scan_of_picks {i : Nat} {a : α} {l : List α} {b : β}
    (h : S.picks a l.head? = some b) : (i, b) ∈ S.scan i (a :: l) := by
  have hmem (next : Option α) (hnext : S.picks a next = some b) : (i, b) ∈ S.pickAt i a next := by
    rw [pickAt, hnext]
    exact List.mem_singleton.mpr rfl
  cases l with
  | nil => exact hmem none h
  | cons c l => exact List.mem_append_left _ (hmem (some c) h)

/-- A value of which nothing is picked is passed over by `S` as well. -/
theorem scan_of_unpicked (h : S.Restricts T) {i : Nat} {b : α} {l : List α}
    (hb : S.picks b l.head? = none) : S.scan i (b :: l) = S.scan (i + 1) l := by
  cases l with
  | nil => exact pickAt_of_none hb
  | cons c l =>
    have htakes : S.takes b = false := by
      by_contra hne
      have hsome := h.value b c (by simpa using hne)
      have hnone : S.picks b (some c) = none := hb
      rw [hnone] at hsome
      cases hsome
    have hempty : S.pickAt i b (some c) = [] := pickAt_of_none hb
    rw [scan, hempty, htakes]
    rfl

/-- The step of both scanners over an argument whose value is foreign. -/
theorem scan_foreign (h : S.Restricts T) {i : Nat} {a b : α} {l : List α}
    (hT : T.takes a = true) (hS : S.takes a = false) :
    S.scan i (a :: b :: l) = S.scan (i + 1) (b :: l) ∧
      T.scan i (a :: b :: l) = T.scan (i + 2) l := by
  have hnone := h.foreign a (some b) hT hS
  have hempty : S.pickAt i a (some b) = [] := pickAt_of_none hnone
  refine ⟨by rw [scan, hempty, hS]; rfl, ?_⟩
  rw [scan, ← pickAt_eq h, hempty, hT]
  rfl

/-- If nothing would be picked of a foreign value, `S` picks what `T`
    picks. -/
theorem scan_eq_of_unpicked (h : S.Restricts T) (l : List α) (i : Nat)
    (hall : ∀ v ∈ foreignValues S T i l, S.picks v.argument v.next = none) :
    S.scan i l = T.scan i l := by
  induction l using List.twoStepInduction generalizing i with
  | nil => rfl
  | singleton a => exact pickAt_eq h i a none
  | cons_cons a b l ih ih' =>
    rw [foreignValues] at hall
    cases hT : T.takes a with
    | true =>
      rw [if_pos hT] at hall
      have hrest := ih (i + 2) fun v hv => hall v (List.mem_append_right _ hv)
      cases hS : S.takes a with
      | true => rw [scan, scan, pickAt_eq h, hS, hT, if_pos rfl, if_pos rfl, hrest]
      | false =>
        rw [hS] at hall
        have hvalue := hall ⟨i + 1, b, l.head?⟩
          (List.mem_append_left _ (List.mem_singleton.mpr rfl))
        obtain ⟨hscan, hscan'⟩ := scan_foreign h (i := i) (b := b) (l := l) hT hS
        rw [hscan, hscan', scan_of_unpicked h hvalue, hrest]
    | false =>
      have hS := takes_of_restricts h hT
      rw [hT] at hall
      rw [scan, scan, pickAt_eq h, hS, hT]
      exact congrArg _ (ih' b (i + 1) hall)

/-! ### Places -/

theorem le_of_mem_scan (l : List α) (i : Nat) : ∀ p ∈ T.scan i l, i ≤ p.1 := by
  induction l using List.twoStepInduction generalizing i with
  | nil => intro p hp; cases hp
  | singleton a =>
    intro p hp
    exact Nat.le_of_eq (mem_pickAt hp).1.symm
  | cons_cons a b l ih ih' =>
    intro p hp
    rw [scan, List.mem_append] at hp
    rcases hp with hp | hp
    · exact Nat.le_of_eq (mem_pickAt hp).1.symm
    · split at hp
      · have hle := ih (i + 2) p hp
        omega
      · have hle := ih' b (i + 1) p hp
        omega

theorem lt_of_mem_foreignValues (l : List α) (i : Nat) :
    ∀ v ∈ foreignValues S T i l, i < v.place := by
  induction l using List.twoStepInduction generalizing i with
  | nil => intro v hv; cases hv
  | singleton a => intro v hv; cases hv
  | cons_cons a b l ih ih' =>
    intro v hv
    rw [foreignValues] at hv
    split at hv
    · rcases List.mem_append.mp hv with hv | hv
      · split at hv
        · cases hv
        · rw [List.mem_singleton.mp hv]
          exact Nat.lt_succ_self i
      · have hlt := ih (i + 2) v hv
        omega
    · have hlt := ih' b (i + 1) v hv
      omega

/-- `T` picks nothing where a foreign value stands. -/
theorem scan_apart (l : List α) (i : Nat) :
    ∀ p ∈ T.scan i l, ∀ v ∈ foreignValues S T i l, p.1 ≠ v.place := by
  induction l using List.twoStepInduction generalizing i with
  | nil => intro p hp; cases hp
  | singleton a => intro p hp v hv; cases hv
  | cons_cons a b l ih ih' =>
    intro p hp v hv
    have hlater := lt_of_mem_foreignValues (a :: b :: l) i v hv
    rw [scan, List.mem_append] at hp
    rcases hp with hp | hp
    · rw [(mem_pickAt hp).1]
      exact Nat.ne_of_lt hlater
    · rw [foreignValues] at hv
      cases hT : T.takes a with
      | true =>
        rw [hT, if_pos rfl] at hp hv
        rcases List.mem_append.mp hv with hv | hv
        · have hplace := le_of_mem_scan l (i + 2) p hp
          split at hv
          · cases hv
          · have hvplace : v.place = i + 1 := by rw [List.mem_singleton.mp hv]
            omega
        · exact ih (i + 2) p hp v hv
      | false =>
        rw [hT] at hp hv
        exact ih' b (i + 1) p hp v hv

/-- If `S` picks nothing where a foreign value stands, then nothing would be
    picked of it. -/
theorem unpicked_of_apart (h : S.Restricts T) (l : List α) (i : Nat)
    (hapart : ∀ p ∈ S.scan i l, ∀ v ∈ foreignValues S T i l, p.1 ≠ v.place) :
    ∀ v ∈ foreignValues S T i l, S.picks v.argument v.next = none := by
  induction l using List.twoStepInduction generalizing i with
  | nil => intro v hv; cases hv
  | singleton a => intro v hv; cases hv
  | cons_cons a b l ih ih' =>
    rw [foreignValues] at hapart ⊢
    cases hT : T.takes a with
    | true =>
      rw [if_pos hT] at hapart
      rw [if_pos rfl]
      cases hS : S.takes a with
      | true =>
        rw [hS, if_pos rfl, List.nil_append, scan, hS, if_pos rfl] at hapart
        rw [if_pos rfl, List.nil_append]
        exact ih (i + 2) fun p hp => hapart p (List.mem_append_right _ hp)
      | false =>
        rw [hS, (scan_foreign h hT hS).1] at hapart
        -- otherwise `S`, which looks at the value, picks something there
        have hvalue : S.picks b l.head? = none := by
          cases hpick : S.picks b l.head? with
          | none => rfl
          | some x =>
            have hmem := mem_scan_of_picks (i := i + 1) hpick
            exact absurd rfl (hapart _ hmem ⟨i + 1, b, l.head?⟩
              (List.mem_append_left _ (List.mem_singleton.mpr rfl)))
        rw [scan_of_unpicked h hvalue] at hapart
        intro v hv
        rcases List.mem_append.mp hv with hv | hv
        · rw [List.mem_singleton.mp hv]
          exact hvalue
        · exact ih (i + 2) (fun p hp v hv => hapart p hp v (List.mem_append_right _ hv)) v hv
    | false =>
      have hS := takes_of_restricts h hT
      rw [hT, scan, hS] at hapart
      exact ih' b (i + 1) fun p hp => hapart p (List.mem_append_right _ hp)

/-- `S` picks what `T` picks, and nothing where a foreign value stands,
    exactly if nothing would be picked of a foreign value. -/
theorem scan_agrees_iff (h : S.Restricts T) (l : List α) (i : Nat) :
    (S.scan i l = T.scan i l ∧
        ∀ p ∈ S.scan i l, ∀ v ∈ foreignValues S T i l, p.1 ≠ v.place) ↔
      ∀ v ∈ foreignValues S T i l, S.picks v.argument v.next = none := by
  constructor
  · exact fun hagree => unpicked_of_apart h l i hagree.2
  · intro hall
    have hscan := scan_eq_of_unpicked h l i hall
    exact ⟨hscan, hscan ▸ scan_apart l i⟩

end Scanner

end FmSdrTuner

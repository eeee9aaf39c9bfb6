import Mathlib.Data.List.TakeWhile
import FmSdrTuner.Text.Numbers

/-! # Numbers printed and read back

    What `std::to_string` prints, `std::stoi` and `std::stoull` read back
    in full, as long as the value is in their range. -/

namespace FmSdrTuner

/-! ### Digits -/

theorem isDigit_of_mem_decimal {n : Nat} {c : Char} (h : c ∈ decimal n) : c.isDigit = true :=
  Nat.isDigit_of_mem_toDigits (by decide) (by decide) h

theorem decimal_ne_nil (n : Nat) : decimal n ≠ [] := Nat.toDigits_ne_nil

/-- A printed number consists of digits and perhaps a sign. -/
theorem mem_decimalInt {v : Int} {c : Char} (h : c ∈ decimalInt v) :
    c = '-' ∨ c.isDigit = true := by
  unfold decimalInt at h
  split at h
  · rcases List.mem_cons.mp h with hsign | hdigit
    · exact Or.inl hsign
    · exact Or.inr (isDigit_of_mem_decimal hdigit)
  · exact Or.inr (isDigit_of_mem_decimal h)

/-- A digit is no separator. -/
theorem ne_of_isDigit {c d : Char} (hc : c.isDigit = true) (hd : d.isDigit = false) :
    c ≠ d := by
  rintro rfl
  rw [hc] at hd
  cases hd

theorem not_mem_decimal {n : Nat} {c : Char} (hc : c.isDigit = false) : c ∉ decimal n := by
  intro h
  exact ne_of_isDigit (isDigit_of_mem_decimal h) hc rfl

theorem not_mem_decimalInt {v : Int} {c : Char} (hsign : c ≠ '-') (hc : c.isDigit = false) :
    c ∉ decimalInt v := by
  intro h
  rcases mem_decimalInt h with heq | hdigit
  · exact hsign heq
  · exact ne_of_isDigit hdigit hc rfl

theorem digitsValue_decimal (n : Nat) : digitsValue (decimal n) = n := by
  have h : Nat.ofDigitChars 10 (Nat.toDigits 10 n) 0 = n := Nat.ofDigitChars_ten_toDigits
  unfold Nat.ofDigitChars at h
  unfold digitsValue decimal
  simp only [Nat.mul_comm _ 10]
  exact h

/-! ### The scanner -/

theorem isspace_of_isDigit {c : Char} (h : c.isDigit = true) : isspace c = false := by
  have hne : ∀ d : Char, d.isDigit = false → (c = d) = False :=
    fun d hd => eq_false (ne_of_isDigit h hd)
  unfold isspace
  simp [hne ' ' rfl, hne '\t' rfl, hne '\n' rfl, hne '\x0b' rfl, hne '\x0c' rfl, hne '\r' rfl]

theorem dropWhile_isspace_digits {digits : Text} (hne : digits ≠ [])
    (hdigits : ∀ c ∈ digits, c.isDigit = true) (rest : Text) :
    (digits ++ rest).dropWhile isspace = digits ++ rest := by
  obtain ⟨c, ds, rfl⟩ := List.exists_cons_of_ne_nil hne
  exact List.dropWhile_cons_of_neg (by simp [isspace_of_isDigit (hdigits c List.mem_cons_self)])

theorem scanSign_digits {digits : Text} (hne : digits ≠ [])
    (hdigits : ∀ c ∈ digits, c.isDigit = true) (rest : Text) :
    scanSign (digits ++ rest) = (false, digits ++ rest) := by
  obtain ⟨c, ds, rfl⟩ := List.exists_cons_of_ne_nil hne
  have hc := hdigits c List.mem_cons_self
  have hminus := ne_of_isDigit hc (show Char.isDigit '-' = false from rfl)
  have hplus := ne_of_isDigit hc (show Char.isDigit '+' = false from rfl)
  unfold scanSign
  split
  · next heq => exact absurd (List.cons.inj heq).1 hminus
  · next heq => exact absurd (List.cons.inj heq).1 hplus
  · rfl

/-- A sign or nothing, digits, and a rest. -/
theorem scanInteger_digits_rest {signed digits rest : Text} {negative : Bool}
    (hspace : signed.dropWhile isspace = signed)
    (hsign : scanSign signed = (negative, digits ++ rest)) (hne : digits ≠ [])
    (hdigits : ∀ c ∈ digits, c.isDigit = true) (hrest : ∀ c ∈ rest.head?, c.isDigit = false) :
    scanInteger signed = some ⟨negative, digitsValue digits, rest⟩ := by
  have hstops : rest.takeWhile Char.isDigit = [] ∧ rest.dropWhile Char.isDigit = rest := by
    cases rest with
    | nil => exact ⟨rfl, rfl⟩
    | cons c rest =>
      have hc : ¬c.isDigit = true := by simp [hrest c rfl]
      exact ⟨List.takeWhile_cons_of_neg hc, List.dropWhile_cons_of_neg hc⟩
  have htake : (digits ++ rest).takeWhile Char.isDigit = digits := by
    rw [List.takeWhile_append_of_pos hdigits, hstops.1, List.append_nil]
  have hdrop : (digits ++ rest).dropWhile Char.isDigit = rest := by
    rw [List.dropWhile_append_of_pos hdigits, hstops.2]
  unfold scanInteger
  rw [hspace, hsign]
  simp only [htake, hdrop]
  rw [if_neg (by simpa using hne)]

/-- The same at the end of the string. -/
theorem scanInteger_digits {signed ds : Text} {negative : Bool}
    (hspace : signed.dropWhile isspace = signed) (hsign : scanSign signed = (negative, ds))
    (hne : ds ≠ []) (hds : ∀ c ∈ ds, c.isDigit = true) :
    scanInteger signed = some ⟨negative, digitsValue ds, []⟩ :=
  scanInteger_digits_rest hspace (by rw [List.append_nil, hsign]) hne hds (by simp)

theorem scanInteger_decimal (n : Nat) : scanInteger (decimal n) = some ⟨false, n, []⟩ := by
  have hdigits : ∀ c ∈ decimal n, c.isDigit = true := fun c => isDigit_of_mem_decimal
  have hspace := dropWhile_isspace_digits (decimal_ne_nil n) hdigits []
  have hsign := scanSign_digits (decimal_ne_nil n) hdigits []
  rw [List.append_nil] at hspace hsign
  rw [scanInteger_digits hspace hsign (decimal_ne_nil n) hdigits, digitsValue_decimal]

theorem scanInteger_minus (n : Nat) : scanInteger ('-' :: decimal n) = some ⟨true, n, []⟩ := by
  have hsign : scanSign ('-' :: decimal n) = (true, decimal n) := rfl
  rw [scanInteger_digits (List.dropWhile_cons_of_neg (by decide)) hsign (decimal_ne_nil n)
    (fun c => isDigit_of_mem_decimal), digitsValue_decimal]

/-! ### Round trips -/

/-- `std::stoi` reads back what `std::to_string` printed. -/
theorem stoiAll_decimalInt {v : Int} (hmin : intMin ≤ v) (hmax : v ≤ intMax) :
    stoiAll (decimalInt v) = some v := by
  unfold stoiAll decimalInt
  by_cases hneg : v < 0
  · have hvalue : (Scanned.mk true v.natAbs []).value = v := by
      unfold Scanned.value
      simp only [if_true]
      omega
    rw [if_pos hneg, scanInteger_minus]
    simp only [hvalue, hmin, hmax, and_self, if_true]
  · have hvalue : (Scanned.mk false v.natAbs []).value = v := by
      unfold Scanned.value
      simp only [Bool.false_eq_true, if_false]
      omega
    rw [if_neg hneg, scanInteger_decimal]
    simp only [hvalue, hmin, hmax, and_self, if_true]

/-- `std::stoull` reads back what `std::to_string` printed. -/
theorem stoullAll_decimal {n : Nat} (h : n < 2 ^ 64) : stoullAll (decimal n) = some n := by
  unfold stoullAll
  rw [scanInteger_decimal]
  simp only [h, and_self, if_true, Bool.false_eq_true, if_false]

end FmSdrTuner

import HullRobot.Literal
import HullRobot.Proofs.Image.Grammar

/-!
# Numerals as literals

The decimal numeral of a cell is a literal for it (`parse_numeral`), since it does not start with a
zero unless it is zero, and so its base is ten.
-/

namespace HullRobot.Literal

/-- A number but zero has no zero before its digits. -/
theorem head_digits {n : Nat} (h : 0 < n) (rest : List Char) : Decimal.digits n ≠ '0' :: rest := by
  induction n using Nat.strongRecOn generalizing rest with
  | ind n ih =>
    unfold Decimal.digits
    by_cases hSmall : n < 10
    · rw [Nat.toDigits_of_lt_base hSmall]
      intro hSplit
      have hZero := congrArg Char.toNat (List.cons.inj hSplit).1
      rw [Nat.toNat_digitChar_of_lt_ten hSmall] at hZero
      simp only [Char.reduceToNat] at hZero
      omega
    · have hLarge : 10 ≤ n := Nat.le_of_not_lt hSmall
      rw [Nat.toDigits_of_base_le (by decide) hLarge]
      intro hSplit
      rcases List.append_eq_cons_iff.mp hSplit with ⟨hNone, -⟩ | ⟨more, hMore, -⟩
      · exact Nat.toDigits_ne_nil hNone
      · exact ih (n / 10) (by omega) (by omega) more hMore

theorem split_digits {n : Nat} (h : 0 < n) : split (Decimal.digits n) = (10, Decimal.digits n) := by
  have hHead := head_digits h
  unfold split
  split
  · next hDigits => exact absurd hDigits (hHead _)
  · next hDigits => exact absurd hDigits (hHead _)
  · rfl

theorem le_extend (n : Nat) (ds : List Char) : n ≤ Decimal.extend n ds := by
  induction ds generalizing n with
  | nil => exact Nat.le_refl n
  | cons c ds ih =>
    have hNext := ih (10 * n + Decimal.digitValue c)
    simp only [Decimal.extend, List.foldl_cons] at hNext ⊢
    omega

theorem digit?_of_isDigit {c : Char} (h : c.isDigit = true) :
    digit? c = some (Decimal.digitValue c) ∧ Decimal.digitValue c < 10 ∧ c ≠ '_' := by
  refine ⟨if_pos h, ?_, ?_⟩
  · simp only [Char.isDigit, Bool.and_eq_true, decide_eq_true_eq, UInt32.le_iff_toNat_le] at h
    have hHigh : c.toNat ≤ 57 := h.2
    unfold Decimal.digitValue
    simp only [Char.reduceToNat]
    omega
  · rintro rfl
    cases h

/-- Digits that stay below the bound are read as they are written. -/
theorem accumulate_digits {ds : List Char} (hDigits : ∀ c ∈ ds, c.isDigit = true) {n : Nat}
    (hSmall : Decimal.extend n ds < UInt64.size) :
    accumulate 10 n ds = .ok (Decimal.extend n ds) := by
  induction ds generalizing n with
  | nil => rfl
  | cons c ds ih =>
    obtain ⟨hFirst, hLater⟩ := List.forall_mem_cons.mp hDigits
    obtain ⟨hDigit, hBase, hName⟩ := digit?_of_isDigit hFirst
    have hNext : n * 10 + Decimal.digitValue c = 10 * n + Decimal.digitValue c := by omega
    have hRest : Decimal.extend (10 * n + Decimal.digitValue c) ds < UInt64.size := hSmall
    have hHere := le_extend (10 * n + Decimal.digitValue c) ds
    rw [accumulate, if_neg hName, hDigit]
    simp only
    rw [if_neg (by omega), hNext, if_neg (by omega)]
    exact ih hLater hRest

theorem magnitude_digits {n : Nat} (h : n < UInt64.size) :
    magnitude (Decimal.digits n) = .ok n := by
  obtain ⟨hSome, hDigits⟩ := Image.digits_toDigits n
  have hValue : Decimal.extend 0 (Decimal.digits n) = n := by
    rw [Image.extend_zero, Image.magnitude_digits]
  have hNoName : (Decimal.digits n).contains '_' = false := by
    rw [List.contains_eq_mem, decide_eq_false_iff_not]
    intro hMem
    cases hDigits '_' hMem
  have hRead : accumulate (split (Decimal.digits n)).1 0 (split (Decimal.digits n)).2 = .ok n := by
    rcases Nat.eq_zero_or_pos n with rfl | hPositive
    · rfl
    · rw [split_digits hPositive, accumulate_digits hDigits (by rwa [hValue]), hValue]
  unfold magnitude
  rw [if_neg (by simpa using hSome)]
  simp only [hRead, hNoName, Bool.false_and, Bool.false_eq_true, if_false]

/-- **The numeral of a cell is a literal for it.** -/
theorem parse_numeral (v : Int64) : parse (Decimal.ofInt v.toInt) = .ok v := by
  have hLow := v.le_toInt
  have hHigh := v.toInt_lt
  unfold Decimal.ofInt
  by_cases hSign : v.toInt < 0
  · rw [if_pos hSign, parse, magnitude_digits (by simp only [UInt64.size]; omega)]
    simp only
    rw [if_neg (by omega), show (-(v.toInt.natAbs : Int)) = v.toInt by omega, Int64.ofInt_toInt]
  · rw [if_neg hSign]
    obtain ⟨hSome, hDigits⟩ := Image.digits_toDigits v.toInt.natAbs
    have hUnsigned : parse.unsigned (Decimal.digits v.toInt.natAbs) = .ok v := by
      rw [parse.unsigned, magnitude_digits (by simp only [UInt64.size]; omega)]
      simp only
      rw [if_neg (by omega), ← Int64.ofInt_eq_ofNat, show (v.toInt.natAbs : Int) = v.toInt by omega,
        Int64.ofInt_toInt]
    unfold parse
    split
    · next hMinus => cases hDigits '-' (hMinus ▸ List.mem_cons_self)
    · next hPlus => cases hDigits '+' (hPlus ▸ List.mem_cons_self)
    · exact hUnsigned

end HullRobot.Literal

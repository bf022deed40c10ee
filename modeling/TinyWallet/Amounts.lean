import TinyWallet.Engine.Execution
import TinyWallet.Ledger.Records
import TinyWallet.Library.Fractions

/-!
# Amounts as they are displayed

An amount of smallest units is shown with a point set into its digits, and one
of USDC with six places. Read as a decimal fraction, either text is the amount.
-/

namespace DisplayedAmounts

open RustText Numerals Fractions Execution LedgerRecords

theorem shift_injective (decimals : Nat) :
    Function.Injective fun raw : Nat => (raw : ℚ) / 10 ^ decimals := by
  intro raw raw' h
  have hpower : (10 : ℚ) ^ decimals ≠ 0 := pow_ne_zero _ (by norm_num)
  have hcast : (raw : ℚ) = raw' := (div_left_inj' hpower).mp h
  exact_mod_cast hcast

/-- Digits padded to a width and the point before them. -/
theorem readFraction_below_one {digits : List Char} {width : Nat} (h : allDigits digits = true)
    (short : digits.length ≤ width) :
    readFraction ("0." ++ String.ofList
        (List.replicate (width - digits.length) '0' ++ digits)) =
      some ((Nat.ofDigitChars 10 digits 0 : ℚ) / 10 ^ width, width) := by
  have hpadded := allDigits_padded (width - digits.length) h
  have hlength : (List.replicate (width - digits.length) '0' ++ digits).length = width := by
    rw [List.length_append, List.length_replicate]
    omega
  have htext : "0." ++ String.ofList (List.replicate (width - digits.length) '0' ++ digits) =
      String.ofList (['0'] ++ '.' :: (List.replicate (width - digits.length) '0' ++ digits)) := by
    apply String.toList_inj.mp
    rw [String.toList_append, String.toList_ofList, String.toList_ofList]
    simp
  have hvalue : Nat.ofDigitChars 10
      (['0'] ++ (List.replicate (width - digits.length) '0' ++ digits)) 0 =
        Nat.ofDigitChars 10 digits 0 := by
    rw [← List.append_assoc, ← List.replicate_one, List.replicate_append_replicate,
      ofDigitChars_padded]
  rw [htext, readFraction_point (by decide) hpadded, pointValue_eq, hlength, hvalue]

/-- A point set into digits that are longer than the fraction. -/
theorem readFraction_split {digits : List Char} {width : Nat} (h : allDigits digits = true)
    (positive : 0 < width) (long : width < digits.length) :
    readFraction (String.ofList (digits.take (digits.length - width)) ++ "." ++
        String.ofList (digits.drop (digits.length - width))) =
      some ((Nat.ofDigitChars 10 digits 0 : ℚ) / 10 ^ width, width) := by
  have hlength : (digits.drop (digits.length - width)).length = width := by
    rw [List.length_drop]
    omega
  have hfront : digits.take (digits.length - width) ≠ [] := by
    intro hempty
    have hcount := congrArg List.length hempty
    rw [List.length_take, List.length_nil] at hcount
    omega
  have hback : digits.drop (digits.length - width) ≠ [] := by
    intro hempty
    rw [hempty] at hlength
    exact absurd hlength (Nat.ne_of_lt positive)
  have htext : String.ofList (digits.take (digits.length - width)) ++ "." ++
      String.ofList (digits.drop (digits.length - width)) =
        String.ofList (digits.take (digits.length - width) ++
          '.' :: digits.drop (digits.length - width)) := by
    apply String.toList_inj.mp
    simp
  rw [htext, readFraction_point (allDigits_of_subset h hfront fun _ => List.mem_of_mem_take)
    (allDigits_of_subset h hback fun _ => List.mem_of_mem_drop), pointValue_eq, hlength,
    List.take_append_drop]

theorem readFraction_formatAmount (raw decimals : Nat) :
    readFraction (formatAmount raw decimals) = some ((raw : ℚ) / 10 ^ decimals, decimals) := by
  have hdigits := allDigits_toDigits raw
  have hvalue : Nat.ofDigitChars 10 (Nat.toDigits 10 raw) 0 = raw := Nat.ofDigitChars_ten_toDigits
  simp only [formatAmount, toList_toString]
  by_cases hzero : decimals = 0
  · subst hzero
    rw [if_pos rfl, Nat.toString_eq_ofList_toDigits, readFraction_digits hdigits, pointValue_nil,
      hvalue, pow_zero, div_one]
  · rw [if_neg hzero]
    by_cases hshort : (Nat.toDigits 10 raw).length ≤ decimals
    · rw [if_pos hshort, readFraction_below_one hdigits hshort, hvalue]
    · rw [if_neg hshort, readFraction_split hdigits (Nat.pos_of_ne_zero hzero)
        (not_le.mp hshort), hvalue]

/-- The number before the unit. -/
def usdcNumber (amountAtomic : Nat) : String :=
  let rest := Nat.toDigits 10 (amountAtomic % 1000000)
  toString (amountAtomic / 1000000) ++ "." ++
    String.ofList (List.replicate (6 - rest.length) '0' ++ rest)

theorem readFraction_usdcNumber (amountAtomic : Nat) :
    readFraction (usdcNumber amountAtomic) = some ((amountAtomic : ℚ) / 10 ^ 6, 6) := by
  have hwhole := allDigits_toDigits (amountAtomic / 1000000)
  have hrest := allDigits_toDigits (amountAtomic % 1000000)
  have hshort : (Nat.toDigits 10 (amountAtomic % 1000000)).length ≤ 6 :=
    (Nat.length_toDigits_le_iff (by decide) (by decide)).mpr (Nat.mod_lt _ (by decide))
  have hlength : (List.replicate (6 - (Nat.toDigits 10 (amountAtomic % 1000000)).length) '0' ++
      Nat.toDigits 10 (amountAtomic % 1000000)).length = 6 := by
    rw [List.length_append, List.length_replicate]
    omega
  have htext : usdcNumber amountAtomic = String.ofList
      (Nat.toDigits 10 (amountAtomic / 1000000) ++ '.' ::
        (List.replicate (6 - (Nat.toDigits 10 (amountAtomic % 1000000)).length) '0' ++
          Nat.toDigits 10 (amountAtomic % 1000000))) := by
    apply String.toList_inj.mp
    simp [usdcNumber]
  rw [htext, readFraction_point hwhole (allDigits_padded _ hrest), pointValue, hlength,
    ofDigitChars_padded, Nat.ofDigitChars_ten_toDigits, Nat.ofDigitChars_ten_toDigits]
  have hparts : (amountAtomic : ℚ) =
      1000000 * (amountAtomic / 1000000 : Nat) + (amountAtomic % 1000000 : Nat) := by
    exact_mod_cast (Nat.div_add_mod amountAtomic 1000000).symm
  congr 2
  rw [hparts]
  ring

/-- A displayed amount reads as the amount, with as many places as it should
have; so different amounts are displayed differently. -/
theorem displayed_amounts_exact :
    (∀ raw decimals : Nat,
      readFraction (formatAmount raw decimals) = some ((raw : ℚ) / 10 ^ decimals, decimals)) ∧
    (∀ amountAtomic : Nat, ∃ number, formatUsdc amountAtomic = number ++ " USDC" ∧
      readFraction number = some ((amountAtomic : ℚ) / 10 ^ 6, 6)) ∧
    (∀ decimals, Function.Injective fun raw => formatAmount raw decimals) ∧
    Function.Injective formatUsdc := by
  have husdc : ∀ amountAtomic, formatUsdc amountAtomic = usdcNumber amountAtomic ++ " USDC" :=
    fun _ => rfl
  refine ⟨readFraction_formatAmount, ?_, ?_, ?_⟩
  · exact fun amountAtomic =>
      ⟨usdcNumber amountAtomic, husdc amountAtomic, readFraction_usdcNumber amountAtomic⟩
  · intro decimals raw raw' h
    have hread := congrArg readFraction h
    simp only [readFraction_formatAmount, Option.some.injEq, Prod.mk.injEq] at hread
    exact shift_injective decimals hread.1
  · intro amountAtomic amountAtomic' h
    rw [husdc, husdc] at h
    have hnumber : usdcNumber amountAtomic = usdcNumber amountAtomic' := by
      apply String.toList_inj.mp
      have hlist := congrArg String.toList h
      rw [String.toList_append, String.toList_append] at hlist
      exact List.append_cancel_right hlist
    have hread := congrArg readFraction hnumber
    simp only [readFraction_usdcNumber, Option.some.injEq, Prod.mk.injEq] at hread
    exact shift_injective 6 hread.1

end DisplayedAmounts

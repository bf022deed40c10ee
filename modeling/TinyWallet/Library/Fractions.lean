import TinyWallet.Library.Numerals

/-!
# Decimal fractions

Digits, and after a point more digits. The text means a rational number and
shows so many places; where the point stands decides the power of ten only.
-/

namespace Fractions

open RustText Numerals

/-- The number digits spell on both sides of a point. -/
def pointValue (whole fraction : List Char) : ℚ :=
  Nat.ofDigitChars 10 whole 0 + Nat.ofDigitChars 10 fraction 0 / 10 ^ fraction.length

/-- The number of a text and the places it shows. -/
def readFraction (text : String) : Option (ℚ × Nat) :=
  let whole := text.toList.takeWhile (· ≠ '.')
  match text.toList.dropWhile (· ≠ '.') with
  | [] => if allDigits whole then some (pointValue whole [], 0) else none
  | _ :: fraction =>
    if allDigits whole && allDigits fraction then
      some (pointValue whole fraction, fraction.length)
    else none

theorem not_point_of_digits {cs : List Char} (h : allDigits cs = true) :
    ∀ c ∈ cs, decide (c ≠ '.') = true := by
  intro c hc
  have hdigit := List.all_eq_true.mp (Bool.and_eq_true_iff.mp h).2 c hc
  refine decide_eq_true fun hpoint => ?_
  subst hpoint
  cases hdigit

theorem readFraction_digits {whole : List Char} (h : allDigits whole = true) :
    readFraction (String.ofList whole) = some (pointValue whole [], 0) := by
  have hnone := not_point_of_digits h
  have htake : whole.takeWhile (· ≠ '.') = whole := List.takeWhile_eq_self_iff.mpr hnone
  have hdrop : whole.dropWhile (· ≠ '.') = [] := List.dropWhile_eq_nil_iff.mpr hnone
  simp only [readFraction, String.toList_ofList, htake, hdrop, h, if_true]

theorem readFraction_point {whole fraction : List Char} (hwhole : allDigits whole = true)
    (hfraction : allDigits fraction = true) :
    readFraction (String.ofList (whole ++ '.' :: fraction)) =
      some (pointValue whole fraction, fraction.length) := by
  have hnone := not_point_of_digits hwhole
  have htake : (whole ++ '.' :: fraction).takeWhile (· ≠ '.') = whole := by
    rw [List.takeWhile_append_of_pos hnone]
    simp
  have hdrop : (whole ++ '.' :: fraction).dropWhile (· ≠ '.') = '.' :: fraction := by
    rw [List.dropWhile_append_of_pos hnone]
    simp
  simp only [readFraction, String.toList_ofList, htake, hdrop, hwhole, hfraction, Bool.and_self,
    if_true]

/-- The point moves a text's digits down by the places behind it. -/
theorem pointValue_eq (whole fraction : List Char) :
    pointValue whole fraction =
      Nat.ofDigitChars 10 (whole ++ fraction) 0 / 10 ^ fraction.length := by
  have hpower : (10 : ℚ) ^ fraction.length ≠ 0 := pow_ne_zero _ (by norm_num)
  have hvalue : Nat.ofDigitChars 10 (whole ++ fraction) 0 =
      10 ^ fraction.length * Nat.ofDigitChars 10 whole 0 + Nat.ofDigitChars 10 fraction 0 := by
    rw [Nat.ofDigitChars_append, Nat.ofDigitChars_eq_ofDigitChars_zero]
  rw [pointValue, hvalue]
  push_cast
  field_simp

theorem pointValue_nil (whole : List Char) : pointValue whole [] = Nat.ofDigitChars 10 whole 0 := by
  simp [pointValue]

theorem ofDigitChars_padded (width : Nat) (cs : List Char) :
    Nat.ofDigitChars 10 (List.replicate width '0' ++ cs) 0 = Nat.ofDigitChars 10 cs 0 := by
  induction width with
  | zero => rfl
  | succ width ih =>
    rw [List.replicate_succ, List.cons_append, Nat.ofDigitChars_cons]
    exact ih

theorem allDigits_padded {cs : List Char} (width : Nat) (h : allDigits cs = true) :
    allDigits (List.replicate width '0' ++ cs) = true := by
  obtain ⟨hsome, hall⟩ := Bool.and_eq_true_iff.mp h
  have hne : cs ≠ [] := by simpa using hsome
  have hzeros : (List.replicate width '0').all isAsciiDigit = true := by
    rw [List.all_replicate]
    simp [isAsciiDigit]
  simp [allDigits, hne, hzeros, hall]

theorem allDigits_of_subset {cs ds : List Char} (h : allDigits cs = true) (hne : ds ≠ [])
    (hsub : ∀ d ∈ ds, d ∈ cs) : allDigits ds = true := by
  have hall := List.all_eq_true.mp (Bool.and_eq_true_iff.mp h).2
  have hdigits : ds.all isAsciiDigit = true :=
    List.all_eq_true.mpr fun d hd => hall d (hsub d hd)
  simp [allDigits, hne, hdigits]

end Fractions

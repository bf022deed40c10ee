import TinyWallet.Library.Calendar

/-!
# Instants written as RFC 3339 text

A date and a time of day with a fraction of any length and an offset from UTC,
the instant they mean, and the ASCII texts that spell them. The instant is a
rational number of seconds since 1970, so nothing is rounded here.
-/

namespace Rfc3339

open Calendar

def isDigit (b : UInt8) : Bool := 48 ≤ b.toNat && b.toNat ≤ 57

def digitValue (b : UInt8) : Nat := b.toNat - 48

def digit (n : Nat) : UInt8 := UInt8.ofNat (48 + n)

/-- The number that digits spell. -/
def number (digits : List UInt8) : Nat := digits.foldl (fun n b => n * 10 + digitValue b) 0

/-- A number in so many digits. -/
def decimal : Nat → Nat → List UInt8
  | 0, _ => []
  | width + 1, n => decimal width (n / 10) ++ [digit (n % 10)]

theorem digit_digitValue {b : UInt8} (h : isDigit b = true) : digit (digitValue b) = b := by
  simp only [isDigit, Bool.and_eq_true, decide_eq_true_eq] at h
  have hback : 48 + (b.toNat - 48) = b.toNat := by omega
  rw [digit, digitValue, hback, UInt8.ofNat_toNat]

theorem digitValue_lt {b : UInt8} (h : isDigit b = true) : digitValue b < 10 := by
  simp only [isDigit, Bool.and_eq_true, decide_eq_true_eq] at h
  simp only [digitValue]
  omega

theorem digitValue_digit {n : Nat} (h : n < 10) : digitValue (digit n) = n := by
  simp only [digitValue, digit, UInt8.toNat_ofNat']
  omega

theorem isDigit_digit {n : Nat} (h : n < 10) : isDigit (digit n) = true := by
  simp only [isDigit, digit, UInt8.toNat_ofNat', Bool.and_eq_true, decide_eq_true_eq]
  omega

theorem number_append (digits : List UInt8) (b : UInt8) :
    number (digits ++ [b]) = number digits * 10 + digitValue b := by
  simp [number]

/-- Digits spell their number. -/
theorem decimal_number (digits : List UInt8) (h : ∀ b ∈ digits, isDigit b = true) :
    decimal digits.length (number digits) = digits := by
  induction digits using List.reverseRecOn with
  | nil => rfl
  | append_singleton digits b ih =>
    have hb := h b (by simp)
    have hlt := digitValue_lt hb
    have hrest := ih fun c hc => h c (by simp [hc])
    have hquotient : (number digits * 10 + digitValue b) / 10 = number digits := by omega
    have hremainder : (number digits * 10 + digitValue b) % 10 = digitValue b := by omega
    rw [List.length_append, List.length_singleton, decimal, number_append, hquotient, hremainder,
      hrest, digit_digitValue hb]

@[simp] theorem decimal_length (width n : Nat) : (decimal width n).length = width := by
  induction width generalizing n with
  | zero => rfl
  | succ width ih => rw [decimal, List.length_append, ih, List.length_singleton]

theorem decimal_digits (width n : Nat) : ∀ b ∈ decimal width n, isDigit b = true := by
  induction width generalizing n with
  | zero => simp [decimal]
  | succ width ih =>
    intro b hb
    rcases List.mem_append.mp hb with hb | hb
    · exact ih _ b hb
    · rw [List.mem_singleton.mp hb]
      exact isDigit_digit (Nat.mod_lt _ (by decide))

theorem number_decimal {width n : Nat} (h : n < 10 ^ width) : number (decimal width n) = n := by
  induction width generalizing n with
  | zero =>
    have hzero : n = 0 := by simpa using h
    subst hzero
    rfl
  | succ width ih =>
    have hquotient : n / 10 < 10 ^ width := by
      rw [pow_succ] at h
      omega
    rw [decimal, number_append, ih hquotient, digitValue_digit (Nat.mod_lt _ (by decide))]
    omega

theorem number_lt (digits : List UInt8) (h : ∀ b ∈ digits, isDigit b = true) :
    number digits < 10 ^ digits.length := by
  induction digits using List.reverseRecOn with
  | nil => simp [number]
  | append_singleton digits b ih =>
    have hb := digitValue_lt (h b (by simp))
    have hrest := ih fun c hc => h c (by simp [hc])
    rw [number_append, List.length_append, List.length_singleton, pow_succ]
    omega

structure DateTime where
  year : Nat
  month : Nat
  day : Nat
  hour : Nat
  minute : Nat
  /-- Sixty in a leap second. -/
  second : Nat
  /-- The digits after the point. -/
  fraction : List Nat
  /-- Minutes east of UTC. -/
  offset : Int
  year_lt : year < 10000
  month_mem : 1 ≤ month ∧ month ≤ 12
  day_mem : 1 ≤ day ∧ day ≤ monthLength year month
  hour_lt : hour < 24
  minute_lt : minute < 60
  second_le : second ≤ 60
  fraction_digits : ∀ d ∈ fraction, d < 10
  offset_lt : -1440 < offset ∧ offset < 1440

def fractionOf : List Nat → ℚ
  | [] => 0
  | d :: rest => (d + fractionOf rest) / 10

namespace DateTime

/-- The day of the date, counted from 1970-01-01. -/
def civilDay (t : DateTime) : Int := monthStart (12 * t.year + t.month - 1) + (t.day - 1)

/-- Whole seconds since 1970. -/
def seconds (t : DateTime) : Int :=
  t.civilDay * 86400 + t.hour * 3600 + t.minute * 60 + t.second - t.offset * 60

/-- Seconds since 1970. -/
def instant (t : DateTime) : ℚ := t.seconds + fractionOf t.fraction

/-- Milliseconds since 1970, the rest cut off. -/
def millis (t : DateTime) : Int := ⌊t.instant * 1000⌋

end DateTime

theorem fractionOf_bounds {ds : List Nat} (h : ∀ d ∈ ds, d < 10) :
    0 ≤ fractionOf ds ∧ fractionOf ds < 1 := by
  induction ds with
  | nil => norm_num [fractionOf]
  | cons d rest ih =>
    obtain ⟨hlow, hhigh⟩ := ih fun e he => h e (List.mem_cons_of_mem _ he)
    have hd : (d : ℚ) ≤ 9 := by
      have := h d List.mem_cons_self
      exact_mod_cast (by omega : d ≤ 9)
    have hpos : (0 : ℚ) ≤ d := Nat.cast_nonneg d
    constructor
    · simp only [fractionOf]
      linarith
    · simp only [fractionOf]
      linarith

/-- The first three digits of a fraction, as thousandths. -/
def thousandths (ds : List Nat) : Nat :=
  ds[0]?.getD 0 * 100 + ds[1]?.getD 0 * 10 + ds[2]?.getD 0

/-- What follows the first three digits is less than one thousandth. -/
theorem fractionOf_thousandths {ds : List Nat} (h : ∀ d ∈ ds, d < 10) :
    ∃ rest : ℚ, 0 ≤ rest ∧ rest < 1 ∧ fractionOf ds * 1000 = thousandths ds + rest := by
  match ds with
  | [] => exact ⟨0, by norm_num [fractionOf, thousandths]⟩
  | [a] =>
    refine ⟨0, le_refl _, by norm_num, ?_⟩
    simp only [fractionOf, thousandths, List.getElem?_cons_zero, List.getElem?_cons_succ,
      List.getElem?_nil, Option.getD_some, Option.getD_none]
    push_cast
    ring
  | [a, b] =>
    refine ⟨0, le_refl _, by norm_num, ?_⟩
    simp only [fractionOf, thousandths, List.getElem?_cons_zero, List.getElem?_cons_succ,
      List.getElem?_nil, Option.getD_some, Option.getD_none]
    push_cast
    ring
  | a :: b :: c :: rest =>
    obtain ⟨hlow, hhigh⟩ := @fractionOf_bounds rest fun d hd => h d (by simp [hd])
    refine ⟨fractionOf rest, hlow, hhigh, ?_⟩
    simp only [fractionOf, thousandths, List.getElem?_cons_zero, List.getElem?_cons_succ,
      Option.getD_some]
    push_cast
    ring

theorem thousandths_lt {ds : List Nat} (h : ∀ d ∈ ds, d < 10) : thousandths ds < 1000 := by
  obtain ⟨rest, hlow, hhigh, hrest⟩ := fractionOf_thousandths h
  have hone := (fractionOf_bounds h).2
  have hlt : (thousandths ds : ℚ) < 1000 := by linarith
  exact_mod_cast hlt

theorem DateTime.millis_eq (t : DateTime) :
    t.millis = t.seconds * 1000 + thousandths t.fraction := by
  obtain ⟨rest, hlow, hhigh, hrest⟩ := fractionOf_thousandths t.fraction_digits
  rw [DateTime.millis, Int.floor_eq_iff]
  have hsum : t.instant * 1000 = (t.seconds : ℚ) * 1000 + thousandths t.fraction + rest := by
    rw [DateTime.instant, add_mul, hrest]
    ring
  rw [hsum]
  push_cast
  constructor
  · linarith
  · linarith

/-- `Z`, or hours and minutes east or west of UTC. -/
inductive SpellsOffset : List UInt8 → Int → Prop
  | utc (letter : UInt8) (known : letter = 90 ∨ letter = 122) : SpellsOffset [letter] 0
  | east (hours minutes : Nat) (fits : hours < 24 ∧ minutes < 60) :
      SpellsOffset (43 :: decimal 2 hours ++ 58 :: decimal 2 minutes) (hours * 60 + minutes)
  | west (hours minutes : Nat) (fits : hours < 24 ∧ minutes < 60) :
      SpellsOffset (45 :: decimal 2 hours ++ 58 :: decimal 2 minutes) (-(hours * 60 + minutes))

/-- A point and the digits after it, or nothing. -/
def fractionText : List Nat → List UInt8
  | [] => []
  | d :: rest => 46 :: digit d :: rest.map digit

/-- The text spells the date, the time and the offset. -/
inductive Spells : List UInt8 → DateTime → Prop
  | mk (t : DateTime) (separator : UInt8) (zone : List UInt8)
      (known : separator = 84 ∨ separator = 116 ∨ separator = 32)
      (offset : SpellsOffset zone t.offset) :
      Spells (decimal 4 t.year ++ 45 :: decimal 2 t.month ++ 45 :: decimal 2 t.day ++
        separator :: decimal 2 t.hour ++ 58 :: decimal 2 t.minute ++ 58 :: decimal 2 t.second ++
        fractionText t.fraction ++ zone) t

/-- Four-digit years lie far within sixty-four-bit milliseconds. -/
theorem DateTime.millis_bounds (t : DateTime) :
    -62170000000000 < t.millis ∧ t.millis < 253500000000000 := by
  have hyear := t.year_lt
  have hmonth := t.month_mem
  have hhour := t.hour_lt
  have hminute := t.minute_lt
  have hsecond := t.second_le
  have hoffset := t.offset_lt
  have hday : t.day ≤ 31 := by
    have := t.day_mem.2
    simp only [monthLength] at this
    split_ifs at this <;> omega
  have hfirst := t.day_mem.1
  have hnear := monthStart_near (12 * t.year + t.month - 1)
  have hfraction := thousandths_lt t.fraction_digits
  rw [t.millis_eq, DateTime.seconds, DateTime.civilDay]
  omega

end Rfc3339

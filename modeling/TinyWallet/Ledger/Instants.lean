import TinyWallet.Ledger.Legacy

/-!
# The instant parser in sixty-four bits

Every operation of the parser is checked here, and an overflow is an outcome of
its own. None overflows: a text of the grammar is read as the instant that it
spells, and any other text as none.
-/

namespace LedgerInstants

open Rfc3339 Calendar RustText
open LedgerLegacy (separatorAt)

inductive Overflow where
  | overflow
deriving DecidableEq, Repr

/-- A reading that may find nothing, or overflow. -/
abbrev Reading := OptionT (Except Overflow)

/-- A result as the type `i64` holds it. -/
def i64 (n : Int) : Reading Int :=
  if -2 ^ 63 ≤ n ∧ n < 2 ^ 63 then pure n else OptionT.mk (.error .overflow)

/-- The reading ends without an overflow. -/
def Reads {α : Type} (x : Reading α) (found : Option α) : Prop := x.run = .ok found

theorem reads_pure {α : Type} (a : α) : Reads (pure a) (some a) := rfl

theorem reads_failure {α : Type} : Reads (failure : Reading α) none := rfl

theorem reads_i64 {n : Int} (hlow : -2 ^ 63 ≤ n) (hhigh : n < 2 ^ 63) : Reads (i64 n) (some n) := by
  rw [i64, if_pos ⟨hlow, hhigh⟩]
  exact reads_pure n

theorem Reads.bind {α β γ : Type} {x : Reading β} {found : Option α} {c : α → β}
    {f : β → Reading γ} {g : α → Option γ} (h : Reads x (found.map c))
    (next : ∀ a, found = some a → Reads (f (c a)) (g a)) : Reads (x >>= f) (found >>= g) := by
  have hbind : (x >>= f).run = x.run >>= fun
      | some b => (f b).run
      | none => .ok none := rfl
  rw [Reads] at h ⊢
  rw [hbind, h]
  cases found with
  | none => rfl
  | some a => exact next a rfl

theorem Reads.next {α γ : Type} {x : Reading α} {found : Option α} {f : α → Reading γ}
    {g : α → Option γ} (h : Reads x found) (next : ∀ a, found = some a → Reads (f a) (g a)) :
    Reads (x >>= f) (found >>= g) := by
  rw [← @Option.map_id' α found] at h
  exact h.bind next

/-- A step that reads a value. -/
theorem Reads.step {α β : Type} {x : Reading α} {a : α} {f : α → Reading β} {found : Option β}
    (h : Reads x (some a)) (next : Reads (f a) found) : Reads (x >>= f) found := by
  have hnext := @Reads.next α β x (some a) f (fun _ => found) h
  apply hnext
  intro b hb
  rw [← Option.some.inj hb]
  exact next

def addDigits : List UInt8 → Int → Reading Int
  | [], n => pure n
  | d :: rest, n => do
    let tens ← i64 (n * 10)
    let next ← i64 (tens + digitValue d)
    addDigits rest next

/-- The number that `len` digits at a position spell. -/
def digits (bytes : List UInt8) (start len : Nat) : Reading Int :=
  if start + len ≤ bytes.length then
    let part := (bytes.drop start).take len
    if part.all isDigit then addDigits part 0 else failure
  else failure

def daysInMonth (year month : Int) : Reading Int :=
  let leapYear := year.tmod 4 = 0 ∧ (year.tmod 100 ≠ 0 ∨ year.tmod 400 = 0)
  if month = 2 then pure (if leapYear then 29 else 28)
  else if month = 4 ∨ month = 6 ∨ month = 9 ∨ month = 11 then pure 30
  else if month = 1 ∨ month = 3 ∨ month = 5 ∨ month = 7 ∨ month = 8 ∨ month = 10 ∨ month = 12 then
    pure 31
  else failure

def addPlaces : List (UInt8 × Nat) → Int → Reading Int
  | [], millis => pure millis
  | (d, place) :: rest, millis => do
    let part ← i64 (digitValue d * place)
    let next ← i64 (millis + part)
    addPlaces rest next

/-- Where the fraction ends, and its milliseconds. -/
def fraction (bytes : List UInt8) (start : Nat) : Reading (Nat × Int) :=
  if bytes[start]? = some 46 then
    let run := (bytes.drop (start + 1)).takeWhile isDigit
    if run.isEmpty then failure
    else do
      let millis ← addPlaces ((run.take 3).zip [100, 10, 1]) 0
      pure (start + 1 + run.length, millis)
  else pure (start, 0)

def offsetMinutes (bytes : List UInt8) (pos : Nat) : Reading Int :=
  match bytes[pos]? with
  | none => failure
  | some sign =>
    if (sign = 90 ∨ sign = 122) ∧ pos + 1 = bytes.length then pure 0
    else if (sign = 43 ∨ sign = 45) ∧ pos + 6 = bytes.length ∧ separatorAt bytes (pos + 3) [58]
    then do
      let hours ← digits bytes (pos + 1) 2
      let minutePart ← digits bytes (pos + 4) 2
      if 23 < hours ∨ 59 < minutePart then failure
      else do
        let ofHours ← i64 (hours * 60)
        let minutes ← i64 (ofHours + minutePart)
        if sign = 45 then i64 (-minutes) else pure minutes
    else failure

/-- The year that a date falls in when years begin in March. -/
def civilYear (year month : Int) : Reading Int :=
  if month ≤ 2 then i64 (year - 1) else pure year

/-- Days from civil, proleptic Gregorian. -/
def daysFromCivil (year month day : Int) : Reading Int := do
  let y ← civilYear year month
  let era := y / 400
  let ofEras ← i64 (era * 400)
  let yearOfEra ← i64 (y - ofEras)
  let shifted ← i64 (month + 9)
  let scaled ← i64 (153 * shifted.tmod 12)
  let rounded ← i64 (scaled + 2)
  let reached ← i64 (rounded.tdiv 5 + day)
  let dayOfYear ← i64 (reached - 1)
  let common ← i64 (yearOfEra * 365)
  let julian ← i64 (common + yearOfEra.tdiv 4)
  let gregorian ← i64 (julian - yearOfEra.tdiv 100)
  let dayOfEra ← i64 (gregorian + dayOfYear)
  let ofCycles ← i64 (era * 146097)
  let days ← i64 (ofCycles + dayOfEra)
  i64 (days - 719468)

/-- The milliseconds of a day and a time of day. -/
def milliseconds (days hour minute second offset millis : Int) : Reading Int := do
  let ofDays ← i64 (days * 86400)
  let ofHours ← i64 (hour * 3600)
  let toHour ← i64 (ofDays + ofHours)
  let ofMinutes ← i64 (minute * 60)
  let toMinute ← i64 (toHour + ofMinutes)
  let toSecond ← i64 (toMinute + second)
  let ofOffset ← i64 (offset * 60)
  let seconds ← i64 (toSecond - ofOffset)
  let scaled ← i64 (seconds * 1000)
  i64 (scaled + millis)

def parseRfc3339Bytes (bytes : List UInt8) : Reading Int :=
  if separatorAt bytes 4 [45] && separatorAt bytes 7 [45] &&
      separatorAt bytes 10 [84, 116, 32] && separatorAt bytes 13 [58] &&
      separatorAt bytes 16 [58] then do
    let year ← digits bytes 0 4
    let month ← digits bytes 5 2
    let day ← digits bytes 8 2
    let hour ← digits bytes 11 2
    let minute ← digits bytes 14 2
    let second ← digits bytes 17 2
    let days ← daysInMonth year month
    if ¬(1 ≤ day ∧ day ≤ days) ∨ 23 < hour ∨ 59 < minute ∨ 60 < second then failure
    else do
      let (pos, millis) ← fraction bytes 19
      let offset ← offsetMinutes bytes pos
      let days ← daysFromCivil year month day
      milliseconds days hour minute second offset millis
  else failure

def parseRfc3339Ms (text : String) : Except Overflow (Option Int) :=
  (parseRfc3339Bytes (utf8Bytes text)).run

theorem addDigits_reads {part : List UInt8} (hdigits : ∀ b ∈ part, isDigit b = true) {k n : Nat}
    (hk : k + part.length ≤ 4) (hn : n < 10 ^ k) :
    Reads (addDigits part n)
      (some ((part.foldl (fun n b => n * 10 + digitValue b) n : Nat) : Int)) := by
  induction part generalizing k n with
  | nil => exact reads_pure _
  | cons d rest ih =>
    have hd := digitValue_lt (hdigits d List.mem_cons_self)
    have hpow : 10 ^ k ≤ 10 ^ 4 := Nat.pow_le_pow_right (by decide) (by omega)
    have hnext : n * 10 + digitValue d < 10 ^ (k + 1) := by
      rw [Nat.pow_succ]
      omega
    rw [addDigits]
    refine (reads_i64 (by omega) (by omega)).step ?_
    refine (reads_i64 (by omega) (by omega)).step ?_
    have hrest := ih (fun b hb => hdigits b (List.mem_cons_of_mem d hb))
      (by rw [List.length_cons] at hk; omega) hnext
    push_cast at hrest
    exact hrest

theorem digits_reads {bytes : List UInt8} {start len : Nat} (hlen : len ≤ 4) :
    Reads (digits bytes start len)
      ((LedgerLegacy.digitsAt bytes start len).map fun n : Nat => (n : Int)) := by
  rw [digits, LedgerLegacy.digitsAt]
  by_cases hinside : start + len ≤ bytes.length
  · rw [if_pos hinside, if_pos hinside]
    dsimp only
    by_cases hall : ((bytes.drop start).take len).all isDigit = true
    · rw [if_pos hall, if_pos hall]
      refine addDigits_reads (List.all_eq_true.mp hall) (k := 0) ?_ (by decide)
      rw [List.length_take]
      omega
    · rw [if_neg hall, if_neg hall]
      exact reads_failure
  · rw [if_neg hinside, if_neg hinside]
    exact reads_failure

theorem daysInMonth_reads (year month : Nat) :
    Reads (daysInMonth year month)
      ((LedgerLegacy.daysInMonth year month).map fun n : Nat => (n : Int)) := by
  have hmod : ∀ n : Nat, ((year : Int).tmod n = 0 ↔ year % n = 0) := by
    intro n
    rw [Int.tmod_eq_emod_of_nonneg (Int.natCast_nonneg year)]
    omega
  have hleap : ((year : Int).tmod 4 = 0 ∧ ((year : Int).tmod 100 ≠ 0 ∨ (year : Int).tmod 400 = 0)) ↔
      (year % 4 = 0 ∧ (year % 100 ≠ 0 ∨ year % 400 = 0)) := by
    rw [ne_eq, ne_eq, ← hmod 4, ← hmod 100, ← hmod 400]
    rfl
  rw [daysInMonth]
  simp only [hleap]
  rcases Nat.lt_or_ge 12 month with hlate | hsmall
  · have hnone : LedgerLegacy.daysInMonth year month = none := by
      cases hdays : LedgerLegacy.daysInMonth year month with
      | none => rfl
      | some days => exact absurd (LedgerLegacy.daysInMonth_eq hdays).1.2 (by omega)
    rw [hnone, if_neg (by omega), if_neg (by omega), if_neg (by omega)]
    exact reads_failure
  · by_cases hfebruary : month = 2
    · subst hfebruary
      simp only [LedgerLegacy.daysInMonth, Nat.cast_ofNat, if_true]
      split_ifs
      · exact reads_pure 29
      · exact reads_pure 28
    · interval_cases month
      all_goals first
        | exact absurd rfl hfebruary
        | exact reads_failure
        | exact reads_pure 30
        | exact reads_pure 31

theorem addPlaces_reads {places : List (UInt8 × Nat)} {millis : Nat}
    (hsum : millis + (places.map fun place => digitValue place.1 * place.2).sum < 2 ^ 63) :
    Reads (addPlaces places millis)
      (some ((millis +
        (places.map fun place => digitValue place.1 * place.2).sum : Nat) : Int)) := by
  induction places generalizing millis with
  | nil => exact reads_pure _
  | cons place rest ih =>
    obtain ⟨d, weight⟩ := place
    simp only [List.map_cons, List.sum_cons, ← Nat.add_assoc] at hsum ⊢
    have hpart : (digitValue d : Int) * weight = ((digitValue d * weight : Nat) : Int) := by
      push_cast
      rfl
    rw [addPlaces, hpart]
    apply (reads_i64 (by omega) (by omega)).step
    apply (reads_i64 (by omega) (by omega)).step
    exact ih hsum

theorem fraction_reads (bytes : List UInt8) (start : Nat) :
    Reads (fraction bytes start)
      ((LedgerLegacy.fractionAt bytes start).map fun p : Nat × Nat => (p.1, (p.2 : Int))) := by
  rw [fraction, LedgerLegacy.fractionAt]
  by_cases hpoint : bytes[start]? = some 46
  · rw [if_pos hpoint, if_pos hpoint]
    dsimp only
    generalize hrun : (bytes.drop (start + 1)).takeWhile isDigit = run
    by_cases hempty : run.isEmpty = true
    · rw [if_pos hempty, if_pos hempty]
      exact reads_failure
    · rw [if_neg hempty, if_neg hempty]
      have hdigits : ∀ d ∈ run.map digitValue, d < 10 := by
        intro d hd
        obtain ⟨b, hb, rfl⟩ := List.mem_map.mp hd
        rw [← hrun] at hb
        exact digitValue_lt (List.mem_takeWhile_imp hb)
      have hlt := thousandths_lt hdigits
      rw [← LedgerLegacy.sum_places] at hlt
      have hplaces := @addPlaces_reads ((run.take 3).zip [100, 10, 1]) 0 (by omega)
      rw [Nat.zero_add] at hplaces
      exact hplaces.step (reads_pure _)
  · rw [if_neg hpoint, if_neg hpoint]
    exact reads_pure _

theorem digitsAt_lt {bytes : List UInt8} {start len n : Nat}
    (h : LedgerLegacy.digitsAt bytes start len = some n) : n < 10 ^ len :=
  (LedgerLegacy.digitsAt_eq h).2

theorem offsetMinutes_reads (bytes : List UInt8) (pos : Nat) :
    Reads (offsetMinutes bytes pos) (LedgerLegacy.offsetMinutesAt bytes pos) := by
  rw [offsetMinutes.eq_def, LedgerLegacy.offsetMinutesAt.eq_def]
  cases bytes[pos]? with
  | none => exact reads_failure
  | some sign =>
    dsimp only
    by_cases hutc : (sign = 90 ∨ sign = 122) ∧ pos + 1 = bytes.length
    · rw [if_pos hutc, if_pos hutc]
      exact reads_pure 0
    rw [if_neg hutc, if_neg hutc]
    by_cases hzone : (sign = 43 ∨ sign = 45) ∧ pos + 6 = bytes.length ∧
        separatorAt bytes (pos + 3) [58] = true
    · rw [if_pos hzone, if_pos hzone]
      apply (digits_reads (by decide)).bind
      intro hours hhours
      apply (digits_reads (by decide)).bind
      intro minutePart hminutes
      have hhour := digitsAt_lt hhours
      have hminute := digitsAt_lt hminutes
      by_cases hrange : 23 < hours ∨ 59 < minutePart
      · rw [if_pos (by omega), if_pos hrange]
        exact reads_failure
      · rw [if_neg (by omega), if_neg hrange]
        apply (reads_i64 (by omega) (by omega)).step
        apply (reads_i64 (by omega) (by omega)).step
        by_cases hwest : sign = 45
        · rw [if_pos hwest, if_pos hwest]
          exact reads_i64 (by omega) (by omega)
        · rw [if_neg hwest, if_neg hwest]
          exact reads_pure _
    · rw [if_neg hzone, if_neg hzone]
      exact reads_failure

theorem civilYear_reads {year : Nat} (hyear : year < 10000) (month : Nat) :
    Reads (civilYear year month) (some (if month ≤ 2 then (year : Int) - 1 else year)) := by
  rw [civilYear]
  by_cases hearly : month ≤ 2
  · rw [if_pos (by omega), if_pos hearly]
    exact reads_i64 (by omega) (by omega)
  · rw [if_neg (by omega), if_neg hearly]
    exact reads_pure _

theorem daysFromCivil_reads {year month day : Nat} (hyear : year < 10000)
    (hmonth : 1 ≤ month ∧ month ≤ 12) (hday : day ≤ 31) :
    Reads (daysFromCivil year month day) (some (LedgerLegacy.daysFromCivil year month day)) := by
  have hshifted : ((month : Int) + 9).tmod 12 = ((month : Int) + 9) % 12 :=
    Int.tmod_eq_emod_of_nonneg (by omega)
  rw [daysFromCivil, LedgerLegacy.daysFromCivil]
  apply (civilYear_reads hyear month).step
  have hbounds : -1 ≤ (if month ≤ 2 then (year : Int) - 1 else year) ∧
      (if month ≤ 2 then (year : Int) - 1 else year) < 10000 := by
    split_ifs
    · omega
    · omega
  generalize (if month ≤ 2 then (year : Int) - 1 else year) = y at hbounds
  -- Remainders of nonnegative numbers do not depend on the rounding.
  have hera : 0 ≤ y - y / 400 * 400 ∧ y - y / 400 * 400 < 400 := by omega
  have hquotient : -1 ≤ y / 400 ∧ y / 400 < 25 := by omega
  have hfour : (y - y / 400 * 400).tdiv 4 = (y - y / 400 * 400) / 4 :=
    Int.tdiv_eq_ediv_of_nonneg hera.1
  have hcentury : (y - y / 400 * 400).tdiv 100 = (y - y / 400 * 400) / 100 :=
    Int.tdiv_eq_ediv_of_nonneg hera.1
  have hmonths : (153 * (((month : Int) + 9) % 12) + 2).tdiv 5 =
      (153 * (((month : Int) + 9) % 12) + 2) / 5 := Int.tdiv_eq_ediv_of_nonneg (by omega)
  have hmonthly : 0 ≤ ((month : Int) + 9) % 12 ∧ ((month : Int) + 9) % 12 < 12 := by omega
  iterate 3 apply (reads_i64 (by omega) (by omega)).step
  rw [hshifted]
  iterate 2 apply (reads_i64 (by omega) (by omega)).step
  rw [hmonths]
  clear hshifted hmonths
  generalize ((month : Int) + 9) % 12 = ofYear at hmonthly
  rw [hfour, hcentury]
  clear hfour hcentury
  generalize y - y / 400 * 400 = yearOfEra at hera
  generalize y / 400 = era at hquotient
  iterate 8 apply (reads_i64 (by omega) (by omega)).step
  exact reads_i64 (by omega) (by omega)

theorem milliseconds_reads {days hour minute second offset millis : Int}
    (hdays : -1000000 < days ∧ days < 4000000) (hhour : 0 ≤ hour ∧ hour < 24)
    (hminute : 0 ≤ minute ∧ minute < 60) (hsecond : 0 ≤ second ∧ second ≤ 60)
    (hoffset : -1440 < offset ∧ offset < 1440) (hmillis : 0 ≤ millis ∧ millis < 1000) :
    Reads (milliseconds days hour minute second offset millis)
      (some
        ((days * 86400 + hour * 3600 + minute * 60 + second - offset * 60) * 1000 + millis)) := by
  rw [milliseconds]
  iterate 9 apply (reads_i64 (by omega) (by omega)).step
  exact reads_i64 (by omega) (by omega)

theorem daysFromCivil_bounds {year month day : Nat} (hyear : year < 10000)
    (hmonth : 1 ≤ month ∧ month ≤ 12) (hday : 1 ≤ day ∧ day ≤ 31) :
    -1000000 < LedgerLegacy.daysFromCivil year month day ∧
      LedgerLegacy.daysFromCivil year month day < 4000000 := by
  have hnear := monthStart_near (12 * year + month - 1)
  rw [LedgerLegacy.daysFromCivil_eq hmonth]
  omega

theorem monthLength_le (year : Int) (month : Nat) : monthLength year month ≤ 31 := by
  rw [monthLength]
  split_ifs <;> decide

theorem fractionAt_lt {bytes : List UInt8} {start pos millis : Nat}
    (h : LedgerLegacy.fractionAt bytes start = some (pos, millis)) : millis < 1000 := by
  obtain ⟨ds, hds, rfl, -⟩ := LedgerLegacy.fractionAt_eq h
  exact thousandths_lt hds

/-- Every operation of the parser stays within sixty-four bits. -/
theorem parseRfc3339Bytes_reads (bytes : List UInt8) :
    Reads (parseRfc3339Bytes bytes) (LedgerLegacy.parseRfc3339Bytes bytes) := by
  rw [parseRfc3339Bytes, LedgerLegacy.parseRfc3339Bytes]
  split_ifs with hseparators
  swap
  · exact reads_failure
  apply (digits_reads (by decide)).bind
  intro year hyear
  apply (digits_reads (by decide)).bind
  intro month hmonth
  apply (digits_reads (by decide)).bind
  intro day hday
  apply (digits_reads (by decide)).bind
  intro hour hhour
  apply (digits_reads (by decide)).bind
  intro minute hminute
  apply (digits_reads (by decide)).bind
  intro second hsecond
  apply (daysInMonth_reads year month).bind
  intro days hdays
  obtain ⟨hmonths, rfl⟩ := LedgerLegacy.daysInMonth_eq hdays
  have hlength := monthLength_le year month
  have hyear := digitsAt_lt hyear
  by_cases hrange : ¬(1 ≤ day ∧ day ≤ monthLength year month) ∨
      23 < hour ∨ 59 < minute ∨ 60 < second
  · rw [if_pos (by omega), if_pos hrange]
    exact reads_failure
  rw [if_neg (by omega), if_neg hrange]
  apply (fraction_reads bytes 19).bind
  rintro ⟨pos, millis⟩ hfraction
  have hmillis := fractionAt_lt hfraction
  apply (offsetMinutes_reads bytes pos).next
  intro offset hoffset
  have hfits := (LedgerLegacy.offsetMinutesAt_eq hoffset).2
  have hcivil := daysFromCivil_bounds hyear hmonths (show 1 ≤ day ∧ day ≤ 31 by omega)
  apply (daysFromCivil_reads hyear hmonths (by omega)).step
  exact milliseconds_reads hcivil (by omega) (by omega) (by omega) hfits (by omega)

theorem drop_behind {bytes part rest : List UInt8} {start : Nat}
    (h : bytes.drop start = part ++ rest) : bytes.drop (start + part.length) = rest := by
  rw [← List.drop_drop, h, List.drop_left]

theorem digitsAt_of_drop {bytes rest : List UInt8} {start len n : Nat} (hlen : 0 < len)
    (hn : n < 10 ^ len) (h : bytes.drop start = decimal len n ++ rest) :
    LedgerLegacy.digitsAt bytes start len = some n := by
  have hlength := congrArg List.length h
  rw [List.length_drop, List.length_append, decimal_length] at hlength
  have htake : (bytes.drop start).take len = decimal len n := by
    rw [h, List.take_left' (decimal_length len n)]
  rw [LedgerLegacy.digitsAt, if_pos (by omega)]
  dsimp only
  rw [htake, if_pos (List.all_eq_true.mpr (decimal_digits len n)), number_decimal hn]

theorem getElem?_of_drop {bytes rest : List UInt8} {pos : Nat} {b : UInt8}
    (h : bytes.drop pos = b :: rest) : bytes[pos]? = some b := by
  have hzero : (bytes.drop pos)[0]? = bytes[pos + 0]? := List.getElem?_drop
  rw [Nat.add_zero, h] at hzero
  exact hzero.symm

theorem separatorAt_of_drop {bytes rest want : List UInt8} {pos : Nat} {b : UInt8} (hb : b ∈ want)
    (h : bytes.drop pos = b :: rest) : separatorAt bytes pos want = true := by
  rw [separatorAt, getElem?_of_drop h, Option.any_some]
  exact List.contains_iff_mem.mpr hb

theorem daysInMonth_valid (year : Nat) {month : Nat} (hmonth : 1 ≤ month ∧ month ≤ 12) :
    LedgerLegacy.daysInMonth year month = some (monthLength year month) := by
  have hsome : (LedgerLegacy.daysInMonth year month).isSome := by
    obtain ⟨hlow, hhigh⟩ := hmonth
    interval_cases month
    case «2» =>
      rw [LedgerLegacy.daysInMonth]
      split_ifs <;> rfl
    all_goals rfl
  obtain ⟨days, hdays⟩ := Option.isSome_iff_exists.mp hsome
  rw [hdays, (LedgerLegacy.daysInMonth_eq hdays).2]

theorem zone_begins {zone : List UInt8} {offset : Int} (h : SpellsOffset zone offset) :
    ∃ b rest, zone = b :: rest ∧ isDigit b = false ∧ b ≠ 46 := by
  cases h with
  | utc letter known =>
    refine ⟨letter, [], rfl, ?_⟩
    rcases known with rfl | rfl
    · decide
    · decide
  | east hours minutes fits => exact ⟨43, _, rfl, by decide⟩
  | west hours minutes fits => exact ⟨45, _, rfl, by decide⟩

theorem digitValue_digits {ds : List Nat} (hds : ∀ d ∈ ds, d < 10) :
    (ds.map digit).map digitValue = ds := by
  rw [List.map_map]
  calc ds.map (digitValue ∘ digit) = ds.map id :=
        List.map_congr_left fun d hd => digitValue_digit (hds d hd)
    _ = ds := List.map_id ds

theorem fractionAt_of_drop {bytes zone : List UInt8} {start : Nat} {ds : List Nat} {offset : Int}
    (hds : ∀ d ∈ ds, d < 10) (hzone : SpellsOffset zone offset)
    (h : bytes.drop start = fractionText ds ++ zone) :
    LedgerLegacy.fractionAt bytes start =
      some (start + (fractionText ds).length, thousandths ds) := by
  obtain ⟨b, more, rfl, hdigit, hpoint⟩ := zone_begins hzone
  cases ds with
  | nil =>
    have hbyte := getElem?_of_drop h
    rw [LedgerLegacy.fractionAt, hbyte, if_neg (by simpa using hpoint)]
    rfl
  | cons d rest =>
    have hbyte := getElem?_of_drop h
    have hafter : bytes.drop (start + 1) = (d :: rest).map digit ++ b :: more :=
      @drop_behind bytes [46] _ start h
    have hrun : (bytes.drop (start + 1)).takeWhile isDigit = (d :: rest).map digit := by
      rw [hafter, List.takeWhile_append_of_pos, List.takeWhile_cons_of_neg, List.append_nil]
      · rw [hdigit]
        decide
      · intro c hc
        obtain ⟨e, he, rfl⟩ := List.mem_map.mp hc
        exact isDigit_digit (hds e he)
    rw [LedgerLegacy.fractionAt, if_pos hbyte]
    dsimp only
    rw [hrun, LedgerLegacy.sum_places, digitValue_digits hds]
    simp [fractionText]
    omega

theorem zone_parts {bytes : List UInt8} {pos hours minutes : Nat} {sign : UInt8}
    (hinside : pos ≤ bytes.length) (fits : hours < 24 ∧ minutes < 60)
    (h : bytes.drop pos = sign :: decimal 2 hours ++ 58 :: decimal 2 minutes) :
    LedgerLegacy.digitsAt bytes (pos + 1) 2 = some hours ∧
      LedgerLegacy.digitsAt bytes (pos + 4) 2 = some minutes ∧
      separatorAt bytes (pos + 3) [58] = true ∧ pos + 6 = bytes.length := by
  have hlength := congrArg List.length h
  have hfirst : bytes.drop (pos + 1) = decimal 2 hours ++ 58 :: decimal 2 minutes :=
    @drop_behind bytes [sign] _ pos h
  have hcolon : bytes.drop (pos + 3) = 58 :: decimal 2 minutes := drop_behind hfirst
  have hlast : bytes.drop (pos + 4) = decimal 2 minutes ++ [] := by
    rw [List.append_nil]
    exact @drop_behind bytes [58] _ (pos + 3) hcolon
  refine ⟨digitsAt_of_drop (by decide) (by omega) hfirst,
    digitsAt_of_drop (by decide) (by omega) hlast,
    separatorAt_of_drop List.mem_cons_self hcolon, ?_⟩
  rw [List.length_drop, List.length_append, List.length_cons, List.length_cons, decimal_length,
    decimal_length] at hlength
  omega

theorem offsetMinutesAt_of_drop {bytes : List UInt8} {pos : Nat} {offset : Int}
    (hinside : pos ≤ bytes.length) (h : SpellsOffset (bytes.drop pos) offset) :
    LedgerLegacy.offsetMinutesAt bytes pos = some offset := by
  have hlength := List.length_drop (l := bytes) (i := pos)
  generalize hzone : bytes.drop pos = zone at h hlength
  rw [LedgerLegacy.offsetMinutesAt.eq_def]
  cases h with
  | utc letter known =>
    rw [List.length_singleton] at hlength
    rw [getElem?_of_drop hzone]
    dsimp only
    rw [if_pos ⟨known, by omega⟩]
  | east hours minutes fits =>
    obtain ⟨hhours, hminutes, hcolon, hend⟩ := zone_parts hinside fits hzone
    rw [getElem?_of_drop hzone]
    dsimp only
    rw [if_neg (by rintro ⟨hletter | hletter, -⟩ <;> cases hletter),
      if_pos ⟨Or.inl rfl, hend, hcolon⟩, hhours, hminutes]
    simp only [Option.bind_eq_bind, Option.bind_some]
    rw [if_neg (by omega)]
    rfl
  | west hours minutes fits =>
    obtain ⟨hhours, hminutes, hcolon, hend⟩ := zone_parts hinside fits hzone
    rw [getElem?_of_drop hzone]
    dsimp only
    rw [if_neg (by rintro ⟨hletter | hletter, -⟩ <;> cases hletter),
      if_pos ⟨Or.inr rfl, hend, hcolon⟩, hhours, hminutes]
    simp only [Option.bind_eq_bind, Option.bind_some]
    rw [if_neg (by omega)]
    rfl

/-- A text of the grammar is read, position by position. -/
theorem parseRfc3339Bytes_of_spells {bytes : List UInt8} {t : DateTime} (h : Spells bytes t) :
    LedgerLegacy.parseRfc3339Bytes bytes = some t.millis := by
  obtain ⟨_, separator, zone, known, offset⟩ := h
  generalize hbytes : decimal 4 t.year ++ 45 :: decimal 2 t.month ++ 45 :: decimal 2 t.day ++
    separator :: decimal 2 t.hour ++ 58 :: decimal 2 t.minute ++ 58 :: decimal 2 t.second ++
    fractionText t.fraction ++ zone = bytes
  have hday : t.day < 10 ^ 2 := by
    have hlength := monthLength_le t.year t.month
    have hlast := t.day_mem.2
    omega
  have hmonth := t.month_mem
  have hhour := t.hour_lt
  have hminute := t.minute_lt
  have hsecond := t.second_le
  have hyearAt : bytes.drop 0 = decimal 4 t.year ++ 45 :: (decimal 2 t.month ++ 45 ::
      (decimal 2 t.day ++ separator :: (decimal 2 t.hour ++ 58 :: (decimal 2 t.minute ++ 58 ::
        (decimal 2 t.second ++ (fractionText t.fraction ++ zone)))))) := by
    rw [List.drop_zero, ← hbytes]
    simp only [List.append_assoc, List.cons_append]
  have hfour : bytes.drop 4 = _ := drop_behind hyearAt
  have hmonthAt : bytes.drop 5 = _ := @drop_behind _ [45] _ 4 hfour
  have hseven : bytes.drop 7 = _ := @drop_behind _ (decimal 2 t.month) _ 5 hmonthAt
  have hdayAt : bytes.drop 8 = _ := @drop_behind _ [45] _ 7 hseven
  have hten : bytes.drop 10 = _ := @drop_behind _ (decimal 2 t.day) _ 8 hdayAt
  have hhourAt : bytes.drop 11 = _ := @drop_behind _ [separator] _ 10 hten
  have hthirteen : bytes.drop 13 = _ := @drop_behind _ (decimal 2 t.hour) _ 11 hhourAt
  have hminuteAt : bytes.drop 14 = _ := @drop_behind _ [58] _ 13 hthirteen
  have hsixteen : bytes.drop 16 = _ := @drop_behind _ (decimal 2 t.minute) _ 14 hminuteAt
  have hsecondAt : bytes.drop 17 = _ := @drop_behind _ [58] _ 16 hsixteen
  have hfractionAt : bytes.drop 19 = _ := @drop_behind _ (decimal 2 t.second) _ 17 hsecondAt
  have hzoneAt := drop_behind hfractionAt
  have hinside : 19 + (fractionText t.fraction).length ≤ bytes.length := by
    obtain ⟨b, rest, hzone, -⟩ := zone_begins offset
    have hlength := congrArg List.length hzoneAt
    rw [List.length_drop, hzone, List.length_cons] at hlength
    omega
  have hknown : separator ∈ [84, 116, 32] := by simpa using known
  rw [LedgerLegacy.parseRfc3339Bytes, separatorAt_of_drop List.mem_cons_self hfour,
    separatorAt_of_drop List.mem_cons_self hseven, separatorAt_of_drop hknown hten,
    separatorAt_of_drop List.mem_cons_self hthirteen,
    separatorAt_of_drop List.mem_cons_self hsixteen, digitsAt_of_drop (by decide) t.year_lt hyearAt,
    digitsAt_of_drop (by decide) (by omega) hmonthAt, digitsAt_of_drop (by decide) hday hdayAt,
    digitsAt_of_drop (by decide) (by omega) hhourAt,
    digitsAt_of_drop (by decide) (by omega) hminuteAt,
    digitsAt_of_drop (by decide) (by omega) hsecondAt]
  simp only [Bool.and_self, if_true, Option.bind_eq_bind, Option.bind_some,
    daysInMonth_valid t.year hmonth, fractionAt_of_drop t.fraction_digits offset hfractionAt]
  have hrange : ¬(¬(1 ≤ t.day ∧ t.day ≤ monthLength t.year t.month) ∨ 23 < t.hour ∨
      59 < t.minute ∨ 60 < t.second) := by
    have hmem := t.day_mem
    omega
  rw [← hzoneAt] at offset
  rw [if_neg hrange, offsetMinutesAt_of_drop hinside offset, Option.bind_some, t.millis_eq,
    DateTime.seconds, DateTime.civilDay, LedgerLegacy.daysFromCivil_eq hmonth]

/-- The reader takes the texts of the grammar, each as the instant that it spells. -/
theorem parseRfc3339Bytes_iff (bytes : List UInt8) (ms : Int) :
    LedgerLegacy.parseRfc3339Bytes bytes = some ms ↔ ∃ t, Spells bytes t ∧ ms = t.millis := by
  constructor
  · exact LedgerLegacy.parseRfc3339Bytes_spells
  · rintro ⟨t, hspells, rfl⟩
    exact parseRfc3339Bytes_of_spells hspells

theorem millis_counted (t : DateTime) :
    t.millis = 1000 * (86400 * daysCounted t.year t.month t.day +
      (t.hour * 3600 + t.minute * 60 + t.second) - t.offset * 60) +
        ⌊fractionOf t.fraction * 1000⌋ := by
  have hfraction : ⌊fractionOf t.fraction * 1000⌋ = (thousandths t.fraction : Int) := by
    obtain ⟨rest, hlow, hhigh, hrest⟩ := fractionOf_thousandths t.fraction_digits
    rw [hrest, Int.floor_eq_iff]
    push_cast
    constructor
    · linarith
    · linarith
  rw [t.millis_eq, DateTime.seconds, DateTime.civilDay, monthStart_counted t.year t.month_mem,
    hfraction]
  ring

/-- A text is read as an instant exactly when it belongs to the grammar, as the milliseconds
that its date, its time and its offset count to, and no reading overflows. -/
theorem instants_read_exactly (text : String) :
    (∀ ms : Int, parseRfc3339Ms text = .ok (some ms) ↔ ∃ t : DateTime,
      Spells (utf8Bytes text) t ∧
        ms = 1000 * (86400 * daysCounted t.year t.month t.day +
          (t.hour * 3600 + t.minute * 60 + t.second) - t.offset * 60) +
            ⌊fractionOf t.fraction * 1000⌋) ∧
    parseRfc3339Ms text ≠ .error .overflow := by
  have hreads : parseRfc3339Ms text = .ok (LedgerLegacy.parseRfc3339Bytes (utf8Bytes text)) :=
    parseRfc3339Bytes_reads (utf8Bytes text)
  rw [hreads]
  constructor
  · intro ms
    have hiff := parseRfc3339Bytes_iff (utf8Bytes text) ms
    simp only [millis_counted] at hiff
    rw [← hiff]
    constructor
    · exact Except.ok.inj
    · exact congrArg Except.ok
  · exact nofun

example : parseRfc3339Ms "0000-01-01T00:00:00+23:59" = .ok (some (-62167305540000)) := by
  decide +kernel

end LedgerInstants

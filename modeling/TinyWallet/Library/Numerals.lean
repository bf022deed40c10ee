import TinyWallet.Library.RustText

/-!
# Numbers and bytes written as text

A decimal text means the number its digits spell; a text of hex digits means
its bytes, in either letter case. The parsers of `RustText` read exactly these
meanings, and the printers write texts that read back.
-/

namespace Numerals

open RustText

theorem le_iff_toNat (a b : Char) : a ≤ b ↔ a.toNat ≤ b.toNat := Iff.rfl

def allDigits (cs : List Char) : Bool := !cs.isEmpty && cs.all isAsciiDigit

/-- A text without its optional plus sign. -/
def unsignedBody : List Char → List Char
  | '+' :: cs => cs
  | cs => cs

/-- The number a decimal text spells. -/
def units (text : String) : Option Nat :=
  let body := unsignedBody text.toList
  if allDigits body then some (Nat.ofDigitChars 10 body 0) else none

theorem isAsciiDigit_iff (c : Char) : isAsciiDigit c = true ↔ 48 ≤ c.toNat ∧ c.toNat ≤ 57 := by
  simp [isAsciiDigit, le_iff_toNat]

theorem hexValue_iff (c : Char) (d : Nat) : hexValue c = some d ↔
    (48 ≤ c.toNat ∧ c.toNat ≤ 57 ∧ d = c.toNat - 48) ∨
    (97 ≤ c.toNat ∧ c.toNat ≤ 102 ∧ d = c.toNat - 87) ∨
    (65 ≤ c.toNat ∧ c.toNat ≤ 70 ∧ d = c.toNat - 55) := by
  simp only [hexValue, isAsciiDigit, le_iff_toNat, Bool.and_eq_true, decide_eq_true_eq]
  simp only [Char.reduceToNat]
  split
  · simp only [Option.some.injEq]
    omega
  · split
    · simp only [Option.some.injEq]
      omega
    · split
      · simp only [Option.some.injEq]
        omega
      · simp only [reduceCtorEq, false_iff]
        omega

theorem digitOf_ten_iff (c : Char) (d : Nat) :
    digitOf 10 c = some d ↔ isAsciiDigit c = true ∧ d = c.toNat - 48 := by
  have below : digitOf 10 c = some d ↔ hexValue c = some d ∧ d < 10 := by
    simp only [digitOf]
    cases hexValue c with
    | none => simp
    | some value =>
      by_cases hvalue : value < 10
      · simp only [hvalue, if_true, Option.some.injEq]
        omega
      · simp only [hvalue, if_false, Option.some.injEq, reduceCtorEq, false_iff]
        omega
  rw [below, hexValue_iff, isAsciiDigit_iff]
  omega

theorem ofDigitChars_ge (cs : List Char) (acc : Nat) : acc ≤ Nat.ofDigitChars 10 cs acc := by
  rw [Nat.ofDigitChars_eq_ofDigitChars_zero]
  have := Nat.le_mul_of_pos_left acc (Nat.pow_pos (n := cs.length) (show 0 < 10 by decide))
  omega

/-- The digit loop computes the number the digits spell. -/
theorem parseDigits_ok {bound n : Nat} {cs : List Char} {acc : Nat}
    (h : parseDigits 10 bound cs acc = .ok n) :
    cs.all isAsciiDigit = true ∧ n = Nat.ofDigitChars 10 cs acc := by
  induction cs generalizing acc with
  | nil =>
    cases h
    simp
  | cons c cs ih =>
    simp only [parseDigits] at h
    split at h
    · cases h
    · next d hd =>
      obtain ⟨hdigit, rfl⟩ := (digitOf_ten_iff c d).mp hd
      split at h
      · cases h
      · obtain ⟨hall, rfl⟩ := ih h
        exact ⟨by simp [hdigit, hall], rfl⟩

theorem parseDigits_of_digits {bound : Nat} {cs : List Char} {acc : Nat}
    (hall : cs.all isAsciiDigit = true) (hbound : Nat.ofDigitChars 10 cs acc < bound) :
    parseDigits 10 bound cs acc = .ok (Nat.ofDigitChars 10 cs acc) := by
  induction cs generalizing acc with
  | nil => rfl
  | cons c cs ih =>
    simp only [List.all_cons, Bool.and_eq_true] at hall
    have hd := (digitOf_ten_iff c _).mpr ⟨hall.1, rfl⟩
    rw [Nat.ofDigitChars_cons] at hbound ⊢
    have hnext := ofDigitChars_ge cs (10 * acc + (c.toNat - 48))
    have hfits : ¬bound ≤ 10 * acc + (c.toNat - 48) := by
      simp only [Char.reduceToNat] at hbound
      omega
    simp only [parseDigits, hd, hfits, if_false]
    exact ih hall.2 hbound

theorem parseRadix_ok_iff {radix bound n : Nat} {text : String} :
    parseRadix radix bound text = .ok n ↔ unsignedBody text.toList ≠ [] ∧
      parseDigits radix bound (unsignedBody text.toList) 0 = .ok n := by
  simp only [parseRadix]
  split
  · simp_all [unsignedBody]
  · simp_all [unsignedBody]
  · simp_all [unsignedBody]
  · next hempty _ hplus =>
    have body : unsignedBody text.toList = text.toList := by
      rw [unsignedBody.eq_def]
      split
      · next cs hcs => exact absurd hcs (hplus cs)
      · rfl
    rw [body]
    exact ⟨fun h => ⟨hempty, h⟩, fun h => h.2⟩

theorem units_of_digits {text : String} (h : allDigits text.toList = true) :
    units text = some (Nat.ofDigitChars 10 text.toList 0) := by
  have body : unsignedBody text.toList = text.toList := by
    rw [unsignedBody.eq_def]
    split
    · next cs hcs =>
      simp only [allDigits, hcs, Bool.and_eq_true, List.all_cons] at h
      exact absurd h.2.1 (by decide)
    · rfl
  simp [units, body, h]

theorem units_of_parse {bound n : Nat} {text : String} (h : parseRadix 10 bound text = .ok n) :
    units text = some n := by
  obtain ⟨hempty, h⟩ := parseRadix_ok_iff.mp h
  obtain ⟨hall, rfl⟩ := parseDigits_ok h
  simp [units, allDigits, hall, hempty]

theorem parseDigits_lt {radix bound n : Nat} {cs : List Char} {acc : Nat} (hacc : acc < bound)
    (h : parseDigits radix bound cs acc = .ok n) : n < bound := by
  induction cs generalizing acc with
  | nil =>
    cases h
    exact hacc
  | cons c cs ih =>
    simp only [parseDigits] at h
    split at h
    · cases h
    · split at h
      · cases h
      · next hfits => exact ih (not_le.mp hfits) h

theorem parseRadix_lt {radix bound n : Nat} {text : String} (hbound : 0 < bound)
    (h : parseRadix radix bound text = .ok n) : n < bound :=
  parseDigits_lt hbound (parseRadix_ok_iff.mp h).2

/-- The digits of a decimal text, in the order of its characters. -/
theorem ofDigitChars_eq_ofDigits (cs : List Char) : Nat.ofDigitChars 10 cs 0 =
    Nat.ofDigits 10 (cs.map fun c => c.toNat - 48).reverse := by
  induction cs with
  | nil => rfl
  | cons c cs ih =>
    have hnext : Nat.ofDigitChars 10 (c :: cs) 0 =
        Nat.ofDigitChars 10 cs (10 * 0 + (c.toNat - 48)) := Nat.ofDigitChars_cons ..
    rw [hnext, Nat.ofDigitChars_eq_ofDigitChars_zero, ih, List.map_cons, List.reverse_cons,
      Nat.ofDigits_append, Nat.ofDigits_singleton, List.length_reverse, List.length_map]
    ring

theorem ofDigitChars_dropZeros (cs : List Char) :
    Nat.ofDigitChars 10 (cs.dropWhile (· = '0')) 0 = Nat.ofDigitChars 10 cs 0 := by
  induction cs with
  | nil => rfl
  | cons c cs ih =>
    by_cases hzero : c = '0'
    · subst hzero
      rw [List.dropWhile_cons_of_pos (by simp), ih]
      rfl
    · rw [List.dropWhile_cons_of_neg (by simpa using hzero)]

/-- Decimal texts spell one number exactly if they differ in leading zeros alone. -/
theorem ofDigitChars_inj_iff {cs ds : List Char} (hcs : ∀ c ∈ cs, isAsciiDigit c = true)
    (hds : ∀ d ∈ ds, isAsciiDigit d = true) :
    Nat.ofDigitChars 10 cs 0 = Nat.ofDigitChars 10 ds 0 ↔
      cs.dropWhile (· = '0') = ds.dropWhile (· = '0') := by
  have hvalues : ∀ es : List Char, (∀ e ∈ es, isAsciiDigit e = true) →
      Nat.digits 10 (Nat.ofDigitChars 10 es 0) =
        ((es.dropWhile (· = '0')).map fun c => c.toNat - 48).reverse := by
    intro es hes
    rw [← ofDigitChars_dropZeros, ofDigitChars_eq_ofDigits]
    apply Nat.digits_ofDigits 10 (by decide)
    · intro d hd
      obtain ⟨e, he, rfl⟩ := List.mem_map.mp (List.mem_reverse.mp hd)
      have := (isAsciiDigit_iff e).mp (hes e ((List.dropWhile_sublist _).mem he))
      omega
    · intro hne
      rw [List.getLast_reverse, List.head_map]
      have hsome : es.dropWhile (· = '0') ≠ [] := by
        intro hempty
        simp [hempty] at hne
      have hnonzero := List.head_dropWhile_not (· = '0') hsome
      have hdigit := (isAsciiDigit_iff _).mp
        (hes _ ((List.dropWhile_sublist (· = '0')).mem (List.head_mem hsome)))
      intro hzero
      have hcode : ((es.dropWhile (· = '0')).head hsome).toNat = '0'.toNat := by
        show _ = 48
        omega
      rw [Char.toNat_inj.mp hcode] at hnonzero
      simp at hnonzero
  have hback : ∀ es : List Char, (∀ e ∈ es, isAsciiDigit e = true) →
      ((es.dropWhile (· = '0')).map fun c => c.toNat - 48).map (fun d => Char.ofNat (48 + d)) =
        es.dropWhile (· = '0') := by
    intro es hes
    rw [List.map_map]
    calc (es.dropWhile (· = '0')).map ((fun d => Char.ofNat (48 + d)) ∘ fun c => c.toNat - 48)
        = (es.dropWhile (· = '0')).map id := by
          apply List.map_congr_left
          intro e he
          have hdigit := (isAsciiDigit_iff e).mp (hes e ((List.dropWhile_sublist _).mem he))
          have hcode : 48 + (e.toNat - 48) = e.toNat := by omega
          simp only [Function.comp_apply, hcode, Char.ofNat_toNat, id]
      _ = es.dropWhile (· = '0') := List.map_id _
  constructor
  · intro h
    have hlists := (hvalues cs hcs).symm.trans ((congrArg (Nat.digits 10) h).trans (hvalues ds hds))
    rw [← hback cs hcs, ← hback ds hds, List.reverse_injective hlists]
  · intro h
    rw [← ofDigitChars_dropZeros cs, h, ofDigitChars_dropZeros]
theorem toList_toString (n : Nat) : (toString n).toList = Nat.toDigits 10 n := by
  rw [Nat.toString_eq_ofList_toDigits, String.toList_ofList]

theorem toDigits_digit {n : Nat} {c : Char} (hc : c ∈ Nat.toDigits 10 n) :
    isAsciiDigit c = true := by
  have hdigit := Nat.isDigit_of_mem_toDigits (by decide) (by decide) hc
  rw [isAsciiDigit_iff]
  simp only [Char.isDigit, ge_iff_le, Bool.and_eq_true, decide_eq_true_eq,
    UInt32.le_iff_toNat_le] at hdigit
  exact hdigit

theorem unsignedBody_toString (n : Nat) : unsignedBody (toString n).toList = Nat.toDigits 10 n := by
  rw [toList_toString, unsignedBody.eq_def]
  split
  · next cs hcs =>
    have := toDigits_digit (c := '+') (n := n) (by rw [hcs]; exact List.mem_cons_self)
    exact absurd this (by decide)
  · rfl

theorem allDigits_toDigits (n : Nat) : allDigits (Nat.toDigits 10 n) = true := by
  have hempty : (Nat.toDigits 10 n).isEmpty = false := by simp [Nat.toDigits_ne_nil]
  have hall : (Nat.toDigits 10 n).all isAsciiDigit = true :=
    List.all_eq_true.mpr fun c hc => toDigits_digit hc
  simp [allDigits, hempty, hall]

theorem parseRadix_toString {bound n : Nat} (h : n < bound) :
    parseRadix 10 bound (toString n) = .ok n := by
  rw [parseRadix_ok_iff, unsignedBody_toString]
  refine ⟨Nat.toDigits_ne_nil, ?_⟩
  have hall : (Nat.toDigits 10 n).all isAsciiDigit = true :=
    List.all_eq_true.mpr fun c hc => toDigits_digit hc
  have hbound : Nat.ofDigitChars 10 (Nat.toDigits 10 n) 0 < bound := by
    rwa [Nat.ofDigitChars_ten_toDigits]
  rw [parseDigits_of_digits hall hbound, Nat.ofDigitChars_ten_toDigits]

theorem isWhiteSpace_of_digit {c : Char} (h : isAsciiDigit c = true) : isWhiteSpace c = false := by
  rw [isAsciiDigit_iff] at h
  simp [isWhiteSpace]
  omega

theorem trim_toString (n : Nat) : trim (toString n) = toString n := by
  have hspace : ∀ c ∈ (toString n).toList, isWhiteSpace c = false := by
    intro c hc
    rw [toList_toString] at hc
    exact isWhiteSpace_of_digit (toDigits_digit hc)
  rw [trim, trimChars_of_no_space hspace, String.ofList_toList]

theorem toString_inj {n m : Nat} (h : toString n = toString m) : n = m := by
  have hdigits : Nat.toDigits 10 n = Nat.toDigits 10 m := by
    rw [← toList_toString, ← toList_toString, h]
  rw [← Nat.ofDigitChars_ten_toDigits (n := n), hdigits, Nat.ofDigitChars_ten_toDigits]

/-- Texts come apart at the last separator. -/
theorem append_separator_inj {c : Char} {xs xs' ys ys' : List Char}
    (h : xs ++ c :: ys = xs' ++ c :: ys') (hys : c ∉ ys) (hys' : c ∉ ys') :
    xs = xs' ∧ ys = ys' := by
  rcases List.append_eq_append_iff.mp h with ⟨more, hxs, hrest⟩ | ⟨more, hxs, hrest⟩
  · cases more with
    | nil => simpa [eq_comm] using And.intro hxs hrest
    | cons d more =>
      obtain ⟨rfl, rfl⟩ := List.cons.inj hrest
      simp at hys
  · cases more with
    | nil => simpa [eq_comm] using And.intro hxs hrest
    | cons d more =>
      obtain ⟨rfl, rfl⟩ := List.cons.inj hrest
      simp at hys'

/-- A text and a number joined by a colon come apart again. -/
theorem colon_toString_inj {a b : String} {n m : Nat}
    (h : a ++ ":" ++ toString n = b ++ ":" ++ toString m) : a = b ∧ n = m := by
  have hdigits : ∀ k : Nat, ':' ∉ (toString k).toList := by
    intro k hmem
    rw [toList_toString] at hmem
    exact absurd (toDigits_digit hmem) (by decide)
  have hlists : a.toList ++ ':' :: (toString n).toList =
      b.toList ++ ':' :: (toString m).toList := by
    have htexts := congrArg String.toList h
    simpa [String.toList_append] using htexts
  obtain ⟨ha, hn⟩ := append_separator_inj hlists (hdigits n) (hdigits m)
  exact ⟨String.toList_injective ha, toString_inj (String.toList_injective hn)⟩

theorem toNat_toLower (c : Char) :
    c.toLower.toNat = if 65 ≤ c.toNat ∧ c.toNat ≤ 90 then c.toNat + 32 else c.toNat := by
  have upper : (c.val ≥ 'A'.val ∧ c.val ≤ 'Z'.val) ↔ (65 ≤ c.toNat ∧ c.toNat ≤ 90) := by
    simp only [ge_iff_le, UInt32.le_iff_toNat_le]
    exact Iff.rfl
  unfold Char.toLower
  split
  · next h =>
    have h' := upper.mp h
    rw [if_pos h']
    show (c.val + 32).toNat = c.val.toNat + 32
    have hsmall : c.val.toNat ≤ 90 := h'.2
    rw [UInt32.toNat_add]
    exact Nat.mod_eq_of_lt (by simp; omega)
  · next h => rw [if_neg fun h' => h (upper.mpr h')]

theorem hexValue_toLower (c : Char) : hexValue c.toLower = hexValue c := by
  ext d
  simp only [hexValue_iff, toNat_toLower]
  split <;> omega

theorem hexValue_lt {c : Char} {d : Nat} (h : hexValue c = some d) : d < 16 := by
  rw [hexValue_iff] at h
  omega

/-- A hex digit is printed in lower case. -/
theorem hexDigit_hexValue {c : Char} {d : Nat} (h : hexValue c = some d) :
    hexDigit d = c.toLower := by
  have hd := hexValue_lt h
  rw [hexValue_iff] at h
  have digits : ∀ d : Fin 16,
      (hexDigit d).toNat = if d.val < 10 then 48 + d.val else 87 + d.val := by
    decide
  apply Char.ext
  apply UInt32.toNat_inj.mp
  show (hexDigit d).toNat = c.toLower.toNat
  rw [toNat_toLower, digits ⟨d, hd⟩]
  simp only
  split <;> split <;> omega

theorem hexDecode_cons_iff {a b : Char} {rest : List Char} {bytes : List UInt8} :
    hexDecode (a :: b :: rest) = some bytes ↔ ∃ hi lo tail, hexValue a = some hi ∧
      hexValue b = some lo ∧ hexDecode rest = some tail ∧
      bytes = UInt8.ofNat (16 * hi + lo) :: tail := by
  simp only [hexDecode]
  cases hexValue a <;> cases hexValue b <;> cases hexDecode rest <;> simp [eq_comm]

theorem hexDecode_toLower : ∀ cs : List Char, hexDecode (cs.map Char.toLower) = hexDecode cs
  | [] => rfl
  | [_] => rfl
  | a :: b :: rest => by
    simp only [List.map_cons, hexDecode, hexValue_toLower, hexDecode_toLower rest]

theorem hexDecode_length : ∀ {cs : List Char} {bytes : List UInt8},
    hexDecode cs = some bytes → cs.length = 2 * bytes.length
  | [], _, h => by
    cases h
    rfl
  | [_], _, h => by cases h
  | a :: b :: rest, bytes, h => by
    obtain ⟨_, _, tail, _, _, hrest, rfl⟩ := hexDecode_cons_iff.mp h
    have := hexDecode_length hrest
    simp only [List.length_cons]
    omega

theorem hexDecode_append : ∀ {cs ds : List Char} {bytes more : List UInt8},
    hexDecode cs = some bytes → hexDecode ds = some more →
      hexDecode (cs ++ ds) = some (bytes ++ more)
  | [], _, _, _, h, hmore => by
    cases h
    exact hmore
  | [_], _, _, _, h, _ => by cases h
  | a :: b :: rest, ds, bytes, more, h, hmore => by
    obtain ⟨hi, lo, tail, ha, hb, hrest, rfl⟩ := hexDecode_cons_iff.mp h
    exact hexDecode_cons_iff.mpr ⟨hi, lo, tail ++ more, ha, hb, hexDecode_append hrest hmore, rfl⟩

/-- Printed bytes read back. -/
theorem hexDecode_hexLower (bytes : List UInt8) :
    hexDecode (hexLower bytes).toList = some bytes := by
  have digits : ∀ n : Fin 16, hexValue (hexDigit n) = some n.val := by decide
  have pair : ∀ b : UInt8, hexDecode (hexByte b) = some [b] := by
    intro b
    have hb := b.toNat_lt
    refine hexDecode_cons_iff.mpr ⟨b.toNat / 16, b.toNat % 16, [], ?_, ?_, rfl, ?_⟩
    · exact digits ⟨b.toNat / 16, by omega⟩
    · exact digits ⟨b.toNat % 16, by omega⟩
    · rw [Nat.div_add_mod, UInt8.ofNat_toNat]
  rw [hexLower, String.toList_ofList]
  induction bytes with
  | nil => rfl
  | cons b bytes ih =>
    rw [List.flatMap_cons]
    exact hexDecode_append (pair b) ih

/-- Bytes are printed in lower case. -/
theorem hexLower_hexDecode : ∀ {cs : List Char} {bytes : List UInt8},
    hexDecode cs = some bytes → (hexLower bytes).toList = cs.map Char.toLower
  | [], _, h => by
    cases h
    rfl
  | [_], _, h => by cases h
  | a :: b :: rest, bytes, h => by
    obtain ⟨hi, lo, tail, ha, hb, hrest, rfl⟩ := hexDecode_cons_iff.mp h
    have htail := hexLower_hexDecode hrest
    have hhi := hexValue_lt ha
    have hlo := hexValue_lt hb
    rw [hexLower, String.toList_ofList] at htail ⊢
    have hbyte : (UInt8.ofNat (16 * hi + lo)).toNat = 16 * hi + lo := by
      rw [UInt8.toNat_ofNat']
      omega
    have hdiv : (16 * hi + lo) / 16 = hi := by omega
    have hmod : (16 * hi + lo) % 16 = lo := by omega
    rw [List.flatMap_cons, htail, hexByte, hbyte, hdiv, hmod, hexDigit_hexValue ha,
      hexDigit_hexValue hb]
    rfl

theorem hexValue_isSome {c : Char} (h : isAsciiHexDigit c = true) : ∃ d, hexValue c = some d := by
  simp only [isAsciiHexDigit, isAsciiDigit, le_iff_toNat, Bool.or_eq_true, Bool.and_eq_true,
    decide_eq_true_eq, Char.reduceToNat] at h
  rcases h with (h | h) | h
  · exact ⟨_, (hexValue_iff c _).mpr (.inl ⟨h.1, h.2, rfl⟩)⟩
  · exact ⟨_, (hexValue_iff c _).mpr (.inr (.inl ⟨h.1, h.2, rfl⟩))⟩
  · exact ⟨_, (hexValue_iff c _).mpr (.inr (.inr ⟨h.1, h.2, rfl⟩))⟩

theorem isAsciiHexDigit_of_hexValue {c : Char} {d : Nat} (h : hexValue c = some d) :
    isAsciiHexDigit c = true := by
  simp only [isAsciiHexDigit, isAsciiDigit, le_iff_toNat, Bool.or_eq_true, Bool.and_eq_true,
    decide_eq_true_eq, Char.reduceToNat]
  rcases (hexValue_iff c d).mp h with h | h | h
  · exact .inl (.inl ⟨h.1, h.2.1⟩)
  · exact .inl (.inr ⟨h.1, h.2.1⟩)
  · exact .inr ⟨h.1, h.2.1⟩

theorem digits_of_hexDecode : ∀ {cs : List Char} {bytes : List UInt8},
    hexDecode cs = some bytes → cs.all isAsciiHexDigit = true
  | [], _, _ => rfl
  | [_], _, h => by cases h
  | a :: b :: rest, _, h => by
    obtain ⟨hi, lo, tail, ha, hb, hrest, -⟩ := hexDecode_cons_iff.mp h
    rw [List.all_cons, List.all_cons, isAsciiHexDigit_of_hexValue ha,
      isAsciiHexDigit_of_hexValue hb, digits_of_hexDecode hrest]
    rfl

theorem hexDecode_of_digits : ∀ {cs : List Char}, cs.length % 2 = 0 →
    cs.all isAsciiHexDigit = true → ∃ bytes, hexDecode cs = some bytes
  | [], _, _ => ⟨[], rfl⟩
  | [_], h, _ => by simp at h
  | a :: b :: rest, hlength, hall => by
    simp only [List.length_cons] at hlength
    simp only [List.all_cons, Bool.and_eq_true] at hall
    obtain ⟨hi, ha⟩ := hexValue_isSome hall.1
    obtain ⟨lo, hb⟩ := hexValue_isSome hall.2.1
    obtain ⟨tail, hrest⟩ := hexDecode_of_digits (by omega) hall.2.2
    exact ⟨_, hexDecode_cons_iff.mpr ⟨hi, lo, tail, ha, hb, hrest, rfl⟩⟩

theorem ascii_of_hexValue {c : Char} {d : Nat} (h : hexValue c = some d) : c.utf8Size = 1 := by
  rw [Char.utf8Size_eq_one_iff, UInt32.le_iff_toNat_le]
  have hrange := (hexValue_iff c d).mp h
  simp only [Char.toNat] at hrange
  show c.val.toNat ≤ 127
  omega

theorem byteLen_of_hex {cs : List Char} (h : cs.all isAsciiHexDigit = true) :
    byteLen cs = cs.length := by
  induction cs with
  | nil => rfl
  | cons c cs ih =>
    simp only [List.all_cons, Bool.and_eq_true] at h
    obtain ⟨d, hd⟩ := hexValue_isSome h.1
    have one := ascii_of_hexValue hd
    have := ih h.2
    simp only [byteLen, List.map_cons, List.sum_cons, List.length_cons, one] at this ⊢
    omega

theorem strip_eq {p s t : String} (h : strip p s = some t) : s = p ++ t := by
  unfold strip at h
  split at h
  · next hprefix =>
    cases h
    obtain ⟨rest, hrest⟩ := List.isPrefixOf_iff_prefix.mp hprefix
    apply String.toList_injective
    rw [String.toList_append, String.toList_ofList, ← hrest, List.drop_left]
  · cases h

theorem strip_hexLower (bytes : List UInt8) : strip "0x" (hexLower bytes) = none := by
  cases hstrip : strip "0x" (hexLower bytes) with
  | none => rfl
  | some rest =>
    have hdigits := digits_of_hexDecode (hexDecode_hexLower bytes)
    rw [strip_eq hstrip] at hdigits
    simp [isAsciiHexDigit, isAsciiDigit] at hdigits

end Numerals

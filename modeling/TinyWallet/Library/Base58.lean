import TinyWallet.Library.Rlp

/-!
# Base58 texts

A text of base-58 digits stands for the bytes of its number, one zero byte for
each zero digit in front. Base58check puts four bytes of a double digest behind
the payload.
-/

namespace Base58

open Rlp

def alphabet : List Char := "123456789ABCDEFGHJKLMNPQRSTUVWXYZabcdefghijkmnopqrstuvwxyz".toList

def digit (c : Char) : Option Nat := alphabet.idxOf? c

/-- The number that digits spell, most significant first. -/
def value (digits : List Nat) : Nat := Nat.ofDigits 58 digits.reverse

def bytesOf (digits : List Nat) : List UInt8 :=
  (digits.takeWhile (· = 0)).map (fun _ => 0) ++ significant (toBe digits.length (value digits))

def decode (text : List Char) : Option (List UInt8) := (text.mapM digit).map bytesOf

/-- The payload of a text whose checksum is right. -/
def decodeCheck (sha256 : List UInt8 → List UInt8) (text : List Char) : Option (List UInt8) :=
  (decode text).bind fun bytes =>
    let payload := bytes.take (bytes.length - 4)
    if 4 ≤ bytes.length ∧ bytes.drop (bytes.length - 4) = (sha256 (sha256 payload)).take 4 then
      some payload
    else none

theorem digit_lt {c : Char} {d : Nat} (h : digit c = some d) : d < 58 := by
  obtain ⟨hlt, -⟩ := List.idxOf?_eq_some_iff.mp h
  exact hlt

theorem char_of_digit {c : Char} {d : Nat} (h : digit c = some d) : alphabet[d]? = some c := by
  obtain ⟨hlt, hc, -⟩ := List.idxOf?_eq_some_iff.mp h
  rw [List.getElem?_eq_getElem hlt, hc]

theorem value_cons (d : Nat) (digits : List Nat) :
    value (d :: digits) = d * 58 ^ digits.length + value digits := by
  simp only [value, List.reverse_cons, Nat.ofDigits_append, Nat.ofDigits_singleton,
    List.length_reverse]
  ring

theorem value_lt {digits : List Nat} (h : ∀ d ∈ digits, d < 58) :
    value digits < 58 ^ digits.length := by
  have hreversed : ∀ d ∈ digits.reverse, d < 58 := fun d hd => h d (List.mem_reverse.mp hd)
  have hlt := Nat.ofDigits_lt_base_pow_length (by decide) hreversed
  rwa [List.length_reverse] at hlt

/-- The digits of a text, first to last. -/
theorem digits_of_decode {text : List Char} {bytes : List UInt8} (h : decode text = some bytes) :
    ∃ digits, List.Forall₂ (fun c d => digit c = some d) text digits ∧ bytes = bytesOf digits := by
  obtain ⟨digits, hdigits, rfl⟩ := Option.map_eq_some_iff.mp h
  refine ⟨digits, ?_, rfl⟩
  clear h
  induction text generalizing digits with
  | nil =>
    cases hdigits
    exact .nil
  | cons c text ih =>
    rw [List.mapM_cons] at hdigits
    obtain ⟨d, hd, hdigits⟩ := Option.bind_eq_some_iff.mp hdigits
    obtain ⟨rest, hrest, hdigits⟩ := Option.bind_eq_some_iff.mp hdigits
    cases hdigits
    exact .cons hd (ih rest hrest)

theorem digits_lt {text : List Char} {digits : List Nat}
    (h : List.Forall₂ (fun c d => digit c = some d) text digits) : ∀ d ∈ digits, d < 58 := by
  induction h with
  | nil => simp
  | cons hd _ ih =>
    intro e he
    rcases List.mem_cons.mp he with rfl | he
    · exact digit_lt hd
    · exact ih e he

theorem fromBe_bytesOf {d : Nat} {digits : List Nat} (hd : d ≠ 0)
    (hlt : ∀ e ∈ d :: digits, e < 58) :
    fromBe (bytesOf (d :: digits)) = value (d :: digits) := by
  have hwidth : value (d :: digits) < 256 ^ (d :: digits).length :=
    (value_lt hlt).trans_le (Nat.pow_le_pow_left (by decide) _)
  rw [bytesOf, List.takeWhile_cons_of_neg (by simpa using hd), List.map_nil, List.nil_append,
    fromBe_significant, fromBe_toBe, Nat.mod_eq_of_lt hwidth]

/-- A zero byte in front is a zero digit in front. -/
theorem head_of_zero {text : List Char} {rest : List UInt8} (h : decode text = some (0 :: rest)) :
    text.head? = some '1' := by
  obtain ⟨digits, hdigits, hbytes⟩ := digits_of_decode h
  cases hdigits with
  | nil => cases hbytes
  | @cons c d text digits hc _ =>
    by_cases hd : d = 0
    · subst hd
      have hchar := char_of_digit hc
      rw [List.head?_cons, ← hchar]
      rfl
    · rw [bytesOf, List.takeWhile_cons_of_neg (by simpa using hd), List.map_nil,
        List.nil_append] at hbytes
      have hhead := head_significant_ne_zero
        (toBe (d :: digits).length (value (d :: digits)))
      rw [← hbytes] at hhead
      exact absurd rfl hhead

/-- Any other byte in front: the first digit is the leading digit of the number. -/
theorem head_of_nonzero {text : List Char} {b : UInt8} {rest : List UInt8} (hb : b ≠ 0)
    (h : decode text = some (b :: rest)) :
    ∃ d more, d ≠ 0 ∧ d < 58 ∧ text.head? = alphabet[d]? ∧
      d * 58 ^ more ≤ fromBe (b :: rest) ∧ fromBe (b :: rest) < (d + 1) * 58 ^ more := by
  obtain ⟨digits, hdigits, hbytes⟩ := digits_of_decode h
  have hlt := digits_lt hdigits
  cases hdigits with
  | nil => cases hbytes
  | @cons c d text digits hc _ =>
    have hd : d ≠ 0 := by
      rintro rfl
      rw [bytesOf, List.takeWhile_cons_of_pos (by simp), List.map_cons, List.cons_append] at hbytes
      exact hb (List.cons.inj hbytes).1
    have hvalue := fromBe_bytesOf hd hlt
    have hrest := value_lt fun e he => hlt e (List.mem_cons_of_mem _ he)
    rw [value_cons] at hvalue
    refine ⟨d, digits.length, hd, digit_lt hc, (char_of_digit hc).symm, ?_, ?_⟩
    · rw [hbytes, hvalue]
      omega
    · rw [hbytes, hvalue, Nat.add_mul]
      omega

theorem decode_of_check {sha256 : List UInt8 → List UInt8} {text : List Char} {payload : List UInt8}
    (h : decodeCheck sha256 text = some payload) :
    ∃ checksum, checksum.length = 4 ∧ decode text = some (payload ++ checksum) := by
  obtain ⟨bytes, hbytes, h⟩ := Option.bind_eq_some_iff.mp h
  dsimp only at h
  split_ifs at h with hcheck
  obtain rfl := Option.some.inj h
  refine ⟨bytes.drop (bytes.length - 4), ?_, ?_⟩
  · rw [List.length_drop]
    omega
  · rw [List.take_append_drop]
    exact hbytes

example : decode "11233QC4".toList = some [0, 0, 40, 127, 180, 205] := by decide +kernel

end Base58

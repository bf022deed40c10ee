import TinyWallet.Library.Numerals
import TinyWallet.Library.Rlp

/-!
# Decimal digits into bytes

Long multiplication: for each digit the big-endian bytes are multiplied by ten
and the digit is added, with a carry in a machine word of `w` bits. A word of
twelve bits is wide enough, and a carry out of the last byte is an overflow of
the number itself.
-/

namespace LongDecimal

open RustText Numerals Rlp

variable {w : Nat}

/-- A byte's turn, in the word's arithmetic. -/
def product (byte : UInt8) (carry : BitVec w) : BitVec w := BitVec.ofNat w byte.toNat * 10#w + carry

/-- A pass over the bytes from the last one to the first. -/
def pass (carry : BitVec w) : List UInt8 → List UInt8 × BitVec w
  | [] => ([], carry)
  | byte :: bytes =>
    let (rest, carry) := pass carry bytes
    (UInt8.ofNat (product byte carry &&& 0xff#w).toNat :: rest, product byte carry >>> 8)

/-- A pass for each digit; `none` where a carry is left over. -/
def decimalInto (w : Nat) : List Char → List UInt8 → Option (List UInt8)
  | [], bytes => some bytes
  | c :: cs, bytes =>
    let (bytes, carry) := pass (BitVec.ofNat w (c.toNat - 48)) bytes
    if carry ≠ 0#w then none else decimalInto w cs bytes

/-- The word does not wrap. -/
theorem product_toNat (hw : 12 ≤ w) (byte : UInt8) {carry : BitVec w} (hcarry : carry.toNat < 10) :
    (product byte carry).toNat = byte.toNat * 10 + carry.toNat := by
  have hbyte := byte.toNat_lt
  have hwidth : 2 ^ 12 ≤ 2 ^ w := Nat.pow_le_pow_right (by decide) hw
  have hten : (10#w).toNat = 10 := by
    rw [BitVec.toNat_ofNat]
    exact Nat.mod_eq_of_lt (by omega)
  rw [product, BitVec.toNat_add, BitVec.toNat_mul, BitVec.toNat_ofNat, hten,
    Nat.mod_eq_of_lt (show byte.toNat < 2 ^ w by omega),
    Nat.mod_eq_of_lt (show byte.toNat * 10 < 2 ^ w by omega)]
  exact Nat.mod_eq_of_lt (by omega)

theorem low_byte (hw : 12 ≤ w) (word : BitVec w) :
    (UInt8.ofNat (word &&& 0xff#w).toNat).toNat = word.toNat % 256 := by
  have hwidth : 2 ^ 12 ≤ 2 ^ w := Nat.pow_le_pow_right (by decide) hw
  have hmask : (0xff#w).toNat = 2 ^ 8 - 1 := by
    rw [BitVec.toNat_ofNat]
    exact Nat.mod_eq_of_lt (by omega)
  rw [BitVec.toNat_and, hmask, Nat.and_two_pow_sub_one_eq_mod, UInt8.toNat_ofNat']
  omega

theorem pass_length (carry : BitVec w) (bytes : List UInt8) :
    (pass carry bytes).1.length = bytes.length := by
  induction bytes with
  | nil => rfl
  | cons byte bytes ih => simp only [pass, List.length_cons, ih]

/-- A carry stays a digit. -/
theorem pass_carry_lt (hw : 12 ≤ w) {carry : BitVec w} (hcarry : carry.toNat < 10)
    (bytes : List UInt8) : (pass carry bytes).2.toNat < 10 := by
  induction bytes with
  | nil => exact hcarry
  | cons byte bytes ih =>
    have hbyte := byte.toNat_lt
    simp only [pass]
    rw [BitVec.toNat_ushiftRight, product_toNat hw byte ih, Nat.shiftRight_eq_div_pow]
    omega

/-- What a pass does to the number, its carry included. -/
theorem pass_value (hw : 12 ≤ w) {carry : BitVec w} (hcarry : carry.toNat < 10)
    (bytes : List UInt8) :
    256 ^ bytes.length * (pass carry bytes).2.toNat + fromBe (pass carry bytes).1 =
      10 * fromBe bytes + carry.toNat := by
  induction bytes with
  | nil => simp [pass, fromBe]
  | cons byte bytes ih =>
    have hinner := pass_carry_lt hw hcarry bytes
    have hproduct := product_toNat hw byte hinner
    have hlow := low_byte hw (product byte (pass carry bytes).2)
    have hsplit := Nat.div_add_mod (byte.toNat * 10 + (pass carry bytes).2.toNat) 256
    simp only [pass, fromBe_cons, List.length_cons, pass_length]
    have height : 2 ^ 8 = 256 := by norm_num
    rw [hlow, BitVec.toNat_ushiftRight, Nat.shiftRight_eq_div_pow, hproduct, height]
    calc 256 ^ (bytes.length + 1) * ((byte.toNat * 10 + (pass carry bytes).2.toNat) / 256) +
          (256 ^ bytes.length * ((byte.toNat * 10 + (pass carry bytes).2.toNat) % 256) +
            fromBe (pass carry bytes).1)
        = 256 ^ bytes.length *
            (256 * ((byte.toNat * 10 + (pass carry bytes).2.toNat) / 256) +
              (byte.toNat * 10 + (pass carry bytes).2.toNat) % 256) +
            fromBe (pass carry bytes).1 := by ring
      _ = 256 ^ bytes.length * (byte.toNat * 10 + (pass carry bytes).2.toNat) +
            fromBe (pass carry bytes).1 := by rw [hsplit]
      _ = 10 * (256 ^ bytes.length * byte.toNat) +
            (256 ^ bytes.length * (pass carry bytes).2.toNat + fromBe (pass carry bytes).1) := by
          ring
      _ = 10 * (256 ^ bytes.length * byte.toNat + fromBe bytes) + carry.toNat := by
          rw [ih]
          ring

/-- The digits' number comes out exactly if the bytes can hold it. -/
theorem decimalInto_eq (hw : 12 ≤ w) {cs : List Char} (digits : ∀ c ∈ cs, isAsciiDigit c = true)
    (bytes : List UInt8) :
    decimalInto w cs bytes =
      if Nat.ofDigitChars 10 cs (fromBe bytes) < 256 ^ bytes.length then
        some (toBe bytes.length (Nat.ofDigitChars 10 cs (fromBe bytes)))
      else none := by
  induction cs generalizing bytes with
  | nil =>
    rw [decimalInto, Nat.ofDigitChars_nil, if_pos (fromBe_lt bytes), toBe_fromBe]
  | cons c cs ih =>
    have hrange := (isAsciiDigit_iff c).mp (digits c List.mem_cons_self)
    have hwidth : 2 ^ 12 ≤ 2 ^ w := Nat.pow_le_pow_right (by decide) hw
    have hdigit : (BitVec.ofNat w (c.toNat - 48)).toNat = c.toNat - 48 := by
      rw [BitVec.toNat_ofNat]
      exact Nat.mod_eq_of_lt (by omega)
    have hvalue := pass_value hw (show (BitVec.ofNat w (c.toNat - 48)).toNat < 10 by omega) bytes
    rw [hdigit] at hvalue
    have hnext : Nat.ofDigitChars 10 (c :: cs) (fromBe bytes) =
        Nat.ofDigitChars 10 cs (10 * fromBe bytes + (c.toNat - 48)) := Nat.ofDigitChars_cons ..
    rw [decimalInto, hnext]
    dsimp only
    by_cases hcarry : (pass (BitVec.ofNat w (c.toNat - 48)) bytes).2 = 0#w
    · rw [if_neg (not_not.mpr hcarry), ih (fun c' hc' => digits c' (List.mem_cons_of_mem c hc')),
        pass_length]
      rw [hcarry, BitVec.toNat_zero, Nat.mul_zero, Nat.zero_add] at hvalue
      rw [hvalue]
    · rw [if_pos hcarry, if_neg]
      -- a carry that is left over is at least one whole turn of the bytes
      have hpositive : 1 ≤ (pass (BitVec.ofNat w (c.toNat - 48)) bytes).2.toNat :=
        Nat.one_le_iff_ne_zero.mpr fun h => hcarry (BitVec.eq_of_toNat_eq (by simpa using h))
      have hturn := Nat.mul_le_mul_left (256 ^ bytes.length) hpositive
      have hgrows := ofDigitChars_ge cs (10 * fromBe bytes + (c.toNat - 48))
      omega

end LongDecimal

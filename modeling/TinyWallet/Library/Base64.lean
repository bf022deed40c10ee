import Mathlib

/-!
# Base64

The standard alphabet of RFC 4648 with padding. The decoder takes the padding
and the bits behind the last byte only as the encoder writes them, so that the
two are inverse to each other: no text but the encoder's is accepted.
-/

namespace Base64

def alphabet : List Char :=
  "ABCDEFGHIJKLMNOPQRSTUVWXYZabcdefghijklmnopqrstuvwxyz0123456789+/".toList

/-- The character of six bits. -/
def symbol (bits : Nat) : Char := alphabet.getD bits '='

def valueOf (c : Char) : Option Nat :=
  if 'A' ≤ c ∧ c ≤ 'Z' then some (c.toNat - 65)
  else if 'a' ≤ c ∧ c ≤ 'z' then some (c.toNat - 97 + 26)
  else if '0' ≤ c ∧ c ≤ '9' then some (c.toNat - 48 + 52)
  else if c = '+' then some 62
  else if c = '/' then some 63
  else none

/-- Three bytes as four characters; fewer at the end are padded. -/
def encode : List UInt8 → List Char
  | [] => []
  | [a] => [symbol (a.toNat / 4), symbol (a.toNat % 4 * 16), '=', '=']
  | [a, b] =>
    [symbol (a.toNat / 4), symbol (a.toNat % 4 * 16 + b.toNat / 16),
      symbol (b.toNat % 16 * 4), '=']
  | a :: b :: c :: rest =>
    symbol (a.toNat / 4) :: symbol (a.toNat % 4 * 16 + b.toNat / 16) ::
      symbol (b.toNat % 16 * 4 + c.toNat / 64) :: symbol (c.toNat % 64) :: encode rest

def quantum (a b c d : Char) : Option (List UInt8) := do
  let p ← valueOf a
  let q ← valueOf b
  let r ← valueOf c
  let s ← valueOf d
  some [UInt8.ofNat (p * 4 + q / 16), UInt8.ofNat (q % 16 * 16 + r / 4),
    UInt8.ofNat (r % 4 * 64 + s)]

/-- The last four characters, where the bits behind the last byte must be zero. -/
def lastQuantum (a b c d : Char) : Option (List UInt8) :=
  if d = '=' then
    if c = '=' then do
      let p ← valueOf a
      let q ← valueOf b
      if q % 16 = 0 then some [UInt8.ofNat (p * 4 + q / 16)] else none
    else do
      let p ← valueOf a
      let q ← valueOf b
      let r ← valueOf c
      if r % 4 = 0 then
        some [UInt8.ofNat (p * 4 + q / 16), UInt8.ofNat (q % 16 * 16 + r / 4)]
      else none
  else quantum a b c d

def decode : List Char → Option (List UInt8)
  | [] => some []
  | a :: b :: c :: d :: rest =>
    if rest.isEmpty then lastQuantum a b c d
    else do
      let bytes ← quantum a b c d
      let more ← decode rest
      some (bytes ++ more)
  | _ => none

theorem valueOf_symbol {bits : Nat} (h : bits < 64) : valueOf (symbol bits) = some bits := by
  have hall : ∀ n : Fin 64, valueOf (symbol n.val) = some n.val := by decide +kernel
  exact hall ⟨bits, h⟩

theorem symbol_ne_pad {bits : Nat} (h : bits < 64) : symbol bits ≠ '=' := by
  intro heq
  have hvalue := valueOf_symbol h
  rw [heq] at hvalue
  cases hvalue

theorem byte_of_parts {n : Nat} (b : UInt8) (h : n = b.toNat) : UInt8.ofNat n = b := by
  rw [h, UInt8.ofNat_toNat]

theorem quantum_encode (x y z : UInt8) :
    quantum (symbol (x.toNat / 4)) (symbol (x.toNat % 4 * 16 + y.toNat / 16))
      (symbol (y.toNat % 16 * 4 + z.toNat / 64)) (symbol (z.toNat % 64)) = some [x, y, z] := by
  have hx := x.toNat_lt
  have hy := y.toNat_lt
  have hz := z.toNat_lt
  simp only [quantum]
  rw [valueOf_symbol (by omega), valueOf_symbol (by omega), valueOf_symbol (by omega),
    valueOf_symbol (by omega)]
  simp only [bind, Option.bind]
  rw [byte_of_parts x (by omega), byte_of_parts y (by omega), byte_of_parts z (by omega)]

theorem encode_isEmpty {bytes : List UInt8} (h : (encode bytes).isEmpty = true) : bytes = [] := by
  match bytes with
  | [] => rfl
  | [_] => cases h
  | [_, _] => cases h
  | _ :: _ :: _ :: _ => cases h

theorem decode_encode (bytes : List UInt8) : decode (encode bytes) = some bytes := by
  induction bytes using encode.induct with
  | case1 => rfl
  | case2 x =>
    have hx := x.toNat_lt
    have hlast : lastQuantum (symbol (x.toNat / 4)) (symbol (x.toNat % 4 * 16)) '=' '=' =
        some [x] := by
      rw [lastQuantum, if_pos rfl, if_pos rfl, valueOf_symbol (by omega),
        valueOf_symbol (by omega)]
      simp only [bind, Option.bind]
      rw [if_pos (by omega), byte_of_parts x (by omega)]
    exact hlast
  | case3 x y =>
    have hx := x.toNat_lt
    have hy := y.toNat_lt
    have hthird : symbol (y.toNat % 16 * 4) ≠ '=' := symbol_ne_pad (by omega)
    have hlast : lastQuantum (symbol (x.toNat / 4)) (symbol (x.toNat % 4 * 16 + y.toNat / 16))
        (symbol (y.toNat % 16 * 4)) '=' = some [x, y] := by
      rw [lastQuantum, if_pos rfl, if_neg hthird, valueOf_symbol (by omega),
        valueOf_symbol (by omega), valueOf_symbol (by omega)]
      simp only [bind, Option.bind]
      rw [if_pos (by omega), byte_of_parts x (by omega), byte_of_parts y (by omega)]
    exact hlast
  | case4 x y z rest ih =>
    have hz := z.toNat_lt
    have hfourth : symbol (z.toNat % 64) ≠ '=' := symbol_ne_pad (by omega)
    rw [encode, decode]
    by_cases hrest : (encode rest).isEmpty = true
    · rw [if_pos hrest, lastQuantum, if_neg hfourth, quantum_encode, encode_isEmpty hrest]
    · rw [if_neg hrest, quantum_encode, ih]
      rfl

theorem encode_length (bytes : List UInt8) :
    (encode bytes).length = 4 * ((bytes.length + 2) / 3) := by
  induction bytes using encode.induct with
  | case1 => rfl
  | case2 x => simp [encode]
  | case3 x y => simp [encode]
  | case4 x y z rest ih =>
    simp only [encode, List.length_cons, ih]
    omega

end Base64

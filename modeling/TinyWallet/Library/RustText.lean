import Mathlib

/-!
# Rust text and integer primitives

The `str`, `char` and integer-parsing operations of the Rust standard library
that the wallet's parsers are written with. Rust text is UTF-8, so a length is
a byte length; a slice at a byte offset inside a character panics, which is an
outcome of its own here and never an error value.
-/

namespace RustText

/-- Unicode `White_Space`, the class `str::trim` strips. -/
def isWhiteSpace (c : Char) : Bool :=
  let n := c.toNat
  (9 ≤ n && n ≤ 13) || n == 0x20 || n == 0x85 || n == 0xA0 || n == 0x1680 ||
    (0x2000 ≤ n && n ≤ 0x200A) || n == 0x2028 || n == 0x2029 || n == 0x202F ||
    n == 0x205F || n == 0x3000

def trimEnd (cs : List Char) : List Char :=
  (cs.reverse.dropWhile isWhiteSpace).reverse

def trimChars (cs : List Char) : List Char :=
  trimEnd (cs.dropWhile isWhiteSpace)

def trim (s : String) : String := String.ofList (trimChars s.toList)

/-- Length in bytes of the UTF-8 encoding. -/
def byteLen (cs : List Char) : Nat := (cs.map Char.utf8Size).sum

def utf8Bytes (s : String) : List UInt8 := s.toUTF8.data.toList

theorem utf8Bytes_injective : Function.Injective utf8Bytes := by
  intro s t h
  exact String.toByteArray_inj.mp (ByteArray.ext (Array.toList_inj.mp h))

/-- `str::from_utf8`. -/
def fromUtf8 (bytes : List UInt8) : Option String := String.fromUTF8? ⟨bytes.toArray⟩

def endsWith (s t : String) : Bool := t.toList.isSuffixOf s.toList

/-- `str::contains` for a fixed text. -/
def contains (s t : String) : Bool := decide (t.toList <:+: s.toList)

def eqIgnoreAsciiCase (s t : String) : Bool :=
  s.toList.map Char.toLower == t.toList.map Char.toLower

def toAsciiLowercase (s : String) : String :=
  String.ofList (s.toList.map Char.toLower)

/-- `str::strip_prefix` for a fixed text. -/
def strip (p s : String) : Option String :=
  if p.toList.isPrefixOf s.toList then some (String.ofList (s.toList.drop p.toList.length))
  else none

def isAsciiDigit (c : Char) : Bool := '0' ≤ c && c ≤ '9'

def isAsciiHexDigit (c : Char) : Bool :=
  isAsciiDigit c || ('a' ≤ c && c ≤ 'f') || ('A' ≤ c && c ≤ 'F')

def hexValue (c : Char) : Option Nat :=
  if isAsciiDigit c then some (c.toNat - 48)
  else if 'a' ≤ c && c ≤ 'f' then some (c.toNat - 87)
  else if 'A' ≤ c && c ≤ 'F' then some (c.toNat - 55)
  else none

/-- `u8::from_str_radix(pair, 16)` on a two-character slice. A leading plus
sign is accepted, as the standard library does for every integer type. -/
def hexPair (a b : Char) : Option UInt8 :=
  if a = '+' then (hexValue b).map (fun lo => UInt8.ofNat lo)
  else match hexValue a, hexValue b with
    | some hi, some lo => some (UInt8.ofNat (16 * hi + lo))
    | _, _ => none

def hexDigit (n : Nat) : Char :=
  if n < 10 then Char.ofNat (48 + n) else Char.ofNat (87 + n)

def hexByte (b : UInt8) : List Char := [hexDigit (b.toNat / 16), hexDigit (b.toNat % 16)]

/-- Lowercase hex without a `0x`. -/
def hexLower (bytes : List UInt8) : String := String.ofList (bytes.flatMap hexByte)

/-- `hex::decode`: even length and hex digits only. -/
def hexDecode : List Char → Option (List UInt8)
  | [] => some []
  | [_] => none
  | a :: b :: rest =>
    match hexValue a, hexValue b, hexDecode rest with
    | some hi, some lo, some bytes => some (UInt8.ofNat (16 * hi + lo) :: bytes)
    | _, _, _ => none

def digitOf (radix : Nat) (c : Char) : Option Nat :=
  match hexValue c with
  | some d => if d < radix then some d else none
  | none => none

/-- The digit loop of `from_str_radix` for an unsigned type of values below
`bound`: the first bad digit or overflow ends it. -/
def parseDigits (radix bound : Nat) : List Char → Nat → Except String Nat
  | [], acc => .ok acc
  | c :: cs, acc =>
    match digitOf radix c with
    | none => .error "invalid digit found in string"
    | some d =>
      if bound ≤ radix * acc + d then .error "number too large to fit in target type"
      else parseDigits radix bound cs (radix * acc + d)

/-- `from_str_radix` for an unsigned type: an optional plus sign, then digits. -/
def parseRadix (radix bound : Nat) (s : String) : Except String Nat :=
  match s.toList with
  | [] => .error "cannot parse integer from empty string"
  | ['+'] => .error "invalid digit found in string"
  | '+' :: cs => parseDigits radix bound cs 0
  | cs => parseDigits radix bound cs 0

def parseU64 : String → Except String Nat := parseRadix 10 (2 ^ 64)

def parseU128 : String → Except String Nat := parseRadix 10 (2 ^ 128)

/-- `format!("0x{value:x}")`. -/
def hexQuantity (value : Nat) : String := "0x" ++ String.ofList (Nat.toDigits 16 value)

theorem hexByte_digits (b : UInt8) :
    ∃ hi lo, hexByte b = [hi, lo] ∧ hexPair hi lo = some b ∧
      (hi.utf8Size = 1 ∧ lo.utf8Size = 1) ∧ isWhiteSpace hi = false ∧ isWhiteSpace lo = false := by
  refine ⟨_, _, rfl, ?_⟩
  have hall : ∀ n : Fin 256,
      hexPair (hexDigit (n.val / 16)) (hexDigit (n.val % 16)) = some (UInt8.ofNat n.val) ∧
        ((hexDigit (n.val / 16)).utf8Size = 1 ∧ (hexDigit (n.val % 16)).utf8Size = 1) ∧
        isWhiteSpace (hexDigit (n.val / 16)) = false ∧
        isWhiteSpace (hexDigit (n.val % 16)) = false := by
    decide +kernel
  have hbyte := hall ⟨b.toNat, b.toNat_lt⟩
  simpa only [UInt8.ofNat_toNat] using hbyte

theorem trimChars_of_no_space {cs : List Char} (h : ∀ c ∈ cs, isWhiteSpace c = false) :
    trimChars cs = cs := by
  have hdrop : ∀ ds : List Char, (∀ c ∈ ds, isWhiteSpace c = false) →
      ds.dropWhile isWhiteSpace = ds := by
    intro ds hds
    cases ds with
    | nil => rfl
    | cons d ds => simp [hds d List.mem_cons_self]
  rw [trimChars, hdrop cs h, trimEnd, hdrop cs.reverse (by simpa using h), List.reverse_reverse]

theorem trimChars_idempotent (cs : List Char) : trimChars (trimChars cs) = trimChars cs := by
  have front : (trimChars cs).dropWhile isWhiteSpace = trimChars cs := by
    rw [List.dropWhile_eq_self_iff]
    intro hl
    obtain ⟨rest, hrest⟩ : trimChars cs <+: cs.dropWhile isWhiteSpace :=
      List.rdropWhile_prefix isWhiteSpace _
    have hlong : 0 < (cs.dropWhile isWhiteSpace).length := by
      rw [← hrest, List.length_append]
      omega
    have hhead : (cs.dropWhile isWhiteSpace)[0] = (trimChars cs)[0] := by
      simp only [← hrest, List.getElem_append_left hl]
    rw [← hhead]
    exact List.dropWhile_get_zero_not isWhiteSpace cs hlong
  rw [trimChars, front]
  exact List.rdropWhile_idempotent isWhiteSpace _

theorem trim_trim (s : String) : trim (trim s) = trim s := by
  simp only [trim, String.toList_ofList, trimChars_idempotent]

theorem hexLower_append (xs ys : List UInt8) :
    hexLower (xs ++ ys) = hexLower xs ++ hexLower ys := by
  apply String.toList_injective
  simp [hexLower]

theorem hexLower_no_space {bytes : List UInt8} :
    ∀ c ∈ (hexLower bytes).toList, isWhiteSpace c = false := by
  intro c hc
  rw [hexLower, String.toList_ofList, List.mem_flatMap] at hc
  obtain ⟨b, _, hc⟩ := hc
  obtain ⟨hi, lo, hdigits, _, _, hhi, hlo⟩ := hexByte_digits b
  rw [hdigits] at hc
  rcases List.mem_cons.mp hc with rfl | hc
  · exact hhi
  · rw [List.mem_singleton.mp hc]
    exact hlo

theorem trim_hexLower (bytes : List UInt8) : trim (hexLower bytes) = hexLower bytes := by
  rw [trim, trimChars_of_no_space hexLower_no_space, String.ofList_toList]

/-- How a Rust function that returns `Result` can end. -/
inductive Failure (ε : Type) where
  | error (e : ε)
  | panic
deriving DecidableEq, Repr

theorem bind_ok_iff {ε α β : Type} {x : Except ε α} {f : α → Except ε β} {r : β} :
    (x >>= f) = .ok r ↔ ∃ a, x = .ok a ∧ f a = .ok r := by
  cases x with
  | error e => simp [bind, Except.bind]
  | ok a => simp [bind, Except.bind]

theorem mapError_ok {ε ε' α : Type} {f : ε → ε'} {x : Except ε α} {a : α}
    (h : x.mapError f = .ok a) : x = .ok a := by
  cases x with
  | error e => cases h
  | ok b =>
    cases h
    rfl

/-- A traversal that succeeds has succeeded at every element. -/
theorem forall₂_of_mapM_ok {ε α β : Type} {f : α → Except ε β} {items : List α} :
    ∀ {results : List β}, items.mapM f = .ok results →
      List.Forall₂ (fun item result => f item = .ok result) items results := by
  induction items with
  | nil =>
    intro results h
    cases h
    exact .nil
  | cons item rest ih =>
    intro results h
    rw [List.mapM_cons] at h
    obtain ⟨first, hfirst, h⟩ := bind_ok_iff.mp h
    obtain ⟨others, hothers, h⟩ := bind_ok_iff.mp h
    cases h
    exact .cons hfirst (ih hothers)

/-- A traversal that fails has failed at some element. -/
theorem exists_of_mapM_error {ε α β : Type} {f : α → Except ε β} {items : List α} {e : ε}
    (h : items.mapM f = .error e) : ∃ item ∈ items, f item = .error e := by
  induction items with
  | nil => cases h
  | cons item rest ih =>
    rw [List.mapM_cons] at h
    cases hfirst : f item with
    | error e' =>
      rw [hfirst] at h
      cases h
      exact ⟨item, List.mem_cons_self, hfirst⟩
    | ok result =>
      cases hrest : rest.mapM f with
      | ok results =>
        rw [hfirst, hrest] at h
        cases h
      | error e' =>
        rw [hfirst, hrest] at h
        cases h
        obtain ⟨other, hother, hfails⟩ := ih hrest
        exact ⟨other, List.mem_cons_of_mem _ hother, hfails⟩

/-- Related lists, position by position. -/
theorem getElem?_of_forall₂ {α β : Type} {related : α → β → Prop} {items : List α}
    {others : List β} (h : List.Forall₂ related items others) :
    ∀ {i : Nat} {item : α}, items[i]? = some item →
      ∃ other, others[i]? = some other ∧ related item other := by
  induction h with
  | nil =>
    intro i item hitem
    simp at hitem
  | @cons first other rest others hhere _ ih =>
    intro i item hitem
    cases i with
    | zero =>
      cases hitem
      exact ⟨other, rfl, hhere⟩
    | succ i => exact ih hitem

end RustText

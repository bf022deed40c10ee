import Mathlib

/-!
# Bech32 texts

Segregated witness addresses: a human-readable part, a separator, and a data
part in groups of five bits with a checksum behind it. Version 0 has the first
checksum constant and later versions the second. A text is in one letter case,
which the human-readable part keeps.
-/

namespace Bech32

def charset : List Char := "qpzry9x8gf2tvdw0s3jn54khce6mua7l".toList

def value (c : Char) : Option Nat := charset.idxOf? c

def generators : List Nat := [0x3b6a57b2, 0x26508e6d, 0x1ea119fa, 0x3d4233dd, 0x2a1462b3]

def polymodStep (checksum value : Nat) : Nat :=
  let top := checksum >>> 25
  let shifted := ((checksum &&& 0x1ffffff) <<< 5) ^^^ value
  (generators.zipIdx.map fun g =>
    if (top >>> g.2) &&& 1 = 1 then g.1 else 0).foldl (· ^^^ ·) shifted

def polymod (values : List Nat) : Nat := values.foldl polymodStep 1

def expandHrp (hrp : List Char) : List Nat :=
  hrp.map (fun c => c.toNat >>> 5) ++ [0] ++ hrp.map fun c => c.toNat &&& 31

def checksumConstant (version : Nat) : Nat := if version = 0 then 1 else 0x2bc830a3

/-- Groups of five bits as bytes; what is left over is short and zero. -/
def toBytes (groups : List Nat) : Option (List UInt8) :=
  let bits := groups.flatMap fun g => (List.range 5).map fun i => (g >>> (4 - i)) &&& 1
  let whole := bits.length / 8
  let rest := bits.drop (8 * whole)
  if rest.length < 5 ∧ rest.all (· = 0) then
    some ((List.range whole).map fun i => UInt8.ofNat (((bits.drop (8 * i)).take 8).foldl
      (fun n bit => 2 * n + bit) 0))
  else none

def programLengthOk (version length : Nat) : Bool :=
  2 ≤ length && length ≤ 40 && (version ≠ 0 || length = 20 || length = 32)

def hasLower (text : List Char) : Bool := text.any fun c => 'a' ≤ c && c ≤ 'z'

def hasUpper (text : List Char) : Bool := text.any fun c => 'A' ≤ c && c ≤ 'Z'

def hrpOk (hrp : List Char) : Bool :=
  1 ≤ hrp.length && hrp.length ≤ 83 && hrp.all fun c => 33 ≤ c.toNat && c.toNat ≤ 126

/-- The text before the last separator and after it. -/
def separate (text : List Char) : Option (List Char × List Char) :=
  match text.reverse.dropWhile (· ≠ '1') with
  | [] => none
  | _ :: before => some (before.reverse, (text.reverse.takeWhile (· ≠ '1')).reverse)

/-- The human-readable part as written, the witness version and the program. -/
def segwit (text : List Char) : Option (List Char × Nat × List UInt8) := do
  let (hrp, data) ← separate text
  let values ← data.mapM fun c => value c.toLower
  let version ← values.head?
  let program ← toBytes ((values.drop 1).take (values.length - 7))
  if (hasLower text && hasUpper text) = false ∧ hrpOk hrp ∧ text.length ≤ 90 ∧
      7 ≤ values.length ∧ version ≤ 16 ∧
      polymod (expandHrp (hrp.map Char.toLower) ++ values) = checksumConstant version ∧
      programLengthOk version program.length then
    some (hrp, version, program)
  else none

theorem separate_eq {text hrp data : List Char} (h : separate text = some (hrp, data)) :
    text = hrp ++ '1' :: data ∧ '1' ∉ data := by
  have hsplit := @List.takeWhile_append_dropWhile _ (fun c => decide (c ≠ '1')) text.reverse
  have hnone : '1' ∉ text.reverse.takeWhile (· ≠ '1') := fun hin =>
    absurd (List.mem_takeWhile_imp hin) (by simp)
  simp only [separate] at h
  cases hdrop : text.reverse.dropWhile (· ≠ '1') with
  | nil =>
    rw [hdrop] at h
    cases h
  | cons c before =>
    have hone : c = '1' := by
      have hhead := List.head?_dropWhile_not (fun c => decide (c ≠ '1')) text.reverse
      rw [hdrop] at hhead
      simpa using hhead
    rw [hdrop] at h hsplit
    generalize text.reverse.takeWhile (· ≠ '1') = back at *
    cases h
    constructor
    · rw [← List.reverse_reverse text, ← hsplit, hone]
      simp
    · simpa using hnone

/-- What a segwit text looks like. -/
structure Shape (text hrp : List Char) (version : Nat) (program : List UInt8) : Prop where
  separated : ∃ data, text = hrp ++ '1' :: data ∧ '1' ∉ data
  oneCase : (hasLower text && hasUpper text) = false
  length : programLengthOk version program.length = true

theorem shape_of_segwit {text hrp : List Char} {version : Nat} {program : List UInt8}
    (h : segwit text = some (hrp, version, program)) : Shape text hrp version program := by
  obtain ⟨⟨hrp', data⟩, hseparate, h⟩ := Option.bind_eq_some_iff.mp h
  obtain ⟨values, -, h⟩ := Option.bind_eq_some_iff.mp h
  obtain ⟨version', -, h⟩ := Option.bind_eq_some_iff.mp h
  obtain ⟨program', -, h⟩ := Option.bind_eq_some_iff.mp h
  split_ifs at h with hvalid
  cases h
  obtain ⟨hcase, -, -, -, -, -, hlength⟩ := hvalid
  exact ⟨⟨data, separate_eq hseparate⟩, hcase, hlength⟩

example : (segwit "BC1QW508D6QEJXTDG4Y5R3ZARVARY0C5XW7KV8F3T4".toList).map
    (fun out => (String.ofList out.1, out.2.1, out.2.2.length)) = some ("BC", 0, 20) := by
  decide +kernel

end Bech32

import TinyWallet.Library.Readers
import TinyWallet.Tron.Panics

/-!
# Reading fields back

A message is a sequence of fields, each a key and a value of the wire type that
the key announces. The walk reads exactly such sequences, and takes every byte
for one field. What is written as fields is read back as those fields, but that
a fixed-width value is skipped and not kept.
-/

namespace TronFields

open RustText Readers TronProto TronPanics

/-- A group and what is above it share no bit. -/
theorem shiftLeft_group {low : Nat} (h : low < 2 ^ 7) (n k : Nat) :
    (low + 128 * n) <<< (7 * k) = low <<< (7 * k) ||| n <<< (7 * (k + 1)) := by
  have hjoin : low + 128 * n = low ||| n <<< 7 := by
    rw [Nat.or_comm, ← Nat.shiftLeft_add_eq_or_of_lt h, Nat.shiftLeft_eq]
    omega
  have hshift : 7 * (k + 1) = 7 + 7 * k := by ring
  rw [hjoin, Nat.shiftLeft_or_distrib, hshift, Nat.shiftLeft_add]

theorem takeVarintAt_of_spells {bytes : List UInt8} {n : Nat} (h : Spells bytes n) :
    ∀ {k acc : Nat} {rest : List UInt8}, k + bytes.length ≤ 10 → n <<< (7 * k) < 2 ^ 64 →
      takeVarintAt (7 * k) acc (bytes ++ rest) = .ok (acc ||| n <<< (7 * k), rest) := by
  induction h with
  | @last b low =>
    intro k acc rest hroom hfits
    obtain ⟨hhigh, hgroup⟩ := bits_of_byte b
    rw [if_pos low] at hgroup
    simp only [List.length_cons, List.length_nil] at hroom
    have hshift : ¬63 < 7 * k := by omega
    have htop : ¬(7 * k = 63 ∧ 1 < b.toNat) := by
      rintro ⟨hend, hmore⟩
      rw [hend, Nat.shiftLeft_eq] at hfits
      omega
    simp [takeVarintAt, hshift, hgroup, htop, hhigh.mpr low]
  | @more b bytes n high tail ih =>
    intro k acc rest hroom hfits
    obtain ⟨hhigh, hgroup⟩ := bits_of_byte b
    rw [if_neg (not_lt.mpr high)] at hgroup
    have hnonempty : 0 < bytes.length := by cases tail <;> simp
    simp only [List.length_cons] at hroom
    have hmore : ¬b.toNat &&& 0x80 = 0 := fun h => absurd (hhigh.mp h) (not_lt.mpr high)
    have hbyte : b.toNat - 128 < 2 ^ 7 := by
      have := b.toNat_lt
      omega
    rw [shiftLeft_group hbyte] at hfits
    have hfits' : n <<< (7 * (k + 1)) < 2 ^ 64 := lt_of_le_of_lt Nat.right_le_or hfits
    have hnext := @ih (k + 1) (acc ||| (b.toNat - 128) <<< (7 * k)) rest (by omega) hfits'
    have hin : ¬63 < 7 * k := by omega
    have hend : ¬7 * k = 63 := by omega
    rw [List.cons_append, takeVarintAt, if_neg hin, if_neg (fun h => hend h.1), if_neg hmore,
      hgroup, show 7 * k + 7 = 7 * (k + 1) by ring, hnext, shiftLeft_group hbyte, Nat.or_assoc]

theorem spells_of_takeVarintAt {input rest : List UInt8} : ∀ {k acc key : Nat},
    takeVarintAt (7 * k) acc input = .ok (key, rest) →
      ∃ bytes n, input = bytes ++ rest ∧ Spells bytes n ∧ k + bytes.length ≤ 10 ∧
        n <<< (7 * k) < 2 ^ 64 ∧ key = acc ||| n <<< (7 * k) := by
  induction input with
  | nil =>
    intro k acc key h
    simp only [takeVarintAt] at h
    split at h <;> cases h
  | cons b input ih =>
    intro k acc key h
    obtain ⟨hhigh, hgroup⟩ := bits_of_byte b
    have hbyte := b.toNat_lt
    simp only [takeVarintAt] at h
    split at h
    · cases h
    next hin =>
    split at h
    · cases h
    next htop =>
    split at h
    · next hdone =>
      have low := hhigh.mp hdone
      rw [if_pos low] at hgroup
      cases h
      refine ⟨[b], b.toNat, rfl, .last low, ?_, ?_, by rw [hgroup]⟩
      · simp only [List.length_cons, List.length_nil]
        omega
      · -- the tenth group has one legal bit
        rw [hgroup] at htop
        rw [Nat.shiftLeft_eq]
        by_cases hend : k = 9
        · subst hend
          omega
        · calc b.toNat * 2 ^ (7 * k) ≤ 127 * 2 ^ 56 :=
                Nat.mul_le_mul (by omega) (Nat.pow_le_pow_right (by decide) (by omega))
            _ < 2 ^ 64 := by decide
    · next hmore =>
      have high : 128 ≤ b.toNat := not_lt.mp fun h => hmore (hhigh.mpr h)
      rw [if_neg (not_lt.mpr high)] at hgroup
      rw [show 7 * k + 7 = 7 * (k + 1) by ring, hgroup] at h
      obtain ⟨bytes, n, rfl, hspells, hroom, hfits, rfl⟩ := ih h
      have hgroupLt : b.toNat - 128 < 2 ^ 7 := by omega
      refine ⟨b :: bytes, b.toNat - 128 + 128 * n, rfl, .more high hspells, ?_, ?_, ?_⟩
      · rw [List.length_cons]
        omega
      · rw [shiftLeft_group hgroupLt]
        refine Nat.or_lt_two_pow ?_ hfits
        have hnonempty : 0 < bytes.length := by cases hspells <;> simp
        rw [Nat.shiftLeft_eq]
        calc (b.toNat - 128) * 2 ^ (7 * k) ≤ 127 * 2 ^ 56 :=
              Nat.mul_le_mul (by omega) (Nat.pow_le_pow_right (by decide) (by omega))
          _ < 2 ^ 64 := by decide
      · rw [shiftLeft_group hgroupLt, Nat.or_assoc]

/-- Bytes that are one varint: at most ten groups, of a number below 2^64. -/
structure IsVarint (bytes : List UInt8) (value : Nat) : Prop where
  spells : Spells bytes value
  short : bytes.length ≤ 10
  fits : value < 2 ^ 64

theorem takeVarint_ok_iff {input rest : List UInt8} {value : Nat} :
    takeVarint input = .ok (value, rest) ↔
      ∃ bytes, input = bytes ++ rest ∧ IsVarint bytes value := by
  constructor
  · intro h
    obtain ⟨bytes, n, hinput, hspells, hroom, hfits, hvalue⟩ := @spells_of_takeVarintAt input rest 0
      0 value h
    rw [Nat.mul_zero, Nat.shiftLeft_zero, Nat.zero_or] at hvalue
    subst hvalue
    rw [Nat.mul_zero, Nat.shiftLeft_zero] at hfits
    exact ⟨bytes, hinput, hspells, by omega, hfits⟩
  · rintro ⟨bytes, rfl, hspells, hroom, hfits⟩
    have hread := @takeVarintAt_of_spells bytes value hspells 0 0 rest (by omega)
      (by simpa using hfits)
    simpa [takeVarint] using hread

theorem takeVarint_append {bytes : List UInt8} {value : Nat} (h : IsVarint bytes value)
    (rest : List UInt8) : takeVarint (bytes ++ rest) = .ok (value, rest) :=
  takeVarint_ok_iff.mpr ⟨bytes, rfl, h⟩

theorem encodeVarintFuel_eq_groups (limit : Nat) {value : Nat} (h : value < 128 ^ (limit + 1)) :
    encodeVarintFuel (limit + 1) value = groups value := by
  have hmask : value &&& 0x7f = value % 128 := Nat.and_two_pow_sub_one_eq_mod value 7
  have hshift : value >>> 7 = value / 128 := Nat.shiftRight_eq_div_pow value 7
  induction limit generalizing value with
  | zero =>
    have hsmall : value < 128 := by simpa using h
    rw [encodeVarintFuel, hshift, if_pos (by omega), hmask, groups_small hsmall,
      Nat.mod_eq_of_lt hsmall]
  | succ limit ih =>
    rw [encodeVarintFuel, hshift, hmask]
    by_cases hsmall : value < 128
    · rw [if_pos (by omega), groups_small hsmall, Nat.mod_eq_of_lt hsmall]
    · have hnext : value / 128 < 128 ^ (limit + 1) := by
        rw [pow_succ] at h
        omega
      have hhigh : value % 128 ||| 0x80 = value % 128 + 128 := by
        have hlow : value % 128 < 2 ^ 7 := by omega
        rw [Nat.or_comm, Nat.add_comm]
        exact (Nat.two_pow_add_eq_or_of_lt hlow 1).symm
      rw [if_neg (by omega), hhigh, groups_large (not_lt.mp hsmall),
        ih hnext (Nat.and_two_pow_sub_one_eq_mod _ 7) (Nat.shiftRight_eq_div_pow _ 7)]

theorem encodeVarint_isVarint {value : Nat} (h : value < 2 ^ 64) :
    IsVarint (encodeVarint value) value := by
  have hroom : value < 128 ^ (9 + 1) := lt_trans h (by norm_num)
  rw [encodeVarint, encodeVarintFuel_eq_groups 9 hroom]
  exact ⟨spells_groups value, groups_length 9 hroom, h⟩

/-- The bytes of one field: a key, which gives its number and its wire type, and
the value. -/
inductive Spans : List UInt8 → Field → Prop
  | varint {head body : List UInt8} {number value : Nat} (key : IsVarint head (8 * number + 0))
      (declared : number ≠ 0) (content : IsVarint body value) :
      Spans (head ++ body) ⟨number, .varint value⟩
  | fixed64 {head body : List UInt8} {number : Nat} (key : IsVarint head (8 * number + 1))
      (declared : number ≠ 0) (width : body.length = 8) : Spans (head ++ body) ⟨number, .other⟩
  | bytes {head length body : List UInt8} {number : Nat} (key : IsVarint head (8 * number + 2))
      (declared : number ≠ 0) (announced : IsVarint length body.length) :
      Spans (head ++ (length ++ body)) ⟨number, .bytes body⟩
  | fixed32 {head body : List UInt8} {number : Nat} (key : IsVarint head (8 * number + 5))
      (declared : number ≠ 0) (width : body.length = 4) : Spans (head ++ body) ⟨number, .other⟩

theorem key_parts (key : Nat) : key = 8 * (key >>> 3) + (key &&& 7) := by
  have hshift : key >>> 3 = key / 8 := Nat.shiftRight_eq_div_pow key 3
  have hmask : key &&& 7 = key % 8 := Nat.and_two_pow_sub_one_eq_mod key 3
  omega

theorem key_read {number wire : Nat} (h : wire < 8) :
    (8 * number + wire) >>> 3 = number ∧ (8 * number + wire) &&& 7 = wire := by
  have hshift : (8 * number + wire) >>> 3 = (8 * number + wire) / 8 :=
    Nat.shiftRight_eq_div_pow _ 3
  have hmask : (8 * number + wire) &&& 7 = (8 * number + wire) % 8 :=
    Nat.and_two_pow_sub_one_eq_mod _ 3
  omega

theorem takeExact_append {body : List UInt8} {width : Nat} (h : body.length = width)
    (rest : List UInt8) : takeExact (body ++ rest) width = .ok (body, rest) := by
  subst h
  simp [takeExact]

theorem readField_of_spans {piece : List UInt8} {field : Field} (h : Spans piece field)
    (rest : List UInt8) : readField (piece ++ rest) = .ok (field, rest) := by
  cases h with
  | @varint head body number value key declared content =>
    obtain ⟨hnumber, hwire⟩ := @key_read number 0 (by decide)
    rw [List.append_assoc, readField, takeVarint_append key]
    simp only [bind, Except.bind, hnumber, hwire, if_neg declared, takeVarint_append content]
  | @fixed64 head body number key declared width =>
    obtain ⟨hnumber, hwire⟩ := @key_read number 1 (by decide)
    rw [List.append_assoc, readField, takeVarint_append key]
    simp only [bind, Except.bind, hnumber, hwire, if_neg declared, takeExact_append width]
  | @bytes head length body number key declared announced =>
    obtain ⟨hnumber, hwire⟩ := @key_read number 2 (by decide)
    rw [List.append_assoc, List.append_assoc, readField, takeVarint_append key]
    simp only [bind, Except.bind, hnumber, hwire, if_neg declared, takeVarint_append announced,
      takeExact_append rfl]
  | @fixed32 head body number key declared width =>
    obtain ⟨hnumber, hwire⟩ := @key_read number 5 (by decide)
    rw [List.append_assoc, readField, takeVarint_append key]
    simp only [bind, Except.bind, hnumber, hwire, if_neg declared, takeExact_append width]

theorem spans_of_readField {input rest : List UInt8} {field : Field}
    (h : readField input = .ok (field, rest)) :
    ∃ piece, input = piece ++ rest ∧ Spans piece field := by
  obtain ⟨number, value⟩ := field
  obtain ⟨key, body, hkey, declared, hnumber, hvalue⟩ := readField_ok h
  obtain ⟨head, rfl, hhead⟩ := takeVarint_ok_iff.mp hkey
  have hparts := key_parts key
  dsimp only at hnumber hvalue
  subst hnumber
  rcases hvalue with ⟨hwire, v, hv, rfl⟩ | ⟨hwire, hlen, rfl, rfl⟩ |
    ⟨hwire, n, tail, hn, hlen, rfl, rfl⟩ | ⟨hwire, hlen, rfl, rfl⟩
  · obtain ⟨content, rfl, hcontent⟩ := takeVarint_ok_iff.mp hv
    rw [hwire] at hparts
    rw [hparts] at hhead
    exact ⟨head ++ content, by rw [List.append_assoc], .varint hhead declared hcontent⟩
  · rw [hwire] at hparts
    rw [hparts] at hhead
    refine ⟨head ++ body.take 8, ?_, .fixed64 hhead declared (List.length_take_of_le hlen)⟩
    rw [List.append_assoc, List.take_append_drop]
  · obtain ⟨length, rfl, hlength⟩ := takeVarint_ok_iff.mp hn
    rw [hwire] at hparts
    rw [hparts] at hhead
    have hcount : (tail.take n).length = n := List.length_take_of_le hlen
    have announced : IsVarint length (tail.take n).length := by rwa [hcount]
    refine ⟨head ++ (length ++ tail.take n), ?_, .bytes hhead declared announced⟩
    rw [List.append_assoc, List.append_assoc, List.take_append_drop]
  · rw [hwire] at hparts
    rw [hparts] at hhead
    refine ⟨head ++ body.take 4, ?_, .fixed32 hhead declared (List.length_take_of_le hlen)⟩
    rw [List.append_assoc, List.take_append_drop]

/-- The fields of a successful walk take every byte of the input, each once. -/
theorem parseFields_iff_partition {input : List UInt8} {fields : List Field} :
    parseFields input = .ok fields ↔
      ∃ pieces, pieces.flatten = input ∧ List.Forall₂ Spans pieces fields := by
  rw [parseFields_ok_iff]
  constructor
  · intro h
    induction h with
    | nil => exact ⟨[], rfl, .nil⟩
    | cons read tail ih =>
      obtain ⟨pieces, hjoined, hspans⟩ := ih
      obtain ⟨piece, rfl, hpiece⟩ := spans_of_readField read
      exact ⟨piece :: pieces, by rw [List.flatten_cons, hjoined], .cons hpiece hspans⟩
  · rintro ⟨pieces, rfl, hspans⟩
    induction hspans with
    | nil => exact .nil
    | cons hpiece _ ih =>
      rw [List.flatten_cons]
      exact .cons (readField_of_spans hpiece _) ih

/-- A value as it is written; its width is the wire type's. -/
inductive Content where
  | varint (value : Nat) (fits : value < 2 ^ 64)
  | fixed64 (value : List UInt8) (width : value.length = 8)
  | bytes (value : List UInt8) (fits : value.length < 2 ^ 64)
  | fixed32 (value : List UInt8) (width : value.length = 4)
deriving DecidableEq

structure WrittenField where
  number : Nat
  declared : 0 < number ∧ number < 2 ^ 29
  content : Content
deriving DecidableEq

def Content.wire : Content → Nat
  | .varint _ _ => 0
  | .fixed64 _ _ => 1
  | .bytes _ _ => 2
  | .fixed32 _ _ => 5

def Content.encode : Content → List UInt8
  | .varint value _ => encodeVarint value
  | .fixed64 value _ => value
  | .bytes value _ => encodeVarint value.length ++ value
  | .fixed32 value _ => value

/-- What the walk keeps of a value. -/
def Content.kept : Content → Value
  | .varint value _ => .varint value
  | .fixed64 _ _ => .other
  | .bytes value _ => .bytes value
  | .fixed32 _ _ => .other

def WrittenField.encode (field : WrittenField) : List UInt8 :=
  encodeVarint (field.number <<< 3 ||| field.content.wire) ++ field.content.encode

def WrittenField.read (field : WrittenField) : Field := ⟨field.number, field.content.kept⟩

def encodeFields (fields : List WrittenField) : List UInt8 :=
  (fields.map WrittenField.encode).flatten

theorem wire_lt (content : Content) : content.wire < 8 := by
  cases content <;> simp [Content.wire]

theorem key_written (field : WrittenField) :
    IsVarint (encodeVarint (field.number <<< 3 ||| field.content.wire))
      (8 * field.number + field.content.wire) := by
  have hwire : field.content.wire < 2 ^ 3 := wire_lt field.content
  have hkey : field.number <<< 3 ||| field.content.wire =
      8 * field.number + field.content.wire := by
    rw [← Nat.shiftLeft_add_eq_or_of_lt hwire, Nat.shiftLeft_eq]
    omega
  have hnumber := field.declared.2
  rw [hkey]
  exact encodeVarint_isVarint (by omega)

theorem encode_spans (field : WrittenField) : Spans field.encode field.read := by
  have hkey := key_written field
  have declared : field.number ≠ 0 := Nat.ne_of_gt field.declared.1
  obtain ⟨number, hdeclared, content⟩ := field
  cases content with
  | varint value fits => exact .varint hkey declared (encodeVarint_isVarint fits)
  | fixed64 value width => exact .fixed64 hkey declared width
  | bytes value fits => exact .bytes hkey declared (encodeVarint_isVarint fits)
  | fixed32 value width => exact .fixed32 hkey declared width

theorem parseFields_encodeFields (fields : List WrittenField) :
    parseFields (encodeFields fields) = .ok (fields.map WrittenField.read) := by
  refine parseFields_iff_partition.mpr ⟨fields.map WrittenField.encode, rfl, ?_⟩
  rw [List.forall₂_map_left_iff, List.forall₂_map_right_iff]
  exact List.forall₂_same.mpr fun field _ => encode_spans field

theorem parseFieldsFuel_stable {fuel fuel' : Nat} {input : List UInt8}
    (enough : input.length ≤ fuel) (enough' : input.length ≤ fuel') :
    parseFieldsFuel fuel input = parseFieldsFuel fuel' input := by
  induction fuel generalizing fuel' input with
  | zero =>
    obtain rfl : input = [] := List.length_eq_zero_iff.mp (by omega)
    cases fuel' <;> rfl
  | succ fuel ih =>
    cases input with
    | nil => cases fuel' <;> rfl
    | cons byte input =>
      cases fuel' with
      | zero => simp at enough'
      | succ fuel' =>
        simp only [parseFieldsFuel]
        cases hread : readField (byte :: input) with
        | error e => rfl
        | ok out =>
          have hshorter := readField_consumes hread
          simp only [List.length_cons] at enough enough' hshorter
          have hrest := @ih fuel' out.2 (by omega) (by omega)
          simp only [bind, Except.bind, hrest]

/-- Writing and then walking gives the fields back, a fixed-width value left out;
the walk ends on every input, and it succeeds on what fields partition. -/
theorem walk_undoes_writing :
    (∀ fields : List WrittenField,
      parseFields (encodeFields fields) = .ok (fields.map WrittenField.read)) ∧
    (∀ (value : UInt64) (rest : List UInt8),
      takeVarint (encodeVarint value.toNat ++ rest) = .ok (value.toNat, rest)) ∧
    ∀ input : List UInt8,
      Returns (parseFields input) ∧
      (∀ more, parseFieldsFuel (input.length + more) input = parseFields input) ∧
      ∀ fields, parseFields input = .ok fields ↔
        ∃ pieces, pieces.flatten = input ∧ List.Forall₂ Spans pieces fields := by
  refine ⟨parseFields_encodeFields, fun value rest => ?_, fun input => ⟨?_, fun more => ?_, ?_⟩⟩
  · exact takeVarint_append (encodeVarint_isVarint value.toNat_lt) rest
  · exact parseFields_returns input
  · exact parseFieldsFuel_stable (Nat.le_add_right _ _) (Nat.le_refl _)
  · exact fun fields => parseFields_iff_partition

/-- Field 1 with four bytes of content. -/
def sampleFixed (first : UInt8) : WrittenField :=
  ⟨1, by decide, .fixed32 [first, 0, 0, 0] rfl⟩

/-- Two values of four bytes are read as the same field. -/
theorem fixed_width_not_kept :
    parseFields (encodeFields [sampleFixed 0]) = .ok [⟨1, .other⟩] ∧
    parseFields (encodeFields [sampleFixed 1]) = .ok [⟨1, .other⟩] ∧
    ¬∃ back : List Field → List WrittenField,
      ∀ fields, (parseFields (encodeFields fields)).map back = .ok fields := by
  have hzero := parseFields_encodeFields [sampleFixed 0]
  have hone := parseFields_encodeFields [sampleFixed 1]
  refine ⟨hzero, hone, ?_⟩
  rintro ⟨back, hback⟩
  have hfirst := hback [sampleFixed 0]
  have hsecond := hback [sampleFixed 1]
  rw [hzero] at hfirst
  rw [hone] at hsecond
  have hsame : [sampleFixed 0] = [sampleFixed 1] := Except.ok.inj (hfirst.symm.trans hsecond)
  exact absurd hsame (by decide)

end TronFields

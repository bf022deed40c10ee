import TinyWallet.Tron.Proto

/-!
# The node's protobuf runtime

The decoder a Tron node runs over `raw_data`, as far as it is assumed here: a
field key is a varint truncated to 32 bits, unknown fields are skipped, and the
last occurrence of a singular field wins, at every nesting level. It is not
code of the repository. A field whose wire type is not the schema's counts as
unknown, and bits beyond 64 of a varint are dropped rather than refused.
-/

namespace TronReference

open TronProto

def takeVarintAt (shift value : Nat) : List UInt8 → Option (Nat × List UInt8)
  | [] => none
  | byte :: rest =>
    if 63 < shift then none
    else
      let value := value ||| ((byte.toNat &&& 0x7f) <<< shift) % 2 ^ 64
      if byte.toNat &&& 0x80 = 0 then some (value, rest)
      else takeVarintAt (shift + 7) value rest

def takeVarint (input : List UInt8) : Option (Nat × List UInt8) := takeVarintAt 0 0 input

def takeExact (input : List UInt8) (length : Nat) : Option (List UInt8 × List UInt8) :=
  if input.length < length then none else some (input.take length, input.drop length)

def readField (input : List UInt8) : Option (Field × List UInt8) := do
  let (key, input) ← takeVarint input
  let tag := key % 2 ^ 32
  if tag >>> 3 = 0 then none
  else match tag &&& 7 with
    | 0 => (takeVarint input).map fun (value, rest) => (⟨tag >>> 3, .varint value⟩, rest)
    | 1 => (takeExact input 8).map fun (_, rest) => (⟨tag >>> 3, .other⟩, rest)
    | 2 => do
      let (length, input) ← takeVarint input
      (takeExact input length).map fun (value, rest) => (⟨tag >>> 3, .bytes value⟩, rest)
    | 5 => (takeExact input 4).map fun (_, rest) => (⟨tag >>> 3, .other⟩, rest)
    | _ => none

def readFieldsFuel : Nat → List UInt8 → Option (List Field)
  | _, [] => some []
  | 0, _ :: _ => none
  | fuel + 1, byte :: input => do
    let (field, rest) ← readField (byte :: input)
    let fields ← readFieldsFuel fuel rest
    some (field :: fields)

def readFields (input : List UInt8) : Option (List Field) := readFieldsFuel input.length input

def bytesOf (number : Nat) (fields : List Field) : List (List UInt8) :=
  fields.filterMap fun field =>
    if field.number = number then
      match field.value with
      | .bytes value => some value
      | _ => none
    else none

def varintsOf (number : Nat) (fields : List Field) : List Nat :=
  fields.filterMap fun field =>
    if field.number = number then
      match field.value with
      | .varint value => some value
      | _ => none
    else none

/-- The last occurrence of a singular field wins. -/
def lastBytes (number : Nat) (fields : List Field) : Option (List UInt8) :=
  (bytesOf number fields).getLast?

def lastVarint (number : Nat) (fields : List Field) : Option Nat :=
  (varintsOf number fields).getLast?

/-- `Transaction.Contract` with its `google.protobuf.Any` opened. -/
structure Contract where
  kind : Nat
  typeUrl : List UInt8
  payload : List UInt8
deriving DecidableEq, Repr

def readContract (bytes : List UInt8) : Option Contract := do
  let fields ← readFields bytes
  let any ← readFields ((lastBytes 2 fields).getD [])
  some
    { kind := (lastVarint 1 fields).getD 0 % 2 ^ 32
      typeUrl := (lastBytes 1 any).getD []
      payload := (lastBytes 2 any).getD [] }

/-- `Transaction.raw.contract`, the one repeated field of the schema. -/
def contracts (raw : List UInt8) : Option (List Contract) := do
  let fields ← readFields raw
  (bytesOf 11 fields).mapM readContract

structure TransferContract where
  toAddress : List UInt8
  amount : Nat
deriving DecidableEq, Repr

def TransferContract.ofFields (fields : List Field) : TransferContract where
  toAddress := (lastBytes 2 fields).getD []
  amount := (lastVarint 3 fields).getD 0

structure TriggerSmartContract where
  ownerAddress : List UInt8
  contractAddress : List UInt8
  callValue : Nat
  data : List UInt8
  callTokenValue : Nat
  tokenId : Nat
deriving DecidableEq, Repr

def TriggerSmartContract.ofFields (fields : List Field) : TriggerSmartContract where
  ownerAddress := (lastBytes 1 fields).getD []
  contractAddress := (lastBytes 2 fields).getD []
  callValue := (lastVarint 3 fields).getD 0
  data := (lastBytes 4 fields).getD []
  callTokenValue := (lastVarint 5 fields).getD 0
  tokenId := (lastVarint 6 fields).getD 0

theorem bytesOf_eq_filter (number : Nat) (fields : List Field) :
    bytesOf number fields = bytesOf number (fields.filter (·.number = number)) := by
  simp only [bytesOf, List.filterMap_filter]
  congr 1
  funext field
  by_cases h : field.number = number <;> simp [h]

theorem varintsOf_eq_filter (number : Nat) (fields : List Field) :
    varintsOf number fields = varintsOf number (fields.filter (·.number = number)) := by
  simp only [varintsOf, List.filterMap_filter]
  congr 1
  funext field
  by_cases h : field.number = number <;> simp [h]

theorem bytesOf_of_only {number : Nat} {fields : List Field} {value : List UInt8}
    (h : fields.filter (·.number = number) = [⟨number, .bytes value⟩]) :
    bytesOf number fields = [value] := by
  rw [bytesOf_eq_filter, h]
  simp [bytesOf]

theorem lastBytes_of_only {number : Nat} {fields : List Field} {value : List UInt8}
    (h : fields.filter (·.number = number) = [⟨number, .bytes value⟩]) :
    lastBytes number fields = some value := by
  simp [lastBytes, bytesOf_of_only h]

theorem lastVarint_of_only {number : Nat} {fields : List Field} {value : Nat}
    (h : fields.filter (·.number = number) = [⟨number, .varint value⟩]) :
    lastVarint number fields = some value := by
  rw [lastVarint, varintsOf_eq_filter, h]
  simp [varintsOf]

theorem lastVarint_of_none {number : Nat} {fields : List Field}
    (h : fields.filter (·.number = number) = []) : lastVarint number fields = none := by
  rw [lastVarint, varintsOf_eq_filter, h]
  simp [varintsOf]

theorem takeVarintAt_of_ok {input rest : List UInt8} {shift value key : Nat}
    (hseven : shift % 7 = 0) (h : TronProto.takeVarintAt shift value input = .ok (key, rest)) :
    takeVarintAt shift value input = some (key, rest) := by
  induction input generalizing shift value with
  | nil =>
    simp only [TronProto.takeVarintAt] at h
    split at h <;> cases h
  | cons byte input ih =>
    simp only [TronProto.takeVarintAt] at h
    split at h
    · cases h
    next hshift =>
    split at h
    · cases h
    next hlast =>
    have hpart : byte.toNat &&& 0x7f < 2 ^ 7 := Nat.and_lt_two_pow _ (by decide)
    -- the accepted part never reaches past bit 63
    have hfits : (byte.toNat &&& 0x7f) <<< shift < 2 ^ 64 := by
      rw [Nat.shiftLeft_eq]
      by_cases hend : shift = 63
      · have : byte.toNat &&& 0x7f ≤ 1 := by
          by_contra hgt
          exact hlast ⟨hend, by omega⟩
        rw [hend]
        omega
      · have hle : shift ≤ 56 := by omega
        calc (byte.toNat &&& 0x7f) * 2 ^ shift
            ≤ (2 ^ 7 - 1) * 2 ^ 56 :=
              Nat.mul_le_mul (by omega) (Nat.pow_le_pow_right (by decide) hle)
          _ < 2 ^ 64 := by decide
    simp only [takeVarintAt, if_neg hshift, Nat.mod_eq_of_lt hfits]
    split at h
    · next hdone =>
      cases h
      simp [hdone]
    · next hmore =>
      simp only [hmore, if_false]
      exact ih (by omega) h

theorem takeVarint_of_ok {input rest : List UInt8} {key : Nat}
    (h : TronProto.takeVarint input = .ok (key, rest)) :
    takeVarint input = some (key, rest) :=
  takeVarintAt_of_ok (by decide) h

theorem takeExact_of_le {input : List UInt8} {length : Nat} (h : length ≤ input.length) :
    takeExact input length = some (input.take length, input.drop length) := by
  simp [takeExact, Nat.not_lt.mpr h]

theorem tag_wire (key : Nat) : key % 2 ^ 32 &&& 7 = key &&& 7 := by
  rw [Nat.and_two_pow_sub_one_eq_mod _ 3, Nat.and_two_pow_sub_one_eq_mod _ 3]
  omega

/-- What the node makes of a field: the key is cut to 32 bits, the value stays. -/
def seen (field : Field) : Field := ⟨field.number % 2 ^ 29, field.value⟩

theorem tag_number (key : Nat) : (key % 2 ^ 32) >>> 3 = (key >>> 3) % 2 ^ 29 := by
  rw [Nat.shiftRight_eq_div_pow, Nat.shiftRight_eq_div_pow]
  omega

theorem seen_of_small {field : Field} (small : field.number < 2 ^ 29) : seen field = field := by
  rw [seen, Nat.mod_eq_of_lt small]

/-- The two readers take the same bytes, and the node sees the number cut. -/
theorem readField_of_ok {input rest : List UInt8} {field : Field}
    (h : TronProto.readField input = .ok (field, rest)) (nonzero : field.number % 2 ^ 29 ≠ 0) :
    readField input = some (seen field, rest) := by
  obtain ⟨key, body, hkey, _, hnumber, hvalue⟩ := readField_ok h
  rw [hnumber] at nonzero
  have hfield : seen field = ⟨(key >>> 3) % 2 ^ 29, field.value⟩ := by rw [seen, hnumber]
  simp only [readField, takeVarint_of_ok hkey, Option.bind_eq_bind, Option.bind_some, tag_number,
    tag_wire, if_neg nonzero]
  rcases hvalue with ⟨hwire, v, hv, hval⟩ | ⟨hwire, hlen, hrest, hval⟩ |
    ⟨hwire, n, tail, hn, hlen, hval, hrest⟩ | ⟨hwire, hlen, hrest, hval⟩
  · rw [hfield, hval, hwire]
    simp [takeVarint_of_ok hv]
  · rw [hfield, hval, hwire, hrest]
    simp [takeExact_of_le hlen]
  · rw [hfield, hval, hwire, hrest]
    simp [takeVarint_of_ok hn, takeExact_of_le hlen]
  · rw [hfield, hval, hwire, hrest]
    simp [takeExact_of_le hlen]

/-- A number that is cut to zero is no field. -/
theorem readField_refused {input rest : List UInt8} {field : Field}
    (h : TronProto.readField input = .ok (field, rest)) (zero : field.number % 2 ^ 29 = 0) :
    readField input = none := by
  obtain ⟨key, body, hkey, _, hnumber, _⟩ := readField_ok h
  rw [hnumber] at zero
  simp only [readField, takeVarint_of_ok hkey, Option.bind_eq_bind, Option.bind_some, tag_number,
    if_pos zero]

theorem readFieldsFuel_of_parses {fuel : Nat} {input : List UInt8} {fields : List Field}
    (parses : Parses input fields) (enough : input.length ≤ fuel)
    (nonzero : ∀ field ∈ fields, field.number % 2 ^ 29 ≠ 0) :
    readFieldsFuel fuel input = some (fields.map seen) := by
  induction parses generalizing fuel with
  | nil => cases fuel <;> rfl
  | @cons input rest field fields read tail ih =>
    have hlen := readField_consumes read
    cases fuel with
    | zero => omega
    | succ fuel =>
      cases input with
      | nil => exact absurd read readField_nil
      | cons byte input =>
        have hhead := readField_of_ok read (nonzero field List.mem_cons_self)
        have htail := @ih fuel (by omega)
          (fun f hf => nonzero f (List.mem_cons_of_mem field hf))
        simp [readFieldsFuel, hhead, htail]

/-- Where no number is cut to zero, the node sees every field. -/
theorem readFields_of_parses {input : List UInt8} {fields : List Field}
    (parses : Parses input fields) (nonzero : ∀ field ∈ fields, field.number % 2 ^ 29 ≠ 0) :
    readFields input = some (fields.map seen) :=
  readFieldsFuel_of_parses parses (Nat.le_refl _) nonzero

theorem readFieldsFuel_nonzero {fuel : Nat} {input : List UInt8} {fields others : List Field}
    (parses : Parses input fields) (h : readFieldsFuel fuel input = some others) :
    ∀ field ∈ fields, field.number % 2 ^ 29 ≠ 0 := by
  induction parses generalizing fuel others with
  | nil => simp
  | @cons input rest field fields read tail ih =>
    cases input with
    | nil => exact absurd read readField_nil
    | cons byte input =>
      cases fuel with
      | zero => cases h
      | succ fuel =>
        simp only [readFieldsFuel, Option.bind_eq_bind, Option.bind_eq_some_iff] at h
        obtain ⟨⟨head, tail'⟩, hhead, others', hothers, _⟩ := h
        have hfield : field.number % 2 ^ 29 ≠ 0 := by
          intro hzero
          rw [readField_refused read hzero] at hhead
          cases hhead
        rw [readField_of_ok read hfield] at hhead
        obtain ⟨-, rfl⟩ := Prod.mk.inj (Option.some.inj hhead)
        intro other hother
        rcases List.mem_cons.mp hother with rfl | hmem
        · exact hfield
        · exact ih hothers other hmem

theorem readFields_nonzero {input : List UInt8} {fields others : List Field}
    (parses : Parses input fields) (h : readFields input = some others) :
    (∀ field ∈ fields, field.number % 2 ^ 29 ≠ 0) ∧ others = fields.map seen := by
  have hnonzero := readFieldsFuel_nonzero parses h
  exact ⟨hnonzero, Option.some.inj (h.symm.trans (readFields_of_parses parses hnonzero))⟩

theorem number_ne_zero {input : List UInt8} {fields : List Field}
    (parses : Parses input fields) : ∀ field ∈ fields, field.number ≠ 0 := by
  induction parses with
  | nil => simp
  | @cons input rest field fields read tail ih =>
    obtain ⟨key, _, _, hzero, hnumber, _⟩ := readField_ok read
    intro other hother
    rcases List.mem_cons.mp hother with rfl | hmem
    · rw [hnumber]
      exact hzero
    · exact ih other hmem

/-- Where every field number fits the schema, the two decoders see one list. -/
theorem readFields_of_small {input : List UInt8} {fields : List Field}
    (parses : Parses input fields) (small : ∀ field ∈ fields, field.number < 2 ^ 29) :
    readFields input = some fields := by
  have hseen : fields.map seen = fields := by
    calc fields.map seen = fields.map id :=
          List.map_congr_left fun field hfield => seen_of_small (small field hfield)
      _ = fields := List.map_id _
  have hread := readFields_of_parses parses (by
    intro field hfield
    rw [Nat.mod_eq_of_lt (small field hfield)]
    exact number_ne_zero parses field hfield)
  rwa [hseen] at hread

theorem readField_number_lt {input rest : List UInt8} {field : Field}
    (h : readField input = some (field, rest)) : field.number < 2 ^ 29 := by
  simp only [readField, Option.bind_eq_bind, Option.bind_eq_some_iff] at h
  obtain ⟨⟨key, body⟩, _, h⟩ := h
  have htag : (key % 2 ^ 32) >>> 3 < 2 ^ 29 := by
    rw [Nat.shiftRight_eq_div_pow]
    omega
  split at h
  · cases h
  split at h
  · obtain ⟨_, _, hfield⟩ := Option.map_eq_some_iff.mp h
    cases hfield
    exact htag
  · obtain ⟨_, _, hfield⟩ := Option.map_eq_some_iff.mp h
    cases hfield
    exact htag
  · obtain ⟨_, _, h⟩ := Option.bind_eq_some_iff.mp h
    obtain ⟨_, _, hfield⟩ := Option.map_eq_some_iff.mp h
    cases hfield
    exact htag
  · obtain ⟨_, _, hfield⟩ := Option.map_eq_some_iff.mp h
    cases hfield
    exact htag
  · cases h

theorem readFieldsFuel_number_lt {fuel : Nat} {input : List UInt8} {fields : List Field}
    (h : readFieldsFuel fuel input = some fields) :
    ∀ field ∈ fields, field.number < 2 ^ 29 := by
  induction fuel generalizing input fields with
  | zero =>
    cases input with
    | nil => cases h; simp
    | cons byte input => cases h
  | succ fuel ih =>
    cases input with
    | nil => cases h; simp
    | cons byte input =>
      simp only [readFieldsFuel, Option.bind_eq_bind, Option.bind_eq_some_iff] at h
      obtain ⟨⟨head, rest⟩, hhead, tail, htail, h⟩ := h
      cases h
      intro field hfield
      rcases List.mem_cons.mp hfield with rfl | hfield
      · exact readField_number_lt hhead
      · exact ih htail field hfield

/-- Truncating the key leaves 29 bits of field number. -/
theorem readFields_number_lt {input : List UInt8} {fields : List Field}
    (h : readFields input = some fields) : ∀ field ∈ fields, field.number < 2 ^ 29 :=
  readFieldsFuel_number_lt h

end TronReference

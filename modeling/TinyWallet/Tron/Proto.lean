import TinyWallet.Address

/-!
# The protobuf sliver of a Tron transaction

`parse_fields` and its singular accessors. The parser is structural: it
recovers field numbers and raw values of one flat message, refuses truncated
input, field number zero, wire types 3 and 4 and varints that overrun 64 bits,
and leaves nested messages as byte runs. A length is a 64-bit `usize`, so the
conversion from the varint never fails here.
-/

namespace TronProto

open RustText

inductive Error where
  | address (e : Address.Error)
  | invalidField (field reason : String)
  | untrustedResponse (reason : String)
deriving DecidableEq, Repr

/-- The `Display` text of an error. -/
def Error.text : Error → String
  | .address e => e.text
  | .invalidField field reason => "invalid transaction field '" ++ field ++ "': " ++ reason
  | .untrustedResponse reason => "untrusted node response: " ++ reason

abbrev Outcome (α : Type) := Except (Failure Error) α

def fail {α : Type} (e : Error) : Outcome α := .error (.error e)

def invalid (reason : String) : Error := .invalidField "protobuf" reason

/-- Fixed-width values are consumed and not decoded. -/
inductive Value where
  | varint (value : Nat)
  | bytes (value : List UInt8)
  | other
deriving DecidableEq, Repr

structure Field where
  number : Nat
  value : Value
deriving DecidableEq, Repr

/-- The loop of `encode_varint`. A `u64` has at most ten groups of seven bits. -/
def encodeVarintFuel : Nat → Nat → List UInt8
  | 0, _ => []
  | fuel + 1, value =>
    if value >>> 7 = 0 then [UInt8.ofNat (value &&& 0x7f)]
    else UInt8.ofNat (value &&& 0x7f ||| 0x80) :: encodeVarintFuel fuel (value >>> 7)

def encodeVarint (value : Nat) : List UInt8 := encodeVarintFuel 10 value

/-- The loop of `take_varint` from `shift` on, with the bits read so far. -/
def takeVarintAt (shift value : Nat) : List UInt8 → Outcome (Nat × List UInt8)
  | [] =>
    if 63 < shift then fail (invalid "varint is too long") else fail (invalid "truncated varint")
  | byte :: rest =>
    if 63 < shift then fail (invalid "varint is too long")
    -- at shift 63 only one bit is left
    else if shift = 63 ∧ 1 < byte.toNat &&& 0x7f then fail (invalid "varint overflows u64")
    else if byte.toNat &&& 0x80 = 0 then .ok (value ||| (byte.toNat &&& 0x7f) <<< shift, rest)
    else takeVarintAt (shift + 7) (value ||| (byte.toNat &&& 0x7f) <<< shift) rest

def takeVarint (input : List UInt8) : Outcome (Nat × List UInt8) := takeVarintAt 0 0 input

def takeExact (input : List UInt8) (length : Nat) : Outcome (List UInt8 × List UInt8) :=
  if input.length < length then fail (invalid "truncated field")
  else .ok (input.take length, input.drop length)

/-- One turn of the loop of `parse_fields`. -/
def readField (input : List UInt8) : Outcome (Field × List UInt8) := do
  let (key, input) ← takeVarint input
  if key >>> 3 = 0 then fail (invalid "contains field zero")
  else match key &&& 7 with
    | 0 => do
      let (value, rest) ← takeVarint input
      .ok (⟨key >>> 3, .varint value⟩, rest)
    | 1 => do
      let (_, rest) ← takeExact input 8
      .ok (⟨key >>> 3, .other⟩, rest)
    | 2 => do
      let (length, input) ← takeVarint input
      let (value, rest) ← takeExact input length
      .ok (⟨key >>> 3, .bytes value⟩, rest)
    | 5 => do
      let (_, rest) ← takeExact input 4
      .ok (⟨key >>> 3, .other⟩, rest)
    | wire => fail (invalid ("unsupported wire type " ++ toString wire))

/-- Every turn consumes a byte, so the input's length is fuel enough and the
panic marker is never returned: see `parseFields_ok_iff`. -/
def parseFieldsFuel : Nat → List UInt8 → Outcome (List Field)
  | _, [] => .ok []
  | 0, _ :: _ => .error .panic
  | fuel + 1, byte :: input => do
    let (field, rest) ← readField (byte :: input)
    let fields ← parseFieldsFuel fuel rest
    .ok (field :: fields)

def parseFields (input : List UInt8) : Outcome (List Field) :=
  parseFieldsFuel input.length input

def single (fields : List Field) (number : Nat) (name : String) : Outcome Value :=
  match fields.filter (·.number = number) with
  | [] => fail (invalid ("is missing " ++ name))
  | [field] => .ok field.value
  | _ => fail (invalid ("repeats singular field " ++ name))

def wrongWireType (name : String) : Error :=
  invalid ("field " ++ name ++ " has the wrong wire type")

def oneBytes (fields : List Field) (number : Nat) (name : String) : Outcome (List UInt8) := do
  match ← single fields number name with
  | .bytes value => .ok value
  | _ => fail (wrongWireType name)

def optionalVarint (fields : List Field) (number : Nat) (name : String) : Outcome (Option Nat) :=
  match fields.filter (·.number = number) with
  | [] => .ok none
  | [field] => match field.value with
    | .varint value => .ok (some value)
    | _ => fail (wrongWireType name)
  | _ => fail (invalid ("repeats singular field " ++ name))

def oneVarint (fields : List Field) (number : Nat) (name : String) : Outcome Nat := do
  match ← optionalVarint fields number name with
  | some value => .ok value
  | none => fail (invalid ("is missing " ++ name))

/-- The fields of `input`, one read after the other until nothing is left. -/
inductive Parses : List UInt8 → List Field → Prop
  | nil : Parses [] []
  | cons {input rest : List UInt8} {field : Field} {fields : List Field}
      (read : readField input = .ok (field, rest)) (tail : Parses rest fields) :
      Parses input (field :: fields)

theorem takeVarintAt_consumes {input rest : List UInt8} {shift value key : Nat}
    (h : takeVarintAt shift value input = .ok (key, rest)) : rest.length < input.length := by
  induction input generalizing shift value with
  | nil =>
    simp only [takeVarintAt] at h
    split at h <;> cases h
  | cons byte input ih =>
    simp only [takeVarintAt] at h
    split at h
    · cases h
    split at h
    · cases h
    split at h
    · cases h
      simp
    · have := ih h
      simp only [List.length_cons]
      omega

theorem takeVarint_consumes {input rest : List UInt8} {key : Nat}
    (h : takeVarint input = .ok (key, rest)) : rest.length < input.length :=
  takeVarintAt_consumes h

theorem takeExact_ok {input value rest : List UInt8} {length : Nat}
    (h : takeExact input length = .ok (value, rest)) :
    length ≤ input.length ∧ value = input.take length ∧ rest = input.drop length := by
  simp only [takeExact] at h
  split at h
  · cases h
  · cases h
    exact ⟨by omega, rfl, rfl⟩

/-- One successful read: the key, and the value its wire type announces. -/
theorem readField_ok {input rest : List UInt8} {field : Field}
    (h : readField input = .ok (field, rest)) :
    ∃ key body, takeVarint input = .ok (key, body) ∧ key >>> 3 ≠ 0 ∧ field.number = key >>> 3 ∧
      ((key &&& 7 = 0 ∧ ∃ v, takeVarint body = .ok (v, rest) ∧ field.value = .varint v) ∨
       (key &&& 7 = 1 ∧ 8 ≤ body.length ∧ rest = body.drop 8 ∧ field.value = .other) ∨
       (key &&& 7 = 2 ∧ ∃ n tail, takeVarint body = .ok (n, tail) ∧ n ≤ tail.length ∧
          field.value = .bytes (tail.take n) ∧ rest = tail.drop n) ∨
       (key &&& 7 = 5 ∧ 4 ≤ body.length ∧ rest = body.drop 4 ∧ field.value = .other)) := by
  obtain ⟨⟨key, body⟩, hkey, h⟩ := bind_ok_iff.mp h
  refine ⟨key, body, hkey, ?_⟩
  by_cases hzero : key >>> 3 = 0
  · simp only [hzero, if_true] at h
    cases h
  simp only [if_neg hzero] at h
  refine ⟨hzero, ?_⟩
  split at h
  · next hwire =>
    obtain ⟨⟨v, r⟩, hv, h⟩ := bind_ok_iff.mp h
    cases h
    exact ⟨rfl, Or.inl ⟨hwire, v, hv, rfl⟩⟩
  · next hwire =>
    obtain ⟨⟨v, r⟩, hv, h⟩ := bind_ok_iff.mp h
    obtain ⟨hlen, _, hrest⟩ := takeExact_ok hv
    cases h
    exact ⟨rfl, Or.inr (Or.inl ⟨hwire, hlen, hrest, rfl⟩)⟩
  · next hwire =>
    obtain ⟨⟨n, tail⟩, hn, h⟩ := bind_ok_iff.mp h
    obtain ⟨⟨v, r⟩, hv, h⟩ := bind_ok_iff.mp h
    obtain ⟨hlen, hval, hrest⟩ := takeExact_ok hv
    cases h
    exact ⟨rfl, Or.inr (Or.inr (Or.inl ⟨hwire, n, tail, hn, hlen, by rw [hval], hrest⟩))⟩
  · next hwire =>
    obtain ⟨⟨v, r⟩, hv, h⟩ := bind_ok_iff.mp h
    obtain ⟨hlen, _, hrest⟩ := takeExact_ok hv
    cases h
    exact ⟨rfl, Or.inr (Or.inr (Or.inr ⟨hwire, hlen, hrest, rfl⟩))⟩
  · cases h

theorem readField_consumes {input rest : List UInt8} {field : Field}
    (h : readField input = .ok (field, rest)) : rest.length < input.length := by
  obtain ⟨key, body, hkey, _, _, hvalue⟩ := readField_ok h
  have hbody := takeVarint_consumes hkey
  rcases hvalue with ⟨_, v, hv, _⟩ | ⟨_, _, hrest, _⟩ | ⟨_, n, tail, hn, _, _, hrest⟩ |
    ⟨_, _, hrest, _⟩
  · have := takeVarint_consumes hv
    omega
  · rw [hrest, List.length_drop]
    omega
  · have := takeVarint_consumes hn
    rw [hrest, List.length_drop]
    omega
  · rw [hrest, List.length_drop]
    omega

theorem readField_nil {field : Field} {rest : List UInt8} :
    readField [] ≠ .ok (field, rest) := by
  intro h
  have := readField_consumes h
  simp at this

theorem parseFieldsFuel_ok_iff {fuel : Nat} {input : List UInt8} {fields : List Field}
    (enough : input.length ≤ fuel) :
    parseFieldsFuel fuel input = .ok fields ↔ Parses input fields := by
  induction fuel generalizing input fields with
  | zero =>
    have : input = [] := List.length_eq_zero_iff.mp (by omega)
    subst this
    simp only [parseFieldsFuel]
    constructor
    · intro h
      cases h
      exact .nil
    · intro h
      cases h with
      | nil => rfl
      | cons read _ => exact absurd read readField_nil
  | succ fuel ih =>
    cases input with
    | nil =>
      simp only [parseFieldsFuel]
      constructor
      · intro h
        cases h
        exact .nil
      · intro h
        cases h with
        | nil => rfl
        | cons read _ => exact absurd read readField_nil
    | cons byte input =>
      constructor
      · intro h
        obtain ⟨⟨field, rest⟩, hread, h⟩ := bind_ok_iff.mp h
        obtain ⟨tail, htail, h⟩ := bind_ok_iff.mp h
        cases h
        have hlen := readField_consumes hread
        simp only [List.length_cons] at hlen enough
        exact .cons hread ((ih (by omega)).mp htail)
      · intro h
        cases h with
        | cons hread htail =>
          have hlen := readField_consumes hread
          simp only [List.length_cons] at hlen enough
          exact bind_ok_iff.mpr ⟨_, hread, bind_ok_iff.mpr ⟨_, (ih (by omega)).mpr htail, rfl⟩⟩

/-- The parser succeeds exactly on the inputs that fields partition. -/
theorem parseFields_ok_iff {input : List UInt8} {fields : List Field} :
    parseFields input = .ok fields ↔ Parses input fields :=
  parseFieldsFuel_ok_iff (Nat.le_refl _)

theorem single_ok_iff {fields : List Field} {number : Nat} {name : String} {value : Value} :
    single fields number name = .ok value ↔
      fields.filter (·.number = number) = [⟨number, value⟩] := by
  unfold single
  constructor
  · intro h
    split at h
    · cases h
    · next field hfilter =>
      have hmem : field ∈ fields.filter (·.number = number) := by
        rw [hfilter]
        exact List.mem_singleton_self field
      have hnumber : field.number = number := by simpa using (List.mem_filter.mp hmem).2
      have hvalue : field.value = value := Except.ok.inj h
      rw [hfilter, ← hnumber, ← hvalue]
    · cases h
  · intro h
    rw [h]

theorem oneBytes_ok_iff {fields : List Field} {number : Nat} {name : String}
    {value : List UInt8} :
    oneBytes fields number name = .ok value ↔
      fields.filter (·.number = number) = [⟨number, .bytes value⟩] := by
  rw [← @single_ok_iff fields number name, oneBytes, bind_ok_iff]
  constructor
  · rintro ⟨v, hsingle, h⟩
    split at h
    · cases h
      exact hsingle
    · cases h
  · intro h
    exact ⟨_, h, rfl⟩

theorem optionalVarint_some_iff {fields : List Field} {number : Nat} {name : String}
    {value : Nat} :
    optionalVarint fields number name = .ok (some value) ↔
      fields.filter (·.number = number) = [⟨number, .varint value⟩] := by
  rw [← @single_ok_iff fields number name, optionalVarint, single]
  split
  · constructor <;> intro h <;> cases h
  · next field hfilter =>
    constructor
    · intro h
      split at h
      · next hv =>
        cases h
        rw [hv]
      · cases h
    · intro h
      rw [Except.ok.inj h]
  · constructor <;> intro h <;> cases h

theorem optionalVarint_none_iff {fields : List Field} {number : Nat} {name : String} :
    optionalVarint fields number name = .ok none ↔ fields.filter (·.number = number) = [] := by
  unfold optionalVarint
  split
  · next hfilter => simp [hfilter]
  · next field hfilter =>
    constructor
    · intro h
      split at h <;> cases h
    · intro h
      rw [hfilter] at h
      cases h
  · next hone htwo =>
    constructor
    · intro h
      cases h
    · intro h
      exact absurd h hone

theorem oneVarint_ok_iff {fields : List Field} {number : Nat} {name : String} {value : Nat} :
    oneVarint fields number name = .ok value ↔
      fields.filter (·.number = number) = [⟨number, .varint value⟩] := by
  rw [← @optionalVarint_some_iff fields number name, oneVarint, bind_ok_iff]
  constructor
  · rintro ⟨v, hopt, h⟩
    split at h
    · cases h
      exact hopt
    · cases h
  · intro h
    exact ⟨_, h, rfl⟩

end TronProto

import TinyWallet.Library.Numerals
import TinyWallet.Engine.Execution
import TinyWallet.Module.Unsigned

/-!
# What a Tron node can crash

The checks slice the node's text two bytes at a time, at even byte offsets. A
slice that ends inside a character is a panic, so a node that sends one crashes
the wallet; nothing else in the checks can panic, and every walk over the bytes
ends.
-/

namespace TronPanics

open RustText Numerals Wire Engine TronProto TronVerify Tron UnsignedTransactions

/-- The function came back, with a value or with an error. -/
def Returns {ε α : Type} (x : Except (Failure ε) α) : Prop := x ≠ .error .panic

section outcomes

variable {ε ε' α β : Type}

theorem bind_panic_iff {x : Except (Failure ε) α} {f : α → Except (Failure ε) β} :
    (x >>= f) = .error .panic ↔ x = .error .panic ∨ ∃ a, x = .ok a ∧ f a = .error .panic := by
  cases x with
  | error e => simp [bind, Except.bind]
  | ok a => simp [bind, Except.bind]

theorem returns_bind {x : Except (Failure ε) α} {f : α → Except (Failure ε) β} (hx : Returns x)
    (hf : ∀ a, x = .ok a → Returns (f a)) : Returns (x >>= f) := by
  intro h
  rcases bind_panic_iff.mp h with h | ⟨a, ha, h⟩
  · exact hx h
  · exact hf a ha h

theorem returns_ok (a : α) : Returns (.ok a : Except (Failure ε) α) := nofun

theorem returns_fail (e : TronProto.Error) : Returns (fail e : Outcome α) := nofun

theorem mapError_panic_iff {f : Failure ε → Failure ε'} (hf : ∀ e, f e = .panic ↔ e = .panic)
    {x : Except (Failure ε) α} : x.mapError f = .error .panic ↔ x = .error .panic := by
  cases x with
  | error e => simp [Except.mapError, hf]
  | ok a => simp [Except.mapError]

end outcomes

theorem prefixed_panic_iff (text : String) (e : Failure TronProto.Error) :
    prefixed text e = .panic ↔ e = .panic := by
  cases e <;> simp [prefixed]

theorem failedWith_panic_iff (kind : TronProto.Error → BuildFailure)
    (e : Failure TronProto.Error) : failedWith kind e = .panic ↔ e = .panic := by
  cases e <;> simp [failedWith]

/-- Pairs of characters that each read as one byte. -/
inductive HexPairs : List Char → Prop
  | nil : HexPairs []
  | cons {a b : Char} {rest : List Char} {byte : UInt8} (pair : hexPair a b = some byte)
      (tail : HexPairs rest) : HexPairs (a :: b :: rest)

/-- After some pairs of hex digits, the next two bytes end inside a character. -/
def Cuts (body : List Char) : Prop :=
  ∃ before rest, body = before ++ rest ∧ HexPairs before ∧ rest ≠ [] ∧
    ∀ n, byteLen (rest.take n) ≠ 2

/-- The text is sliced inside a character before anything else is found wrong. -/
def CutsCharacter (text : String) : Prop :=
  byteLen (trim text).toList % 2 = 0 ∧ Cuts (trim text).toList

theorem ascii_of_hexPair {a b : Char} {byte : UInt8} (h : hexPair a b = some byte) :
    a.utf8Size = 1 ∧ b.utf8Size = 1 := by
  simp only [hexPair] at h
  split at h
  · next hplus =>
    obtain ⟨d, hd, -⟩ := Option.map_eq_some_iff.mp h
    rw [hplus]
    exact ⟨by decide, ascii_of_hexValue hd⟩
  · split at h
    · next ha hb => exact ⟨ascii_of_hexValue ha, ascii_of_hexValue hb⟩
    · cases h

@[simp] theorem byteLen_cons (c : Char) (cs : List Char) :
    byteLen (c :: cs) = c.utf8Size + byteLen cs := by
  simp [byteLen]

@[simp] theorem byteLen_nil : byteLen [] = 0 := rfl

/-- Where the first pair reads, the cut is further on. -/
theorem cuts_cons_cons_iff {a b : Char} {rest : List Char} {byte : UInt8}
    (pair : hexPair a b = some byte) : Cuts (a :: b :: rest) ↔ Cuts rest := by
  obtain ⟨ha, hb⟩ := ascii_of_hexPair pair
  constructor
  · rintro ⟨before, after, hsplit, hpairs, hsome, hcut⟩
    cases hpairs with
    | nil =>
      rw [List.nil_append] at hsplit
      have htwo := hcut 2
      rw [← hsplit] at htwo
      simp [ha, hb] at htwo
    | cons pair' tail =>
      simp only [List.cons_append, List.cons.injEq] at hsplit
      exact ⟨_, after, hsplit.2.2, tail, hsome, hcut⟩
  · rintro ⟨before, after, rfl, hpairs, hsome, hcut⟩
    exact ⟨a :: b :: before, after, by simp, .cons pair hpairs, hsome, hcut⟩

/-- Where the first two bytes do not read as a pair, they are cut or nothing is. -/
theorem cuts_of_no_pair {cs : List Char}
    (hpair : ∀ a b rest byte, cs = a :: b :: rest → hexPair a b ≠ some byte) :
    Cuts cs ↔ cs ≠ [] ∧ ∀ n, byteLen (cs.take n) ≠ 2 := by
  constructor
  · rintro ⟨before, rest, hsplit, hpairs, hsome, hcut⟩
    cases hpairs with
    | nil =>
      rw [List.nil_append] at hsplit
      subst hsplit
      exact ⟨hsome, hcut⟩
    | cons pair tail => exact absurd pair (hpair _ _ _ _ hsplit)
  · rintro ⟨hsome, hcut⟩
    exact ⟨[], cs, rfl, .nil, hsome, hcut⟩

theorem utf8Size_of_hexPair_ne {a b : Char} (h : a.utf8Size ≠ 1 ∨ b.utf8Size ≠ 1) (byte : UInt8) :
    hexPair a b ≠ some byte := by
  intro hpair
  obtain ⟨ha, hb⟩ := ascii_of_hexPair hpair
  rcases h with h | h
  · exact h ha
  · exact h hb

theorem decodePairs_panic_iff : ∀ cs : List Char, byteLen cs % 2 = 0 →
    (decodePairs cs = .error .panic ↔ Cuts cs)
  | [], _ => by
    simp [decodePairs, cuts_of_no_pair]
  | [a], heven => by
    have hnone : ∀ x y rest byte, [a] = x :: y :: rest → hexPair x y ≠ some byte := by simp
    rw [cuts_of_no_pair hnone]
    rw [byteLen_cons, byteLen_nil] at heven
    by_cases htwo : a.utf8Size = 2
    · simp only [decodePairs, htwo, if_true]
      constructor
      · intro h
        cases h
      · rintro ⟨-, hcut⟩
        exact absurd (hcut 1) (by simp [htwo])
    · have hone : a.utf8Size ≠ 1 := by omega
      simp only [decodePairs, if_neg htwo, if_pos hone, true_iff]
      refine ⟨by simp, fun n => ?_⟩
      cases n with
      | zero => simp
      | succ n => simpa using htwo
  | a :: b :: rest, heven => by
    rw [byteLen_cons, byteLen_cons] at heven
    have hapos := Char.utf8Size_pos a
    have hbpos := Char.utf8Size_pos b
    by_cases htwo : a.utf8Size = 2
    · have hnone : ∀ x y more byte, a :: b :: rest = x :: y :: more → hexPair x y ≠ some byte := by
        rintro x y more byte heq
        cases heq
        exact utf8Size_of_hexPair_ne (.inl (by omega)) byte
      rw [cuts_of_no_pair hnone]
      simp only [decodePairs, htwo, if_true]
      constructor
      · intro h
        cases h
      · rintro ⟨-, hcut⟩
        exact absurd (hcut 1) (by simp [htwo])
    · by_cases hone : a.utf8Size = 1
      · by_cases hb : b.utf8Size = 1
        · cases hpair : hexPair a b with
          | some byte =>
            rw [cuts_cons_cons_iff hpair,
              ← decodePairs_panic_iff rest (by rw [hone, hb] at heven; omega)]
            have hstep : decodePairs (a :: b :: rest) =
                (decodePairs rest >>= fun bytes => .ok (byte :: bytes)) := by
              simp [decodePairs, hone, hb, hpair]
            rw [hstep, bind_panic_iff]
            simp
          | none =>
            have hnone : ∀ x y more byte, a :: b :: rest = x :: y :: more →
                hexPair x y ≠ some byte := by
              rintro x y more byte heq
              cases heq
              simp [hpair]
            rw [cuts_of_no_pair hnone]
            simp only [decodePairs, hone, hb, hpair]
            constructor
            · simp [fail]
            · rintro ⟨-, hcut⟩
              exact absurd (hcut 2) (by simp [hone, hb])
        · have hnone : ∀ x y more byte, a :: b :: rest = x :: y :: more →
              hexPair x y ≠ some byte := by
            rintro x y more byte heq
            cases heq
            exact utf8Size_of_hexPair_ne (.inr hb) byte
          rw [cuts_of_no_pair hnone]
          have hstep : decodePairs (a :: b :: rest) = .error .panic := by
            simp [decodePairs, hone, hb]
          rw [hstep]
          simp only [true_iff]
          refine ⟨by simp, fun n => ?_⟩
          cases n with
          | zero => simp
          | succ n =>
            cases n with
            | zero => simp [hone]
            | succ n =>
              simp only [List.take_succ_cons, byteLen_cons]
              omega
      · have hnone : ∀ x y more byte, a :: b :: rest = x :: y :: more →
            hexPair x y ≠ some byte := by
          rintro x y more byte heq
          cases heq
          exact utf8Size_of_hexPair_ne (.inl hone) byte
        rw [cuts_of_no_pair hnone]
        simp only [decodePairs, if_neg htwo, if_pos hone, true_iff]
        refine ⟨by simp, fun n => ?_⟩
        cases n with
        | zero => simp
        | succ n =>
          simp only [List.take_succ_cons, byteLen_cons]
          omega

theorem decodeHex_panic_iff (text : String) :
    decodeHex text = .error .panic ↔ CutsCharacter text := by
  rw [decodeHex, CutsCharacter]
  by_cases heven : byteLen (trim text).toList % 2 = 0
  · rw [if_neg (not_not.mpr heven), decodePairs_panic_iff _ heven]
    simp [heven]
  · rw [if_pos heven]
    simp [heven, fail]

theorem takeVarintAt_returns (shift value : Nat) (input : List UInt8) :
    Returns (takeVarintAt shift value input) := by
  induction input generalizing shift value with
  | nil =>
    simp only [takeVarintAt]
    split <;> exact returns_fail _
  | cons byte input ih =>
    simp only [takeVarintAt]
    split
    · exact returns_fail _
    split
    · exact returns_fail _
    split
    · exact returns_ok _
    · exact ih _ _

theorem takeVarint_returns (input : List UInt8) : Returns (takeVarint input) :=
  takeVarintAt_returns 0 0 input

theorem takeExact_returns (input : List UInt8) (length : Nat) :
    Returns (takeExact input length) := by
  simp only [takeExact]
  split
  · exact returns_fail _
  · exact returns_ok _

theorem readField_returns (input : List UInt8) : Returns (readField input) := by
  apply returns_bind (takeVarint_returns input)
  rintro ⟨key, body⟩ -
  dsimp only
  split
  · exact returns_fail _
  split
  · exact returns_bind (takeVarint_returns body) fun _ _ => returns_ok _
  · exact returns_bind (takeExact_returns body 8) fun _ _ => returns_ok _
  · apply returns_bind (takeVarint_returns body)
    rintro ⟨length, tail⟩ -
    exact returns_bind (takeExact_returns tail length) fun _ _ => returns_ok _
  · exact returns_bind (takeExact_returns body 4) fun _ _ => returns_ok _
  · exact returns_fail _

/-- The walk ends: every field it reads is shorter than what is left. -/
theorem parseFieldsFuel_returns {fuel : Nat} {input : List UInt8} (enough : input.length ≤ fuel) :
    Returns (parseFieldsFuel fuel input) := by
  induction fuel generalizing input with
  | zero =>
    obtain rfl : input = [] := List.length_eq_zero_iff.mp (by omega)
    exact returns_ok _
  | succ fuel ih =>
    cases input with
    | nil => exact returns_ok _
    | cons byte input =>
      apply returns_bind (readField_returns (byte :: input))
      rintro ⟨field, rest⟩ hread
      have hshorter := readField_consumes hread
      simp only [List.length_cons] at hshorter enough
      exact returns_bind (ih (by omega)) fun _ _ => returns_ok _

theorem parseFields_returns (input : List UInt8) : Returns (parseFields input) :=
  parseFieldsFuel_returns (Nat.le_refl _)

/-- Ten groups of seven bits, the last of one bit, stay inside a `u64`. -/
theorem takeVarintAt_lt {input rest : List UInt8} {shift value key : Nat}
    (aligned : shift % 7 = 0) (below : value < 2 ^ shift)
    (h : takeVarintAt shift value input = .ok (key, rest)) : key < 2 ^ 64 := by
  induction input generalizing shift value with
  | nil =>
    simp only [takeVarintAt] at h
    split at h <;> cases h
  | cons byte input ih =>
    simp only [takeVarintAt] at h
    split at h
    · cases h
    next hshift =>
    split at h
    · cases h
    next hlast =>
    have hpart : byte.toNat &&& 0x7f < 2 ^ 7 := Nat.and_lt_two_pow _ (by decide)
    have hnext : value ||| (byte.toNat &&& 0x7f) <<< shift < 2 ^ (shift + 7) := by
      apply Nat.or_lt_two_pow
      · exact lt_of_lt_of_le below (Nat.pow_le_pow_right (by decide) (by omega))
      · rw [Nat.shiftLeft_eq, Nat.pow_add, Nat.mul_comm]
        exact Nat.mul_lt_mul_of_pos_left hpart (Nat.two_pow_pos shift)
    by_cases htop : shift = 63
    · have hbit : byte.toNat &&& 0x7f ≤ 1 := by
        by_contra hmore
        exact hlast ⟨htop, by omega⟩
      subst htop
      split at h
      · cases h
        apply Nat.or_lt_two_pow
        · exact lt_trans below (by decide)
        · rw [Nat.shiftLeft_eq]
          omega
      · cases input with
        | nil => simp [takeVarintAt, fail] at h
        | cons => simp [takeVarintAt, fail] at h
    · split at h
      · cases h
        exact lt_of_lt_of_le hnext (Nat.pow_le_pow_right (by decide) (by omega))
      · exact ih (by omega) hnext h

theorem takeVarint_lt {input rest : List UInt8} {key : Nat}
    (h : takeVarint input = .ok (key, rest)) : key < 2 ^ 64 :=
  takeVarintAt_lt (by decide) (by decide) h

section accessors

variable (fields rawFields : List Field) (number : Nat) (name : String)

theorem single_returns : Returns (single fields number name) := by
  simp only [single]
  split
  · exact returns_fail _
  · exact returns_ok _
  · exact returns_fail _

theorem oneBytes_returns : Returns (oneBytes fields number name) := by
  apply returns_bind (single_returns fields number name)
  intro value _
  cases value with
  | bytes value => exact returns_ok _
  | varint value => exact returns_fail _
  | other => exact returns_fail _

theorem optionalVarint_returns : Returns (optionalVarint fields number name) := by
  simp only [optionalVarint]
  split
  · exact returns_ok _
  · split
    · exact returns_ok _
    · exact returns_fail _
  · exact returns_fail _

theorem oneVarint_returns : Returns (oneVarint fields number name) := by
  apply returns_bind (optionalVarint_returns fields number name)
  intro value _
  cases value with
  | some value => exact returns_ok _
  | none => exact returns_fail _

theorem parseSingleContract_returns : Returns (parseSingleContract rawFields) := by
  apply returns_bind (oneBytes_returns rawFields _ _)
  intro contract _
  apply returns_bind (parseFields_returns contract)
  intro contractFields _
  apply returns_bind (oneVarint_returns contractFields _ _)
  intro kind _
  apply returns_bind (oneBytes_returns contractFields _ _)
  intro any _
  apply returns_bind (parseFields_returns any)
  intro anyFields _
  apply returns_bind (oneBytes_returns anyFields _ _)
  intro url _
  split
  · exact returns_fail _
  · exact returns_bind (oneBytes_returns anyFields _ _) fun _ _ => returns_ok _

theorem verifyNative_returns (contract : ParsedContract) (recipient : List UInt8)
    (amountSun : Nat) : Returns (verifyNative contract recipient amountSun) := by
  simp only [verifyNative]
  split
  · exact returns_fail _
  apply returns_bind (parseFields_returns contract.payload)
  intro payload _
  apply returns_bind (oneBytes_returns payload _ _)
  intro toAddress _
  split
  · exact returns_fail _
  apply returns_bind (oneVarint_returns payload _ _)
  intro amount _
  split
  · exact returns_fail _
  · exact returns_ok _

theorem checkFeeLimit_returns (feeLimitSun : Option Nat) :
    Returns (checkFeeLimit rawFields feeLimitSun) := by
  apply returns_bind (optionalVarint_returns rawFields _ _)
  intro actual _
  split
  · split
    · exact returns_fail _
    · exact returns_ok _
  · exact returns_ok _

end accessors

/-- A pinned limit only adds a comparison. -/
theorem checkFeeLimit_unpinned {rawFields : List Field} {feeLimitSun : Option Nat}
    (h : checkFeeLimit rawFields feeLimitSun = .ok ()) : checkFeeLimit rawFields none = .ok () := by
  obtain ⟨actual, hactual, -⟩ := bind_ok_iff.mp h
  exact bind_ok_iff.mpr ⟨actual, hactual, rfl⟩

/-- The payload passes every comparison made before the parameter is decoded. -/
structure TriggersContract (rawFields fields : List Field) (kind : Nat) (typeUrl : String)
    (recipient : List UInt8) (feeLimitSun : Option Nat) : Prop where
  kind : kind = contractTypeTriggerSmartContract
  url : endsWith typeUrl ".TriggerSmartContract" = true
  target : fields.filter (·.number = 2) = [⟨2, .bytes recipient⟩]
  no_value : fields.filter (·.number = 3) = [] ∨ fields.filter (·.number = 3) = [⟨3, .varint 0⟩]
  fee : checkFeeLimit rawFields feeLimitSun = .ok ()

theorem callValue_zero_iff {fields : List Field} :
    (∃ callValue, optionalVarint fields 3 "TriggerSmartContract.call_value" = .ok callValue ∧
      callValue.getD 0 = 0) ↔
      fields.filter (·.number = 3) = [] ∨ fields.filter (·.number = 3) = [⟨3, .varint 0⟩] := by
  constructor
  · rintro ⟨callValue, hvalue, hzero⟩
    cases callValue with
    | none => exact .inl (optionalVarint_none_iff.mp hvalue)
    | some value =>
      obtain rfl : value = 0 := hzero
      exact .inr (optionalVarint_some_iff.mp hvalue)
  · rintro (hnone | hzero)
    · exact ⟨none, optionalVarint_none_iff.mpr hnone, rfl⟩
    · exact ⟨some 0, optionalVarint_some_iff.mpr hzero, rfl⟩

theorem verifyTrc20_panic_iff {rawFields : List Field} {contract : ParsedContract}
    {recipient : List UInt8} {parameterHex : String} {feeLimitSun : Option Nat} :
    verifyTrc20 rawFields contract recipient parameterHex feeLimitSun = .error .panic ↔
      CutsCharacter parameterHex ∧ ∃ fields, Parses contract.payload fields ∧
        TriggersContract rawFields fields contract.kind contract.typeUrl recipient feeLimitSun := by
  simp only [verifyTrc20]
  by_cases hkind : contract.kind ≠ contractTypeTriggerSmartContract ∨
      endsWith contract.typeUrl ".TriggerSmartContract" = false
  · rw [if_pos hkind]
    constructor
    · nofun
    · rintro ⟨-, fields, -, triggers⟩
      rcases hkind with hkind | hurl
      · exact absurd triggers.kind hkind
      · rw [triggers.url] at hurl
        cases hurl
  rw [if_neg hkind]
  simp only [not_or, ne_eq, not_not, Bool.not_eq_false] at hkind
  constructor
  · intro h
    rcases bind_panic_iff.mp h with h | ⟨fields, hfields, h⟩
    · exact absurd h (parseFields_returns _)
    rcases bind_panic_iff.mp h with h | ⟨address, haddress, h⟩
    · exact absurd h (oneBytes_returns _ _ _)
    split at h
    · cases h
    next htarget =>
    rcases bind_panic_iff.mp h with h | ⟨callValue, hvalue, h⟩
    · exact absurd h (optionalVarint_returns _ _ _)
    split at h
    · cases h
    next hzero =>
    rcases bind_panic_iff.mp h with h | ⟨_, hfee, h⟩
    · exact absurd h (checkFeeLimit_returns _ _)
    rcases bind_panic_iff.mp h with h | ⟨selector, -, h⟩
    · rw [decodeHex_selector] at h
      cases h
    rcases bind_panic_iff.mp h with h | ⟨parameter, -, h⟩
    · have hcut := (decodeHex_panic_iff parameterHex).mp h
      simp only [ne_eq, not_not] at htarget hzero
      subst htarget
      have hnone := callValue_zero_iff.mp ⟨callValue, hvalue, hzero⟩
      have htarget := oneBytes_ok_iff.mp haddress
      exact ⟨hcut, fields, parseFields_ok_iff.mp hfields, hkind.1, hkind.2, htarget, hnone, hfee⟩
    rcases bind_panic_iff.mp h with h | ⟨data, -, h⟩
    · exact absurd h (oneBytes_returns _ _ _)
    split at h <;> cases h
  · rintro ⟨hcut, fields, hfields, triggers⟩
    obtain ⟨callValue, hvalue, hzero⟩ := callValue_zero_iff.mpr triggers.no_value
    apply bind_panic_iff.mpr
    refine .inr ⟨fields, parseFields_ok_iff.mpr hfields, bind_panic_iff.mpr (.inr ⟨recipient,
      oneBytes_ok_iff.mpr triggers.target, ?_⟩)⟩
    rw [if_neg (by simp)]
    apply bind_panic_iff.mpr
    refine .inr ⟨callValue, hvalue, ?_⟩
    rw [if_neg (by simp [hzero])]
    apply bind_panic_iff.mpr
    refine .inr ⟨(), triggers.fee, bind_panic_iff.mpr (.inr ⟨_, decodeHex_selector, ?_⟩)⟩
    exact bind_panic_iff.mpr (.inl ((decodeHex_panic_iff _).mpr hcut))

/-- The layers of a trigger of the requested contract. -/
def ReachesParameter (raw recipient : List UInt8) (feeLimitSun : Option Nat) : Prop :=
  ∃ layers : Layers raw, TriggersContract layers.rawFields layers.payloadFields layers.kind
    layers.typeUrl recipient feeLimitSun

/-- A parameter of the transfer is sliced inside a character. -/
def ParameterCut (transfer : TronTransfer) : Prop :=
  ∃ parameterHex, transfer = .trc20 parameterHex ∧ CutsCharacter parameterHex

theorem checkContract_panic_iff {raw recipient : List UInt8} {transfer : TronTransfer}
    {feeLimitSun : Option Nat} :
    checkContract raw recipient transfer feeLimitSun = .error .panic ↔
      ParameterCut transfer ∧ ReachesParameter raw recipient feeLimitSun := by
  constructor
  · intro h
    rcases bind_panic_iff.mp h with h | ⟨rawFields, hfields, h⟩
    · exact absurd h (parseFields_returns _)
    rcases bind_panic_iff.mp h with h | ⟨parsed, hparsed, h⟩
    · exact absurd h (parseSingleContract_returns _)
    cases transfer with
    | native amountSun => exact absurd h (verifyNative_returns _ _ _)
    | trc20 parameterHex =>
      obtain ⟨hcut, fields, hparse, triggers⟩ := verifyTrc20_panic_iff.mp h
      obtain ⟨layers, hr, hk, hu, hf⟩ :=
        exists_layers (parseFields_ok_iff.mp hfields) hparsed hparse
      exact ⟨⟨parameterHex, rfl, hcut⟩, layers, by rw [hr, hk, hu, hf]; exact triggers⟩
  · rintro ⟨⟨parameterHex, rfl, hcut⟩, layers, triggers⟩
    apply bind_panic_iff.mpr
    refine .inr ⟨_, parseFields_ok_iff.mpr layers.raw_parses, bind_panic_iff.mpr (.inr
      ⟨_, layers.parseSingleContract_ok, ?_⟩)⟩
    exact verifyTrc20_panic_iff.mpr ⟨hcut, layers.payloadFields, layers.payload_parses, triggers⟩

theorem recomputeTxid_panic_iff (ext : Address.Crates) (rawDataHex : String) :
    recomputeTxid ext rawDataHex = .error .panic ↔ CutsCharacter rawDataHex := by
  rw [recomputeTxid, bind_panic_iff, decodeHex_panic_iff]
  simp

theorem tronDigest_panic_iff (ext : Address.Crates) (rawDataHex : String) :
    tronDigest ext rawDataHex = .error .panic ↔ CutsCharacter rawDataHex := by
  rw [tronDigest, bind_panic_iff, decodeHex_panic_iff]
  simp

/-- The id the node names is the digest of the bytes it sent. -/
def TxidMatches (ext : Address.Crates) (rawDataHex txid : String) (raw : List UInt8) : Prop :=
  decodeHex rawDataHex = .ok raw ∧
    eqIgnoreAsciiCase (hexLower (ext.sha256 raw)) (trim txid) = true

/-- The scan finds the recipient, and decodes the parameter next. -/
def ScanReaches (ext : Address.Crates) (rawDataHex toAddr txid : String) : Prop :=
  (∃ raw, TxidMatches ext rawDataHex txid raw) ∧
    ∃ toHex, Address.Tron.toHex ext toAddr = .ok toHex ∧
      contains (toAsciiLowercase rawDataHex) (toAsciiLowercase toHex) = true

/-- The parse finds a trigger of the requested contract, and decodes the
parameter next. -/
def ParseReaches (ext : Address.Crates) (rawDataHex toAddr txid : String)
    (feeLimitSun : Option Nat) : Prop :=
  ∃ raw recipient, TxidMatches ext rawDataHex txid raw ∧
    Address.Tron.decode ext toAddr = .ok recipient ∧ ReachesParameter raw recipient feeLimitSun

theorem ParseReaches.unpinned {ext : Address.Crates} {rawDataHex toAddr txid : String}
    {feeLimitSun : Option Nat} (h : ParseReaches ext rawDataHex toAddr txid feeLimitSun) :
    ParseReaches ext rawDataHex toAddr txid none := by
  obtain ⟨raw, recipient, hid, hto, layers, triggers⟩ := h
  have hfee := checkFeeLimit_unpinned triggers.fee
  exact ⟨raw, recipient, hid, hto, layers, { triggers with fee := hfee }⟩

theorem addressOutcome_returns {α : Type} (x : Except Address.Error α) :
    Returns (addressOutcome x) := by
  cases x with
  | ok a => exact returns_ok _
  | error e => exact returns_fail _

theorem addressOutcome_ok_iff {α : Type} {x : Except Address.Error α} {a : α} :
    addressOutcome x = .ok a ↔ x = .ok a := by
  cases x with
  | ok b => simp [addressOutcome]
  | error e => simp [addressOutcome, fail]

theorem hexLower_of_toHex {ext : Address.Crates} {toAddr text : String}
    (h : Address.Tron.toHex ext toAddr = .ok text) : ∃ bytes, text = hexLower bytes := by
  simp only [Address.Tron.toHex] at h
  cases hdecode : Address.Tron.decode ext toAddr with
  | ok bytes =>
    rw [hdecode] at h
    exact ⟨bytes, (Except.ok.inj h).symm⟩
  | error e =>
    rw [hdecode] at h
    cases h

theorem recomputeTxid_ok_iff {ext : Address.Crates} {rawDataHex text : String} :
    recomputeTxid ext rawDataHex = .ok text ↔
      ∃ raw, decodeHex rawDataHex = .ok raw ∧ hexLower (ext.sha256 raw) = text := by
  simp only [recomputeTxid, bind_ok_iff, Except.ok.injEq]

theorem verifyTransfer_panic_iff {ext : Address.Crates} {rawDataHex toAddr txid : String}
    {transfer : TronTransfer} :
    verifyTransfer ext rawDataHex toAddr txid transfer = .error .panic ↔
      CutsCharacter rawDataHex ∨
        ParameterCut transfer ∧ ScanReaches ext rawDataHex toAddr txid := by
  rw [verifyTransfer.eq_def, bind_panic_iff, recomputeTxid_panic_iff]
  apply or_congr_right
  constructor
  · rintro ⟨text, hid, h⟩
    obtain ⟨raw, hraw, rfl⟩ := recomputeTxid_ok_iff.mp hid
    split at h
    · cases h
    next hsame =>
    rcases bind_panic_iff.mp h with h | ⟨toHex, hto, h⟩
    · exact absurd h (addressOutcome_returns _)
    split at h
    · cases h
    next hfound =>
    rcases bind_panic_iff.mp h with h | ⟨bytes, -, h⟩
    · rw [hraw] at h
      cases h
    cases transfer with
    | native amountSun =>
      dsimp only at h
      rcases bind_panic_iff.mp h with h | ⟨expected, -, h⟩
      · cases h
      · split at h <;> cases h
    | trc20 parameterHex =>
      dsimp only at h
      rcases bind_panic_iff.mp h with h | ⟨expected, -, h⟩
      · have hcut := (decodeHex_panic_iff parameterHex).mp h
        exact ⟨⟨parameterHex, rfl, hcut⟩, ⟨raw, hraw, by simpa using hsame⟩, toHex,
          addressOutcome_ok_iff.mp hto, by simpa using hfound⟩
      · split at h <;> cases h
  · rintro ⟨⟨parameterHex, rfl, hcut⟩, ⟨raw, hraw, hsame⟩, toHex, hto, hfound⟩
    refine ⟨_, recomputeTxid_ok_iff.mpr ⟨raw, hraw, rfl⟩, ?_⟩
    rw [if_neg (by simp [hsame])]
    apply bind_panic_iff.mpr
    refine .inr ⟨toHex, addressOutcome_ok_iff.mpr hto, ?_⟩
    rw [if_neg (by simp [hfound])]
    apply bind_panic_iff.mpr
    refine .inr ⟨raw, hraw, bind_panic_iff.mpr (.inl ?_)⟩
    exact (decodeHex_panic_iff parameterHex).mpr hcut

theorem verifyContract_panic_iff {ext : Address.Crates} {rawDataHex toAddr txid : String}
    {transfer : TronTransfer} {feeLimitSun : Option Nat} :
    verifyContract ext rawDataHex toAddr txid transfer feeLimitSun = .error .panic ↔
      CutsCharacter rawDataHex ∨
        ParameterCut transfer ∧ ParseReaches ext rawDataHex toAddr txid feeLimitSun := by
  rw [verifyContract, bind_panic_iff, recomputeTxid_panic_iff]
  apply or_congr_right
  constructor
  · rintro ⟨text, hid, h⟩
    obtain ⟨raw, hraw, rfl⟩ := recomputeTxid_ok_iff.mp hid
    split at h
    · cases h
    next hsame =>
    rcases bind_panic_iff.mp h with h | ⟨bytes, hbytes, h⟩
    · rw [hraw] at h
      cases h
    obtain rfl : raw = bytes := Except.ok.inj (hraw.symm.trans hbytes)
    rcases bind_panic_iff.mp h with h | ⟨toHex, hto, h⟩
    · exact absurd h (addressOutcome_returns _)
    rcases bind_panic_iff.mp h with h | ⟨recipient, hrecipient, h⟩
    · -- what `to_hex` wrote is never cut
      obtain ⟨address, rfl⟩ := hexLower_of_toHex (addressOutcome_ok_iff.mp hto)
      rw [decodeHex_hexLower] at h
      cases h
    have hdecode := toHex_decodeHex_ok_iff.mp (bind_ok_iff.mpr ⟨toHex, hto, hrecipient⟩)
    obtain ⟨hcut, hreach⟩ := checkContract_panic_iff.mp h
    exact ⟨hcut, raw, recipient, ⟨hraw, by simpa using hsame⟩, hdecode, hreach⟩
  · rintro ⟨hcut, raw, recipient, ⟨hraw, hsame⟩, hdecode, hreach⟩
    obtain ⟨toHex, hhex, hrecipient⟩ := bind_ok_iff.mp (toHex_decodeHex_ok_iff.mpr hdecode)
    refine ⟨_, recomputeTxid_ok_iff.mpr ⟨raw, hraw, rfl⟩, ?_⟩
    rw [if_neg (by simp [hsame])]
    apply bind_panic_iff.mpr
    refine .inr ⟨raw, hraw, bind_panic_iff.mpr (.inr ⟨toHex, hhex, ?_⟩)⟩
    apply bind_panic_iff.mpr
    exact .inr ⟨recipient, hrecipient, checkContract_panic_iff.mpr ⟨hcut, hreach⟩⟩

/-- Each function that meets the node's answer comes back, and no varint it
reads overruns a `u64`. -/
structure Crashless (host : Host) (rawTx : CreateTransactionResponse) (toAddr : String)
    (transfer : TronTransfer) : Prop where
  txid : Returns (recomputeTxid host.ext rawTx.rawDataHex)
  digest : Returns (tronDigest host.ext rawTx.rawDataHex)
  scan : Returns (verifyTransfer host.ext rawTx.rawDataHex toAddr rawTx.txId transfer)
  parse : ∀ feeLimitSun,
    Returns (verifyContract host.ext rawTx.rawDataHex toAddr rawTx.txId transfer feeLimitSun)
  spec : Returns (tronTransactionSpec host rawTx toAddr transfer)
  build : Returns (buildUnsignedTron host.ext rawTx.rawDataHex toAddr rawTx.txId transfer)
  varint : ∀ input value rest, takeVarint input = .ok (value, rest) → value < 2 ^ 64

/-- The node's text is never sliced inside a character; a parameter that would
be is not reached, by the scan or by the parse. -/
def NoSliceInsideCharacter (ext : Address.Crates) (rawDataHex toAddr txid : String)
    (transfer : TronTransfer) : Prop :=
  ¬CutsCharacter rawDataHex ∧
    (ParameterCut transfer →
      ¬ScanReaches ext rawDataHex toAddr txid ∧ ¬ParseReaches ext rawDataHex toAddr txid none)

theorem verifyContract_returns {ext : Address.Crates} {rawDataHex toAddr txid : String}
    {transfer : TronTransfer} (whole : NoSliceInsideCharacter ext rawDataHex toAddr txid transfer)
    (feeLimitSun : Option Nat) :
    Returns (verifyContract ext rawDataHex toAddr txid transfer feeLimitSun) := by
  intro h
  rcases verifyContract_panic_iff.mp h with hcut | ⟨hcut, hreach⟩
  · exact whole.1 hcut
  · exact (whole.2 hcut).2 hreach.unpinned

/-- The wallet survives a node's answer exactly when no slice of the text ends
inside a character. -/
theorem crashless_iff (host : Host) (rawTx : CreateTransactionResponse) (toAddr : String)
    (transfer : TronTransfer) :
    Crashless host rawTx toAddr transfer ↔
      NoSliceInsideCharacter host.ext rawTx.rawDataHex toAddr rawTx.txId transfer := by
  constructor
  · intro safe
    constructor
    · intro hcut
      exact safe.txid ((recomputeTxid_panic_iff _ _).mpr hcut)
    · intro hcut
      constructor
      · intro hreach
        exact safe.scan (verifyTransfer_panic_iff.mpr (.inr ⟨hcut, hreach⟩))
      · intro hreach
        exact safe.parse none (verifyContract_panic_iff.mpr (.inr ⟨hcut, hreach⟩))
  · intro whole
    have hparse := verifyContract_returns whole
    have htxid : Returns (recomputeTxid host.ext rawTx.rawDataHex) :=
      fun h => whole.1 ((recomputeTxid_panic_iff _ _).mp h)
    have hdigest : Returns (tronDigest host.ext rawTx.rawDataHex) :=
      fun h => whole.1 ((tronDigest_panic_iff _ _).mp h)
    constructor
    · exact htxid
    · exact hdigest
    · intro h
      rcases verifyTransfer_panic_iff.mp h with hcut | ⟨hcut, hreach⟩
      · exact whole.1 hcut
      · exact (whole.2 hcut).1 hreach
    · exact hparse
    · apply returns_bind
      · exact fun h => htxid ((mapError_panic_iff (prefixed_panic_iff _)).mp h)
      intro text _
      apply returns_bind
      · exact fun h => hparse _ ((mapError_panic_iff (prefixed_panic_iff _)).mp h)
      · exact fun _ _ => returns_ok _
    · apply returns_bind
      · exact fun h => hparse _ ((mapError_panic_iff (failedWith_panic_iff _)).mp h)
      intro _ _
      apply returns_bind
      · exact fun h => hdigest ((mapError_panic_iff (failedWith_panic_iff _)).mp h)
      · exact fun _ _ => returns_ok _
    · exact fun _ _ _ h => takeVarint_lt h

/-- Four bytes: the first pair ends inside the euro sign. -/
def euroResponse : CreateTransactionResponse := ⟨"", .null, "a€"⟩

/-- The text a node sent crashes the wallet before any of it is checked. -/
theorem euro_sign_crashes :
    ¬Crashless Execution.sampleHost euroResponse "" (.native 1) ∧
      recomputeTxid Execution.sampleHost.ext euroResponse.rawDataHex = .error .panic ∧
      tronTransactionSpec Execution.sampleHost euroResponse "" (.native 1) = .error .panic := by
  have hpanic : recomputeTxid Execution.sampleHost.ext euroResponse.rawDataHex = .error .panic := by
    decide +kernel
  refine ⟨fun safe => safe.txid hpanic, hpanic, ?_⟩
  rw [tronTransactionSpec, hpanic]
  rfl

end TronPanics

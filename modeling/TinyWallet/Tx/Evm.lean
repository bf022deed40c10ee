import TinyWallet.Address
import TinyWallet.Library.Numerals
import TinyWallet.Library.Rlp

/-!
# Legacy EVM transactions

The encoder, the payload that is hashed and signed, and the signed bytes. Both
are one list of nine byte strings, and the strict reader gets every field back
from them, so a signature commits to the whole transaction and to its chain.
-/

namespace TxEvm

open RustText Numerals Rlp

inductive Error where
  | address (e : Address.Error)
  | invalidField (field reason : String)
  | signing (reason : String)
deriving DecidableEq, Repr

/-- The `Display` text of an error. -/
def Error.text : Error → String
  | .address e => e.text
  | .invalidField field reason => "invalid transaction field '" ++ field ++ "': " ++ reason
  | .signing reason => "signing failed: " ++ reason

abbrev Outcome (α : Type) := Except (Failure Error) α

def fail {α : Type} (e : Error) : Outcome α := .error (.error e)

/-- The slice from the first nonzero byte on, empty when there is none. -/
def stripZeros (bytes : List UInt8) : List UInt8 := bytes.drop (bytes.findIdx (· ≠ 0))

def encodeLength (len : Nat) (offset : UInt8) : List UInt8 :=
  if len ≤ 55 then [offset + UInt8.ofNat len]
  else
    let digits := stripZeros (toBe 8 len)
    (offset + 55 + UInt8.ofNat digits.length) :: digits

def encodeBytes (bytes : List UInt8) : List UInt8 :=
  match bytes with
  | [b] => if b.toNat < 0x80 then [b] else encodeLength 1 0x80 ++ [b]
  | bytes => encodeLength bytes.length 0x80 ++ bytes

def encodeList (items : List (List UInt8)) : List UInt8 :=
  encodeLength items.flatten.length 0xc0 ++ items.flatten

def encodeUint (value : BitVec 128) : List UInt8 := encodeBytes (stripZeros (toBe 16 value.toNat))

def encodeUintBytes (bytes : List UInt8) : List UInt8 := encodeBytes (stripZeros bytes)

/-- A vector holds at most `isize::MAX` bytes. -/
structure LegacyTransaction where
  nonce : BitVec 128
  gasPrice : BitVec 128
  gasLimit : BitVec 128
  toAddr : Option String
  value : BitVec 128
  data : List UInt8
  chainId : BitVec 64
  data_fits : data.length < 2 ^ 63
deriving DecidableEq

/-- The pairs of `decode_hex`: the first pair that does not read ends it, and a
slice that would end inside a character panics. -/
def decodePairs : List Char → Outcome (Option (List UInt8))
  | [] => .ok (some [])
  | a :: rest =>
    if a.utf8Size = 2 then .ok none
    else if a.utf8Size ≠ 1 then .error .panic
    else match rest with
      | [] => .error .panic
      | b :: rest =>
        if b.utf8Size ≠ 1 then .error .panic
        else match hexPair a b with
          | none => .ok none
          | some byte => do
            let bytes ← decodePairs rest
            .ok (bytes.map (byte :: ·))

def decodeHex (body : String) : Outcome (Option (List UInt8)) :=
  if byteLen body.toList % 2 ≠ 0 then .ok none else decodePairs body.toList

def requireHex (decoded : Option (List UInt8)) (toAddr : String) : Outcome (List UInt8) :=
  match decoded with
  | some bytes => .ok bytes
  | none => fail (.invalidField "to" ("not hex: " ++ toAddr))

def addressOutcome {α : Type} : Except Address.Error α → Outcome α
  | .ok a => .ok a
  | .error e => fail (.address e)

namespace LegacyTransaction

/-- The recipient as raw bytes; none for a contract creation. -/
def toBytes (tx : LegacyTransaction) : Outcome (List UInt8) :=
  match tx.toAddr with
  | none => .ok []
  | some toAddr => do
    let validated ← addressOutcome (Address.Evm.validate toAddr)
    let decoded ← decodeHex ((strip "0x" validated).getD validated)
    requireHex decoded toAddr

def baseItems (tx : LegacyTransaction) : Outcome (List (List UInt8)) := do
  let target ← tx.toBytes
  .ok [encodeUint tx.nonce, encodeUint tx.gasPrice, encodeUint tx.gasLimit, encodeBytes target,
    encodeUint tx.value, encodeBytes tx.data]

def signingPayload (tx : LegacyTransaction) : Outcome (List UInt8) := do
  let items ← tx.baseItems
  .ok (encodeList (items ++ [encodeUint (tx.chainId.setWidth 128), encodeUint 0, encodeUint 0]))

/-- The digest is of the payload; the hash function belongs to a crate. -/
def digest (keccak : List UInt8 → List UInt8) (tx : LegacyTransaction) : Outcome (List UInt8) := do
  let payload ← tx.signingPayload
  .ok (keccak payload)

end LegacyTransaction

def recoveryAsU64 (recovery : Int) : Outcome Nat :=
  if recovery < 0 then fail (.signing "negative recovery id") else .ok recovery.toNat

def checkedV (recovery : Nat) (chainId : BitVec 64) : Outcome (BitVec 64) :=
  if 2 ^ 64 ≤ chainId.toNat * 2 ∨ 2 ^ 64 ≤ chainId.toNat * 2 + 35 then
    fail (.invalidField "chain_id" (toString chainId.toNat ++ " overflows EIP-155 v"))
  else if 2 ^ 64 ≤ recovery + (chainId.toNat * 2 + 35) then
    fail (.invalidField "chain_id" "overflows EIP-155 v")
  else .ok (BitVec.ofNat 64 (recovery + (chainId.toNat * 2 + 35)))

def LegacyTransaction.attachSignature (tx : LegacyTransaction) (rs : Vector UInt8 64)
    (recoveryId : UInt8) : Outcome (List UInt8) :=
  if 3 < recoveryId.toNat then
    fail (.signing ("recovery id must be 0..=3, got " ++ toString recoveryId.toNat))
  else do
    let recovery ← recoveryAsU64 recoveryId.toNat
    let v ← checkedV recovery tx.chainId
    let items ← tx.baseItems
    .ok (encodeList (items ++ [encodeUint (v.setWidth 128), encodeUintBytes (rs.toList.take 32),
      encodeUintBytes (rs.toList.drop 32)]))

theorem stripZeros_eq (bytes : List UInt8) : stripZeros bytes = significant bytes := by
  rw [stripZeros, significant, List.dropWhile_eq_drop_findIdx_not]
  simp

theorem encodeLength_header {len : Nat} (offset : UInt8) (fits : len < 2 ^ 64) :
    Header offset len (encodeLength len offset) := by
  by_cases hshort : len ≤ 55
  · rw [encodeLength, if_pos hshort]
    exact .short hshort
  · rw [encodeLength, if_neg hshort]
    dsimp only
    rw [stripZeros_eq]
    have hspelled : fromBe (significant (toBe 8 len)) = len := by
      rw [fromBe_significant, fromBe_toBe, Nat.mod_eq_of_lt (by omega)]
    have hnarrow := significant_length_le (toBe 8 len)
    rw [length_toBe] at hnarrow
    exact .long (not_le.mp hshort) hspelled (head_significant_ne_zero _) hnarrow

theorem encodeBytes_eq (bytes : List UInt8) :
    encodeBytes bytes = if isItself bytes = true then bytes
      else encodeLength bytes.length 0x80 ++ bytes := by
  match bytes with
  | [] => simp [encodeBytes, isItself]
  | [b] => simp [encodeBytes, isItself]
  | _ :: _ :: _ => simp [encodeBytes, isItself]

theorem readItem_encodeBytes {bytes : List UInt8} (fits : bytes.length < 2 ^ 64)
    (rest : List UInt8) : readItem (encodeBytes bytes ++ rest) = some (.text bytes, rest) := by
  rw [encodeBytes_eq]
  by_cases hself : isItself bytes = true
  · rw [if_pos hself]
    exact readItem_itself hself rest
  · rw [if_neg hself]
    exact readItem_text (encodeLength_header 0x80 fits) (by simpa using hself) rest

theorem encodeLength_length_le (len : Nat) (offset : UInt8) :
    (encodeLength len offset).length ≤ 9 := by
  rw [encodeLength]
  split
  · simp
  · have hnarrow := significant_length_le (toBe 8 len)
    rw [length_toBe] at hnarrow
    simp only [stripZeros_eq, List.length_cons]
    omega

theorem encodeBytes_length_le (bytes : List UInt8) :
    (encodeBytes bytes).length ≤ 9 + bytes.length := by
  have hheader := encodeLength_length_le bytes.length 0x80
  rw [encodeBytes_eq]
  split
  · omega
  · rw [List.length_append]
    omega

theorem encodeAll_length_le (texts : List (List UInt8)) :
    (texts.map encodeBytes).flatten.length ≤ 9 * texts.length + texts.flatten.length := by
  induction texts with
  | nil => simp
  | cons text texts ih =>
    have hfirst := encodeBytes_length_le text
    simp only [List.map_cons, List.flatten_cons, List.length_append, List.length_cons]
    omega

/-- A list of strings is read back as the strings. -/
theorem readTexts_encodeList {texts : List (List UInt8)}
    (fits : 9 * texts.length + texts.flatten.length < 2 ^ 64) :
    readTexts (encodeList (texts.map encodeBytes)) = some texts := by
  have hlength := encodeAll_length_le texts
  have hlist := readItem_list (encodeLength_header 0xc0 (lt_of_le_of_lt hlength fits)) []
  rw [List.append_nil] at hlist
  rw [readTexts, encodeList, hlist]
  apply readTextsFuel_flatten _ (Nat.le_refl _)
  intro text hmem rest
  have hpart := (List.sublist_flatten_of_mem hmem).length_le
  exact readItem_encodeBytes (by omega) rest

theorem hexPair_of_digits {a b : Char} {hi lo : Nat} (ha : hexValue a = some hi)
    (hb : hexValue b = some lo) : hexPair a b = some (UInt8.ofNat (16 * hi + lo)) := by
  have hplus : a ≠ '+' := by
    rintro rfl
    cases ha
  rw [hexPair, if_neg hplus, ha, hb]

/-- On hex digits the slices are the digits, and nothing panics. -/
theorem decodePairs_of_hex : ∀ {cs : List Char} {bytes : List UInt8}, hexDecode cs = some bytes →
    decodePairs cs = .ok (some bytes)
  | [], _, h => by
    cases h
    rfl
  | [_], _, h => by cases h
  | a :: b :: rest, _, h => by
    obtain ⟨hi, lo, tail, ha, hb, hrest, rfl⟩ := hexDecode_cons_iff.mp h
    have hone := ascii_of_hexValue ha
    have htwo := ascii_of_hexValue hb
    have htail := decodePairs_of_hex hrest
    simp [decodePairs, hone, htwo, hexPair_of_digits ha hb, htail, bind, Except.bind]

/-- A valid address is twenty bytes. -/
theorem decodeHex_of_valid {address valid : String} (h : Address.Evm.validate address = .ok valid) :
    ∃ bytes, hexDecode (Address.Evm.stripAddress valid).toList = some bytes ∧ bytes.length = 20 ∧
      decodeHex (Address.Evm.stripAddress valid) = .ok (some bytes) := by
  obtain ⟨-, hsize, hdigits⟩ := Address.Evm.validate_spec h
  have hlength := byteLen_of_hex hdigits
  obtain ⟨bytes, hbytes⟩ := hexDecode_of_digits (by omega) hdigits
  have hhalf := hexDecode_length hbytes
  refine ⟨bytes, hbytes, by omega, ?_⟩
  rw [decodeHex, if_neg (by omega), decodePairs_of_hex hbytes]

/-- The recipient is absent, or an address the validator accepts. -/
def LegacyTransaction.ValidTo (tx : LegacyTransaction) : Prop :=
  ∀ toAddr, tx.toAddr = some toAddr → ∃ valid, Address.Evm.validate toAddr = .ok valid

theorem LegacyTransaction.toBytes_of_valid {tx : LegacyTransaction} (valid : tx.ValidTo) :
    ∃ target, tx.toBytes = .ok target ∧ target.length = if tx.toAddr.isSome then 20 else 0 := by
  rw [toBytes]
  cases hto : tx.toAddr with
  | none => exact ⟨[], rfl, rfl⟩
  | some toAddr =>
    obtain ⟨checked, hchecked⟩ := valid toAddr hto
    obtain ⟨bytes, -, hlength, hdecode⟩ := decodeHex_of_valid hchecked
    refine ⟨bytes, ?_, hlength⟩
    dsimp only
    rw [hchecked]
    exact bind_ok_iff.mpr ⟨checked, rfl, bind_ok_iff.mpr ⟨some bytes, hdecode, rfl⟩⟩

/-- The recipient as its text spells it: nothing for a contract creation, else the
twenty bytes whose digits stand in the trimmed text after an optional `0x`. -/
def LegacyTransaction.Targets (tx : LegacyTransaction) (target : List UInt8) : Prop :=
  match tx.toAddr with
  | none => target = []
  | some toAddr => target.length = 20 ∧
      hexDecode (Address.Evm.stripAddress (trim toAddr)).toList = some target

/-- Forty digits are an address. -/
theorem validate_of_hex {toAddr : String} {target : List UInt8} (hlength : target.length = 20)
    (h : hexDecode (Address.Evm.stripAddress (trim toAddr)).toList = some target) :
    Address.Evm.validate toAddr = .ok (trim toAddr) := by
  have hdigits := digits_of_hexDecode h
  have hsize := byteLen_of_hex hdigits
  have hhalf := hexDecode_length h
  have hsome : ¬trim toAddr = "" := by
    intro hempty
    rw [hempty, show Address.Evm.stripAddress "" = "" by decide +kernel] at h
    obtain rfl := Option.some.inj h
    cases hlength
  have hfind : (Address.Evm.stripAddress (trim toAddr)).toList.find?
      (fun c => !isAsciiHexDigit c) = none := by
    simpa [List.find?_eq_none, List.all_eq_true] using hdigits
  have hforty : ¬byteLen (Address.Evm.stripAddress (trim toAddr)).toList ≠ Address.Evm.hexLen := by
    rw [Address.Evm.hexLen]
    omega
  simp only [Address.Evm.validate, if_neg hsome, if_neg hforty, hfind]

/-- The bytes that the code puts into a transaction are those of its recipient. -/
theorem LegacyTransaction.toBytes_ok_iff {tx : LegacyTransaction} {target : List UInt8} :
    tx.toBytes = .ok target ↔ tx.Targets target := by
  rw [toBytes, Targets]
  cases hto : tx.toAddr with
  | none =>
    constructor
    · intro h
      exact (Except.ok.inj h).symm
    · rintro rfl
      rfl
  | some toAddr =>
    constructor
    · intro h
      obtain ⟨checked, hchecked, h⟩ := bind_ok_iff.mp h
      obtain ⟨decoded, hdecoded, h⟩ := bind_ok_iff.mp h
      cases hvalidate : Address.Evm.validate toAddr with
      | error e =>
        rw [hvalidate] at hchecked
        cases hchecked
      | ok valid =>
        rw [hvalidate] at hchecked
        cases hchecked
        obtain ⟨rfl, -, -⟩ := Address.Evm.validate_spec hvalidate
        obtain ⟨bytes, hbytes, hlength, hdecode⟩ := decodeHex_of_valid hvalidate
        obtain rfl : some bytes = decoded := Except.ok.inj (hdecode.symm.trans hdecoded)
        obtain rfl : bytes = target := Except.ok.inj h
        exact ⟨hlength, hbytes⟩
    · rintro ⟨hlength, hbytes⟩
      have hvalidate := validate_of_hex hlength hbytes
      obtain ⟨bytes, hagain, -, hdecode⟩ := decodeHex_of_valid hvalidate
      obtain rfl : bytes = target := Option.some.inj (hagain.symm.trans hbytes)
      dsimp only
      rw [hvalidate]
      exact bind_ok_iff.mpr ⟨_, rfl, bind_ok_iff.mpr ⟨some bytes, hdecode, rfl⟩⟩

/-- The nine strings of a transaction, as the reader gets them. In a payload the
last three are the chain id and two zeros. -/
structure ReadTransaction where
  nonce : Nat
  gasPrice : Nat
  gasLimit : Nat
  target : List UInt8
  value : Nat
  data : List UInt8
  v : Nat
  r : Nat
  s : Nat
deriving DecidableEq, Repr

def readTransaction (bytes : List UInt8) : Option ReadTransaction :=
  match readTexts bytes with
  | some [nonce, gasPrice, gasLimit, target, value, data, v, r, s] => do
    let nonce ← readUint nonce
    let gasPrice ← readUint gasPrice
    let gasLimit ← readUint gasLimit
    let value ← readUint value
    let v ← readUint v
    let r ← readUint r
    let s ← readUint s
    some ⟨nonce, gasPrice, gasLimit, target, value, data, v, r, s⟩
  | _ => none

/-- The reader takes no second spelling of a transaction. -/
theorem readTransaction_injective {bytes other : List UInt8} {tx : ReadTransaction}
    (h : readTransaction bytes = some tx) (h' : readTransaction other = some tx) :
    bytes = other := by
  rw [readTransaction] at h h'
  split at h
  · next n gp gl a w d v r s htexts =>
    split at h'
    · next n' gp' gl' a' w' d' v' r' s' htexts' =>
      simp only [Option.bind_eq_bind, Option.bind_eq_some_iff, Option.some.injEq] at h h'
      obtain ⟨_, hn, _, hgp, _, hgl, _, hw, _, hv, _, hr, _, hs, rfl⟩ := h
      obtain ⟨_, hn', _, hgp', _, hgl', _, hw', _, hv', _, hr', _, hs', heq⟩ := h'
      cases heq
      rw [← readUint_injective hn hn', ← readUint_injective hgp hgp', ← readUint_injective hgl hgl',
        ← readUint_injective hw hw', ← readUint_injective hv hv', ← readUint_injective hr hr',
        ← readUint_injective hs hs'] at htexts'
      exact readTexts_injective htexts htexts'
    · cases h'
  · cases h

/-- The base fields of a transaction with its last three integers. -/
def LegacyTransaction.asRead (tx : LegacyTransaction) (target : List UInt8) (v r s : Nat) :
    ReadTransaction :=
  ⟨tx.nonce.toNat, tx.gasPrice.toNat, tx.gasLimit.toNat, target, tx.value.toNat, tx.data, v, r, s⟩

theorem encodeUint_eq (n : BitVec 128) : encodeUint n = encodeUintBytes (toBe 16 n.toNat) := rfl

theorem fromBe_word (n : BitVec 128) : fromBe (toBe 16 n.toNat) = n.toNat := by
  have hlt := n.isLt
  rw [fromBe_toBe, Nat.mod_eq_of_lt (by omega)]

theorem stripZeros_length_le (bytes : List UInt8) : (stripZeros bytes).length ≤ bytes.length := by
  rw [stripZeros_eq]
  exact significant_length_le bytes

/-- A list that starts with the base items and ends with three integers reads
back as the transaction. -/
theorem readTransaction_list {tx : LegacyTransaction} {target : List UInt8}
    (htarget : target.length ≤ 20) {a b c : List UInt8} (ha : a.length ≤ 32) (hb : b.length ≤ 32)
    (hc : c.length ≤ 32) :
    readTransaction (encodeList ([encodeUint tx.nonce, encodeUint tx.gasPrice,
      encodeUint tx.gasLimit, encodeBytes target, encodeUint tx.value, encodeBytes tx.data] ++
      [encodeUintBytes a, encodeUintBytes b, encodeUintBytes c])) =
      some (tx.asRead target (fromBe a) (fromBe b) (fromBe c)) := by
  have hshort : ∀ bytes : List UInt8, bytes.length ≤ 32 → (stripZeros bytes).length ≤ 32 :=
    fun bytes hle => le_trans (stripZeros_length_le bytes) hle
  have hword : ∀ n : BitVec 128, (stripZeros (toBe 16 n.toNat)).length ≤ 32 :=
    fun n => hshort _ (by rw [length_toBe]; decide)
  have htexts := @readTexts_encodeList [stripZeros (toBe 16 tx.nonce.toNat),
    stripZeros (toBe 16 tx.gasPrice.toNat), stripZeros (toBe 16 tx.gasLimit.toNat), target,
    stripZeros (toBe 16 tx.value.toNat), tx.data, stripZeros a, stripZeros b, stripZeros c] (by
      have hdata := tx.data_fits
      have hnonce := hword tx.nonce
      have hprice := hword tx.gasPrice
      have hlimit := hword tx.gasLimit
      have hvalue := hword tx.value
      have hv := hshort a ha
      have hr := hshort b hb
      have hs := hshort c hc
      simp only [List.flatten_cons, List.flatten_nil, List.length_append, List.length_cons,
        List.length_nil]
      omega)
  simp only [List.map_cons, List.map_nil] at htexts
  simp only [encodeUint, encodeUintBytes, List.cons_append, List.nil_append, readTransaction,
    htexts]
  simp only [stripZeros_eq, readUint_significant, fromBe_word, Option.bind_eq_bind,
    Option.bind_some, LegacyTransaction.asRead]

namespace LegacyTransaction

theorem toBytes_length {tx : LegacyTransaction} {target : List UInt8}
    (h : tx.toBytes = .ok target) : target.length ≤ 20 := by
  have valid : tx.ValidTo := by
    intro toAddr hto
    rw [toBytes, hto] at h
    obtain ⟨checked, hchecked, -⟩ := bind_ok_iff.mp h
    cases hvalidate : Address.Evm.validate toAddr with
    | ok valid => exact ⟨valid, rfl⟩
    | error e =>
      rw [hvalidate] at hchecked
      cases hchecked
  obtain ⟨bytes, hbytes, hlength⟩ := toBytes_of_valid valid
  obtain rfl : bytes = target := Except.ok.inj (hbytes.symm.trans h)
  split at hlength <;> omega

theorem signingPayload_reads {tx : LegacyTransaction} {target : List UInt8}
    (h : tx.toBytes = .ok target) :
    ∃ payload, tx.signingPayload = .ok payload ∧
      readTransaction payload = some (tx.asRead target tx.chainId.toNat 0 0) := by
  have hread := @readTransaction_list tx target (toBytes_length h)
    (toBe 16 (tx.chainId.setWidth 128).toNat) (toBe 16 (0 : BitVec 128).toNat)
    (toBe 16 (0 : BitVec 128).toNat) (by simp) (by simp) (by simp)
  have hchain : (tx.chainId.setWidth 128).toNat = tx.chainId.toNat :=
    BitVec.toNat_setWidth_of_le (by decide)
  have hzero : (0 : BitVec 128).toNat = 0 := rfl
  rw [← encodeUint_eq, ← encodeUint_eq, fromBe_word, fromBe_word, hchain, hzero] at hread
  exact ⟨_, bind_ok_iff.mpr ⟨_, bind_ok_iff.mpr ⟨target, h, rfl⟩, rfl⟩, hread⟩

/-- The same fields, and one recipient, however its text is spelled. -/
structure Agrees (tx other : LegacyTransaction) : Prop where
  nonce : tx.nonce = other.nonce
  gasPrice : tx.gasPrice = other.gasPrice
  gasLimit : tx.gasLimit = other.gasLimit
  target : ∃ target, tx.Targets target ∧ other.Targets target
  value : tx.value = other.value
  data : tx.data = other.data
  chainId : tx.chainId = other.chainId

/-- A payload belongs to one transaction. -/
theorem signingPayload_eq_iff {tx other : LegacyTransaction} {payload : List UInt8}
    (h : tx.signingPayload = .ok payload) :
    other.signingPayload = .ok payload ↔ other.Agrees tx := by
  obtain ⟨items, hitems, -⟩ := bind_ok_iff.mp h
  obtain ⟨target, htarget, -⟩ := bind_ok_iff.mp hitems
  obtain ⟨same, hsame, hread⟩ := signingPayload_reads htarget
  obtain rfl : same = payload := Except.ok.inj (hsame.symm.trans h)
  constructor
  · intro hother
    obtain ⟨items', hitems', -⟩ := bind_ok_iff.mp hother
    obtain ⟨target', htarget', -⟩ := bind_ok_iff.mp hitems'
    obtain ⟨same', hsame', hread'⟩ := signingPayload_reads htarget'
    obtain rfl : same' = same := Except.ok.inj (hsame'.symm.trans hother)
    have heq := Option.some.inj (hread'.symm.trans hread)
    simp only [asRead, ReadTransaction.mk.injEq, BitVec.toNat_inj] at heq
    obtain ⟨hnonce, hprice, hlimit, hto, hvalue, hdata, hchain, -, -⟩ := heq
    exact ⟨hnonce, hprice, hlimit, ⟨target, toBytes_ok_iff.mp (hto ▸ htarget'),
      toBytes_ok_iff.mp htarget⟩, hvalue, hdata, hchain⟩
  · intro agrees
    obtain ⟨common, hother, hmine⟩ := agrees.target
    obtain rfl : common = target :=
      Except.ok.inj ((toBytes_ok_iff.mpr hmine).symm.trans htarget)
    obtain ⟨payload', hpayload', hread'⟩ := signingPayload_reads (toBytes_ok_iff.mpr hother)
    have heq : other.asRead common other.chainId.toNat 0 0 =
        tx.asRead common tx.chainId.toNat 0 0 := by
      simp only [asRead, agrees.nonce, agrees.gasPrice, agrees.gasLimit, agrees.value, agrees.data,
        agrees.chainId]
    rw [heq] at hread'
    rw [hpayload', readTransaction_injective hread' hread]

end LegacyTransaction

theorem checkedV_ok {recovery : Nat} {chainId : BitVec 64}
    (fits : 2 * chainId.toNat + 35 + recovery < 2 ^ 64) :
    ∃ v, checkedV recovery chainId = .ok v ∧ v.toNat = recovery + 2 * chainId.toNat + 35 := by
  refine ⟨BitVec.ofNat 64 (recovery + (chainId.toNat * 2 + 35)), ?_, ?_⟩
  · rw [checkedV, if_neg (by omega), if_neg (by omega)]
  · rw [BitVec.toNat_ofNat, Nat.mod_eq_of_lt (by omega)]
    omega

theorem LegacyTransaction.attachSignature_reads {tx : LegacyTransaction} {target : List UInt8}
    (h : tx.toBytes = .ok target) (rs : Vector UInt8 64) {recoveryId : UInt8}
    (inRange : recoveryId.toNat ≤ 3)
    (fits : 2 * tx.chainId.toNat + 35 + recoveryId.toNat < 2 ^ 64) :
    ∃ raw, tx.attachSignature rs recoveryId = .ok raw ∧
      readTransaction raw = some (tx.asRead target
        (recoveryId.toNat + 2 * tx.chainId.toNat + 35) (fromBe (rs.toList.take 32))
        (fromBe (rs.toList.drop 32))) := by
  obtain ⟨v, hv, hvalue⟩ := checkedV_ok fits
  have hread := @readTransaction_list tx target (toBytes_length h)
    (toBe 16 (v.setWidth 128).toNat) (rs.toList.take 32) (rs.toList.drop 32) (by simp)
    (by simp) (by simp)
  have hwide : (v.setWidth 128).toNat = v.toNat := BitVec.toNat_setWidth_of_le (by decide)
  rw [← encodeUint_eq, fromBe_word, hwide, hvalue] at hread
  rw [attachSignature, if_neg (by omega)]
  refine ⟨_, bind_ok_iff.mpr ⟨recoveryId.toNat, ?_, bind_ok_iff.mpr ⟨v, hv, bind_ok_iff.mpr
    ⟨_, bind_ok_iff.mpr ⟨target, h, rfl⟩, rfl⟩⟩⟩, hread⟩
  rw [recoveryAsU64, if_neg (by omega)]
  rfl

/-- The signing payload commits to every field and to the chain, and the signed
bytes carry the same fields with the signature. -/
theorem payload_commits (tx : LegacyTransaction) (valid : tx.ValidTo) :
    ∃ target, tx.Targets target ∧ tx.toBytes = .ok target ∧
      target.length = (if tx.toAddr.isSome then 20 else 0) ∧
      (∃ payload, tx.signingPayload = .ok payload ∧
        readTransaction payload = some (tx.asRead target tx.chainId.toNat 0 0) ∧
        ∀ other : LegacyTransaction, other.signingPayload = .ok payload ↔ other.Agrees tx) ∧
      ∀ (rs : Vector UInt8 64) (recoveryId : UInt8), recoveryId.toNat ≤ 3 →
        2 * tx.chainId.toNat + 35 + recoveryId.toNat < 2 ^ 64 →
        ∃ raw, tx.attachSignature rs recoveryId = .ok raw ∧
          readTransaction raw = some (tx.asRead target
            (recoveryId.toNat + 2 * tx.chainId.toNat + 35) (fromBe (rs.toList.take 32))
            (fromBe (rs.toList.drop 32))) := by
  obtain ⟨target, htarget, hlength⟩ := LegacyTransaction.toBytes_of_valid valid
  obtain ⟨payload, hpayload, hread⟩ := LegacyTransaction.signingPayload_reads htarget
  refine ⟨target, LegacyTransaction.toBytes_ok_iff.mp htarget, htarget, hlength,
    ⟨payload, hpayload, hread, fun other => ?_⟩, ?_⟩
  · exact LegacyTransaction.signingPayload_eq_iff hpayload
  · intro rs recoveryId inRange fits
    exact LegacyTransaction.attachSignature_reads htarget rs inRange fits

/-- The transaction of the standard's own example. -/
def sampleTransaction : LegacyTransaction where
  nonce := 9
  gasPrice := 20000000000
  gasLimit := 21000
  toAddr := some "0x3535353535353535353535353535353535353535"
  value := 1000000000000000000
  data := []
  chainId := 1
  data_fits := by decide

theorem sampleTransaction_valid : sampleTransaction.ValidTo := by
  rintro toAddr heq
  cases heq
  exact ⟨"0x3535353535353535353535353535353535353535", by decide +kernel⟩

/-- The same transaction to another address. -/
def divertedTransaction : LegacyTransaction :=
  { sampleTransaction with toAddr := some "0x0000000000000000000000000000000000000000" }

theorem sample_target {target : List UInt8} (h : sampleTransaction.Targets target) :
    target = List.replicate 20 0x35 := by
  have hdigits : hexDecode (Address.Evm.stripAddress
      (trim "0x3535353535353535353535353535353535353535")).toList =
        some (List.replicate 20 0x35) := by
    decide +kernel
  exact Option.some.inj (h.2.symm.trans hdigits)

theorem sample_payload_commits : ∃ payload, sampleTransaction.signingPayload = .ok payload ∧
    readTransaction payload =
      some (sampleTransaction.asRead (List.replicate 20 0x35) 1 0 0) ∧
    divertedTransaction.signingPayload ≠ .ok payload ∧
    ∃ raw, sampleTransaction.attachSignature (Vector.replicate 64 1) 1 = .ok raw ∧
      readTransaction raw = some (sampleTransaction.asRead (List.replicate 20 0x35) 38
        (fromBe (List.replicate 32 1)) (fromBe (List.replicate 32 1))) := by
  obtain ⟨target, htarget, -, -, ⟨payload, hpayload, hread, hsame⟩, hattach⟩ :=
    payload_commits sampleTransaction sampleTransaction_valid
  obtain rfl := sample_target htarget
  obtain ⟨raw, hraw, hsigned⟩ := hattach (Vector.replicate 64 1) 1 (by decide) (by decide)
  refine ⟨payload, hpayload, hread, ?_, raw, hraw, hsigned⟩
  intro hother
  obtain ⟨common, hdiverted, hmine⟩ := ((hsame divertedTransaction).mp hother).target
  obtain rfl := sample_target hmine
  have hzero : hexDecode (Address.Evm.stripAddress
      (trim "0x0000000000000000000000000000000000000000")).toList = some (List.replicate 20 0) := by
    decide +kernel
  exact absurd (Option.some.inj (hdiverted.2.symm.trans hzero)) (by decide)

end TxEvm

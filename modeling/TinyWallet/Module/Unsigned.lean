import TinyWallet.Engine.Tron
import TinyWallet.Tx.Evm

/-!
# What is put before the signer

`build_unsigned` turns a transaction spec into the payloads to sign. A failure
is the caller's, when an input does not read, or the builder's.
-/

namespace UnsignedTransactions

open RustText Numerals Wire TronProto TronVerify

inductive BuildFailure where
  | invalidInput (message : String)
  | buildFailed (message : String)
deriving DecidableEq, Repr

abbrev Built (α : Type) := Except (Failure BuildFailure) α

def invalid {α : Type} (message : String) : Built α := .error (.error (.invalidInput message))

inductive Scheme where
  | secp256k1Prehash
  | ed25519
deriving DecidableEq, Repr

structure SigningPayload where
  bytesHex : String
  scheme : Scheme
deriving DecidableEq, Repr

structure UnsignedTransaction where
  payloads : List SigningPayload
deriving DecidableEq, Repr

/-- A payload over a digest that is computed already. -/
def secp256k1Payload (digest : List UInt8) : SigningPayload := ⟨hexLower digest, .secp256k1Prehash⟩

def failedWith {ε : Type} (kind : ε → BuildFailure) : Failure ε → Failure BuildFailure
  | .error e => .error (kind e)
  | .panic => .panic

def tronDigest (ext : Address.Crates) (rawDataHex : String) : Outcome (List UInt8) := do
  let raw ← decodeHex rawDataHex
  .ok (ext.sha256 raw)

/-- The Tron arm of `build_unsigned`: no fee limit is known here. -/
def buildUnsignedTron (ext : Address.Crates) (rawDataHex expectedTo expectedTxid : String)
    (transfer : TronTransfer) : Built UnsignedTransaction := do
  (verifyContract ext rawDataHex expectedTo expectedTxid transfer none).mapError
    (failedWith fun e => .invalidInput e.text)
  let digest ← (tronDigest ext rawDataHex).mapError (failedWith fun e => .buildFailed e.text)
  .ok ⟨[secp256k1Payload digest]⟩

def decimalU128 (value field : String) : Built Nat :=
  match parseU128 (trim value) with
  | .ok n => .ok n
  | .error _ => invalid (field ++ " is not a base-10 integer that fits in 128 bits")

/-- The pairs of `decode_hex`. A slice that ends inside a character, or holds
one of two bytes, is no hex pair. -/
def dataPairs : List Char → Option (List UInt8)
  | [] => some []
  | [_] => none
  | a :: b :: rest =>
    match hexPair a b with
    | none => none
    | some byte => (dataPairs rest).map (byte :: ·)

def decodeData (value : String) : Built (List UInt8) :=
  let body := (trim ((strip "0x" value).getD value)).toList
  if body = [] then .ok []
  else if byteLen body % 2 ≠ 0 then invalid "call data has an odd number of hex characters"
  else match dataPairs body with
    | some bytes => .ok bytes
    | none => invalid "call data is not hex"

/-- The transaction of a wire spec. A vector never holds more than `isize::MAX`
bytes, so more data than that is a capacity panic. -/
def evmTransaction : TransactionSpec → Built TxEvm.LegacyTransaction
  | .evm target valueWei dataHex nonce gasLimit gasPriceWei chainId => do
    let gasPrice ← decimalU128 gasPriceWei "gas_price_wei"
    let value ← decimalU128 valueWei "value_wei"
    let data ← decodeData dataHex
    if fits : data.length < 2 ^ 63 then
      .ok
        { nonce := BitVec.ofNat 128 nonce
          gasPrice := BitVec.ofNat 128 gasPrice
          gasLimit := BitVec.ofNat 128 gasLimit
          toAddr := if trim target = "" then none else some target
          value := BitVec.ofNat 128 value
          data := data
          chainId := BitVec.ofNat 64 chainId
          data_fits := fits }
    else .error .panic
  | _ => invalid "expected an EVM transaction"

/-- The EVM arm of `build_unsigned`. -/
def buildUnsignedEvm (keccak : List UInt8 → List UInt8) (spec : TransactionSpec) :
    Built UnsignedTransaction := do
  let transaction ← evmTransaction spec
  let digest ← (transaction.digest keccak).mapError (failedWith fun e => .buildFailed e.text)
  .ok ⟨[secp256k1Payload digest]⟩

theorem decimalU128_ok_iff {value field : String} {n : Nat} :
    decimalU128 value field = .ok n ↔ parseU128 (trim value) = .ok n := by
  rw [decimalU128]
  cases parseU128 (trim value) with
  | ok m => simp
  | error e => simp [invalid]

theorem decimalU128_lt {value field : String} {n : Nat} (h : decimalU128 value field = .ok n) :
    n < 2 ^ 128 :=
  parseRadix_lt (by decide) (decimalU128_ok_iff.mp h)

/-- A printed number is read back. -/
theorem decimalU128_toString {n : Nat} (field : String) (h : n < 2 ^ 128) :
    decimalU128 (toString n) field = .ok n := by
  rw [decimalU128_ok_iff, trim_toString]
  exact parseRadix_toString h

theorem dataPairs_of_hex : ∀ {cs : List Char} {bytes : List UInt8}, hexDecode cs = some bytes →
    dataPairs cs = some bytes
  | [], _, h => by
    cases h
    rfl
  | [_], _, h => by cases h
  | a :: b :: rest, _, h => by
    obtain ⟨hi, lo, tail, ha, hb, hrest, rfl⟩ := hexDecode_cons_iff.mp h
    simp [dataPairs, TxEvm.hexPair_of_digits ha hb, dataPairs_of_hex hrest]

/-- Printed bytes are read back. -/
theorem decodeData_hexLower (bytes : List UInt8) :
    decodeData ("0x" ++ hexLower bytes) = .ok bytes := by
  have hstrip : strip "0x" ("0x" ++ hexLower bytes) = some (hexLower bytes) := by
    simp [strip]
  have heven : byteLen (hexLower bytes).toList % 2 = 0 := by
    rw [hexLower, String.toList_ofList, byteLen_flatMap_hexByte]
    omega
  simp only [decodeData, hstrip, Option.getD_some, trim_hexLower]
  by_cases hempty : (hexLower bytes).toList = []
  · have hdecode := hexDecode_hexLower bytes
    rw [hempty] at hdecode
    rw [if_pos hempty, ← Option.some.inj hdecode]
  · rw [if_neg hempty, if_neg (not_not.mpr heven), dataPairs_of_hex (hexDecode_hexLower bytes)]

/-- A spec printed from numbers in range is the transaction with those fields. -/
theorem evmTransaction_printed {target : String} {value gasPrice nonce gasLimit chainId : Nat}
    {data : List UInt8} (named : trim target ≠ "") (hvalue : value < 2 ^ 128)
    (hprice : gasPrice < 2 ^ 128) (fits : data.length < 2 ^ 63) :
    evmTransaction (.evm target (toString value) ("0x" ++ hexLower data) nonce gasLimit
      (toString gasPrice) chainId) =
      .ok
        { nonce := BitVec.ofNat 128 nonce
          gasPrice := BitVec.ofNat 128 gasPrice
          gasLimit := BitVec.ofNat 128 gasLimit
          toAddr := some target
          value := BitVec.ofNat 128 value
          data := data
          chainId := BitVec.ofNat 64 chainId
          data_fits := fits } := by
  rw [evmTransaction]
  apply bind_ok_iff.mpr
  refine ⟨gasPrice, decimalU128_toString _ hprice, bind_ok_iff.mpr ⟨value, ?_, ?_⟩⟩
  · exact decimalU128_toString _ hvalue
  apply bind_ok_iff.mpr
  refine ⟨data, decodeData_hexLower data, ?_⟩
  rw [dif_pos fits, if_neg named]

end UnsignedTransactions

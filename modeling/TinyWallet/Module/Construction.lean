import TinyWallet.Engine.Evm
import TinyWallet.Module.Unsigned

/-!
# Constructing an EVM transaction for approval

`construct` renders one request twice: as the facts a person approves, and as
the wire spec whose digest is to be signed. The spec goes through its own text
parsers, so the two renderings agree only because everything printed is read
back as it was.
-/

namespace EvmConstruction

open RustText Numerals Wire UnsignedTransactions

def maxConstructionBytes : Nat := 65536

def maxCalldataBytes : Nat := 16384

inductive EvmIntent where
  | nativeTransfer (toAddr amountWei : String)
  | erc20Transfer (token toAddr amountRaw : String)
  | contractCall (toAddr valueWei dataHex : String)
deriving DecidableEq, Repr

structure EvmConstructionRequest where
  publicKeyHex : String
  chainId : BitVec 64
  nonce : BitVec 64
  gasLimit : BitVec 64
  gasPriceWei : String
  intent : EvmIntent
deriving DecidableEq

structure EvmApprovalFacts where
  sender : String
  chainId : Nat
  nonce : Nat
  gasLimit : Nat
  gasPriceWei : String
  maxFeeWei : String
  maxNativeDebitWei : String
  nativeValueWei : String
  recipient : String
  tokenContract : Option String
  tokenAmountRaw : Option String
  calldataHex : String
deriving DecidableEq, Repr

structure ConstructedEvmTransaction where
  transaction : TransactionSpec
  unsigned : UnsignedTransaction
  approval : EvmApprovalFacts
deriving DecidableEq, Repr

/-- The crates `construct` calls: the writes of the JSON serializer, the
uncompressed form of a public key that is on the curve, and the hash. -/
structure Crates where
  jsonWrites : EvmConstructionRequest → List (List UInt8)
  uncompressed : List UInt8 → Option (List UInt8)
  keccak : List UInt8 → List UInt8

/-- The slices of `fixed_hex`. -/
def fixedPairs (what : String) : List Char → Built (List UInt8)
  | [] => .ok []
  | a :: rest =>
    if a.utf8Size = 2 then invalid (what ++ " is not hex")
    else if a.utf8Size ≠ 1 then invalid (what ++ " is truncated")
    else match rest with
      | [] => invalid (what ++ " is truncated")
      | b :: rest =>
        if b.utf8Size ≠ 1 then invalid (what ++ " is truncated")
        else match hexPair a b with
          | none => invalid (what ++ " is not hex")
          | some byte => do
            let bytes ← fixedPairs what rest
            .ok (byte :: bytes)

def fixedHex (width : Nat) (value what : String) : Built (List UInt8) :=
  let body := ((strip "0x" value).getD value).toList
  if byteLen body ≠ width * 2 then
    invalid (what ++ " must be " ++ toString width ++ " bytes, got " ++ toString (byteLen body) ++
      " hex characters")
  else fixedPairs what body

def compressedPublicKey (keyHex : String) : Built (List UInt8) := fixedHex 33 keyHex "public key"

/-- Digit `i` of a checksummed address follows nibble `i` of the hash. -/
def checksumNibble (hash : List UInt8) (i : Nat) : Nat :=
  let byte := (hash.getD (i / 2) 0).toNat
  if i % 2 = 0 then byte / 16 else byte % 16

def toChecksummed (keccak : List UInt8 → List UInt8) (address : String) :
    Except Address.Error String := do
  let validated ← Address.Evm.validate address
  let lower := toAsciiLowercase (Address.Evm.stripAddress validated)
  let hash := keccak (utf8Bytes lower)
  .ok ("0x" ++ String.ofList (lower.toList.mapIdx fun i c =>
    if isAsciiDigit c || checksumNibble hash i < 8 then c else c.toUpper))

def addressFromPublic (keccak : List UInt8 → List UInt8) (uncompressed : List UInt8) : String :=
  let body := hexLower ((keccak (uncompressed.drop 1)).drop 12)
  match toChecksummed keccak body with
  | .ok address => address
  | .error _ => "0x" ++ body

def addressFromPublicKey (ext : Crates) (key : List UInt8) : Built String :=
  match ext.uncompressed key with
  | some bytes =>
    if bytes.length = 65 then .ok (addressFromPublic ext.keccak bytes)
    else invalid "public key is not a valid compressed SEC1 point"
  | none => invalid "public key is not a valid compressed SEC1 point"

/-- One write into the budget, with the bytes written before. -/
def budgetWrite (spent : Nat) (bytes : List UInt8) : Option Nat :=
  let size := spent + bytes.length
  if size < 2 ^ 64 ∧ size ≤ maxConstructionBytes then some size else none

def validateRequest (ext : Crates) (request : EvmConstructionRequest) : Built Unit :=
  if (ext.jsonWrites request).foldlM budgetWrite 0 = none then
    invalid "construction request exceeds byte limit"
  else if request.chainId = 0 ∨ request.gasLimit = 0 then
    invalid "chain id and gas limit must be greater than zero"
  else if (2 ^ 64 - 1 - 38) / 2 < request.chainId.toNat then
    invalid "chain id overflows EIP-155 v"
  else .ok ()

def address (raw : String) : Built String :=
  match Address.Evm.validate raw with
  | .ok validated => .ok validated
  | .error _ => invalid "EVM address is invalid"

/-- `str::trim_start_matches('0')` after the checks. -/
def canonicalTokenAmount (raw : String) : Built String :=
  let raw := (trim raw).toList
  if raw = [] ∨ 78 < byteLen raw ∨ raw.all isAsciiDigit = false then
    invalid "token amount must be a positive uint256 decimal"
  else
    let canonical := raw.dropWhile (· = '0')
    if canonical = [] then invalid "transfer amount must be greater than zero"
    else .ok (String.ofList canonical)

/-- The tuple `construct` computes from the intent. -/
structure Rendered where
  target : String
  recipient : String
  value : Nat
  calldata : String
  tokenContract : Option String
  tokenAmountRaw : Option String
deriving DecidableEq, Repr

def renderNative (toAddr amountWei : String) : Built Rendered := do
  let recipient ← address toAddr
  let value ← decimalU128 amountWei "amount_wei"
  if value = 0 then invalid "transfer amount must be greater than zero"
  else .ok ⟨recipient, recipient, value, "0x", none, none⟩

/-- The ABI encoder's own error text is dropped. -/
def renderErc20 (token toAddr amountRaw : String) : Built Rendered := do
  let token ← address token
  let recipient ← address toAddr
  let amount ← canonicalTokenAmount amountRaw
  match Erc20.encodeErc20Transfer recipient amount with
  | .ok calldata => .ok ⟨token, recipient, 0, calldata, some token, some amount⟩
  | .error _ => invalid "ERC-20 recipient or uint256 amount is invalid"

def renderCall (toAddr valueWei dataHex : String) : Built Rendered := do
  let recipient ← address toAddr
  let value ← decimalU128 valueWei "value_wei"
  let body := (strip "0x" (trim dataHex)).getD (trim dataHex)
  if maxCalldataBytes * 2 < byteLen body.toList ∨ byteLen body.toList % 2 ≠ 0 ∨
      body.toList.all isAsciiHexDigit = false then
    invalid "calldata must be bounded byte-aligned hex"
  else .ok ⟨recipient, recipient, value, "0x" ++ toAsciiLowercase body, none, none⟩

def render : EvmIntent → Built Rendered
  | .nativeTransfer toAddr amountWei => renderNative toAddr amountWei
  | .erc20Transfer token toAddr amountRaw => renderErc20 token toAddr amountRaw
  | .contractCall toAddr valueWei dataHex => renderCall toAddr valueWei dataHex

def construct (ext : Crates) (request : EvmConstructionRequest) :
    Built ConstructedEvmTransaction := do
  validateRequest ext request
  let key ← compressedPublicKey request.publicKeyHex
  let sender ← addressFromPublicKey ext key
  let gasPrice ← decimalU128 request.gasPriceWei "gas_price_wei"
  let maxFee := gasPrice * request.gasLimit.toNat
  if 2 ^ 128 ≤ maxFee then invalid "maximum gas cost overflows 128 bits"
  else do
    let rendered ← render request.intent
    let maxNative := rendered.value + maxFee
    if 2 ^ 128 ≤ maxNative then invalid "maximum native debit overflows 128 bits"
    else do
      let transaction : TransactionSpec := .evm rendered.target (toString rendered.value)
        rendered.calldata request.nonce.toNat request.gasLimit.toNat (toString gasPrice)
        request.chainId.toNat
      let unsigned ← buildUnsignedEvm ext.keccak transaction
      .ok
        { transaction := transaction
          unsigned := unsigned
          approval :=
            { sender := sender
              chainId := request.chainId.toNat
              nonce := request.nonce.toNat
              gasLimit := request.gasLimit.toNat
              gasPriceWei := toString gasPrice
              maxFeeWei := toString maxFee
              maxNativeDebitWei := toString maxNative
              nativeValueWei := toString rendered.value
              recipient := rendered.recipient
              tokenContract := rendered.tokenContract
              tokenAmountRaw := rendered.tokenAmountRaw
              calldataHex := rendered.calldata } }

theorem address_ok_iff {raw text : String} :
    address raw = .ok text ↔ Address.Evm.validate raw = .ok text := by
  rw [address]
  cases Address.Evm.validate raw with
  | ok validated => simp
  | error e => simp [invalid]

/-- A validated address has text. -/
theorem validated_named {raw text : String} (h : Address.Evm.validate raw = .ok text) :
    trim text = text ∧ text ≠ "" := by
  obtain ⟨htrim, hsize, -⟩ := Address.Evm.validate_spec h
  constructor
  · rw [htrim, trim_trim]
  · rintro rfl
    revert hsize
    decide

/-- The arguments `(address, uint256)` as the ABI lays them out, one word each. -/
def decodeTransferArgs (args : List UInt8) : Option (List UInt8 × Nat) :=
  if args.length = 64 ∧ args.take 12 = List.replicate 12 0 then
    some ((args.drop 12).take 20, Rlp.fromBe (args.drop 32))
  else none

/-- The recipient and the amount of a call of `transfer(address,uint256)`. -/
def decodeTransfer (data : List UInt8) : Option (List UInt8 × Nat) :=
  if data.take 4 = [0xa9, 0x05, 0x9c, 0xbb] then decodeTransferArgs (data.drop 4) else none

/-- The bytes pay the amount that the text spells to the address. -/
def TransfersToken (data : List UInt8) (recipient amount : String) : Prop :=
  ∃ bytes n, hexDecode (Address.Evm.stripAddress recipient).toList = some bytes ∧
    units amount = some n ∧ n < 2 ^ 256 ∧ decodeTransfer data = some (bytes, n)

/-- The rendered fields for each shape of intent, with the calldata as bytes. -/
def Shows (intent : EvmIntent) (rendered : Rendered) (data : List UInt8) : Prop :=
  match intent with
  | .nativeTransfer _ _ => rendered.target = rendered.recipient ∧ rendered.tokenContract = none ∧
      rendered.tokenAmountRaw = none ∧ data = []
  | .erc20Transfer _ _ _ => rendered.tokenContract = some rendered.target ∧
      rendered.value = 0 ∧ ∃ amount, rendered.tokenAmountRaw = some amount ∧
        TransfersToken data rendered.recipient amount
  | .contractCall _ _ _ => rendered.target = rendered.recipient ∧
      rendered.tokenContract = none ∧ rendered.tokenAmountRaw = none

/-- A rendering that prints its calldata from bytes. -/
structure Renders (intent : EvmIntent) (rendered : Rendered) (data : List UInt8) : Prop where
  target : ∃ raw, Address.Evm.validate raw = .ok rendered.target
  value : rendered.value < 2 ^ 128
  calldata : rendered.calldata = "0x" ++ hexLower data
  fits : data.length < 2 ^ 63
  shape : Shows intent rendered data

theorem renderNative_ok {toAddr amountWei : String} {rendered : Rendered}
    (h : renderNative toAddr amountWei = .ok rendered) :
    Renders (.nativeTransfer toAddr amountWei) rendered [] := by
  obtain ⟨recipient, hto, h⟩ := bind_ok_iff.mp h
  obtain ⟨value, hvalue, h⟩ := bind_ok_iff.mp h
  split at h
  · cases h
  · cases h
    constructor
    · exact ⟨toAddr, address_ok_iff.mp hto⟩
    · exact decimalU128_lt hvalue
    · rfl
    · decide
    · exact ⟨rfl, rfl, rfl, rfl⟩

theorem renderCall_ok {toAddr valueWei dataHex : String} {rendered : Rendered}
    (h : renderCall toAddr valueWei dataHex = .ok rendered) :
    ∃ data, Renders (.contractCall toAddr valueWei dataHex) rendered data := by
  obtain ⟨recipient, hto, h⟩ := bind_ok_iff.mp h
  obtain ⟨value, hvalue, h⟩ := bind_ok_iff.mp h
  dsimp only at h
  split at h
  · cases h
  next hbody =>
  simp only [not_or, not_lt, not_not, Bool.not_eq_false] at hbody
  obtain ⟨hbound, heven, hdigits⟩ := hbody
  have hbytes := byteLen_of_hex hdigits
  obtain ⟨data, hdata⟩ := hexDecode_of_digits (by omega) hdigits
  have hlength := hexDecode_length hdata
  have hmost : maxCalldataBytes * 2 < 2 ^ 63 := by decide
  cases h
  refine ⟨data, ⟨toAddr, address_ok_iff.mp hto⟩, decimalU128_lt hvalue, ?_, by omega, rfl, rfl, rfl⟩
  dsimp only
  rw [toAsciiLowercase, ← hexLower_hexDecode hdata, String.ofList_toList]

/-- Digits without leading zeros are their own canonical text. -/
theorem canonicalTokenAmount_ok {raw amount : String} (h : canonicalTokenAmount raw = .ok amount) :
    allDigits amount.toList = true := by
  simp only [canonicalTokenAmount] at h
  split at h
  · cases h
  next hdigits =>
  simp only [not_or, not_lt, Bool.not_eq_false] at hdigits
  split at h
  · cases h
  next hsome =>
  obtain rfl := Except.ok.inj h
  rw [String.toList_ofList, allDigits, Bool.and_eq_true]
  constructor
  · simpa using hsome
  · rw [List.all_eq_true]
    intro c hc
    exact List.all_eq_true.mp hdigits.2.2 c ((List.dropWhile_sublist _).subset hc)

theorem trim_of_digits {text : String} (h : allDigits text.toList = true) : trim text = text := by
  rw [allDigits, Bool.and_eq_true, List.all_eq_true] at h
  rw [trim, trimChars_of_no_space fun c hc => isWhiteSpace_of_digit (h.2 c hc),
    String.ofList_toList]

theorem decodeTransferArgs_encoded {bytes value : List UInt8} (hbytes : bytes.length = 20)
    (hvalue : value.length = 32) :
    decodeTransferArgs (List.replicate 12 0 ++ bytes ++ value) =
      some (bytes, Rlp.fromBe value) := by
  have hfront : (List.replicate 12 (0 : UInt8)).length = 12 := List.length_replicate
  have haddress : ((List.replicate 12 0 ++ bytes ++ value).drop 12).take 20 = bytes := by
    rw [List.append_assoc, List.drop_left' hfront, List.take_left' hbytes]
  have hword : (List.replicate 12 0 ++ bytes ++ value).drop 32 = value := by
    rw [List.drop_left']
    rw [List.length_append, hfront, hbytes]
  rw [decodeTransferArgs, if_pos, haddress, hword]
  constructor
  · rw [List.length_append, List.length_append, hfront, hbytes, hvalue]
  · rw [List.append_assoc, List.take_left' hfront]

theorem decodeTransfer_encoded {bytes value : List UInt8} (hbytes : bytes.length = 20)
    (hvalue : value.length = 32) :
    decodeTransfer (Erc20.transferSelector ++ List.replicate 12 0 ++ bytes ++ value) =
      some (bytes, Rlp.fromBe value) := by
  have hselector : Erc20.transferSelector.length = 4 := rfl
  rw [List.append_assoc, List.append_assoc, decodeTransfer, List.take_left' hselector,
    List.drop_left' hselector, ← List.append_assoc, if_pos (by rfl)]
  exact decodeTransferArgs_encoded hbytes hvalue

/-- Calldata that was encoded reads back as the transfer it was encoded from. -/
theorem encodeErc20Transfer_ok {toAddr amountRaw calldata : String}
    (h : Erc20.encodeErc20Transfer toAddr amountRaw = .ok calldata) :
    ∃ data, calldata = "0x" ++ hexLower data ∧ data.length = 68 ∧
      TransfersToken data (trim toAddr) (trim amountRaw) := by
  obtain ⟨recipient, bytes, hvalid, hhex, hlength, hfits, rfl⟩ :=
    Erc20.encodeErc20Transfer_ok_iff.mp h
  have hwidth := Rlp.length_toBe 32 (Erc20.value (trim amountRaw))
  have hread := decodeTransfer_encoded hlength hwidth
  rw [Erc20.fromBe_value hfits] at hread
  rw [← (Address.Evm.validate_spec hvalid).1]
  refine ⟨_, rfl, ?_, bytes, _, hhex, Erc20.units_of_fits hfits, hfits.small, hread⟩
  simp [Erc20.transferCall, hlength, hwidth, Erc20.transferSelector]

theorem renderErc20_ok {token toAddr amountRaw : String} {rendered : Rendered}
    (h : renderErc20 token toAddr amountRaw = .ok rendered) :
    ∃ data, Renders (.erc20Transfer token toAddr amountRaw) rendered data := by
  obtain ⟨contract, htoken, h⟩ := bind_ok_iff.mp h
  obtain ⟨recipient, hto, h⟩ := bind_ok_iff.mp h
  obtain ⟨amount, hamount, h⟩ := bind_ok_iff.mp h
  split at h
  · next calldata hcall =>
    cases h
    obtain ⟨data, hdata, hlength, hpays⟩ := encodeErc20Transfer_ok hcall
    rw [(validated_named (address_ok_iff.mp hto)).1,
      trim_of_digits (canonicalTokenAmount_ok hamount)] at hpays
    refine ⟨data, ⟨token, address_ok_iff.mp htoken⟩, Nat.two_pow_pos 128, hdata, by omega, ?_⟩
    exact ⟨rfl, rfl, amount, rfl, hpays⟩
  · cases h

theorem render_ok {intent : EvmIntent} {rendered : Rendered} (h : render intent = .ok rendered) :
    ∃ data, Renders intent rendered data := by
  cases intent with
  | nativeTransfer toAddr amountWei => exact ⟨[], renderNative_ok h⟩
  | erc20Transfer token toAddr amountRaw => exact renderErc20_ok h
  | contractCall toAddr valueWei dataHex => exact renderCall_ok h

/-- Whom the transaction calls and what it carries, for each shape of intent. -/
def Targets (intent : EvmIntent) (facts : EvmApprovalFacts) (tx : TxEvm.LegacyTransaction) : Prop :=
  match intent with
  | .nativeTransfer _ _ => tx.toAddr = some facts.recipient ∧ facts.tokenContract = none ∧
      facts.tokenAmountRaw = none ∧ tx.data = []
  | .erc20Transfer _ _ _ => ∃ token amount, facts.tokenContract = some token ∧
      tx.toAddr = some token ∧ tx.value.toNat = 0 ∧ facts.tokenAmountRaw = some amount ∧
        TransfersToken tx.data facts.recipient amount
  | .contractCall _ _ _ => tx.toAddr = some facts.recipient ∧ facts.tokenContract = none ∧
      facts.tokenAmountRaw = none

/-- The facts and the transaction are one and the same transfer. -/
structure Describes (intent : EvmIntent) (facts : EvmApprovalFacts)
    (tx : TxEvm.LegacyTransaction) : Prop where
  chainId : facts.chainId = tx.chainId.toNat
  nonce : facts.nonce = tx.nonce.toNat
  gasLimit : facts.gasLimit = tx.gasLimit.toNat
  gasPrice : facts.gasPriceWei = toString tx.gasPrice.toNat
  value : facts.nativeValueWei = toString tx.value.toNat
  calldata : facts.calldataHex = "0x" ++ hexLower tx.data
  target : Targets intent facts tx
  fee : facts.maxFeeWei = toString (tx.gasLimit.toNat * tx.gasPrice.toNat)
  fee_fits : tx.gasLimit.toNat * tx.gasPrice.toNat < 2 ^ 128
  debit : facts.maxNativeDebitWei =
    toString (tx.gasLimit.toNat * tx.gasPrice.toNat + tx.value.toNat)
  debit_fits : tx.gasLimit.toNat * tx.gasPrice.toNat + tx.value.toNat < 2 ^ 128

theorem validateRequest_ok {ext : Crates} {request : EvmConstructionRequest}
    (h : validateRequest ext request = .ok ()) : 2 * request.chainId.toNat + 38 < 2 ^ 64 := by
  rw [validateRequest] at h
  split at h
  · cases h
  split at h
  · cases h
  split at h
  · cases h
  · omega

/-- The transaction `build_unsigned` reads back from the printed spec. -/
def signedTransaction (request : EvmConstructionRequest) (rendered : Rendered) (gasPrice : Nat)
    (data : List UInt8) (fits : data.length < 2 ^ 63) : TxEvm.LegacyTransaction where
  nonce := BitVec.ofNat 128 request.nonce.toNat
  gasPrice := BitVec.ofNat 128 gasPrice
  gasLimit := BitVec.ofNat 128 request.gasLimit.toNat
  toAddr := some rendered.target
  value := BitVec.ofNat 128 rendered.value
  data := data
  chainId := BitVec.ofNat 64 request.chainId.toNat
  data_fits := fits

theorem toNat_of_u64 (n : BitVec 64) : (BitVec.ofNat 128 n.toNat).toNat = n.toNat := by
  have hlt := n.isLt
  rw [BitVec.toNat_ofNat, Nat.mod_eq_of_lt (by omega)]

theorem toNat_of_lt {n : Nat} (h : n < 2 ^ 128) : (BitVec.ofNat 128 n).toNat = n := by
  rw [BitVec.toNat_ofNat, Nat.mod_eq_of_lt h]

/-- A rendering in range is described by the facts printed from it. -/
theorem describes_signed {request : EvmConstructionRequest} {intent : EvmIntent}
    {rendered : Rendered} {gasPrice : Nat} {data : List UInt8}
    (renders : Renders intent rendered data) (hprice : gasPrice < 2 ^ 128)
    (hfee : gasPrice * request.gasLimit.toNat < 2 ^ 128)
    (hdebit : rendered.value + gasPrice * request.gasLimit.toNat < 2 ^ 128) (sender : String) :
    Describes intent
      { sender := sender
        chainId := request.chainId.toNat
        nonce := request.nonce.toNat
        gasLimit := request.gasLimit.toNat
        gasPriceWei := toString gasPrice
        maxFeeWei := toString (gasPrice * request.gasLimit.toNat)
        maxNativeDebitWei := toString (rendered.value + gasPrice * request.gasLimit.toNat)
        nativeValueWei := toString rendered.value
        recipient := rendered.recipient
        tokenContract := rendered.tokenContract
        tokenAmountRaw := rendered.tokenAmountRaw
        calldataHex := rendered.calldata }
      (signedTransaction request rendered gasPrice data renders.fits) := by
  have hlimit := toNat_of_u64 request.gasLimit
  have hgas := toNat_of_lt hprice
  have hvalue := toNat_of_lt renders.value
  constructor
  · simp [signedTransaction]
  · exact (toNat_of_u64 request.nonce).symm
  · exact hlimit.symm
  · simp only [signedTransaction, hgas]
  · simp only [signedTransaction, hvalue]
  · exact renders.calldata
  · have shape := renders.shape
    cases intent with
    | nativeTransfer toAddr amountWei =>
      obtain ⟨htarget, htoken, hamount, hdata⟩ := shape
      exact ⟨congrArg some htarget, htoken, hamount, hdata⟩
    | erc20Transfer token toAddr amountRaw =>
      obtain ⟨htoken, hzero, amount, hamount, hpays⟩ := shape
      refine ⟨rendered.target, amount, htoken, rfl, ?_, hamount, hpays⟩
      exact hvalue.trans hzero
    | contractCall toAddr valueWei dataHex =>
      obtain ⟨htarget, htoken, hamount⟩ := shape
      exact ⟨congrArg some htarget, htoken, hamount⟩
  · simp only [signedTransaction, hlimit, hgas, Nat.mul_comm]
  · simp only [signedTransaction, hlimit, hgas]
    rwa [Nat.mul_comm]
  · simp only [signedTransaction, hlimit, hgas, hvalue, Nat.mul_comm, Nat.add_comm]
  · simp only [signedTransaction, hlimit, hgas, hvalue]
    rwa [Nat.add_comm, Nat.mul_comm]

def sampleCrates : Crates where
  jsonWrites := fun _ => [[0x7b], [0x7d]]
  uncompressed := fun _ => some (List.replicate 65 4)
  keccak := fun _ => List.replicate 32 0x35

/-- A token transfer with a sign, spaces and leading zeros in its numbers. -/
def sampleRequest : EvmConstructionRequest where
  publicKeyHex := "0x020202020202020202020202020202020202020202020202020202020202020202"
  chainId := 1
  nonce := 9
  gasLimit := 60000
  gasPriceWei := " +0020000000000"
  intent := .erc20Transfer "3535353535353535353535353535353535353535"
    " 0x1111111111111111111111111111111111111111" "0001000000"

/-- The call of `transfer` in the sample. -/
def sampleCalldata : List UInt8 :=
  [0xa9, 0x05, 0x9c, 0xbb] ++ List.replicate 12 0 ++ List.replicate 20 0x11 ++
    List.replicate 29 0 ++ [0x0f, 0x42, 0x40]

/-- What it is rendered as. -/
def sampleRendered : Rendered where
  target := "3535353535353535353535353535353535353535"
  recipient := "0x1111111111111111111111111111111111111111"
  value := 0
  calldata := "0x" ++ hexLower sampleCalldata
  tokenContract := some "3535353535353535353535353535353535353535"
  tokenAmountRaw := some "1000000"

theorem sampleRequest_rendered : render sampleRequest.intent = .ok sampleRendered := by
  decide +kernel

/-- A request whose parts are all accepted is accepted. -/
theorem construct_accepts {ext : Crates} {request : EvmConstructionRequest} {key : List UInt8}
    {sender : String} {gasPrice : Nat} {rendered : Rendered} {tx : TxEvm.LegacyTransaction}
    {digest : List UInt8} (hvalid : validateRequest ext request = .ok ())
    (hkey : compressedPublicKey request.publicKeyHex = .ok key)
    (hsender : addressFromPublicKey ext key = .ok sender)
    (hprice : decimalU128 request.gasPriceWei "gas_price_wei" = .ok gasPrice)
    (hfee : gasPrice * request.gasLimit.toNat < 2 ^ 128)
    (hrender : render request.intent = .ok rendered)
    (hdebit : rendered.value + gasPrice * request.gasLimit.toNat < 2 ^ 128)
    (hspec : evmTransaction (.evm rendered.target (toString rendered.value) rendered.calldata
      request.nonce.toNat request.gasLimit.toNat (toString gasPrice)
      request.chainId.toNat) = .ok tx)
    (hdigest : tx.digest ext.keccak = .ok digest) : (construct ext request).isOk = true := by
  have hunsigned : buildUnsignedEvm ext.keccak (.evm rendered.target (toString rendered.value)
      rendered.calldata request.nonce.toNat request.gasLimit.toNat (toString gasPrice)
      request.chainId.toNat) = .ok ⟨[secp256k1Payload digest]⟩ := by
    simp only [buildUnsignedEvm, hspec, hdigest, bind, Except.bind, Except.mapError]
  have hfee' : ¬ 2 ^ 128 ≤ gasPrice * request.gasLimit.toNat := not_le.mpr hfee
  have hdebit' : ¬ 2 ^ 128 ≤ rendered.value + gasPrice * request.gasLimit.toNat := not_le.mpr hdebit
  simp only [construct, hvalid, hkey, hsender, hprice, hrender, hunsigned, bind, Except.bind,
    if_neg hfee', if_neg hdebit', Except.isOk, Except.toBool]

theorem sampleCalldata_fits : sampleCalldata.length < 2 ^ 63 := by decide

theorem sampleRequest_accepted : (construct sampleCrates sampleRequest).isOk = true := by
  have hvalid : validateRequest sampleCrates sampleRequest = .ok () := by decide +kernel
  have hkey : compressedPublicKey sampleRequest.publicKeyHex = .ok (List.replicate 33 2) := by
    decide +kernel
  have hprice : decimalU128 sampleRequest.gasPriceWei "gas_price_wei" = .ok 20000000000 := by
    decide +kernel
  have named : trim sampleRendered.target ≠ "" := by decide +kernel
  have hsender : (addressFromPublicKey sampleCrates (List.replicate 33 2)).isOk = true := by
    decide +kernel
  have hdigest : ((signedTransaction sampleRequest sampleRendered 20000000000 sampleCalldata
      sampleCalldata_fits).digest sampleCrates.keccak).isOk = true := by
    decide +kernel
  cases hs : addressFromPublicKey sampleCrates (List.replicate 33 2) with
  | error e =>
    rw [hs] at hsender
    cases hsender
  | ok sender =>
  cases hd : (signedTransaction sampleRequest sampleRendered 20000000000 sampleCalldata
      sampleCalldata_fits).digest sampleCrates.keccak with
  | error e =>
    rw [hd] at hdigest
    cases hdigest
  | ok digest =>
  exact construct_accepts hvalid hkey hs hprice (by decide) sampleRequest_rendered (by decide)
    (evmTransaction_printed named (by decide) (by decide) sampleCalldata_fits) hd

end EvmConstruction

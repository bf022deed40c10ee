import TinyWallet.Tron.Reference

/-!
# Checking a node-built Tron transaction

`verify_transfer` looks for the recipient and the amount as byte runs anywhere
in `raw_data`; `verify_contract` parses four nesting levels and compares the
fields that will execute. Both first recompute the `txID`.
-/

namespace TronVerify

open RustText TronProto

inductive TronTransfer where
  | native (amountSun : Nat)
  | trc20 (parameterHex : String)
deriving DecidableEq, Repr

def notHex : Error := .invalidField "raw_data_hex" "invalid digit found in string"

/-- The pairs of `decode_hex`. A slice that would end inside a character
panics; a two-byte character is a slice of its own and not a hex digit. -/
def decodePairs : List Char → Outcome (List UInt8)
  | [] => .ok []
  | a :: rest =>
    if a.utf8Size = 2 then fail notHex
    else if a.utf8Size ≠ 1 then .error .panic
    else match rest with
      | [] => .error .panic
      | b :: rest =>
        if b.utf8Size ≠ 1 then .error .panic
        else match hexPair a b with
          | none => fail notHex
          | some byte => do
            let bytes ← decodePairs rest
            .ok (byte :: bytes)

def decodeHex (raw : String) : Outcome (List UInt8) :=
  let body := (trim raw).toList
  if byteLen body % 2 ≠ 0 then fail (.invalidField "raw_data_hex" "odd length")
  else decodePairs body

theorem decodePairs_hexByte (b : UInt8) (rest : List Char) :
    decodePairs (hexByte b ++ rest) = (decodePairs rest >>= fun bytes => .ok (b :: bytes)) := by
  obtain ⟨hi, lo, hdigits, hpair, ⟨hhi, hlo⟩, _⟩ := hexByte_digits b
  simp [hdigits, decodePairs, hhi, hlo, hpair]

theorem decodePairs_flatMap (bytes : List UInt8) :
    decodePairs (bytes.flatMap hexByte) = .ok bytes := by
  induction bytes with
  | nil => rfl
  | cons b bytes ih =>
    rw [List.flatMap_cons, decodePairs_hexByte, ih]
    rfl

theorem byteLen_flatMap_hexByte (bytes : List UInt8) :
    byteLen (bytes.flatMap hexByte) = 2 * bytes.length := by
  induction bytes with
  | nil => rfl
  | cons b bytes ih =>
    obtain ⟨hi, lo, hdigits, _, ⟨hhi, hlo⟩, _⟩ := hexByte_digits b
    simp only [byteLen] at ih
    simp only [List.flatMap_cons, hdigits, byteLen, List.map_append, List.sum_append, ih,
      List.map_cons, List.map_nil, List.sum_cons, List.sum_nil, hhi, hlo, List.length_cons]
    omega

/-- Reading back what `hex_lower` wrote. -/
theorem decodeHex_hexLower (bytes : List UInt8) : decodeHex (hexLower bytes) = .ok bytes := by
  have hbody : (trim (hexLower bytes)).toList = bytes.flatMap hexByte := by
    rw [trim_hexLower, hexLower, String.toList_ofList]
  have heven : ¬byteLen (bytes.flatMap hexByte) % 2 ≠ 0 := by
    rw [byteLen_flatMap_hexByte]
    omega
  rw [decodeHex, hbody, if_neg heven, decodePairs_flatMap]

def recomputeTxid (ext : Address.Crates) (rawDataHex : String) : Outcome String := do
  let raw ← decodeHex rawDataHex
  .ok (hexLower (ext.sha256 raw))

def untrusted (reason : String) : Error := .untrustedResponse reason

def addressOutcome {α : Type} : Except Address.Error α → Outcome α
  | .ok a => .ok a
  | .error e => fail (.address e)

def altered : Error :=
  untrusted "txID does not match sha256(raw_data); the response was altered"

/-- `windows(n).any(|w| w == needle)`: windows of length zero are not asked
for, since an empty needle is refused before. -/
def hasWindow (needle raw : List UInt8) : Bool := decide (needle <:+: raw)

/-- The positional-blind check. -/
def verifyTransfer (ext : Address.Crates) (rawDataHex toAddr txid : String)
    (transfer : TronTransfer) : Outcome Unit := do
  let expectedId ← recomputeTxid ext rawDataHex
  if eqIgnoreAsciiCase expectedId (trim txid) = false then fail altered
  else do
    let toHex ← addressOutcome (Address.Tron.toHex ext toAddr)
    if contains (toAsciiLowercase rawDataHex) (toAsciiLowercase toHex) = false then
      fail (untrusted "the node's transaction does not pay the requested recipient")
    else do
      let raw ← decodeHex rawDataHex
      let expected ← match transfer with
        | .native amountSun => .ok (encodeVarint amountSun)
        | .trc20 parameterHex => decodeHex parameterHex
      if expected.isEmpty || !hasWindow expected raw then
        fail (untrusted ("the node's transaction does not contain the requested " ++
          match transfer with
          | .native _ => "amount"
          | .trc20 _ => "TRC20 transfer parameter"))
      else .ok ()

def contractTypeTransfer : Nat := 1

def contractTypeTriggerSmartContract : Nat := 31

def trc20TransferSelectorHex : String := "a9059cbb"

structure ParsedContract where
  kind : Nat
  typeUrl : String
  payload : List UInt8
deriving DecidableEq, Repr

/-- Unwrap `Transaction.raw.contract[0]` and its `google.protobuf.Any`. -/
def parseSingleContract (rawFields : List Field) : Outcome ParsedContract := do
  let contractBytes ← oneBytes rawFields 11 "Transaction.raw.contract"
  let contractFields ← parseFields contractBytes
  let kind ← oneVarint contractFields 1 "Transaction.Contract.type"
  let anyBytes ← oneBytes contractFields 2 "Transaction.Contract.parameter"
  let anyFields ← parseFields anyBytes
  let urlBytes ← oneBytes anyFields 1 "Any.type_url"
  match fromUtf8 urlBytes with
  | none => fail (.invalidField "Any.type_url" "is not UTF-8")
  | some typeUrl => do
    let payload ← oneBytes anyFields 2 "Any.value"
    .ok ⟨kind, typeUrl, payload⟩

/-- The native arm of `verify_contract`. -/
def verifyNative (contract : ParsedContract) (recipient : List UInt8) (amountSun : Nat) :
    Outcome Unit := do
  if contract.kind ≠ contractTypeTransfer ∨
      endsWith contract.typeUrl ".TransferContract" = false then
    fail (untrusted "the transaction is not a native transfer")
  else do
    let payload ← parseFields contract.payload
    let toAddress ← oneBytes payload 2 "TransferContract.to_address"
    if toAddress ≠ recipient then
      fail (untrusted "the transaction does not pay the requested recipient")
    else do
      let amount ← oneVarint payload 3 "TransferContract.amount"
      if amount ≠ amountSun then
        fail (untrusted "the transaction has a different native amount")
      else .ok ()

/-- A pinned limit is compared with the one in the bytes when there is one. -/
def checkFeeLimit (rawFields : List Field) (feeLimitSun : Option Nat) : Outcome Unit := do
  let actual ← optionalVarint rawFields 18 "Transaction.raw.fee_limit"
  match feeLimitSun, actual with
  | some expected, some actual =>
    if actual ≠ expected then fail (untrusted "the transaction has a different fee_limit")
    else .ok ()
  | _, _ => .ok ()

/-- The TRC-20 arm of `verify_contract`. -/
def verifyTrc20 (rawFields : List Field) (contract : ParsedContract) (recipient : List UInt8)
    (parameterHex : String) (feeLimitSun : Option Nat) : Outcome Unit := do
  if contract.kind ≠ contractTypeTriggerSmartContract ∨
      endsWith contract.typeUrl ".TriggerSmartContract" = false then
    fail (untrusted "the transaction is not a smart-contract trigger")
  else do
    let payload ← parseFields contract.payload
    let contractAddress ← oneBytes payload 2 "TriggerSmartContract.contract_address"
    if contractAddress ≠ recipient then
      fail (untrusted "the transaction targets a different contract")
    else do
      let callValue ← optionalVarint payload 3 "TriggerSmartContract.call_value"
      if callValue.getD 0 ≠ 0 then
        fail (untrusted "the transaction has a non-zero TRC20 call_value")
      else do
        checkFeeLimit rawFields feeLimitSun
        let selector ← decodeHex trc20TransferSelectorHex
        let parameter ← decodeHex parameterHex
        let data ← oneBytes payload 4 "TriggerSmartContract.data"
        if data ≠ selector ++ parameter then
          fail (untrusted "the transaction has different TRC20 transfer data")
        else .ok ()

/-- The structural part of `verify_contract`, on the decoded bytes. -/
def checkContract (raw recipient : List UInt8) (transfer : TronTransfer)
    (feeLimitSun : Option Nat) : Outcome Unit := do
  let rawFields ← parseFields raw
  let contract ← parseSingleContract rawFields
  match transfer with
  | .native amountSun => verifyNative contract recipient amountSun
  | .trc20 parameterHex => verifyTrc20 rawFields contract recipient parameterHex feeLimitSun

def verifyContract (ext : Address.Crates) (rawDataHex toAddr txid : String)
    (transfer : TronTransfer) (feeLimitSun : Option Nat) : Outcome Unit := do
  let expectedId ← recomputeTxid ext rawDataHex
  if eqIgnoreAsciiCase expectedId (trim txid) = false then fail altered
  else do
    let raw ← decodeHex rawDataHex
    let toHex ← addressOutcome (Address.Tron.toHex ext toAddr)
    let expectedRecipient ← decodeHex toHex
    checkContract raw expectedRecipient transfer feeLimitSun

/-- The four messages the checker opens, each held by exactly one field of the
one around it. -/
structure Layers (raw : List UInt8) where
  rawFields : List Field
  contract : List UInt8
  contractFields : List Field
  kind : Nat
  any : List UInt8
  anyFields : List Field
  url : List UInt8
  typeUrl : String
  payload : List UInt8
  payloadFields : List Field
  raw_parses : Parses raw rawFields
  contract_only : rawFields.filter (·.number = 11) = [⟨11, .bytes contract⟩]
  contract_parses : Parses contract contractFields
  kind_only : contractFields.filter (·.number = 1) = [⟨1, .varint kind⟩]
  any_only : contractFields.filter (·.number = 2) = [⟨2, .bytes any⟩]
  any_parses : Parses any anyFields
  url_only : anyFields.filter (·.number = 1) = [⟨1, .bytes url⟩]
  url_text : fromUtf8 url = some typeUrl
  payload_only : anyFields.filter (·.number = 2) = [⟨2, .bytes payload⟩]
  payload_parses : Parses payload payloadFields

/-- The comparisons made on the opened payload. -/
def Layers.Accepts {raw : List UInt8} (layers : Layers raw) (recipient : List UInt8)
    (feeLimitSun : Option Nat) : TronTransfer → Prop
  | .native amountSun =>
    layers.kind = contractTypeTransfer ∧ endsWith layers.typeUrl ".TransferContract" = true ∧
      layers.payloadFields.filter (·.number = 2) = [⟨2, .bytes recipient⟩] ∧
      layers.payloadFields.filter (·.number = 3) = [⟨3, .varint amountSun⟩]
  | .trc20 parameterHex =>
    layers.kind = contractTypeTriggerSmartContract ∧
      endsWith layers.typeUrl ".TriggerSmartContract" = true ∧
      layers.payloadFields.filter (·.number = 2) = [⟨2, .bytes recipient⟩] ∧
      (layers.payloadFields.filter (·.number = 3) = [] ∨
        layers.payloadFields.filter (·.number = 3) = [⟨3, .varint 0⟩]) ∧
      checkFeeLimit layers.rawFields feeLimitSun = .ok () ∧
      ∃ parameter, decodeHex parameterHex = .ok parameter ∧
        layers.payloadFields.filter (·.number = 4) =
          [⟨4, .bytes ([0xa9, 0x05, 0x9c, 0xbb] ++ parameter)⟩]

theorem parseSingleContract_ok_iff {rawFields : List Field} {parsed : ParsedContract} :
    parseSingleContract rawFields = .ok parsed ↔
      ∃ contract contractFields any anyFields url,
        rawFields.filter (·.number = 11) = [⟨11, .bytes contract⟩] ∧
        Parses contract contractFields ∧
        contractFields.filter (·.number = 1) = [⟨1, .varint parsed.kind⟩] ∧
        contractFields.filter (·.number = 2) = [⟨2, .bytes any⟩] ∧
        Parses any anyFields ∧
        anyFields.filter (·.number = 1) = [⟨1, .bytes url⟩] ∧
        fromUtf8 url = some parsed.typeUrl ∧
        anyFields.filter (·.number = 2) = [⟨2, .bytes parsed.payload⟩] := by
  simp only [parseSingleContract, bind_ok_iff, oneBytes_ok_iff, oneVarint_ok_iff,
    parseFields_ok_iff]
  constructor
  · rintro ⟨contract, h11, contractFields, hcontract, kind, hkind, any, h2, anyFields, hany,
      url, hurl, h⟩
    split at h
    · cases h
    next typeUrl htext =>
    obtain ⟨payload, hpayload, h⟩ := bind_ok_iff.mp h
    cases h
    exact ⟨contract, contractFields, any, anyFields, url, h11, hcontract, hkind, h2, hany, hurl,
      htext, oneBytes_ok_iff.mp hpayload⟩
  · rintro ⟨contract, contractFields, any, anyFields, url, h11, hcontract, hkind, h2, hany, hurl,
      htext, hpayload⟩
    refine ⟨contract, h11, contractFields, hcontract, parsed.kind, hkind, any, h2, anyFields,
      hany, url, hurl, ?_⟩
    rw [htext]
    exact bind_ok_iff.mpr ⟨parsed.payload, oneBytes_ok_iff.mpr hpayload, rfl⟩

theorem verifyNative_ok_iff {contract : ParsedContract} {recipient : List UInt8}
    {amountSun : Nat} :
    verifyNative contract recipient amountSun = .ok () ↔
      contract.kind = contractTypeTransfer ∧
        endsWith contract.typeUrl ".TransferContract" = true ∧
        ∃ fields, Parses contract.payload fields ∧
          fields.filter (·.number = 2) = [⟨2, .bytes recipient⟩] ∧
          fields.filter (·.number = 3) = [⟨3, .varint amountSun⟩] := by
  unfold verifyNative
  constructor
  · intro h
    split at h
    · cases h
    next hkind =>
    obtain ⟨fields, hfields, h⟩ := bind_ok_iff.mp h
    obtain ⟨toAddress, hto, h⟩ := bind_ok_iff.mp h
    split at h
    · cases h
    next hrecipient =>
    obtain ⟨amount, hamount, h⟩ := bind_ok_iff.mp h
    split at h
    · cases h
    next hequal =>
    simp only [not_or, ne_eq, not_not, Bool.not_eq_false] at hkind hrecipient hequal
    subst hrecipient hequal
    exact ⟨hkind.1, hkind.2, fields, parseFields_ok_iff.mp hfields, oneBytes_ok_iff.mp hto,
      oneVarint_ok_iff.mp hamount⟩
  · rintro ⟨hkind, hurl, fields, hfields, hto, hamount⟩
    rw [if_neg (by simp [hkind, hurl])]
    refine bind_ok_iff.mpr ⟨fields, parseFields_ok_iff.mpr hfields, ?_⟩
    refine bind_ok_iff.mpr ⟨recipient, oneBytes_ok_iff.mpr hto, ?_⟩
    rw [if_neg (by simp)]
    refine bind_ok_iff.mpr ⟨amountSun, oneVarint_ok_iff.mpr hamount, ?_⟩
    rw [if_neg (by simp)]

theorem decodeHex_selector :
    decodeHex trc20TransferSelectorHex = .ok [0xa9, 0x05, 0x9c, 0xbb] := by
  decide +kernel

theorem verifyTrc20_ok_iff {rawFields : List Field} {contract : ParsedContract}
    {recipient : List UInt8} {parameterHex : String} {feeLimitSun : Option Nat} :
    verifyTrc20 rawFields contract recipient parameterHex feeLimitSun = .ok () ↔
      contract.kind = contractTypeTriggerSmartContract ∧
        endsWith contract.typeUrl ".TriggerSmartContract" = true ∧
        ∃ fields, Parses contract.payload fields ∧
          fields.filter (·.number = 2) = [⟨2, .bytes recipient⟩] ∧
          (fields.filter (·.number = 3) = [] ∨ fields.filter (·.number = 3) = [⟨3, .varint 0⟩]) ∧
          checkFeeLimit rawFields feeLimitSun = .ok () ∧
          ∃ parameter, decodeHex parameterHex = .ok parameter ∧
            fields.filter (·.number = 4) =
              [⟨4, .bytes ([0xa9, 0x05, 0x9c, 0xbb] ++ parameter)⟩] := by
  unfold verifyTrc20
  constructor
  · intro h
    split at h
    · cases h
    next hkind =>
    obtain ⟨fields, hfields, h⟩ := bind_ok_iff.mp h
    obtain ⟨address, haddress, h⟩ := bind_ok_iff.mp h
    split at h
    · cases h
    next hrecipient =>
    obtain ⟨callValue, hvalue, h⟩ := bind_ok_iff.mp h
    split at h
    · cases h
    next hzero =>
    obtain ⟨_, hfee, h⟩ := bind_ok_iff.mp h
    obtain ⟨selector, hselector, h⟩ := bind_ok_iff.mp h
    have hbytes := Except.ok.inj (decodeHex_selector.symm.trans hselector)
    obtain ⟨parameter, hparameter, h⟩ := bind_ok_iff.mp h
    obtain ⟨data, hdata, h⟩ := bind_ok_iff.mp h
    split at h
    · cases h
    next hsame =>
    simp only [not_or, ne_eq, not_not, Bool.not_eq_false] at hkind hrecipient hzero hsame
    subst hrecipient hsame hbytes
    refine ⟨hkind.1, hkind.2, fields, parseFields_ok_iff.mp hfields, oneBytes_ok_iff.mp haddress,
      ?_, hfee, parameter, hparameter, oneBytes_ok_iff.mp hdata⟩
    cases callValue with
    | none => exact Or.inl (optionalVarint_none_iff.mp hvalue)
    | some value =>
      have hvalueZero : value = 0 := hzero
      subst hvalueZero
      exact Or.inr (optionalVarint_some_iff.mp hvalue)
  · rintro ⟨hkind, hurl, fields, hfields, haddress, hvalue, hfee, parameter, hparameter, hdata⟩
    rw [if_neg (by simp [hkind, hurl])]
    refine bind_ok_iff.mpr ⟨fields, parseFields_ok_iff.mpr hfields, ?_⟩
    refine bind_ok_iff.mpr ⟨recipient, oneBytes_ok_iff.mpr haddress, ?_⟩
    rw [if_neg (by simp)]
    have hcall : ∃ callValue, optionalVarint fields 3 "TriggerSmartContract.call_value" =
        .ok callValue ∧ callValue.getD 0 = 0 := by
      rcases hvalue with hnone | hzero
      · exact ⟨none, optionalVarint_none_iff.mpr hnone, rfl⟩
      · exact ⟨some 0, optionalVarint_some_iff.mpr hzero, rfl⟩
    obtain ⟨callValue, hcall, hzero⟩ := hcall
    refine bind_ok_iff.mpr ⟨callValue, hcall, ?_⟩
    rw [if_neg (by simp [hzero])]
    refine bind_ok_iff.mpr ⟨(), hfee, ?_⟩
    refine bind_ok_iff.mpr ⟨_, decodeHex_selector, ?_⟩
    refine bind_ok_iff.mpr ⟨parameter, hparameter, ?_⟩
    refine bind_ok_iff.mpr ⟨_, oneBytes_ok_iff.mpr hdata, ?_⟩
    rw [if_neg (by simp)]

theorem toHex_decodeHex_ok_iff {ext : Address.Crates} {toAddr : String} {recipient : List UInt8} :
    (addressOutcome (Address.Tron.toHex ext toAddr) >>= decodeHex) = .ok recipient ↔
      Address.Tron.decode ext toAddr = .ok recipient := by
  simp only [Address.Tron.toHex]
  cases hdecode : Address.Tron.decode ext toAddr with
  | error e =>
    constructor <;> intro h <;> cases h
  | ok bytes =>
    constructor
    · intro h
      obtain ⟨text, htext, h⟩ := bind_ok_iff.mp h
      cases htext
      have hsame : bytes = recipient := Except.ok.inj ((decodeHex_hexLower bytes).symm.trans h)
      rw [hsame]
    · intro h
      obtain rfl : bytes = recipient := Except.ok.inj h
      exact bind_ok_iff.mpr ⟨hexLower bytes, rfl, decodeHex_hexLower bytes⟩

/-- What the parser opened, as layers. -/
theorem exists_layers {raw : List UInt8} {rawFields fields : List Field} {parsed : ParsedContract}
    (hfields : Parses raw rawFields) (hparsed : parseSingleContract rawFields = .ok parsed)
    (hparse : Parses parsed.payload fields) :
    ∃ layers : Layers raw, layers.rawFields = rawFields ∧ layers.kind = parsed.kind ∧
      layers.typeUrl = parsed.typeUrl ∧ layers.payloadFields = fields := by
  obtain ⟨contract, contractFields, any, anyFields, url, h11, hcontract, hkind, h2, hany, hurl,
    htext, hpayload⟩ := parseSingleContract_ok_iff.mp hparsed
  exact ⟨⟨rawFields, contract, contractFields, parsed.kind, any, anyFields, url, parsed.typeUrl,
    parsed.payload, fields, hfields, h11, hcontract, hkind, h2, hany, hurl, htext, hpayload,
    hparse⟩, rfl, rfl, rfl, rfl⟩

theorem Layers.parseSingleContract_ok {raw : List UInt8} (layers : Layers raw) :
    parseSingleContract layers.rawFields = .ok ⟨layers.kind, layers.typeUrl, layers.payload⟩ :=
  parseSingleContract_ok_iff.mpr ⟨layers.contract, layers.contractFields, layers.any,
    layers.anyFields, layers.url, layers.contract_only, layers.contract_parses, layers.kind_only,
    layers.any_only, layers.any_parses, layers.url_only, layers.url_text, layers.payload_only⟩

theorem checkContract_ok_iff {raw recipient : List UInt8} {transfer : TronTransfer}
    {feeLimitSun : Option Nat} :
    checkContract raw recipient transfer feeLimitSun = .ok () ↔
      ∃ layers : Layers raw, layers.Accepts recipient feeLimitSun transfer := by
  unfold checkContract
  constructor
  · intro h
    obtain ⟨rawFields, hfields, h⟩ := bind_ok_iff.mp h
    obtain ⟨parsed, hparsed, h⟩ := bind_ok_iff.mp h
    cases transfer with
    | native amountSun =>
      obtain ⟨hk, hu, fields, hparse, haccept⟩ := verifyNative_ok_iff.mp h
      obtain ⟨layers, -, hlk, hlu, hlf⟩ :=
        exists_layers (parseFields_ok_iff.mp hfields) hparsed hparse
      refine ⟨layers, ?_⟩
      simp only [Layers.Accepts, hlk, hlu, hlf]
      exact ⟨hk, hu, haccept⟩
    | trc20 parameterHex =>
      obtain ⟨hk, hu, fields, hparse, haccept⟩ := verifyTrc20_ok_iff.mp h
      obtain ⟨layers, hlr, hlk, hlu, hlf⟩ :=
        exists_layers (parseFields_ok_iff.mp hfields) hparsed hparse
      refine ⟨layers, ?_⟩
      simp only [Layers.Accepts, hlr, hlk, hlu, hlf]
      exact ⟨hk, hu, haccept⟩
  · rintro ⟨layers, haccept⟩
    refine bind_ok_iff.mpr ⟨layers.rawFields, parseFields_ok_iff.mpr layers.raw_parses, ?_⟩
    refine bind_ok_iff.mpr ⟨_, layers.parseSingleContract_ok, ?_⟩
    cases transfer with
    | native amountSun =>
      obtain ⟨hk, hu, hrest⟩ := haccept
      exact verifyNative_ok_iff.mpr ⟨hk, hu, layers.payloadFields, layers.payload_parses, hrest⟩
    | trc20 parameterHex =>
      obtain ⟨hk, hu, hrest⟩ := haccept
      exact verifyTrc20_ok_iff.mpr ⟨hk, hu, layers.payloadFields, layers.payload_parses, hrest⟩

/-- The transaction id is the digest of the bytes, and the bytes pass the
structural check. -/
theorem verifyContract_ok_iff {ext : Address.Crates} {rawDataHex toAddr txid : String}
    {transfer : TronTransfer} {feeLimitSun : Option Nat} :
    verifyContract ext rawDataHex toAddr txid transfer feeLimitSun = .ok () ↔
      ∃ raw recipient, decodeHex rawDataHex = .ok raw ∧
        eqIgnoreAsciiCase (hexLower (ext.sha256 raw)) (trim txid) = true ∧
        Address.Tron.decode ext toAddr = .ok recipient ∧
        checkContract raw recipient transfer feeLimitSun = .ok () := by
  unfold verifyContract recomputeTxid
  constructor
  · intro h
    obtain ⟨expectedId, hid, h⟩ := bind_ok_iff.mp h
    obtain ⟨raw, hraw, hid⟩ := bind_ok_iff.mp hid
    cases hid
    split at h
    · cases h
    next htxid =>
    obtain ⟨again, hagain, h⟩ := bind_ok_iff.mp h
    obtain rfl : raw = again := Except.ok.inj (hraw.symm.trans hagain)
    obtain ⟨toHex, hhex, h⟩ := bind_ok_iff.mp h
    obtain ⟨recipient, hrecipient, h⟩ := bind_ok_iff.mp h
    have hdecode := toHex_decodeHex_ok_iff.mp (bind_ok_iff.mpr ⟨toHex, hhex, hrecipient⟩)
    exact ⟨raw, recipient, hraw, by simpa using htxid, hdecode, h⟩
  · rintro ⟨raw, recipient, hraw, htxid, hdecode, haccept⟩
    obtain ⟨toHex, hhex, hrecipient⟩ := bind_ok_iff.mp (toHex_decodeHex_ok_iff.mpr hdecode)
    refine bind_ok_iff.mpr ⟨_, bind_ok_iff.mpr ⟨raw, hraw, rfl⟩, ?_⟩
    rw [if_neg (by simp [htxid])]
    refine bind_ok_iff.mpr ⟨raw, hraw, ?_⟩
    refine bind_ok_iff.mpr ⟨toHex, hhex, ?_⟩
    exact bind_ok_iff.mpr ⟨recipient, hrecipient, haccept⟩

end TronVerify

import TinyWallet.Tron.Verify

/-!
# What an accepted Tron transaction does on the node

Two questions about the transactions `verify_contract` accepts: whether the
node decodes the same contract from the same bytes, and whether that contract
moves only what was asked for. The first fails when a field key does not fit 32
bits, the second when such a key stands for a field that executes, or when a
trigger carries a token value that is not looked at.
-/

namespace TronAcceptance

open RustText TronProto TronReference TronVerify

def Holds (outer : List UInt8) (number : Nat) (inner : List UInt8) : Prop :=
  ∃ fields, parseFields outer = .ok fields ∧ ⟨number, .bytes inner⟩ ∈ fields

/-- `Transaction.raw`, its contract, the contract's `Any` and the `Any`'s value. -/
def Opens (raw bytes : List UInt8) : Prop :=
  bytes = raw ∨ Holds raw 11 bytes ∨ (∃ contract, Holds raw 11 contract ∧ Holds contract 2 bytes) ∨
    ∃ contract any, Holds raw 11 contract ∧ Holds contract 2 any ∧ Holds any 2 bytes

/-- Every field key of every opened message is below 2^32. -/
def KeysFit (raw : List UInt8) : Prop :=
  ∀ bytes fields, Opens raw bytes → parseFields bytes = .ok fields →
    ∀ field ∈ fields, field.number < 2 ^ 29

/-- Every field number the parser returns is one the node sees. -/
def NumbersSeen (raw : List UInt8) : Prop :=
  ∀ bytes fields, Opens raw bytes → parseFields bytes = .ok fields →
    ∃ seen, readFields bytes = some seen ∧
      ∀ field ∈ fields, ∃ other ∈ seen, other.number = field.number

/-- The node's own reading of the transaction, compared with the request. -/
def NodeReads (raw recipient : List UInt8) : TronTransfer → Prop
  | .native amountSun =>
    ∃ contract typeUrl fields, contracts raw = some [contract] ∧
      contract.kind = contractTypeTransfer ∧ fromUtf8 contract.typeUrl = some typeUrl ∧
      endsWith typeUrl ".TransferContract" = true ∧ readFields contract.payload = some fields ∧
      TransferContract.ofFields fields = ⟨recipient, amountSun⟩
  | .trc20 parameterHex =>
    ∃ contract typeUrl fields parameter, contracts raw = some [contract] ∧
      contract.kind = contractTypeTriggerSmartContract ∧
      fromUtf8 contract.typeUrl = some typeUrl ∧
      endsWith typeUrl ".TriggerSmartContract" = true ∧
      readFields contract.payload = some fields ∧ decodeHex parameterHex = .ok parameter ∧
      (TriggerSmartContract.ofFields fields).contractAddress = recipient ∧
      (TriggerSmartContract.ofFields fields).data = [0xa9, 0x05, 0x9c, 0xbb] ++ parameter ∧
      (TriggerSmartContract.ofFields fields).callValue = 0

def AgreesWithNode (ext : Address.Crates) (rawDataHex toAddr : String)
    (transfer : TronTransfer) : Prop :=
  ∃ raw recipient, decodeHex rawDataHex = .ok raw ∧
    Address.Tron.decode ext toAddr = .ok recipient ∧ NodeReads raw recipient transfer ∧
    NumbersSeen raw

section Layers

variable {raw : List UInt8} (layers : Layers raw)

theorem holds_of_only {outer inner value : List UInt8} {fields : List Field} {number : Nat}
    (parses : Parses outer fields)
    (only : fields.filter (·.number = number) = [⟨number, .bytes value⟩])
    (h : Holds outer number inner) : inner = value := by
  obtain ⟨others, hothers, hmem⟩ := h
  have hsame : others = fields :=
    Except.ok.inj (hothers.symm.trans (parseFields_ok_iff.mpr parses))
  subst hsame
  have hfiltered : (⟨number, .bytes inner⟩ : Field) ∈ others.filter (·.number = number) :=
    List.mem_filter.mpr ⟨hmem, by simp⟩
  rw [only] at hfiltered
  simpa using hfiltered

theorem holds_only {outer value : List UInt8} {fields : List Field} {number : Nat}
    (parses : Parses outer fields)
    (only : fields.filter (·.number = number) = [⟨number, .bytes value⟩]) :
    Holds outer number value := by
  refine ⟨fields, parseFields_ok_iff.mpr parses, ?_⟩
  have hmem : (⟨number, .bytes value⟩ : Field) ∈ fields.filter (·.number = number) := by
    rw [only]
    exact List.mem_singleton_self _
  exact (List.mem_filter.mp hmem).1

theorem opens_iff (bytes : List UInt8) :
    Opens raw bytes ↔ bytes = raw ∨ bytes = layers.contract ∨ bytes = layers.any ∨
      bytes = layers.payload := by
  have hcontract := holds_only layers.raw_parses layers.contract_only
  have hany := holds_only layers.contract_parses layers.any_only
  have hpayload := holds_only layers.any_parses layers.payload_only
  constructor
  · rintro (rfl | h | ⟨contract, hc, h⟩ | ⟨contract, any, hc, ha, h⟩)
    · exact Or.inl rfl
    · exact Or.inr (Or.inl (holds_of_only layers.raw_parses layers.contract_only h))
    · obtain rfl := holds_of_only layers.raw_parses layers.contract_only hc
      exact Or.inr (Or.inr (Or.inl (holds_of_only layers.contract_parses layers.any_only h)))
    · obtain rfl := holds_of_only layers.raw_parses layers.contract_only hc
      obtain rfl := holds_of_only layers.contract_parses layers.any_only ha
      exact Or.inr (Or.inr (Or.inr (holds_of_only layers.any_parses layers.payload_only h)))
  · rintro (rfl | rfl | rfl | rfl)
    · exact Or.inl rfl
    · exact Or.inr (Or.inl hcontract)
    · exact Or.inr (Or.inr (Or.inl ⟨_, hcontract, hany⟩))
    · exact Or.inr (Or.inr (Or.inr ⟨_, _, hcontract, hany, hpayload⟩))

theorem readFields_of_keysFit {bytes : List UInt8} {fields : List Field}
    (fit : KeysFit raw) (opens : Opens raw bytes) (parses : Parses bytes fields) :
    readFields bytes = some fields :=
  readFields_of_small parses (fit bytes fields opens (parseFields_ok_iff.mpr parses))

theorem numbersSeen_iff_keysFit : NumbersSeen raw ↔ KeysFit raw := by
  constructor
  · intro seen bytes fields hopens hparse field hfield
    obtain ⟨others, hothers, hall⟩ := seen bytes fields hopens hparse
    obtain ⟨other, hother, hnumber⟩ := hall field hfield
    rw [← hnumber]
    exact readFields_number_lt hothers other hother
  · intro fit bytes fields hopens hparse
    exact ⟨fields, readFields_of_keysFit fit hopens (parseFields_ok_iff.mp hparse),
      fun field hfield => ⟨field, hfield, rfl⟩⟩

/-- With keys that fit, the node opens the same four messages. -/
theorem contracts_of_keysFit (fit : KeysFit raw) :
    contracts raw = some [⟨layers.kind % 2 ^ 32, layers.url, layers.payload⟩] := by
  have hraw := readFields_of_keysFit fit (Or.inl rfl) layers.raw_parses
  have hcontract := readFields_of_keysFit fit
    ((opens_iff layers _).mpr (Or.inr (Or.inl rfl))) layers.contract_parses
  have hany := readFields_of_keysFit fit
    ((opens_iff layers _).mpr (Or.inr (Or.inr (Or.inl rfl)))) layers.any_parses
  have hread : readContract layers.contract =
      some ⟨layers.kind % 2 ^ 32, layers.url, layers.payload⟩ := by
    simp [readContract, hcontract, lastBytes_of_only layers.any_only, hany,
      lastVarint_of_only layers.kind_only, lastBytes_of_only layers.url_only,
      lastBytes_of_only layers.payload_only]
  simp [contracts, hraw, bytesOf_of_only layers.contract_only, hread]

theorem nodeReads_of_keysFit (fit : KeysFit raw) {recipient : List UInt8}
    {feeLimitSun : Option Nat} {transfer : TronTransfer}
    (accepts : layers.Accepts recipient feeLimitSun transfer) :
    NodeReads raw recipient transfer := by
  have hpayload := readFields_of_keysFit fit
    ((opens_iff layers _).mpr (Or.inr (Or.inr (Or.inr rfl)))) layers.payload_parses
  cases transfer with
  | native amountSun =>
    obtain ⟨hkind, hurl, hto, hamount⟩ := accepts
    refine ⟨_, layers.typeUrl, layers.payloadFields, contracts_of_keysFit layers fit, ?_,
      layers.url_text, hurl, hpayload, ?_⟩
    · rw [hkind]
      rfl
    · simp [TransferContract.ofFields, lastBytes_of_only hto, lastVarint_of_only hamount]
  | trc20 parameterHex =>
    obtain ⟨hkind, hurl, hto, hvalue, _, parameter, hparameter, hdata⟩ := accepts
    refine ⟨_, layers.typeUrl, layers.payloadFields, parameter,
      contracts_of_keysFit layers fit, ?_, layers.url_text, hurl, hpayload, hparameter, ?_, ?_, ?_⟩
    · rw [hkind]
      rfl
    · simp [TriggerSmartContract.ofFields, lastBytes_of_only hto]
    · simp [TriggerSmartContract.ofFields, lastBytes_of_only hdata]
    · rcases hvalue with hnone | hzero
      · simp [TriggerSmartContract.ofFields, lastVarint_of_none hnone]
      · simp [TriggerSmartContract.ofFields, lastVarint_of_only hzero]

end Layers

/-- An accepted transaction is the node's transaction exactly when every field
key the checker read survives the node's truncation to 32 bits. -/
theorem accepted_agrees_with_node_iff (ext : Address.Crates) (rawDataHex toAddr txid : String)
    (transfer : TronTransfer) (feeLimitSun : Option Nat) (raw : List UInt8)
    (decoded : decodeHex rawDataHex = .ok raw)
    (accepted : verifyContract ext rawDataHex toAddr txid transfer feeLimitSun = .ok ()) :
    AgreesWithNode ext rawDataHex toAddr transfer ↔ KeysFit raw := by
  obtain ⟨bytes, recipient, hbytes, _, hrecipient, hcheck⟩ := verifyContract_ok_iff.mp accepted
  obtain ⟨layers, haccepts⟩ := checkContract_ok_iff.mp hcheck
  obtain rfl : raw = bytes := Except.ok.inj (decoded.symm.trans hbytes)
  constructor
  · rintro ⟨bytes, _, hagain, _, _, hseen⟩
    obtain rfl : raw = bytes := Except.ok.inj (decoded.symm.trans hagain)
    exact numbersSeen_iff_keysFit.mp hseen
  · intro fit
    exact ⟨raw, recipient, decoded, hrecipient, nodeReads_of_keysFit layers fit haccepts,
      numbersSeen_iff_keysFit.mpr fit⟩

-- The addresses, digests and bytes of the samples are real: the tables stand for
-- base58check and SHA-256 at the inputs they are asked about.

/-- The `length` low bytes of a number, most significant first. -/
def beBytes (length n : Nat) : List UInt8 :=
  (List.range length).map fun i => UInt8.ofNat (n >>> (8 * (length - 1 - i)))

def requested : String := "TR7NHqjeKQxGTCi8q8ZY4pL8otSzgjLj6t"

def requestedBytes : List UInt8 := beBytes 21 0x41a614f803b6fd780986a42c78ec9c7f77e6ded13c

def elsewhereBytes : List UInt8 := beBytes 21 0x4178c842ee63b253f8f0d2955bbc582c661a078c9d

def sampleOwner : String := "TJRabPrwbZy45sbavfcjinPJC18kjpRTv8"

def sampleOwnerBytes : List UInt8 := beBytes 21 0x415cbdd86a2fa8dc4bddd8a8f69dba48572eec07fb

/-- The crates at one transaction and two addresses. -/
def sampleCrates (raw digest : List UInt8) : Address.Crates where
  sha256 bytes := if bytes = raw then digest else []
  base58Decode _ := .error "not in the table"
  base58CheckDecode version text :=
    if version ≠ some Address.Tron.mainnetVersion then .error "not in the table"
    else if text = requested then .ok requestedBytes
    else if text = sampleOwner then .ok sampleOwnerBytes
    else .error "not in the table"
  base58Encode _ := ""
  segwitDecode _ := .error "not in the table"
  onCurve _ := false

theorem decode_requested (raw digest : List UInt8) :
    Address.Tron.decode (sampleCrates raw digest) requested = .ok requestedBytes := by
  have htrim : trim requested = requested := by decide +kernel
  have hsome : ¬requested = "" := by decide +kernel
  have hlength : requestedBytes.length = Address.Tron.addressBytes := by decide +kernel
  simp [Address.Tron.decode, htrim, hsome, sampleCrates, hlength]

theorem decode_sampleOwner (raw digest : List UInt8) :
    Address.Tron.decode (sampleCrates raw digest) sampleOwner = .ok sampleOwnerBytes := by
  have htrim : trim sampleOwner = sampleOwner := by decide +kernel
  have hsome : ¬sampleOwner = "" := by decide +kernel
  have hother : ¬sampleOwner = requested := by decide +kernel
  have hlength : sampleOwnerBytes.length = Address.Tron.addressBytes := by decide +kernel
  simp [Address.Tron.decode, htrim, hsome, sampleCrates, hother, hlength]

theorem verifyContract_sample {raw digest : List UInt8} {transfer : TronTransfer}
    (h : checkContract raw requestedBytes transfer none = .ok ()) :
    verifyContract (sampleCrates raw digest) (hexLower raw) requested (hexLower digest) transfer
      none = .ok () := by
  refine verifyContract_ok_iff.mpr ⟨raw, requestedBytes, decodeHex_hexLower raw, ?_,
    decode_requested raw digest, h⟩
  simp [sampleCrates, trim_hexLower, eqIgnoreAsciiCase]

/-- A transfer of 1 TRX to the requested address. -/
def plainRaw : List UInt8 :=
  beBytes 40 0x5a500801124c0a2d747970652e676f6f676c65617069732e636f6d2f70726f746f636f6c2e547261 ++
    beBytes 40 0x6e73666572436f6e7472616374121b121541a614f803b6fd780986a42c78ec9c7f77e6ded13c18c0 ++
    beBytes 2 0x843d

def plainTxid : List UInt8 :=
  beBytes 32 0x41ae7c36188ff26b3e6246e114df0cf07a3d2e394575ba3e2c24d7ba76b0a7ad

theorem plain_transfer_agrees_iff_keysFit :
    AgreesWithNode (sampleCrates plainRaw plainTxid) (hexLower plainRaw) requested
      (.native 1000000) ↔ KeysFit plainRaw :=
  accepted_agrees_with_node_iff (sampleCrates plainRaw plainTxid) (hexLower plainRaw) requested
    (hexLower plainTxid) (.native 1000000) none plainRaw (decodeHex_hexLower plainRaw)
    (verifyContract_sample (by decide +kernel))

/-- The same transfer with a further field of number 2^29 + 2, whose key
truncates to that of `to_address`. -/
def smuggledRaw : List UInt8 :=
  beBytes 40 0x5a6b080112670a2d747970652e676f6f676c65617069732e636f6d2f70726f746f636f6c2e547261 ++
    beBytes 40 0x6e73666572436f6e74726163741236121541a614f803b6fd780986a42c78ec9c7f77e6ded13c18c0 ++
    beBytes 29 0x843d9280808010154178c842ee63b253f8f0d2955bbc582c661a078c9d

def smuggledTxid : List UInt8 :=
  beBytes 32 0x9734eba275f1674f5b7f6d355869a5805bef9f4f565f1925107a032620dd7ff8

/-- The recipient a node reads out of a native transfer. -/
def nodeRecipient (raw : List UInt8) : Option (List UInt8) := do
  let found ← contracts raw
  let contract ← found.head?
  let fields ← readFields contract.payload
  some (TransferContract.ofFields fields).toAddress

/-- The checker accepts it and the node pays the other address. -/
theorem smuggled_recipient_disagrees :
    verifyContract (sampleCrates smuggledRaw smuggledTxid) (hexLower smuggledRaw) requested
        (hexLower smuggledTxid) (.native 1000000) none = .ok () ∧
      nodeRecipient smuggledRaw = some elsewhereBytes ∧
      ¬AgreesWithNode (sampleCrates smuggledRaw smuggledTxid) (hexLower smuggledRaw) requested
        (.native 1000000) := by
  have hnode : nodeRecipient smuggledRaw = some elsewhereBytes := by decide +kernel
  refine ⟨verifyContract_sample (by decide +kernel), hnode, ?_⟩
  rintro ⟨raw, recipient, hraw, hrecipient, ⟨contract, _, fields, hcontracts, _, _, _, hfields,
    hread⟩, _⟩
  obtain rfl : smuggledRaw = raw :=
    Except.ok.inj ((decodeHex_hexLower smuggledRaw).symm.trans hraw)
  obtain rfl : requestedBytes = recipient :=
    Except.ok.inj ((decode_requested smuggledRaw smuggledTxid).symm.trans hrecipient)
  have hsame : nodeRecipient smuggledRaw = some requestedBytes := by
    simp [nodeRecipient, hcontracts, hfields, hread]
  exact absurd (hsame.symm.trans hnode) (by decide +kernel)

/-- The one contract that the node reads out of `raw`, each message it opens and each
field that says what it is being given once. -/
def SingleContract (raw : List UInt8) (kind : Nat) (suffix : String) (payload : List Field) :
    Prop :=
  ∃ rawFields contract contractFields any anyFields url typeUrl bytes,
    readFields raw = some rawFields ∧
    rawFields.filter (·.number = 11) = [⟨11, .bytes contract⟩] ∧
    readFields contract = some contractFields ∧
    contractFields.filter (·.number = 1) = [⟨1, .varint kind⟩] ∧
    contractFields.filter (·.number = 2) = [⟨2, .bytes any⟩] ∧
    readFields any = some anyFields ∧
    anyFields.filter (·.number = 1) = [⟨1, .bytes url⟩] ∧ fromUtf8 url = some typeUrl ∧
    endsWith typeUrl suffix = true ∧ anyFields.filter (·.number = 2) = [⟨2, .bytes bytes⟩] ∧
    readFields bytes = some payload

/-- The contract that the node reads executes the request and moves nothing else. -/
def MovesOnlyRequested (raw recipient : List UInt8) : TronTransfer → Prop
  | .native amountSun =>
    ∃ payload, SingleContract raw contractTypeTransfer ".TransferContract" payload ∧
      payload.filter (·.number = 2) = [⟨2, .bytes recipient⟩] ∧
      payload.filter (·.number = 3) = [⟨3, .varint amountSun⟩]
  | .trc20 parameterHex =>
    ∃ payload parameter,
      SingleContract raw contractTypeTriggerSmartContract ".TriggerSmartContract" payload ∧
      decodeHex parameterHex = .ok parameter ∧
      payload.filter (·.number = 2) = [⟨2, .bytes recipient⟩] ∧
      payload.filter (·.number = 4) = [⟨4, .bytes ([0xa9, 0x05, 0x9c, 0xbb] ++ parameter)⟩] ∧
      (TriggerSmartContract.ofFields payload).callValue = 0 ∧
      (TriggerSmartContract.ofFields payload).callTokenValue = 0

/-- No key that does not fit 32 bits makes the node take a field for one of `numbers`,
or refuse it. -/
def Unmistaken (numbers : List Nat) (fields : List Field) : Prop :=
  ∀ field ∈ fields, field.number % 2 ^ 29 ≠ 0 ∧
    (field.number % 2 ^ 29 ∈ numbers → field.number < 2 ^ 29)

/-- What the node takes for the varint `number` is absent or zero. -/
def Worthless (number : Nat) (fields : List Field) : Prop :=
  (lastVarint number (fields.map seen)).getD 0 = 0

/-- The fields of a payload that are compared with the request. -/
def compared : TronTransfer → List Nat
  | .native _ => [2, 3]
  | .trc20 _ => [2, 4]

/-- A trigger carries neither TRX nor a token. -/
def CarriesNothing : TronTransfer → List Field → Prop
  | .native _, _ => True
  | .trc20 _, fields => Worthless 3 fields ∧ Worthless 5 fields

/-- What the checker does not look at: wide keys at the four levels it opens, and the
value that a trigger carries. -/
structure NothingSmuggled (raw : List UInt8) (transfer : TronTransfer) : Prop where
  contract : ∀ fields, parseFields raw = .ok fields → Unmistaken [11] fields
  any : ∀ bytes fields, Holds raw 11 bytes → parseFields bytes = .ok fields →
    Unmistaken [1, 2] fields
  payload : ∀ contract bytes fields, Holds raw 11 contract → Holds contract 2 bytes →
    parseFields bytes = .ok fields → Unmistaken [1, 2] fields
  executed : ∀ contract any bytes fields, Holds raw 11 contract → Holds contract 2 any →
    Holds any 2 bytes → parseFields bytes = .ok fields →
      Unmistaken (compared transfer) fields ∧ CarriesNothing transfer fields

theorem readFields_of_unmistaken {numbers : List Nat} {bytes : List UInt8} {fields : List Field}
    (parses : Parses bytes fields) (h : Unmistaken numbers fields) :
    readFields bytes = some (fields.map seen) :=
  readFields_of_parses parses fun field hfield => (h field hfield).1

/-- The node finds the checker's own fields under a number nothing is mistaken for. -/
theorem filter_seen {numbers : List Nat} {fields : List Field} (h : Unmistaken numbers fields)
    {number : Nat} (listed : number ∈ numbers) (small : number < 2 ^ 29) :
    (fields.map seen).filter (·.number = number) = fields.filter (·.number = number) := by
  induction fields with
  | nil => rfl
  | cons field fields ih =>
    have hrest := ih fun other hother => h other (List.mem_cons_of_mem _ hother)
    have hsame : (seen field).number = number ↔ field.number = number := by
      constructor
      · intro hcut
        have hfits := (h field List.mem_cons_self).2 (by
          rw [show field.number % 2 ^ 29 = number from hcut]
          exact listed)
        rw [seen_of_small hfits] at hcut
        exact hcut
      · intro hnumber
        rw [seen_of_small (by omega)]
        exact hnumber
    by_cases hnumber : field.number = number
    · have hfield : seen field = field := seen_of_small (by omega)
      rw [List.map_cons, List.filter_cons_of_pos (by simpa using hsame.mpr hnumber),
        List.filter_cons_of_pos (by simpa using hnumber), hrest, hfield]
    · have hcut : ¬(seen field).number = number := fun hcut => hnumber (hsame.mp hcut)
      rw [List.map_cons, List.filter_cons_of_neg (by simpa using hcut),
        List.filter_cons_of_neg (by simpa using hnumber), hrest]

/-- A number that both readers find once, the node finds with the checker's value, and
no wide key is mistaken for it. -/
theorem only_seen {fields : List Field} {number : Nat} {value found : Value}
    (only : fields.filter (·.number = number) = [⟨number, value⟩])
    (once : (fields.map seen).filter (·.number = number) = [⟨number, found⟩])
    (small : number < 2 ^ 29) :
    found = value ∧ ∀ field ∈ fields, field.number % 2 ^ 29 = number → field.number < 2 ^ 29 := by
  have hmem : (⟨number, value⟩ : Field) ∈ fields.filter (·.number = number) := by
    rw [only]
    exact List.mem_singleton_self _
  have hmine : (⟨number, value⟩ : Field) ∈ fields := (List.mem_filter.mp hmem).1
  have hpart : ∀ field ∈ fields, field.number % 2 ^ 29 = number →
      seen field = ⟨number, found⟩ := by
    intro field hfield hcut
    have hseen : seen field ∈ (fields.map seen).filter (·.number = number) :=
      List.mem_filter.mpr ⟨List.mem_map_of_mem hfield, decide_eq_true hcut⟩
    rw [once] at hseen
    exact List.mem_singleton.mp hseen
  have hvalue := hpart _ hmine (Nat.mod_eq_of_lt small)
  rw [seen_of_small (show (⟨number, value⟩ : Field).number < 2 ^ 29 from small)] at hvalue
  refine ⟨by injection hvalue with _ hvalue; exact hvalue.symm, ?_⟩
  -- of two fields under one number, one filtered list would hold both
  have hlength : (fields.filter fun field => field.number % 2 ^ 29 = number).length = 1 := by
    have hcount := congrArg List.length once
    rw [List.filter_map, List.length_map] at hcount
    exact hcount
  obtain ⟨kept, hkept⟩ := List.length_eq_one_iff.mp hlength
  intro field hfield hcut
  have h₁ : field ∈ fields.filter fun field => field.number % 2 ^ 29 = number :=
    List.mem_filter.mpr ⟨hfield, by simpa using hcut⟩
  have h₂ : (⟨number, value⟩ : Field) ∈
      fields.filter fun field => field.number % 2 ^ 29 = number :=
    List.mem_filter.mpr ⟨hmine, by simpa using Nat.mod_eq_of_lt small⟩
  rw [hkept, List.mem_singleton] at h₁ h₂
  rw [h₁, ← h₂]
  exact small

section Layers

variable {raw : List UInt8} (layers : Layers raw)

theorem nothingSmuggled_iff {transfer : TronTransfer} :
    NothingSmuggled raw transfer ↔ Unmistaken [11] layers.rawFields ∧
      Unmistaken [1, 2] layers.contractFields ∧ Unmistaken [1, 2] layers.anyFields ∧
      Unmistaken (compared transfer) layers.payloadFields ∧
      CarriesNothing transfer layers.payloadFields := by
  have hcontract := holds_only layers.raw_parses layers.contract_only
  have hany := holds_only layers.contract_parses layers.any_only
  have hpayload := holds_only layers.any_parses layers.payload_only
  constructor
  · intro h
    have hexecuted := h.executed _ _ _ _ hcontract hany hpayload
      (parseFields_ok_iff.mpr layers.payload_parses)
    exact ⟨h.contract _ (parseFields_ok_iff.mpr layers.raw_parses),
      h.any _ _ hcontract (parseFields_ok_iff.mpr layers.contract_parses),
      h.payload _ _ _ hcontract hany (parseFields_ok_iff.mpr layers.any_parses), hexecuted.1,
      hexecuted.2⟩
  · rintro ⟨h₁, h₂, h₃, h₄, h₅⟩
    constructor
    · intro fields hparse
      obtain rfl := Except.ok.inj (hparse.symm.trans (parseFields_ok_iff.mpr layers.raw_parses))
      exact h₁
    · intro bytes fields hholds hparse
      obtain rfl := holds_of_only layers.raw_parses layers.contract_only hholds
      obtain rfl := Except.ok.inj
        (hparse.symm.trans (parseFields_ok_iff.mpr layers.contract_parses))
      exact h₂
    · intro contract bytes fields hholds hinner hparse
      obtain rfl := holds_of_only layers.raw_parses layers.contract_only hholds
      obtain rfl := holds_of_only layers.contract_parses layers.any_only hinner
      obtain rfl := Except.ok.inj (hparse.symm.trans (parseFields_ok_iff.mpr layers.any_parses))
      exact h₃
    · intro contract any bytes fields hholds hinner hlast hparse
      obtain rfl := holds_of_only layers.raw_parses layers.contract_only hholds
      obtain rfl := holds_of_only layers.contract_parses layers.any_only hinner
      obtain rfl := holds_of_only layers.any_parses layers.payload_only hlast
      obtain rfl := Except.ok.inj
        (hparse.symm.trans (parseFields_ok_iff.mpr layers.payload_parses))
      exact ⟨h₄, h₅⟩

theorem singleContract_of_layers (h₁ : Unmistaken [11] layers.rawFields)
    (h₂ : Unmistaken [1, 2] layers.contractFields) (h₃ : Unmistaken [1, 2] layers.anyFields)
    {numbers : List Nat} (h₄ : Unmistaken numbers layers.payloadFields) {suffix : String}
    (hsuffix : endsWith layers.typeUrl suffix = true) :
    SingleContract raw layers.kind suffix (layers.payloadFields.map seen) := by
  refine ⟨_, layers.contract, _, layers.any, _, layers.url, layers.typeUrl, layers.payload,
    readFields_of_unmistaken layers.raw_parses h₁, ?_,
    readFields_of_unmistaken layers.contract_parses h₂, ?_, ?_,
    readFields_of_unmistaken layers.any_parses h₃, ?_, layers.url_text, hsuffix, ?_,
    readFields_of_unmistaken layers.payload_parses h₄⟩
  · rw [filter_seen h₁ (by decide) (by decide), layers.contract_only]
  · rw [filter_seen h₂ (by decide) (by decide), layers.kind_only]
  · rw [filter_seen h₂ (by decide) (by decide), layers.any_only]
  · rw [filter_seen h₃ (by decide) (by decide), layers.url_only]
  · rw [filter_seen h₃ (by decide) (by decide), layers.payload_only]

/-- Whatever single contract the node reads is in the layers of the checker. -/
theorem layers_of_singleContract {kind : Nat} {suffix : String} {payload : List Field}
    (single : SingleContract raw kind suffix payload) :
    Unmistaken [11] layers.rawFields ∧ Unmistaken [1, 2] layers.contractFields ∧
      Unmistaken [1, 2] layers.anyFields ∧ payload = layers.payloadFields.map seen ∧
      ∀ field ∈ layers.payloadFields, field.number % 2 ^ 29 ≠ 0 := by
  obtain ⟨rawFields, contract, contractFields, any, anyFields, url, typeUrl, bytes, hraw,
    hcontract, hcontractFields, hkind, hany, hanyFields, hurl, -, -, hbytes, hpayload⟩ := single
  obtain ⟨hnonzero, rfl⟩ := readFields_nonzero layers.raw_parses hraw
  obtain ⟨hsame, hcontractOnly⟩ := only_seen layers.contract_only hcontract (by decide)
  obtain rfl := Value.bytes.inj hsame
  obtain ⟨hnonzero₂, rfl⟩ := readFields_nonzero layers.contract_parses hcontractFields
  obtain ⟨-, hkindOnly⟩ := only_seen layers.kind_only hkind (by decide)
  obtain ⟨hsame, hanyOnly⟩ := only_seen layers.any_only hany (by decide)
  obtain rfl := Value.bytes.inj hsame
  obtain ⟨hnonzero₃, rfl⟩ := readFields_nonzero layers.any_parses hanyFields
  obtain ⟨-, hurlOnly⟩ := only_seen layers.url_only hurl (by decide)
  obtain ⟨hsame, hbytesOnly⟩ := only_seen layers.payload_only hbytes (by decide)
  obtain rfl := Value.bytes.inj hsame
  obtain ⟨hnonzero₄, rfl⟩ := readFields_nonzero layers.payload_parses hpayload
  refine ⟨fun field hfield => ⟨hnonzero field hfield, fun hlisted => ?_⟩,
    fun field hfield => ⟨hnonzero₂ field hfield, fun hlisted => ?_⟩,
    fun field hfield => ⟨hnonzero₃ field hfield, fun hlisted => ?_⟩, rfl, hnonzero₄⟩
  · exact hcontractOnly field hfield (List.mem_singleton.mp hlisted)
  · rcases List.mem_pair.mp hlisted with hone | htwo
    · exact hkindOnly field hfield hone
    · exact hanyOnly field hfield htwo
  · rcases List.mem_pair.mp hlisted with hone | htwo
    · exact hurlOnly field hfield hone
    · exact hbytesOnly field hfield htwo

end Layers

/-- For the node the last of several wins, which of one is that one. -/
theorem SingleContract.contracts {raw : List UInt8} {kind : Nat} {suffix : String}
    {payload : List Field} (single : SingleContract raw kind suffix payload) :
    ∃ url bytes typeUrl, TronReference.contracts raw = some [⟨kind % 2 ^ 32, url, bytes⟩] ∧
      fromUtf8 url = some typeUrl ∧ endsWith typeUrl suffix = true ∧
      readFields bytes = some payload := by
  obtain ⟨rawFields, contract, contractFields, any, anyFields, url, typeUrl, bytes, hraw,
    hcontract, hcontractFields, hkind, hany, hanyFields, hurl, htext, hsuffix, hbytes,
    hpayload⟩ := single
  refine ⟨url, bytes, typeUrl, ?_, htext, hsuffix, hpayload⟩
  have hread : readContract contract = some ⟨kind % 2 ^ 32, url, bytes⟩ := by
    simp [readContract, hcontractFields, lastBytes_of_only hany, hanyFields,
      lastVarint_of_only hkind, lastBytes_of_only hurl, lastBytes_of_only hbytes]
  simp [TronReference.contracts, hraw, bytesOf_of_only hcontract, hread]

theorem MovesOnlyRequested.nodeReads {raw recipient : List UInt8} {transfer : TronTransfer}
    (h : MovesOnlyRequested raw recipient transfer) : NodeReads raw recipient transfer := by
  cases transfer with
  | native amountSun =>
    obtain ⟨payload, single, hto, hamount⟩ := h
    obtain ⟨url, bytes, typeUrl, hcontracts, htext, hsuffix, hpayload⟩ := single.contracts
    refine ⟨_, typeUrl, payload, hcontracts, rfl, htext, hsuffix, hpayload, ?_⟩
    simp [TransferContract.ofFields, lastBytes_of_only hto, lastVarint_of_only hamount]
  | trc20 parameterHex =>
    obtain ⟨payload, parameter, single, hparameter, hto, hdata, hvalue, -⟩ := h
    obtain ⟨url, bytes, typeUrl, hcontracts, htext, hsuffix, hpayload⟩ := single.contracts
    refine ⟨_, typeUrl, payload, parameter, hcontracts, rfl, htext, hsuffix, hpayload, hparameter,
      ?_, ?_, hvalue⟩
    · simp [TriggerSmartContract.ofFields, lastBytes_of_only hto]
    · simp [TriggerSmartContract.ofFields, lastBytes_of_only hdata]

/-- Every comparison is made on the field that executes, except where a wide key stands
for another field and for the token value of a trigger, which nobody reads. -/
theorem accepted_moves_only_requested_iff (ext : Address.Crates)
    (rawDataHex toAddr txid : String) (transfer : TronTransfer) (feeLimitSun : Option Nat)
    (raw recipient : List UInt8) (decoded : decodeHex rawDataHex = .ok raw)
    (address : Address.Tron.decode ext toAddr = .ok recipient)
    (accepted : verifyContract ext rawDataHex toAddr txid transfer feeLimitSun = .ok ()) :
    recipient.length = 21 ∧
      (MovesOnlyRequested raw recipient transfer ↔ NothingSmuggled raw transfer) ∧
      (MovesOnlyRequested raw recipient transfer → NodeReads raw recipient transfer) := by
  refine ⟨Address.Tron.decode_length address, ?_, MovesOnlyRequested.nodeReads⟩
  obtain ⟨bytes, found, hbytes, _, hfound, hcheck⟩ := verifyContract_ok_iff.mp accepted
  obtain ⟨layers, haccepts⟩ := checkContract_ok_iff.mp hcheck
  obtain rfl : raw = bytes := Except.ok.inj (decoded.symm.trans hbytes)
  obtain rfl : recipient = found := Except.ok.inj (address.symm.trans hfound)
  rw [nothingSmuggled_iff layers]
  cases transfer with
  | native amountSun =>
    obtain ⟨hkind, hurl, hto, hamount⟩ := haccepts
    constructor
    · rintro ⟨payload, single, hpaid, hsum⟩
      obtain ⟨h₁, h₂, h₃, rfl, hnonzero⟩ := layers_of_singleContract layers single
      obtain ⟨-, htoOnly⟩ := only_seen hto hpaid (by decide)
      obtain ⟨-, hamountOnly⟩ := only_seen hamount hsum (by decide)
      refine ⟨h₁, h₂, h₃, fun field hfield => ⟨hnonzero field hfield, fun hlisted => ?_⟩, trivial⟩
      rcases List.mem_pair.mp hlisted with htwo | hthree
      · exact htoOnly field hfield htwo
      · exact hamountOnly field hfield hthree
    · rintro ⟨h₁, h₂, h₃, h₄, -⟩
      have single := singleContract_of_layers layers h₁ h₂ h₃ h₄ hurl
      rw [hkind] at single
      refine ⟨_, single, ?_, ?_⟩
      · rw [filter_seen h₄ (by simp [compared]) (by decide), hto]
      · rw [filter_seen h₄ (by simp [compared]) (by decide), hamount]
  | trc20 parameterHex =>
    obtain ⟨hkind, hurl, hto, _, _, parameter, hparameter, hdata⟩ := haccepts
    constructor
    · rintro ⟨payload, _, single, _, hpaid, hcall, hvalue, htoken⟩
      obtain ⟨h₁, h₂, h₃, rfl, hnonzero⟩ := layers_of_singleContract layers single
      obtain ⟨-, htoOnly⟩ := only_seen hto hpaid (by decide)
      obtain ⟨-, hdataOnly⟩ := only_seen hdata hcall (by decide)
      refine ⟨h₁, h₂, h₃, fun field hfield => ⟨hnonzero field hfield, fun hlisted => ?_⟩, hvalue,
        htoken⟩
      rcases List.mem_pair.mp hlisted with htwo | hfour
      · exact htoOnly field hfield htwo
      · exact hdataOnly field hfield hfour
    · rintro ⟨h₁, h₂, h₃, h₄, hvalue, htoken⟩
      have single := singleContract_of_layers layers h₁ h₂ h₃ h₄ hurl
      rw [hkind] at single
      refine ⟨_, parameter, single, hparameter, ?_, ?_, hvalue, htoken⟩
      · rw [filter_seen h₄ (by simp [compared]) (by decide), hto]
      · rw [filter_seen h₄ (by simp [compared]) (by decide), hdata]

/-- `transfer(address,uint256)` arguments: 5 tokens to the other address. -/
def sampleParameter : List UInt8 :=
  beBytes 40 0x00000000000000000000000078c842ee63b253f8f0d2955bbc582c661a078c9d0000000000000000 ++
    beBytes 24 0x0000000000000000000000000000000000000000004c4b40

def triggerRaw : List UInt8 :=
  beBytes 40 0x5a9701081f1292010a31747970652e676f6f676c65617069732e636f6d2f70726f746f636f6c2e54 ++
    beBytes 40 0x726967676572536d617274436f6e7472616374125d121541a614f803b6fd780986a42c78ec9c7f77 ++
    beBytes 40 0xe6ded13c2244a9059cbb00000000000000000000000078c842ee63b253f8f0d2955bbc582c661a07 ++
    beBytes 34 0x8c9d00000000000000000000000000000000000000000000000000000000004c4b40

def triggerTxid : List UInt8 :=
  beBytes 32 0x16ad663eae978c8e94bd22bd59f54b98f0c2cacf6a2977c5f57ac48f4ccadef3

theorem plain_trigger_moves_only_requested_iff :
    requestedBytes.length = 21 ∧
      (MovesOnlyRequested triggerRaw requestedBytes (.trc20 (hexLower sampleParameter)) ↔
        NothingSmuggled triggerRaw (.trc20 (hexLower sampleParameter))) ∧
      (MovesOnlyRequested triggerRaw requestedBytes (.trc20 (hexLower sampleParameter)) →
        NodeReads triggerRaw requestedBytes (.trc20 (hexLower sampleParameter))) :=
  accepted_moves_only_requested_iff (sampleCrates triggerRaw triggerTxid) (hexLower triggerRaw)
    requested (hexLower triggerTxid) (.trc20 (hexLower sampleParameter)) none triggerRaw
    requestedBytes (decodeHex_hexLower triggerRaw) (decode_requested triggerRaw triggerTxid)
    (verifyContract_sample (by decide +kernel))

/-- The same trigger with 700 units of token 1002000 attached. -/
def tokenRaw : List UInt8 :=
  beBytes 40 0x5a9e01081f1299010a31747970652e676f6f676c65617069732e636f6d2f70726f746f636f6c2e54 ++
    beBytes 40 0x726967676572536d617274436f6e74726163741264121541a614f803b6fd780986a42c78ec9c7f77 ++
    beBytes 40 0xe6ded13c2244a9059cbb00000000000000000000000078c842ee63b253f8f0d2955bbc582c661a07 ++
    beBytes 40 0x8c9d00000000000000000000000000000000000000000000000000000000004c4b4028bc05309094 ++
    beBytes 1 0x3d

def tokenTxid : List UInt8 :=
  beBytes 32 0x791ae2500193156d01195d4c4c9f11f8c1955c40d94855f6be685692d8c4f3f4

/-- The token value that the node finds in the one contract of `raw`. -/
def tokenValue (raw : List UInt8) : Option Nat := do
  let found ← contracts raw
  let contract ← found.head?
  let fields ← readFields contract.payload
  some (TriggerSmartContract.ofFields fields).callTokenValue

theorem attached_token_value_accepted :
    verifyContract (sampleCrates tokenRaw tokenTxid) (hexLower tokenRaw) requested
        (hexLower tokenTxid) (.trc20 (hexLower sampleParameter)) none = .ok () ∧
      tokenValue tokenRaw = some 700 ∧
      ¬MovesOnlyRequested tokenRaw requestedBytes (.trc20 (hexLower sampleParameter)) := by
  have hattached : tokenValue tokenRaw = some 700 := by decide +kernel
  refine ⟨verifyContract_sample (by decide +kernel), hattached, ?_⟩
  rintro ⟨payload, _, single, _, _, _, _, htoken⟩
  obtain ⟨url, bytes, _, hcontracts, _, _, hpayload⟩ := single.contracts
  have hzero : tokenValue tokenRaw = some 0 := by
    simp [tokenValue, hcontracts, hpayload, htoken]
  exact absurd (hzero.symm.trans hattached) (by decide)

end TronAcceptance

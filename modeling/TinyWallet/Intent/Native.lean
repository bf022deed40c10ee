import TinyWallet.Intent.Checks
import TinyWallet.Module.Approvals

/-!
# What a matching native intent pays

An intent and a quote each stand for a transfer. Matching is sound where every
intent that matches a quote stands for the quote's own transfer, and complete
where every intent the engine presents for a quote matches it. Both hold but
for token transfers: the check does not read a TRC-20 parameter or an SPL
message, it expects a TRC-20 call to go to the recipient, and it expects an
ERC-20 recipient to be written with its prefix.
-/

namespace NativeIntent

open RustText Numerals JsonValue Programs Wire Engine TronVerify ExecutionProtocol Intent

inductive Asset where
  | coin
  | token (address : Option String)
deriving DecidableEq, Repr

/-- A payment of one asset to one account; `amount` is `none` where a text is not
a number. -/
structure Transfer where
  chain : WalletChain
  chainId : Option Nat
  asset : Asset
  recipient : String
  amount : Option Nat
deriving DecidableEq, Repr

/-- EVM addresses are hex, so their letter case does not matter. -/
def account (chain : WalletChain) (address : String) : String :=
  if chain = .evm then toAsciiLowercase address else address

def requested (quote : PreparedTransaction) : Transfer where
  chain := quote.chain
  chainId := if quote.chain = .evm then some (quote.evmNetwork.getD .ethereumMainnet).chainId
    else none
  asset := match quote.kind with
    | .nativeTransfer => .coin
    | .tokenTransfer => .token (quote.tokenAddress.map (account quote.chain))
  recipient := account quote.chain quote.toAddress
  amount := units quote.amountRaw

/-- A call of `transfer(address,uint256)`: its recipient and amount. -/
def decodeTransferCall (dataHex : String) : Option (String × Nat) :=
  match hexDecode ((stripHexPrefix dataHex).getD dataHex).toList with
  | none => none
  | some bytes =>
    if bytes.length = 68 ∧ bytes.take 4 = Erc20.transferSelector ∧
        (bytes.drop 4).take 12 = List.replicate 12 0 then
      some ("0x" ++ hexLower ((bytes.drop 16).take 20), Rlp.fromBe (bytes.drop 36))
    else none

/-- The transfer an intent stands for. A Tron intent names its transfer beside the
bytes: those and their id are free here, and are held to the transfer before
they are signed. -/
inductive Describes (host : Host) (sender : String) : NativeWalletExecutionIntent → Transfer → Prop
  | btc (recipient : String) (amountSat feeSat : Nat) (utxos : List Utxo) :
      Describes host sender (.transaction (.btc sender recipient amountSat feeSat utxos))
        ⟨.btc, none, .coin, recipient, some amountSat⟩
  | evm (target valueWei : String) (nonce gasLimit : Nat) (gasPriceWei : String) (chainId : Nat) :
      Describes host sender
        (.transaction (.evm target valueWei "" nonce gasLimit gasPriceWei chainId))
        ⟨.evm, some chainId, .coin, account .evm target, units valueWei⟩
  | erc20 {target valueWei dataHex recipient : String} {amount : Nat} (nonce gasLimit : Nat)
      (gasPriceWei : String) (chainId : Nat) (free : units valueWei = some 0)
      (call : decodeTransferCall dataHex = some (recipient, amount)) :
      Describes host sender
        (.transaction (.evm target valueWei dataHex nonce gasLimit gasPriceWei chainId))
        ⟨.evm, some chainId, .token (some (account .evm target)), recipient, some amount⟩
  | solana (recipient : String) (lamports : Nat) (recentBlockhash : String) :
      Describes host sender (.transaction (.solana sender recipient lamports recentBlockhash))
        ⟨.solana, none, .coin, recipient, some lamports⟩
  | spl {messageHex recipient mintAddr : String} {amount : Nat} {message : List UInt8}
      (decoded : hexDecode messageHex.toList = some message)
      (moves : Solana.SplTransfer host sender recipient mintAddr amount message) :
      Describes host sender (.solanaMessage messageHex)
        ⟨.solana, none, .token (some mintAddr), recipient, some amount⟩
  | trx (rawDataHex recipient txid : String) (amountSun : Nat) :
      Describes host sender (.transaction (.tron rawDataHex recipient txid (.native amountSun)))
        ⟨.tron, none, .coin, recipient, some amountSun⟩
  | trc20 {contract recipient toHex parameterHex : String} {amount : Nat} (rawDataHex txid : String)
      (address : Address.Tron.toHex host.ext recipient = .ok toHex)
      (encoded : Tron.encodeTrc20TransferParam host toHex amount = .ok parameterHex) :
      Describes host sender
        (.transaction (.tron rawDataHex contract txid (.trc20 parameterHex)))
        ⟨.tron, none, .token (some contract), recipient, some amount⟩

/-- The calldata of a transfer, byte for byte. -/
def transferCalldata (recipient amount : List UInt8) : List UInt8 :=
  Erc20.transferSelector ++ List.replicate 12 0 ++ recipient ++ amount

theorem expected_calldata {address : String} {recipient amount : List UInt8}
    (hrecipient : hexDecode address.toList = some recipient) (hlength : recipient.length = 20) :
    "a9059cbb" ++ zeroPadded 64 (toAsciiLowercase address) ++ hexLower amount =
      hexLower (transferCalldata recipient amount) := by
  have hlower : toAsciiLowercase address = hexLower recipient := by
    apply String.toList_injective
    rw [hexLower_hexDecode hrecipient]
    simp [toAsciiLowercase]
  have hchars : (hexLower recipient).toList.length = 40 := by
    have := hexDecode_length (hexDecode_hexLower recipient)
    omega
  have hselector : hexLower Erc20.transferSelector = "a9059cbb" := by decide +kernel
  have hzeros : hexLower (List.replicate 12 0) = String.ofList (List.replicate 24 '0') := by
    decide +kernel
  have hpadded : zeroPadded 64 (hexLower recipient) =
      hexLower (List.replicate 12 0) ++ hexLower recipient := by
    rw [hzeros, zeroPadded, hchars]
    apply String.toList_injective
    simp
  rw [hlower, hpadded, transferCalldata, hexLower_append, hexLower_append, hexLower_append,
    hselector]
  simp only [String.append_assoc]

theorem decodeTransferCall_calldata {dataHex : String} {recipient amount : List UInt8}
    (h : hexDecode ((stripHexPrefix dataHex).getD dataHex).toList =
      some (transferCalldata recipient amount))
    (hrecipient : recipient.length = 20) (hamount : amount.length = 32) :
    decodeTransferCall dataHex = some ("0x" ++ hexLower recipient, Rlp.fromBe amount) := by
  have hlength : (transferCalldata recipient amount).length = 68 := by
    simp [transferCalldata, Erc20.transferSelector, hrecipient, hamount]
  have hfirst : (transferCalldata recipient amount).take 4 = Erc20.transferSelector := by
    simp [transferCalldata, Erc20.transferSelector]
  have hzeros : ((transferCalldata recipient amount).drop 4).take 12 = List.replicate 12 0 := by
    simp [transferCalldata, Erc20.transferSelector]
  have hto : ((transferCalldata recipient amount).drop 16).take 20 = recipient := by
    simp [transferCalldata, Erc20.transferSelector, hrecipient]
  have hvalue : (transferCalldata recipient amount).drop 36 = amount := by
    simp [transferCalldata, Erc20.transferSelector, hrecipient]
  simp only [decodeTransferCall, h, hlength, hfirst, hzeros, hto, hvalue, and_self, if_true]

/-- An address as the calldata check reads it. -/
theorem strip_address {recipient address : String} (h : stripHexPrefix recipient = some address) :
    toAsciiLowercase recipient = "0x" ++ toAsciiLowercase address := by
  have cases : recipient = "0x" ++ address ∨ recipient = "0X" ++ address := by
    simp only [stripHexPrefix, Option.orElse_eq_some] at h
    rcases h with h | ⟨_, h⟩
    · exact .inl (strip_eq h)
    · exact .inr (strip_eq h)
  rcases cases with rfl | rfl <;> simp [toAsciiLowercase] <;> rfl

theorem hexDecode_address {address : String} (hlength : byteLen address.toList = 40)
    (hdigits : address.toList.all isAsciiHexDigit = true) :
    ∃ bytes, hexDecode address.toList = some bytes ∧ bytes.length = 20 := by
  rw [byteLen_of_hex hdigits] at hlength
  obtain ⟨bytes, hbytes⟩ := hexDecode_of_digits (by omega) hdigits
  have := hexDecode_length hbytes
  exact ⟨bytes, hbytes, by omega⟩

/-- The check's reader takes a text of digits whose number has 256 bits. -/
theorem decimalU256Word_iff {text word : String} :
    decimalU256Word text = some word ↔
      Erc20.Fits text ∧ word = hexLower (Rlp.toBe 32 (Erc20.value text)) := by
  have hread : decimalU256Word text = some word ↔ ∃ bytes,
      ((text.toList.isEmpty || !text.toList.all isAsciiDigit) = false ∧
        LongDecimal.decimalInto 16 text.toList (List.replicate 32 0) = some bytes) ∧
      hexLower bytes = word := by
    rw [decimalU256Word]
    cases text.toList.isEmpty || !text.toList.all isAsciiDigit <;> simp
  rw [hread]
  constructor
  · rintro ⟨bytes, h, rfl⟩
    obtain ⟨hfits, hbytes⟩ := (Erc20.decimalInto_fits (show 12 ≤ 16 by decide)).mp h
    rw [hbytes]
    exact ⟨hfits, rfl⟩
  · rintro ⟨hfits, hword⟩
    exact ⟨_, (Erc20.decimalInto_fits (show 12 ≤ 16 by decide)).mpr ⟨hfits, rfl⟩, hword.symm⟩

theorem decimalU256Word_spec {amount word : String} (h : decimalU256Word amount = some word) :
    ∃ bytes, word = hexLower bytes ∧ bytes.length = 32 ∧
      units amount = some (Rlp.fromBe bytes) := by
  obtain ⟨hfits, hword⟩ := decimalU256Word_iff.mp h
  refine ⟨_, hword, Rlp.length_toBe 32 _, ?_⟩
  rw [Erc20.fromBe_value hfits, Erc20.units_of_fits hfits]

/-- Calldata that matches is the transfer call it should be. -/
theorem evmTransferDataMatches_spec {data recipient amount : String}
    (h : evmTransferDataMatches data recipient amount = true) :
    ∃ n, units amount = some n ∧
      decodeTransferCall data = some (toAsciiLowercase recipient, n) := by
  unfold evmTransferDataMatches at h
  split at h
  · cases h
  · next address hstrip =>
    split at h
    · cases h
    · next haddress =>
      simp only [Bool.or_eq_true, decide_eq_true_eq, not_or, not_not, Bool.not_eq_false] at haddress
      obtain ⟨bytes, hbytes, hbytesLength⟩ := hexDecode_address haddress.1 haddress.2
      split at h
      · cases h
      · next word hword =>
        obtain ⟨value, rfl, hvalueLength, hunits⟩ := decimalU256Word_spec hword
        refine ⟨_, hunits, ?_⟩
        rw [expected_calldata hbytes hbytesLength] at h
        have same : ((stripHexPrefix data).getD data).toList.map Char.toLower =
            (hexLower (transferCalldata bytes value)).toList.map Char.toLower := by
          simpa [eqIgnoreAsciiCase] using h
        have decoded : hexDecode ((stripHexPrefix data).getD data).toList =
            some (transferCalldata bytes value) := by
          rw [← hexDecode_toLower, same, hexDecode_toLower, hexDecode_hexLower]
        rw [decodeTransferCall_calldata decoded hbytesLength hvalueLength, strip_address hstrip]
        have hlower : toAsciiLowercase address = hexLower bytes := by
          apply String.toList_injective
          rw [hexLower_hexDecode hbytes]
          simp [toAsciiLowercase]
        rw [hlower]

theorem u64Is_units {text : String} {value : Nat} (h : u64Is text value = true) :
    units text = some value := by
  unfold u64Is at h
  split at h
  · next amount hparse =>
    simp only [decide_eq_true_eq] at h
    subst h
    exact units_of_parse hparse
  · cases h

theorem requested_coin {quote : PreparedTransaction} {chain : WalletChain} {amount : Nat}
    (hchain : quote.chain = chain) (hevm : chain ≠ .evm) (hkind : quote.kind = .nativeTransfer)
    (hamount : units quote.amountRaw = some amount) :
    requested quote = ⟨chain, none, .coin, quote.toAddress, some amount⟩ := by
  simp [requested, account, hchain, hevm, hkind, hamount]

theorem evm_describes {host : Host} {quote : PreparedTransaction}
    {target valueWei dataHex gasPriceWei : String} {nonce gasLimit chainId : Nat}
    (h : transactionMatchesQuote quote
      (.evm target valueWei dataHex nonce gasLimit gasPriceWei chainId) = true) :
    Describes host quote.fromAddress
      (.transaction (.evm target valueWei dataHex nonce gasLimit gasPriceWei chainId))
      (requested quote) := by
  simp only [transactionMatchesQuote] at h
  split at h
  · cases h
  · next hnetwork =>
    simp only [Bool.or_eq_true, decide_eq_true_eq, not_or, not_not] at hnetwork
    obtain ⟨hchain, rfl⟩ := hnetwork
    cases hkind : quote.kind with
    | nativeTransfer =>
      simp only [hkind, Bool.and_eq_true, decide_eq_true_eq] at h
      obtain ⟨⟨rfl, rfl⟩, rfl⟩ := h
      have asked : requested quote = ⟨.evm, some (quote.evmNetwork.getD .ethereumMainnet).chainId,
          .coin, account .evm quote.toAddress, units quote.amountRaw⟩ := by
        simp [requested, hchain, hkind]
      rw [asked]
      exact .evm _ _ _ _ _ _
    | tokenTransfer =>
      simp only [hkind] at h
      split at h
      · cases h
      · next contract htoken =>
        simp only [Bool.and_eq_true, decide_eq_true_eq] at h
        obtain ⟨⟨hcontract, rfl⟩, hdata⟩ := h
        obtain ⟨n, hunits, hcall⟩ := evmTransferDataMatches_spec hdata
        have hlower : toAsciiLowercase contract = toAsciiLowercase target := by
          simp only [eqIgnoreAsciiCase, beq_iff_eq] at hcontract
          simp only [toAsciiLowercase, hcontract]
        have asked : requested quote = ⟨.evm, some (quote.evmNetwork.getD .ethereumMainnet).chainId,
            .token (some (account .evm target)), toAsciiLowercase quote.toAddress, some n⟩ := by
          simp [requested, account, hchain, hkind, htoken, hunits, hlower]
        rw [asked]
        exact .erc20 _ _ _ _ (by decide) hcall

/-- A transfer whose parameter or message the check reads as mere hex. -/
def Unread (quote : PreparedTransaction) : Prop :=
  quote.kind = .tokenTransfer ∧ (quote.chain = .tron ∨ quote.chain = .solana)

theorem matches_describes {host : Host} {quote : PreparedTransaction}
    {intent : NativeWalletExecutionIntent} (hread : ¬Unread quote)
    (h : nativeIntentMatchesQuote quote intent = true) :
    Describes host quote.fromAddress intent (requested quote) := by
  cases intent with
  | solanaMessage messageHex =>
    simp only [nativeIntentMatchesQuote, Bool.and_eq_true, decide_eq_true_eq] at h
    exact absurd ⟨h.1.2, .inr h.1.1⟩ hread
  | transaction spec =>
    simp only [nativeIntentMatchesQuote] at h
    cases spec with
    | btc sender recipient amountSat feeSat utxos =>
      simp only [transactionMatchesQuote, Bool.and_eq_true, decide_eq_true_eq] at h
      obtain ⟨⟨⟨⟨hchain, hkind⟩, rfl⟩, rfl⟩, hamount⟩ := h
      rw [requested_coin hchain (by decide) hkind (u64Is_units hamount)]
      exact .btc _ _ _ _
    | evm target valueWei dataHex nonce gasLimit gasPriceWei chainId => exact evm_describes h
    | solana sender recipient lamports recentBlockhash =>
      simp only [transactionMatchesQuote, Bool.and_eq_true, decide_eq_true_eq] at h
      obtain ⟨⟨⟨⟨hchain, hkind⟩, rfl⟩, rfl⟩, hamount⟩ := h
      rw [requested_coin hchain (by decide) hkind (u64Is_units hamount)]
      exact .solana _ _ _
    | tron rawDataHex expectedTo txid transfer =>
      simp only [transactionMatchesQuote] at h
      split at h
      · cases h
      · next hquote =>
        simp only [Bool.or_eq_true, decide_eq_true_eq, not_or, not_not] at hquote
        obtain ⟨hchain, rfl⟩ := hquote
        split at h
        · next hkind =>
          rw [requested_coin hchain (by decide) hkind (u64Is_units h)]
          exact .trx _ _ _ _
        · next hkind => exact absurd ⟨hkind, .inl hchain⟩ hread
        · cases h

theorem trc20Param_bytes {host : Host} {toHex parameter : String} {amount : Nat}
    (h : Tron.encodeTrc20TransferParam host toHex amount = .ok parameter) :
    ∃ bytes, parameter = hexLower bytes ∧ bytes.length = 64 := by
  unfold Tron.encodeTrc20TransferParam at h
  split at h
  · cases h
  · split at h
    · cases h
    · next bytes _ hlength =>
      refine ⟨_, (Except.ok.inj h).symm, ?_⟩
      simp only [ne_eq, not_not] at hlength
      simp [Tron.amountWord, hlength]

theorem splTransfer_head {host : Host} {sender recipient mintAddr : String} {amount : Nat}
    {message : List UInt8}
    (h : Solana.SplTransfer host sender recipient mintAddr amount message) :
    message.head? = some 1 := by
  obtain ⟨_, _, _, _, _, _, _, _, _, _, _, _, built⟩ := h
  unfold Solana.buildSplTransferMessage at built
  obtain ⟨_, _, built⟩ := bind_ok_iff.mp built
  cases built
  simp [Solana.encodeMessage]

/-- A text too short to be a transfer's parameter. -/
theorem not_describes_short {host : Host} {sender rawDataHex contract txid parameter : String}
    {transfer : Transfer} (hshort : parameter.toList.length < 128) :
    ¬Describes host sender (.transaction (.tron rawDataHex contract txid (.trc20 parameter)))
      transfer := by
  intro h
  cases h with
  | trc20 _ _ _ encoded =>
    obtain ⟨bytes, rfl, hlength⟩ := trc20Param_bytes encoded
    have := hexDecode_length (hexDecode_hexLower bytes)
    omega

/-- A zero byte is no message. -/
theorem not_describes_zero {host : Host} {sender : String} {transfer : Transfer} :
    ¬Describes host sender (.solanaMessage "00") transfer := by
  intro h
  cases h with
  | spl decoded moves =>
    have byte : hexDecode "00".toList = some [0] := by decide
    rw [byte] at decoded
    cases decoded
    have first := splTransfer_head moves
    simp at first

/-- Matching binds the transfer exactly on the quotes it reads. -/
theorem matching_sound_iff_read (host : Host) (quote : PreparedTransaction) :
    (∀ intent, nativeIntentMatchesQuote quote intent = true →
      Describes host quote.fromAddress intent (requested quote)) ↔ ¬Unread quote := by
  constructor
  · rintro sound ⟨hkind, hchain⟩
    rcases hchain with hchain | hchain
    · have accepted : nativeIntentMatchesQuote quote
          (.transaction (.tron "" quote.toAddress "" (.trc20 "00"))) = true := by
        simp [nativeIntentMatchesQuote, transactionMatchesQuote, hkind, hchain]
        decide
      exact not_describes_short (by decide) (sound _ accepted)
    · have accepted : nativeIntentMatchesQuote quote (.solanaMessage "00") = true := by
        simp [nativeIntentMatchesQuote, hkind, hchain]
        decide
      exact not_describes_zero (sound _ accepted)
  · intro hread intent h
    exact matches_describes hread h

def usdtQuote : PreparedTransaction where
  quoteId := "q_1700000000000_1"
  kind := .tokenTransfer
  chain := .tron
  evmNetwork := none
  fromAddress := "TMuA6YqfCeX8EhbfYEg5y7S4DqzSJireY9"
  toAddress := "TJRabPrwbZy45sbavfcjinPJC18kjpRTv8"
  assetSymbol := "USDT"
  amountRaw := "25000000"
  amountFormatted := "25.000000"
  tokenAddress := some "TR7NHqjeKQxGTCi8q8ZY4pL8otSzgjLj6t"
  estimatedFeeRaw := "15000000"
  status := .awaitingConfirmation
  createdAtMs := 1700000000000
  expiresAtMs := 1700000300000
  notes := []

/-- A parameter that names neither recipient nor amount is accepted. -/
theorem deadbeef_matches_and_pays_nobody :
    nativeIntentMatchesQuote usdtQuote (.transaction
        (.tron "00" "TJRabPrwbZy45sbavfcjinPJC18kjpRTv8" "txid" (.trc20 "deadbeef"))) = true ∧
      ∀ host, ¬Describes host usdtQuote.fromAddress (.transaction
        (.tron "00" "TJRabPrwbZy45sbavfcjinPJC18kjpRTv8" "txid" (.trc20 "deadbeef")))
        (requested usdtQuote) :=
  ⟨by decide +kernel, fun _ => not_describes_short (by decide)⟩

/-- What every prepared transfer satisfies. -/
structure Wellformed (quote : PreparedTransaction) : Prop where
  amount : ∃ n, n < 2 ^ 128 ∧ quote.amountRaw = toString n
  trimmed : trim quote.toAddress = quote.toAddress
  token : quote.chain = .evm → ∀ token, quote.tokenAddress = some token →
    Address.Evm.validate token = .ok token

theorem validate_trims {ext : Address.Crates} {chain : Address.Chain} {address valid : String}
    (h : Address.validate ext chain address = .ok valid) : valid = trim address := by
  cases chain with
  | btc =>
    simp only [Address.validate, Address.Btc.validate] at h
    obtain ⟨trimmed, hempty, h⟩ := bind_ok_iff.mp h
    obtain ⟨_, _, h⟩ := bind_ok_iff.mp h
    cases h
    simp only [Address.Btc.trimmedNonEmpty] at hempty
    split at hempty
    · cases hempty
    · exact (Except.ok.inj hempty).symm
  | evm =>
    simp only [Address.validate, Address.Evm.validate] at h
    repeat' split at h
    all_goals cases h
    rfl
  | solana =>
    simp only [Address.validate, Address.Solana.validate] at h
    cases hdecode : Address.Solana.decode ext address with
    | error e => simp [hdecode, Except.map] at h
    | ok bytes =>
      rw [hdecode] at h
      exact (Except.ok.inj h).symm
  | tron =>
    simp only [Address.validate, Address.Tron.validate] at h
    cases hdecode : Address.Tron.decode ext address with
    | error e => simp [hdecode, Except.map] at h
    | ok bytes =>
      rw [hdecode] at h
      exact (Except.ok.inj h).symm

theorem findAsset_mem {chain : WalletChain} {network : Option EvmNetwork} {symbol : Option String}
    {cluster : SolanaCluster} {asset : Execution.Asset}
    (h : Execution.findAsset chain network symbol cluster = .ok asset) :
    asset ∈ Execution.assetCatalog chain network cluster := by
  unfold Execution.findAsset at h
  dsimp only at h
  split at h
  all_goals
    split at h
    · next hfound =>
      cases h
      exact List.mem_of_find?_eq_some hfound
    · cases h

/-- The catalogued contracts are addresses as they stand. -/
theorem catalog_validates (network : EvmNetwork) :
    ∀ asset ∈ Execution.evmAssetCatalog network, ∀ token, asset.contractAddress = some token →
      Address.Evm.validate token = .ok token := by
  have listed : ∀ asset ∈ Execution.evmAssetCatalog network,
      asset.contractAddress.all (fun token => Address.Evm.validate token = .ok token) = true := by
    cases network <;> decide +kernel
  intro asset hasset token htoken
  have := listed asset hasset
  simpa [htoken] using this

theorem prepareTransfer_returns (host : Host) (owner : Option QuoteOwner)
    (params : Execution.PrepareTransferParams) :
    Returns Wellformed (Execution.prepareTransfer host owner params) := by
  unfold Execution.prepareTransfer
  refine returns_checked fun recipient hrecipient => returns_checked fun amount hamount => ?_
  split
  · exact .fail _
  · refine returns_bind fun account => returns_checked fun asset hasset => ?_
    dsimp only
    split
    · exact .fail _
    · refine returns_bind fun createdAtMs => returns_bind fun quoteId => returns_bind fun _ => ?_
      refine .pure ⟨⟨amount, ?_, rfl⟩, ?_, ?_⟩
      · unfold Execution.validateAmount at hamount
        dsimp only at hamount
        split at hamount
        · cases hamount
        · split at hamount
          · next n hparse =>
            cases hamount
            exact parseRadix_lt (by decide) hparse
          · cases hamount
      · rw [show recipient = trim params.toAddress from validate_trims hrecipient, trim_trim]
      · intro hchain token htoken
        dsimp only at hchain htoken
        have hmem := findAsset_mem hasset
        simp only [hchain, Execution.assetCatalog] at hmem
        exact catalog_validates _ asset hmem token htoken

/-- A validated recipient without its prefix is refused. -/
theorem unprefixed_never_matches {data recipient amount : String}
    (hvalidate : Address.Evm.validate recipient = .ok recipient)
    (hstrip : strip "0x" recipient = none) :
    evmTransferDataMatches data recipient amount = false := by
  obtain ⟨_, _, hdigits⟩ := Address.Evm.validate_spec hvalidate
  have plain : Address.Evm.stripAddress recipient = recipient := by
    simp [Address.Evm.stripAddress, hstrip]
  rw [plain] at hdigits
  have upper : strip "0X" recipient = none := by
    cases hupper : strip "0X" recipient with
    | none => rfl
    | some rest =>
      rw [strip_eq hupper] at hdigits
      simp [isAsciiHexDigit, isAsciiDigit] at hdigits
  simp [evmTransferDataMatches, stripHexPrefix, hstrip, upper]

theorem prefixed_matches {recipient amount address : String} {bytes value : List UInt8}
    (hvalidate : Address.Evm.validate recipient = .ok recipient)
    (hstrip : strip "0x" recipient = some address)
    (hbytes : hexDecode address.toList = some bytes) (hlength : bytes.length = 20)
    (hword : decimalU256Word amount = some (hexLower value)) :
    evmTransferDataMatches ("0x" ++ hexLower (transferCalldata bytes value)) recipient amount =
      true := by
  obtain ⟨_, hsize, hdigits⟩ := Address.Evm.validate_spec hvalidate
  have body : Address.Evm.stripAddress recipient = address := by
    simp [Address.Evm.stripAddress, hstrip]
  rw [body] at hsize hdigits
  have prefixed : stripHexPrefix recipient = some address := by
    simp [stripHexPrefix, hstrip]
  have actual : stripHexPrefix ("0x" ++ hexLower (transferCalldata bytes value)) =
      some (hexLower (transferCalldata bytes value)) := by
    simp [stripHexPrefix, strip]
  simp only [evmTransferDataMatches, prefixed, hsize, hdigits, hword, actual,
    expected_calldata hbytes hlength, Option.getD_some]
  simp [eqIgnoreAsciiCase]

/-- The calldata the engine writes matches where the recipient has its prefix. -/
theorem honest_calldata_matches_iff {quote : PreparedTransaction} (wellformed : Wellformed quote)
    {calldata : String}
    (h : Evm.encodeErc20Transfer quote.toAddress quote.amountRaw = .ok calldata) :
    evmTransferDataMatches calldata quote.toAddress quote.amountRaw = true ↔
      strip "0x" quote.toAddress ≠ none := by
  obtain ⟨recipient, bytes, hvalidate, hbytes, hlength, hfits, rfl⟩ :=
    Erc20.encodeErc20Transfer_ok_iff.mp (mapError_ok h)
  obtain rfl : recipient = quote.toAddress :=
    (Address.Evm.validate_spec hvalidate).1.trans wellformed.trimmed
  obtain ⟨n, _, hamount⟩ := wellformed.amount
  have htrim : trim quote.amountRaw = quote.amountRaw := by rw [hamount, trim_toString]
  rw [htrim] at hfits ⊢
  cases hstrip : strip "0x" quote.toAddress with
  | none => simp [unprefixed_never_matches hvalidate hstrip]
  | some address =>
    have hbody : Address.Evm.stripAddress quote.toAddress = address := by
      rw [Address.Evm.stripAddress, hstrip, Option.getD_some]
    rw [hbody] at hbytes
    have hmatches := prefixed_matches hvalidate hstrip hbytes hlength
      (decimalU256Word_iff.mpr ⟨hfits, rfl⟩)
    simpa [transferCalldata, Erc20.transferCall] using hmatches

/-- The quotes whose honest execution the check refuses. -/
def Refused (quote : PreparedTransaction) : Prop :=
  quote.kind = .tokenTransfer ∧
    (quote.chain = .tron ∧ quote.tokenAddress ≠ some quote.toAddress ∨
      quote.chain = .evm ∧ strip "0x" quote.toAddress = none)

theorem evm_presented_iff {quote : PreparedTransaction} (wellformed : Wellformed quote)
    {target value : String} {data : Option String} {spec : TransactionSpec}
    (hchain : quote.chain = .evm) (hcall : Evm.transferCall quote = .ok (target, value, data))
    (built : EvmSpec (quote.evmNetwork.getD .ethereumMainnet) target value data spec) :
    transactionMatchesQuote quote spec = true ↔ ¬Refused quote := by
  obtain ⟨n, hn, hamount⟩ := wellformed.amount
  obtain ⟨target', value', params, htarget, hvalue, hid, rfl⟩ := built
  have hsame := (Address.Evm.validate_spec htarget).1
  unfold Evm.transferCall at hcall
  cases hkind : quote.kind with
  | nativeTransfer =>
    simp only [hkind] at hcall
    split at hcall
    · cases hcall
    · next recipient hvalidate =>
      cases hcall
      have hrecipient := (Address.Evm.validate_spec hvalidate).1
      rw [wellformed.trimmed] at hrecipient
      rw [hrecipient, wellformed.trimmed] at hsame
      rw [hamount, trim_toString] at hvalue
      have hparsed := Except.ok.inj (hvalue.symm.trans (parseRadix_toString hn))
      simp [transactionMatchesQuote, Evm.spec, Refused, hchain, hkind, hid, hsame, hparsed, hamount]
  | tokenTransfer =>
    simp only [hkind] at hcall
    split at hcall
    · cases hcall
    · next token htoken =>
      split at hcall
      · cases hcall
      · next calldata hcalldata =>
        split at hcall
        · cases hcall
        · next contract hcontract =>
          cases hcall
          have hvalid := Except.ok.inj (hcontract.symm.trans (wellformed.token hchain token htoken))
          have hown := Except.ok.inj
            (htarget.symm.trans (hvalid ▸ wellformed.token hchain token htoken))
          have hzero : value' = 0 := by
            have : parseU128 (trim "0") = .ok 0 := by decide
            exact Except.ok.inj (hvalue.symm.trans this)
          have matching := honest_calldata_matches_iff wellformed hcalldata
          have printed : Nat.repr 0 = "0" := by decide
          simp [transactionMatchesQuote, Evm.spec, Refused, hchain, hkind, hid, htoken, hzero,
            hvalid, hown, eqIgnoreAsciiCase, matching, printed]

theorem validHex_hexLower {bytes : List UInt8} (h : bytes ≠ []) :
    validHex (hexLower bytes) = true := by
  have hlength := hexDecode_length (hexDecode_hexLower bytes)
  have hpos : 0 < bytes.length := List.length_pos_iff.mpr h
  have hall : (hexLower bytes).toList.all isAsciiHexDigit = true := by
    rw [List.all_eq_true]
    intro c hc
    rw [hexLower, String.toList_ofList, List.mem_flatMap] at hc
    obtain ⟨b, _, hc⟩ := hc
    have digits : ∀ n : Fin 16, isAsciiHexDigit (hexDigit n) = true := by decide
    have hb := b.toNat_lt
    rcases List.mem_cons.mp hc with rfl | hc
    · exact digits ⟨b.toNat / 16, by omega⟩
    · rw [List.mem_singleton.mp hc]
      exact digits ⟨b.toNat % 16, by omega⟩
  have hempty : hexLower bytes ≠ "" := by
    intro hnil
    rw [hnil, String.toList_empty, List.length_nil] at hlength
    omega
  simp [validHex, hempty, byteLen_of_hex hall, hlength, hall]

theorem u64Is_of_parse {text : String} {value : Nat} (h : parseU64 text = .ok value) :
    u64Is text value = true := by
  simp [u64Is, h]

theorem tron_presented_iff {host : Host} {quote : PreparedTransaction}
    (wellformed : Wellformed quote) {amount : Nat} {toHex expectedTo : String}
    {transfer : TronTransfer} (hchain : quote.chain = .tron)
    (hamount : parseU128 quote.amountRaw = .ok amount)
    (built : Tron.Built host quote toHex amount expectedTo transfer) (rawDataHex txid : String) :
    transactionMatchesQuote quote (.tron rawDataHex expectedTo txid transfer) = true ↔
      ¬Refused quote := by
  unfold Tron.Built at built
  cases hkind : quote.kind with
  | nativeTransfer =>
    simp only [hkind] at built
    obtain ⟨hsmall, rfl, rfl⟩ := built
    obtain ⟨n, hn, hraw⟩ := wellformed.amount
    rw [hraw] at hamount
    have hparsed := Except.ok.inj (hamount.symm.trans (parseRadix_toString hn))
    subst hparsed
    have hu64 : u64Is quote.amountRaw amount = true := by
      rw [hraw]
      exact u64Is_of_parse (parseRadix_toString hsmall)
    simp [transactionMatchesQuote, Refused, hchain, hkind, hu64]
  | tokenTransfer =>
    simp only [hkind] at built
    obtain ⟨htoken, parameter, encoded, rfl⟩ := built
    obtain ⟨bytes, rfl, hlength⟩ := trc20Param_bytes encoded
    have hhex : validHex (hexLower bytes) = true := by
      refine validHex_hexLower ?_
      rintro rfl
      simp at hlength
    simp [transactionMatchesQuote, Refused, hchain, hkind, htoken, hhex]

/-- Whatever is presented for a quote matches it, or is always refused. -/
theorem presents_matches_iff {host : Host} {quote : PreparedTransaction}
    {intent : NativeWalletExecutionIntent} (wellformed : Wellformed quote)
    (presents : Approvals.Presents host quote intent) :
    nativeIntentMatchesQuote quote intent = true ↔ ¬Refused quote := by
  obtain ⟨e, pays, hintent⟩ := presents
  cases pays with
  | evm chain call built =>
    cases hintent
    exact evm_presented_iff wellformed chain call built
  | btc chain kind amount feeSats utxos =>
    cases hintent
    simp [nativeIntentMatchesQuote, transactionMatchesQuote, Refused, chain, kind,
      u64Is_of_parse amount]
  | solana chain kind amount blockhash =>
    cases hintent
    simp [nativeIntentMatchesQuote, transactionMatchesQuote, Refused, chain, kind,
      u64Is_of_parse amount]
  | @spl _ _ message chain kind amount token built =>
    cases hintent
    have hhex : validHex (hexLower message) = true := by
      refine validHex_hexLower ?_
      rintro rfl
      have first := splTransfer_head built
      simp at first
    simp [nativeIntentMatchesQuote, Refused, chain, kind, hhex]
  | @tron _ _ _ rawDataHex txid _ chain amount recipient built =>
    cases hintent
    exact tron_presented_iff wellformed chain amount built rawDataHex txid

/-- A quote that `prepare_transfer` returned, whatever its lifetime is now. -/
def Prepared (host : Host) (quote : PreparedTransaction) : Prop :=
  ∃ cluster owner params history returned ms,
    Trace (Execution.prepareTransfer { host with cluster } owner params) history (.pure returned) ∧
      quote = { returned with expiresAtMs := ms }

theorem Prepared.wellformed {host : Host} {quote : PreparedTransaction} (h : Prepared host quote) :
    Wellformed quote := by
  obtain ⟨cluster, owner, params, history, returned, ms, trace, rfl⟩ := h
  obtain ⟨amount, trimmed, token⟩ := trace.returns (prepareTransfer_returns _ owner params)
  exact ⟨amount, trimmed, token⟩

section Runs

open ModuleCalls WalletModule

variable {ι : Type} [DecidableEq ι]

/-- In every run of the module, what the host is asked about a prepared quote
matches exactly when the quote is not one the check refuses. -/
theorem presented_intent_matches_iff (host : Host) (calls : ι → Call)
    {c : Config (Wallet ι) ι Request Request.Answer (Failure BusError) Unit}
    (run : Reachable Served Wallet.new (fun i => (calls i).program host) c) (i : ι)
    (event : Approvals.ModuleEvent) (hevent : event ∈ c.history i)
    (question : AuthorizeNativeWalletExecutionRequest)
    (asks : event.1 = .authorizeNative question) (prepared : Prepared host question.quote) :
    nativeIntentMatchesQuote question.quote question.intent = true ↔ ¬Refused question.quote := by
  have presented := Approvals.reachable_presented run hevent
  rw [asks] at presented
  exact presents_matches_iff prepared.wellformed presented

end Runs

open Approvals ModuleCalls WalletModule
open Execution (sampleHost)

def questionOf : Request → Option AuthorizeNativeWalletExecutionRequest
  | .authorizeNative question => some question
  | _ => none

/-- The answers a preparation gets from the wallet of `executed`. -/
def preparing : (e : Request) → Option e.Answer
  | .nextId .native => some "q_1700000000000_1"
  | .nextId .web3 => some "w3_1700000000000_1"
  | .insert _ _ => some ()
  | e => approving e

/-- Whether the host is asked about the prepared quote, in a way `f` accepts. -/
def asked (params : Execution.PrepareTransferParams)
    (f : AuthorizeNativeWalletExecutionRequest → Bool) : Bool :=
  ((lastEvents (executed params)).filterMap fun event => questionOf event.1).any fun question =>
    (outcome preparing 10 (Execution.prepareTransfer sampleHost none params)).any
      (fun result => result.2 = question.quote) && f question

theorem asked_reachable {params : Execution.PrepareTransferParams}
    {f : AuthorizeNativeWalletExecutionRequest → Bool} (h : asked params f = true) :
    ∃ c, Reachable Served Wallet.new (fun i => (executed params i).program sampleHost) c ∧
      ∃ event ∈ c.history 2, ∃ question, event.1 = .authorizeNative question ∧
        Prepared sampleHost question.quote ∧ f question = true := by
  obtain ⟨question, hmem, hquestion⟩ := List.any_eq_true.mp h
  obtain ⟨event, hevent, hasks⟩ := List.mem_filterMap.mp hmem
  simp only [Bool.and_eq_true, Option.any_eq_true, decide_eq_true_eq] at hquestion
  obtain ⟨⟨history, quote⟩, hprepared, hquote⟩ := hquestion.1
  have trace := outcome_trace hprepared
  rw [show quote = question.quote from hquote] at trace
  obtain ⟨c, run, hhistory⟩ := lastEvents_reachable (executed params)
  refine ⟨c, run, event, hhistory ▸ hevent, question, ?_, ?_, hquestion.2⟩
  · cases he : event.1 <;> simp only [he, questionOf, reduceCtorEq, Option.some.injEq] at hasks
    rw [hasks]
  · exact ⟨.mainnet, none, params, history, question.quote, question.quote.expiresAtMs, trace, rfl⟩

/-- The recipient of 1000 USDC is written without its prefix: the unmodified
transfer is refused. -/
theorem unprefixed_transfer_is_refused :
    ∃ c, Reachable Served Wallet.new (fun i => (executed ⟨.evm,
        "2222222222222222222222222222222222222222", "1000", some "USDC", none⟩ i).program
        sampleHost) c ∧
      ∃ event ∈ c.history 2, ∃ question, event.1 = .authorizeNative question ∧
        Prepared sampleHost question.quote ∧
        nativeIntentMatchesQuote question.quote question.intent = false := by
  have h : asked ⟨.evm, "2222222222222222222222222222222222222222", "1000", some "USDC", none⟩
      (fun question => !nativeIntentMatchesQuote question.quote question.intent) = true := by
    decide +kernel
  obtain ⟨c, run, event, hevent, question, asks, prepared, hrefused⟩ := asked_reachable h
  exact ⟨c, run, event, hevent, question, asks, prepared, by simpa using hrefused⟩

/-- With the prefix it is presented and matches. -/
theorem prefixed_transfer_matches :
    ∃ c, Reachable Served Wallet.new (fun i => (executed ⟨.evm,
        "0x2222222222222222222222222222222222222222", "1000", some "USDC", none⟩ i).program
        sampleHost) c ∧
      ∃ event ∈ c.history 2, ∃ question, event.1 = .authorizeNative question ∧
        (nativeIntentMatchesQuote question.quote question.intent = true ↔
          ¬Refused question.quote) := by
  have h : asked ⟨.evm, "0x2222222222222222222222222222222222222222", "1000", some "USDC", none⟩
      (fun _ => true) = true := by
    decide +kernel
  obtain ⟨c, run, event, hevent, question, asks, prepared, _⟩ := asked_reachable h
  exact ⟨c, run, event, hevent, question, asks,
    presented_intent_matches_iff sampleHost _ run 2 event hevent question asks prepared⟩

end NativeIntent

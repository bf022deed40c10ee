import TinyWallet.Intent.Native
import TinyWallet.Module.Construction
import TinyWallet.Solana.Messages

/-!
# A transfer executes as it was quoted

Whatever the node answers, the one thing an execution puts before the signer
pays the quoted amount of the quoted asset to the quoted recipient. The chain
modules read the amount into 64, 128 or 256 bits and write the addresses through
four codecs; what they wrote is read back here by independent readers.
-/

namespace QuotedPayments

open RustText Numerals Programs Wire Engine ExecutionProtocol EvmConstruction

theorem toBe_eq_map (width n : Nat) : Rlp.toBe width n =
    (List.range width).map fun i => UInt8.ofNat (n >>> (8 * (width - 1 - i))) := by
  induction width generalizing n with
  | zero => rfl
  | succ width ih =>
    rw [Rlp.toBe, ih, List.range_succ, List.map_append]
    congr 1
    · apply List.map_congr_left
      intro i hi
      have hlt := List.mem_range.mp hi
      have hshift : 8 * (width + 1 - 1 - i) = 8 + 8 * (width - 1 - i) := by omega
      rw [hshift, Nat.shiftRight_add, Nat.shiftRight_eq_div_pow n 8]
    · simp

theorem amountWord_eq (amount : Nat) :
    Tron.amountWord amount = List.replicate 16 0 ++ Rlp.toBe 16 amount := by
  rw [Tron.amountWord, toBe_eq_map]

theorem fromBe_amountWord {amount : Nat} (h : amount < 2 ^ 128) :
    Rlp.fromBe (Tron.amountWord amount) = amount := by
  have hzero : Rlp.fromBe (List.replicate 16 0) = 0 := by decide
  rw [amountWord_eq, Rlp.fromBe_append, hzero, Rlp.fromBe_toBe, Nat.mod_eq_of_lt (by omega)]
  omega

theorem leBytes64_eq (n : Nat) : Solana.leBytes64 n = (Rlp.toBe 8 n).reverse := by
  simp [Solana.leBytes64, toBe_eq_map, List.range_succ]

theorem fromBe_leBytes64 {n : Nat} (h : n < 2 ^ 64) :
    Rlp.fromBe (Solana.leBytes64 n).reverse = n := by
  rw [leBytes64_eq, List.reverse_reverse, Rlp.fromBe_toBe, Nat.mod_eq_of_lt (by omega)]

/-- The message of a token transfer: its only instruction moves the amount from
the sender's associated token account to the recipient's. It is read back by the
reference decoder where the hash function writes 32 bytes, as SHA-256 does. -/
structure MovesTokens (host : Host) (quote : PreparedTransaction) (mintAddr : String)
    (amount : Nat) (message : List UInt8) : Prop where
  moves : ∃ owner recipient mint source destination tokenProgram blockhash,
    Solana.b58ToPubkey host quote.fromAddress = .ok owner ∧
    Solana.b58ToPubkey host quote.toAddress = .ok recipient ∧
    Solana.b58ToPubkey host mintAddr = .ok mint ∧
    Solana.associatedTokenAccount host owner mint = .ok source ∧
    Solana.associatedTokenAccount host recipient mint = .ok destination ∧
    Solana.b58ToPubkey host Solana.tokenProgramB58 = .ok tokenProgram ∧
    ∃ instruction : Solana.CompiledInstruction,
      message = Solana.encodeMessage [1, 0, 1] [owner, source, destination, tokenProgram]
        blockhash [instruction] ∧
      ((∀ bytes, (host.ext.sha256 bytes).length = 32) → SolanaMessages.decodeMessage message =
        some ⟨[1, 0, 1], [owner, source, destination, tokenProgram], blockhash, [instruction]⟩) ∧
      instruction.programIdIndex = 3 ∧ instruction.accounts = [1, 2, 0] ∧
      ∃ number, instruction.data = 3 :: number ∧ number.length = 8 ∧
        Rlp.fromBe number.reverse = amount

/-- A request that pays the quoted amount of the quoted asset to the quoted
recipient. EVM addresses and amounts may stand in space. -/
inductive PaysAsQuoted (host : Host) (quote : PreparedTransaction) : Request → Prop
  | btc {amount : Nat} (chain : quote.chain = .btc) (kind : quote.kind = .nativeTransfer)
      (named : units quote.amountRaw = some amount) (feeSats : Nat) (utxos : List Utxo) :
      PaysAsQuoted host quote (.signTransaction .btc
        (.btc quote.fromAddress quote.toAddress amount feeSats utxos))
  | coin {amount : Nat} (chain : quote.chain = .evm) (kind : quote.kind = .nativeTransfer)
      (named : units (trim quote.amountRaw) = some amount) (nonce gasLimit : Nat)
      (gasPriceWei : String) :
      PaysAsQuoted host quote (.signTransaction .evm
        (.evm (trim quote.toAddress) (toString amount) "" nonce gasLimit gasPriceWei
          (quote.evmNetwork.getD .ethereumMainnet).chainId))
  | erc20 {token : String} {data : List UInt8} (chain : quote.chain = .evm)
      (kind : quote.kind = .tokenTransfer) (contract : quote.tokenAddress = some token)
      (call : TransfersToken data (trim quote.toAddress) (trim quote.amountRaw))
      (nonce gasLimit : Nat) (gasPriceWei : String) :
      PaysAsQuoted host quote (.signTransaction .evm
        (.evm (trim token) "0" ("0x" ++ hexLower data) nonce gasLimit gasPriceWei
          (quote.evmNetwork.getD .ethereumMainnet).chainId))
  | solana {amount : Nat} (chain : quote.chain = .solana) (kind : quote.kind = .nativeTransfer)
      (named : units quote.amountRaw = some amount) (blockhash : String) :
      PaysAsQuoted host quote (.signTransaction .solana
        (.solana quote.fromAddress quote.toAddress amount blockhash))
  | spl {amount : Nat} {mintAddr : String} {message : List UInt8} (chain : quote.chain = .solana)
      (kind : quote.kind = .tokenTransfer) (mint : quote.tokenAddress = some mintAddr)
      (named : units quote.amountRaw = some amount)
      (moves : MovesTokens host quote mintAddr amount message) :
      PaysAsQuoted host quote (.signMessage .solana message .ed25519)
  | trx {amount : Nat} (chain : quote.chain = .tron) (kind : quote.kind = .nativeTransfer)
      (named : units quote.amountRaw = some amount) {rawDataHex txid : String}
      (carries : Tron.Carries host rawDataHex quote.toAddress txid (.native amount)) :
      PaysAsQuoted host quote (.signTransaction .tron
        (.tron rawDataHex quote.toAddress txid (.native amount)))
  | trc20 {amount : Nat} {token : String} {recipient args : List UInt8}
      (chain : quote.chain = .tron) (kind : quote.kind = .tokenTransfer)
      (contract : quote.tokenAddress = some token) (named : units quote.amountRaw = some amount)
      (address : Address.Tron.decode host.ext quote.toAddress = .ok recipient)
      (call : decodeTransferArgs args = some (recipient.drop 1, amount))
      {rawDataHex txid : String}
      (carries : Tron.Carries host rawDataHex token txid (.trc20 (hexLower args))) :
      PaysAsQuoted host quote (.signTransaction .tron
        (.tron rawDataHex token txid (.trc20 (hexLower args))))

theorem findProgramAddress_length {host : Host} {seeds : List (List UInt8)} {programId : List UInt8}
    (hashes : ∀ bytes, (host.ext.sha256 bytes).length = 32) {found : List UInt8}
    (h : Solana.findProgramAddress host seeds programId = .ok found) : found.length = 32 := by
  rw [Solana.findProgramAddress] at h
  generalize 256 = bump at h
  induction bump with
  | zero => cases h
  | succ bump ih =>
    simp only [Solana.findBump] at h
    split_ifs at h
    · rw [← Except.ok.inj h]
      exact hashes _
    · exact ih h

theorem associatedTokenAccount_length {host : Host} {owner mint account : List UInt8}
    (hashes : ∀ bytes, (host.ext.sha256 bytes).length = 32)
    (h : Solana.associatedTokenAccount host owner mint = .ok account) : account.length = 32 := by
  obtain ⟨_, -, h⟩ := bind_ok_iff.mp h
  obtain ⟨_, -, h⟩ := bind_ok_iff.mp h
  exact findProgramAddress_length hashes h

theorem movesTokens_of_splTransfer {host : Host} {quote : PreparedTransaction} {mintAddr : String}
    {amount : Nat} {message : List UInt8} (fits : amount < 2 ^ 64)
    (h : Solana.SplTransfer host quote.fromAddress quote.toAddress mintAddr amount message) :
    MovesTokens host quote mintAddr amount message := by
  obtain ⟨owner, recipient, mint, source, destination, blockhash, howner, hrecipient, hmint,
    hsource, hdestination, hblockhash, built⟩ := h
  obtain ⟨tokenProgram, hprogram, built⟩ := bind_ok_iff.mp built
  have hmessage := (Except.ok.inj built).symm
  refine ⟨owner, recipient, mint, source, destination, tokenProgram, blockhash, howner, hrecipient,
    hmint, hsource, hdestination, hprogram, _, hmessage, ?_, rfl, rfl, Solana.leBytes64 amount, rfl,
    SolanaMessages.length_leBytes64 amount, fromBe_leBytes64 fits⟩
  intro hashes
  have hread := SolanaMessages.decodeMessage_bytes (SolanaMessages.splTransferMessage_fits
    ⟨owner, Solana.b58ToPubkey_length howner⟩
    ⟨source, associatedTokenAccount_length hashes hsource⟩
    ⟨destination, associatedTokenAccount_length hashes hdestination⟩
    ⟨tokenProgram, Solana.b58ToPubkey_length hprogram⟩ ⟨blockhash, hblockhash⟩ amount)
  rw [← SolanaMessages.encodeMessage_eq (SolanaMessages.splTransferMessage_fits ..)] at hread
  rw [hmessage]
  exact hread

theorem trc20Param_decodes {host : Host} {toAddr toHex parameter : String} {amount : Nat}
    (fits : amount < 2 ^ 128) (hto : Address.Tron.toHex host.ext toAddr = .ok toHex)
    (h : Tron.encodeTrc20TransferParam host toHex amount = .ok parameter) :
    ∃ recipient args, Address.Tron.decode host.ext toAddr = .ok recipient ∧
      parameter = hexLower args ∧ decodeTransferArgs args = some (recipient.drop 1, amount) := by
  simp only [Address.Tron.toHex] at hto
  cases hdecode : Address.Tron.decode host.ext toAddr with
  | error e =>
    rw [hdecode] at hto
    cases hto
  | ok recipient =>
    rw [hdecode] at hto
    obtain rfl := Except.ok.inj hto
    simp only [Tron.encodeTrc20TransferParam, hexDecode_hexLower] at h
    split at h
    · cases h
    next hlength =>
    have hbody : (recipient.drop 1).length = 20 := by
      rw [List.length_drop]
      omega
    have hword : (Tron.amountWord amount).length = 32 := by
      rw [amountWord_eq, List.length_append, List.length_replicate, Rlp.length_toBe]
    have hargs := decodeTransferArgs_encoded hbody hword
    rw [fromBe_amountWord fits] at hargs
    exact ⟨recipient, _, rfl, (Except.ok.inj h).symm, hargs⟩

theorem evm_pays {host : Host} {quote : PreparedTransaction} {target value : String}
    {data : Option String} {spec : TransactionSpec} (chain : quote.chain = .evm)
    (call : Evm.transferCall quote = .ok (target, value, data))
    (built : EvmSpec (quote.evmNetwork.getD .ethereumMainnet) target value data spec) :
    PaysAsQuoted host quote (.signTransaction .evm spec) := by
  obtain ⟨target', amount, params, htarget, hvalue, hid, rfl⟩ := built
  have hsame := (Address.Evm.validate_spec htarget).1
  simp only [Evm.transferCall] at call
  cases hkind : quote.kind with
  | nativeTransfer =>
    simp only [hkind] at call
    split at call
    · cases call
    next recipient hrecipient =>
    cases call
    rw [(Address.Evm.validate_spec hrecipient).1, trim_trim] at hsame
    rw [Evm.spec, hid, hsame]
    exact .coin chain hkind (units_of_parse hvalue) _ _ _
  | tokenTransfer =>
    simp only [hkind] at call
    split at call
    · cases call
    next token htoken =>
    split at call
    · cases call
    next calldata hcalldata =>
    split at call
    · cases call
    next contract hcontract =>
    cases call
    obtain ⟨bytes, rfl, -, hpays⟩ := encodeErc20Transfer_ok (mapError_ok hcalldata)
    have hzero : amount = 0 := by
      have hparse : parseU128 (trim "0") = .ok 0 := by decide
      exact Except.ok.inj (hvalue.symm.trans hparse)
    have hprinted : toString (0 : Nat) = "0" := by decide
    rw [(Address.Evm.validate_spec hcontract).1, trim_trim] at hsame
    rw [Evm.spec, hid, hsame, hzero, hprinted]
    exact .erc20 chain hkind htoken hpays _ _ _

/-- Every signature an execution may ask for pays what its quote says. -/
theorem pays_as_quoted {host : Host} {quote : PreparedTransaction} {e : Request}
    (h : Pays host quote e) : PaysAsQuoted host quote e := by
  cases h with
  | evm chain call built => exact evm_pays chain call built
  | btc chain kind amount feeSats utxos =>
    exact .btc chain kind (units_of_parse amount) feeSats utxos
  | solana chain kind amount blockhash => exact .solana chain kind (units_of_parse amount) blockhash
  | spl chain kind amount token built =>
    have fits := parseRadix_lt (by decide) amount
    exact .spl chain kind token (units_of_parse amount) (movesTokens_of_splTransfer fits built)
  | tron chain amount recipient built carries =>
    have fits := parseRadix_lt (by decide) amount
    simp only [Tron.Built] at built
    cases hkind : quote.kind with
    | nativeTransfer =>
      rw [hkind] at built
      obtain ⟨-, rfl, rfl⟩ := built
      exact .trx chain hkind (units_of_parse amount) carries
    | tokenTransfer =>
      rw [hkind] at built
      obtain ⟨htoken, parameter, encoded, rfl⟩ := built
      obtain ⟨bytes, args, hdecode, rfl, hargs⟩ := trc20Param_decodes fits recipient encoded
      exact .trc20 chain hkind htoken (units_of_parse amount) hdecode hargs carries

/-- The quote an execution has taken. -/
def taken {Q : Type} : Progress Q → Option Q
  | .reading quote => some quote
  | .signed quote => some quote
  | .sent quote _ => some quote
  | _ => none

/-- The quote in hand was handed over by the store. -/
theorem taken_of_runs {host : Host} {flow : Flow} {quoteId : String}
    {signs : flow.Quote → Request → Prop} {progress progress' : Progress flow.Quote}
    {history : List (Event Request Request.Answer)} {quote : flow.Quote}
    (runs : (execution host flow quoteId signs).Runs progress history progress')
    (holds : taken progress' = some quote) :
    taken progress = some quote ∨
      ∃ caller, ⟨.take flow quoteId caller, Except.ok quote⟩ ∈ history := by
  induction runs with
  | refl progress => exact .inl holds
  | step first _ ih =>
    rcases ih holds with holds | ⟨caller, hmem⟩
    · cases first with
      | take caller quote' =>
        cases holds
        exact .inr ⟨caller, List.mem_cons_self⟩
      | refused caller message => cases holds
      | read quote' e r reads => exact .inl holds
      | sign quote' e r signed => exact .inl holds
      | send quote' e r sends => exact .inl holds
      | restore _ quote' isOpen => cases holds
    · exact .inr ⟨caller, List.mem_cons_of_mem _ hmem⟩

theorem signs_of_advances {host : Host} {flow : Flow} {quoteId : String}
    {signs : flow.Quote → Request → Prop} {progress progress' : Progress flow.Quote} {e : Request}
    {r : e.Answer} (h : Advances host flow quoteId signs progress e r progress')
    (signature : e.role = .sign) : ∃ quote, taken progress = some quote ∧ signs quote e := by
  cases h with
  | take caller quote => cases signature
  | refused caller message => cases signature
  | read quote e r reads =>
    rw [Reads] at reads
    rw [reads] at signature
    cases signature
  | sign quote e r signed => exact ⟨quote, rfl, signed⟩
  | send quote e r sends =>
    rw [sends] at signature
    cases signature
  | restore _ quote isOpen => cases signature

/-- In every run of an execution, with any answers of the node, whatever goes to
the signer pays as the quote that was taken says. A prepared quote has no space
around its texts. -/
theorem transfer_executes_as_quoted (host : Host) (owner : Option QuoteOwner)
    (params : Execution.ExecuteParams) {history : List (Event Request Request.Answer)}
    {rest : Op ExecutionResult}
    (trace : Trace (Execution.executePrepared host owner params) history rest)
    {event : Event Request Request.Answer} (hevent : event ∈ history)
    (signature : event.1.role = .sign) :
    ∃ caller quote, ⟨.take .native params.quoteId caller, Except.ok quote⟩ ∈ history ∧
      PaysAsQuoted host quote.transaction event.1 ∧
      (NativeIntent.Prepared host quote.transaction →
        trim quote.transaction.toAddress = quote.transaction.toAddress ∧
        trim quote.transaction.amountRaw = quote.transaction.amountRaw ∧
        (quote.transaction.chain = .evm → ∀ token, quote.transaction.tokenAddress = some token →
          trim token = token)) := by
  obtain ⟨progress, runs, -⟩ :=
    (executePrepared_follows owner params).runs (fun _ _ _ => trivial) trace
  obtain ⟨before, after, rfl⟩ := List.append_of_mem hevent
  obtain ⟨g, g', first, advances, -⟩ := runs.split
  obtain ⟨quote, holds, signed⟩ := signs_of_advances advances signature
  rcases taken_of_runs first holds with hnone | ⟨caller, hmem⟩
  · cases hnone
  refine ⟨caller, quote, List.mem_append_left _ hmem, pays_as_quoted signed, ?_⟩
  intro prepared
  have wellformed := prepared.wellformed
  refine ⟨wellformed.trimmed, ?_, ?_⟩
  · obtain ⟨n, -, hamount⟩ := wellformed.amount
    rw [hamount, trim_toString]
  · intro chain token htoken
    exact (Address.Evm.validate_spec (wellformed.token chain token htoken)).1.symm

/-- A thousand of a token with six decimals, to a recipient without a prefix. -/
def tokenQuote : PreparedTransaction where
  quoteId := "q_1700000000000_1"
  kind := .tokenTransfer
  chain := .evm
  evmNetwork := none
  fromAddress := "0x1111111111111111111111111111111111111111"
  toAddress := "2222222222222222222222222222222222222222"
  assetSymbol := "USDC"
  amountRaw := "1000"
  amountFormatted := "0.001000"
  tokenAddress := some "0xA0b86991c6218b36c1d19D4a2e9Eb0cE3606eB48"
  estimatedFeeRaw := "1950000000000000"
  status := .awaitingConfirmation
  createdAtMs := 1700000000000
  expiresAtMs := 1700000300000
  notes := []

/-- A store that holds the quote, a node and a signer. -/
def executing : (e : Request) → Option e.Answer
  | .take .native _ _ => some (.ok ⟨tokenQuote, none⟩)
  | .signTransaction _ _ => some (.ok ⟨"0x02", none⟩)
  | e => Approvals.approving e

def tokenRun : Option (List (Event Request Request.Answer) × ExecutionResult) :=
  outcome executing 10
    (Execution.executePrepared Execution.sampleHost none ⟨"q_1700000000000_1", true⟩)

theorem tokenRun_signs :
    tokenRun.any (fun run => run.1.any fun event => event.1.role = .sign) = true := by
  decide +kernel

theorem token_transfer_executes_as_quoted : ∃ (e : Request) (quote : PreparedTransferQuote),
    e.role = .sign ∧ PaysAsQuoted Execution.sampleHost quote.transaction e := by
  obtain ⟨⟨history, result⟩, hrun, hsigns⟩ := (Option.any_eq_true _ _).mp tokenRun_signs
  obtain ⟨event, hevent, signature⟩ := List.any_eq_true.mp hsigns
  have hrole : event.1.role = .sign := of_decide_eq_true signature
  obtain ⟨_, quote, -, pays, -⟩ :=
    transfer_executes_as_quoted Execution.sampleHost none _ (outcome_trace hrun) hevent hrole
  exact ⟨event.1, quote, hrole, pays⟩

end QuotedPayments

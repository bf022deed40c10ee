import TinyWallet.Intent.Native

/-!
# What a matching web3 request pins

A request that matches a quote's envelope names the stored transaction in all
but its network: the backend's answer need not name one, and then any known
network passes. The module, for its part, names networks in a way the check
does not know.
-/

namespace Web3Intent

open RustText JsonValue Programs Wire Engine QuoteStore ExecutionProtocol WalletModule ModuleCalls
open Intent Approvals

theorem knownEvmChain_eip155 (reference : String) (chainId : Nat) :
    knownEvmChain ("eip155:" ++ reference) chainId = false := by
  have differs : ∀ known : EvmNetwork, known.asStr ≠ "eip155:" ++ reference := by
    intro known h
    have first := congrArg (fun text => text.toList.take 2) h
    cases known <;> simp [EvmNetwork.asStr] at first
  simp [knownEvmChain, differs]

theorem eip155_never_matches {response : Web3QuoteResponse}
    {request : AuthorizeWeb3ExecutionRequest} {spec : TransactionSpec}
    (h : web3Intent spec = some request.transaction) :
    web3ApprovalMatchesRequest response request = false := by
  cases spec with
  | evm target valueWei dataHex nonce gasLimit gasPriceWei chainId =>
    have htransaction := (Option.some.inj h).symm
    unfold web3ApprovalMatchesRequest
    split
    · rfl
    · rw [htransaction]
      cases response.signingChain with
      | evm => simp [knownEvmChain_eip155]
      | _ => rfl
  | _ => cases h

section Runs

variable {ι : Type} [DecidableEq ι]

/-- In every run of the module, no request to approve an EVM transaction matches
any envelope. -/
theorem evm_request_never_matches (host : Host) (calls : ι → Call)
    {c : Config (Wallet ι) ι Request Request.Answer (Failure BusError) Unit}
    (run : Reachable Served Wallet.new (fun i => (calls i).program host) c) (i : ι)
    (event : ModuleEvent) (hevent : event ∈ c.history i) (request : AuthorizeWeb3ExecutionRequest)
    (asks : event.1 = .authorizeWeb3 request)
    (evm : ∀ txBlobHex, request.transaction ≠ .solana txBlobHex) (response : Web3QuoteResponse) :
    web3ApprovalMatchesRequest response request = false := by
  have presented := reachable_presented run hevent
  rw [asks] at presented
  rcases presented with ⟨txBlobHex, hsolana⟩ | ⟨spec, hspec⟩
  · exact absurd hsolana (evm txBlobHex)
  · exact eip155_never_matches hspec

end Runs

open Execution (sampleHost)

def dappParams : Execution.DappCallParams where
  contractAddress := "0x1111111111111111111111111111111111111111"
  calldata := "0xabcd"
  valueRaw := some "5"
  evmNetwork := none

/-- A call of a contract is prepared and then executed. -/
def called : Fin 3 → Call
  | 0 => .configure .web3 .mainnet
  | 1 => .web3DappQuote "wallet-1" none (.ok dappParams)
  | 2 => .web3Execute ⟨"wallet-1", none, "w3_1700000000000_1", true,
      ⟨"test test test test test test test test test test test junk", "m/44'/60'/0'/0/0", .evm⟩⟩

def requestOf : Request → Option AuthorizeWeb3ExecutionRequest
  | .authorizeWeb3 request => some request
  | _ => none

/-- The call is presented once, to a host that approves it. -/
def isEvm : Web3ExecutionIntent → Bool
  | .evm .. => true
  | .solana _ => false

theorem called_presented :
    ∃ c, Reachable Served Wallet.new (fun i => (called i).program sampleHost) c ∧
      ∃ event ∈ c.history 2, ∃ request, event.1 = .authorizeWeb3 request ∧
        request.quoteId = "w3_1700000000000_1" ∧
        ∀ txBlobHex, request.transaction ≠ .solana txBlobHex := by
  have presented : ((lastEvents called).filterMap fun event => requestOf event.1).any
      (fun request => request.quoteId = "w3_1700000000000_1" && isEvm request.transaction) =
        true := by
    decide +kernel
  obtain ⟨request, hmem, hrequest⟩ := List.any_eq_true.mp presented
  obtain ⟨event, hevent, hasks⟩ := List.mem_filterMap.mp hmem
  simp only [Bool.and_eq_true, decide_eq_true_eq] at hrequest
  obtain ⟨c, run, hhistory⟩ := lastEvents_reachable called
  refine ⟨c, run, event, hhistory ▸ hevent, request, ?_, hrequest.1, ?_⟩
  · cases he : event.1 <;> simp only [he, requestOf, reduceCtorEq, Option.some.injEq] at hasks
    rw [hasks]
  · intro txBlobHex hsolana
    simp [hsolana, isEvm] at hrequest

/-- Its envelope, as `prepare_dapp_call` returned it, does not match. -/
theorem called_request_is_refused :
    ∃ c, Reachable Served Wallet.new (fun i => (called i).program sampleHost) c ∧
      ∃ event ∈ c.history 2, ∃ request, event.1 = .authorizeWeb3 request ∧
        ∃ response history, Trace (Execution.prepareDappCall none dappParams) history
          (.pure response) ∧ response.quoteId = request.quoteId ∧
          web3ApprovalMatchesRequest response request = false := by
  obtain ⟨c, run, event, hevent, request, asks, hid, hevm⟩ := called_presented
  have returned : (outcome NativeIntent.preparing 10
      (Execution.prepareDappCall none dappParams)).any
      (fun result => result.2.quoteId = "w3_1700000000000_1") = true := by
    decide +kernel
  simp only [Option.any_eq_true, decide_eq_true_eq] at returned
  obtain ⟨⟨history, response⟩, hresponse, hquoteId⟩ := returned
  refine ⟨c, run, event, hevent, request, asks, response, history, outcome_trace hresponse,
    hquoteId.trans hid.symm, ?_⟩
  have presented := reachable_presented run hevent
  rw [asks] at presented
  rcases presented with ⟨txBlobHex, hsolana⟩ | ⟨spec, hspec⟩
  · exact absurd hsolana (hevm txBlobHex)
  · exact eip155_never_matches hspec

theorem called_request_never_matches :
    ∃ c, Reachable Served Wallet.new (fun i => (called i).program sampleHost) c ∧
      ∃ event ∈ c.history 2, ∃ request, event.1 = .authorizeWeb3 request ∧
        ∀ response, web3ApprovalMatchesRequest response request = false := by
  obtain ⟨c, run, event, hevent, request, asks, _, hevm⟩ := called_presented
  exact ⟨c, run, event, hevent, request, asks,
    evm_request_never_matches sampleHost called run 2 event hevent request asks hevm⟩

/-- A quote that one of the three operations stored, with the envelope it
returned. -/
inductive Stores (quote : StoredQuote) (response : Web3QuoteResponse) : Prop
  | swap (owner : Option QuoteOwner) (params : Execution.SwapQuoteParams)
      (history : List ModuleEvent)
      (returned : Trace (Execution.quoteSwap owner params) history (.pure response))
      (stored : ⟨.insert .web3 quote, ()⟩ ∈ history)
  | bridge (owner : Option QuoteOwner) (params : Execution.BridgeQuoteParams)
      (history : List ModuleEvent)
      (returned : Trace (Execution.quoteBridge owner params) history (.pure response))
      (stored : ⟨.insert .web3 quote, ()⟩ ∈ history)
  | dappCall (owner : Option QuoteOwner) (params : Execution.DappCallParams)
      (history : List ModuleEvent)
      (returned : Trace (Execution.prepareDappCall owner params) history (.pure response))
      (stored : ⟨.insert .web3 quote, ()⟩ ∈ history)

/-- A preparation stores the one quote it ends with. -/
theorem stored_once {flow : Flow} {quote quote' : flow.Quote} {history : List ModuleEvent}
    {draft : Draft flow.Quote} (h : (preparation flow).Runs draft history (.stored quote'))
    (hmem : ⟨.insert flow quote, ()⟩ ∈ history) : quote = quote' := by
  generalize hlast : Draft.stored quote' = last at h
  induction h with
  | refl => cases hmem
  | step first tail ih =>
    cases first with
    | read e r reads =>
      rcases List.mem_cons.mp hmem with heq | hmem
      · cases heq
        simp [Reads, Request.role] at reads
      · exact ih hmem hlast
    | name id =>
      rcases List.mem_cons.mp hmem with heq | hmem
      · cases heq
      · exact ih hmem hlast
    | store stored =>
      -- nothing follows the store
      cases tail with
      | refl =>
        cases hlast
        rcases List.mem_cons.mp hmem with heq | hmem
        · cases heq
          rfl
        · cases hmem
      | step more _ => cases more

theorem Stores.envelopes {quote : StoredQuote} {response : Web3QuoteResponse}
    (h : Stores quote response) : Envelopes quote response := by
  have from_run : ∀ {program : Op Web3QuoteResponse} {history : List ModuleEvent},
      Follows (preparation .web3) (Keeps Envelopes) program .reading →
      Trace program history (.pure response) → ⟨.insert .web3 quote, ()⟩ ∈ history →
      Envelopes quote response := by
    intro program history follows returned stored
    obtain ⟨draft, run, quote', rfl, envelopes⟩ := follows.trace (fun _ _ _ => trivial) returned
    rw [stored_once run stored]
    exact envelopes
  cases h with
  | swap owner params _ returned stored =>
    exact from_run (quoteSwap_follows owner params) returned stored
  | bridge owner params _ returned stored =>
    exact from_run (quoteBridge_follows owner params) returned stored
  | dappCall owner params _ returned stored =>
    exact from_run (prepareDappCall_follows owner params) returned stored

/-- The network of a request: a known one, and the one the quote's text names. -/
structure Network (quote : StoredQuote) (stored known : EvmNetwork) (network : String)
    (chainId : Nat) : Prop where
  name : known.asStr = network
  chainId : known.chainId = chainId
  stated : ∀ text, quote.summary.getStr "network" = some text → text = network
  dappCall : quote.kind = .dappCall → known = stored

/-- All a match pins of the stored transaction. -/
def Pins (quote : StoredQuote) : Web3ExecutionIntent → Prop
  | .evm network target data value _ _ _ chainId =>
    ∃ stored target' known, quote.unsigned = .evm stored target' data value ∧
      eqIgnoreAsciiCase target' target = true ∧ Network quote stored known network chainId
  | .solana txBlobHex => quote.unsigned = .solana txBlobHex

theorem knownEvmChain_spec {network : String} {chainId : Nat}
    (h : knownEvmChain network chainId = true) :
    ∃ known : EvmNetwork, known.asStr = network ∧ known.chainId = chainId := by
  obtain ⟨known, _, hknown⟩ := List.any_eq_true.mp h
  simp only [Bool.and_eq_true, decide_eq_true_eq] at hknown
  exact ⟨known, hknown⟩

/-- The texts of a dapp quote's summary. -/
theorem dappSummary_texts (network : EvmNetwork) (contract calldata value : String) :
    (Execution.dappSummary network contract calldata value).getStr "network" = some network.asStr ∧
      (Execution.dappSummary network contract calldata value).getStr "contractAddress" =
        some contract ∧
      (Execution.dappSummary network contract calldata value).getStr "calldata" = some calldata ∧
      (Execution.dappSummary network contract calldata value).getStr "valueRaw" = some value := by
  simp [Execution.dappSummary, Json.getStr, Json.get, Json.asStr]

theorem dapp_pins {quote : StoredQuote} {network target value : String} {data : Option String}
    {chainId : Nat} (hkind : quote.kind = .dappCall) (extracted : Extracted quote)
    (stated : ∀ text, quote.summary.getStr "network" = some text → text = network)
    (known : knownEvmChain network chainId = true)
    (h : dappMatches quote.summary target data value = true) :
    ∃ stored target' known, quote.unsigned = .evm stored target' data value ∧
      eqIgnoreAsciiCase target' target = true ∧ Network quote stored known network chainId := by
  simp only [Extracted, hkind] at extracted
  obtain ⟨stored, contract, calldata, value', hunsigned, hsummary⟩ := extracted
  obtain ⟨hnetwork, hcontract, hcalldata, hvalue⟩ :=
    dappSummary_texts stored contract calldata value'
  rw [hsummary] at stated h
  simp only [dappMatches, hcontract, hcalldata, hvalue, Option.any_some, Bool.and_eq_true,
    decide_eq_true_eq] at h
  obtain ⟨⟨htarget, rfl⟩, rfl⟩ := h
  obtain ⟨known, hname, hid⟩ := knownEvmChain_spec known
  refine ⟨stored, contract, known, hunsigned, htarget, hname, hid, ?_, fun _ => ?_⟩
  · rw [hsummary]
    exact stated
  · exact EvmNetwork.asStr_injective (hname.trans (stated _ hnetwork).symm)

/-- A value that is a text or a number is extracted as it stands. -/
theorem valueToString_decimal {tx : Json} {value : String}
    (h : decimalJson (tx.get "value") = some value) : Execution.valueToString tx = value := by
  unfold Execution.valueToString
  cases hget : tx.get "value" with
  | none => simp [hget, decimalJson] at h
  | some member =>
    cases member <;> simp_all [decimalJson]

theorem extracted_family {quote : StoredQuote} (hkind : quote.kind ≠ .dappCall)
    (h : Extracted quote) :
    ∃ family, Execution.unsignedFromResponse quote.summary family = .ok quote.unsigned := by
  unfold Extracted at h
  cases hk : quote.kind with
  | dappCall => exact absurd hk hkind
  | swap => simpa only [hk] using h
  | bridge => simpa only [hk] using h

theorem tx_pins {quote : StoredQuote} {network target value : String} {data : Option String}
    {chainId : Nat} (hkind : quote.kind ≠ .dappCall)
    (hchain : Execution.signingChain quote.unsigned = .evm) (extracted : Extracted quote)
    (stated : ∀ text, quote.summary.getStr "network" = some text → text = network)
    (known : knownEvmChain network chainId = true)
    (h : txMatches quote.summary target data value = true) :
    ∃ stored target' known, quote.unsigned = .evm stored target' data value ∧
      eqIgnoreAsciiCase target' target = true ∧ Network quote stored known network chainId := by
  obtain ⟨family, hunsigned⟩ := extracted_family hkind extracted
  unfold txMatches at h
  cases htx : quote.summary.get "tx" with
  | none => simp [htx] at h
  | some tx =>
    simp only [htx, Option.any_some, Bool.and_eq_true, decide_eq_true_eq] at h
    obtain ⟨⟨htarget, rfl⟩, hvalue⟩ := h
    simp only [Execution.unsignedFromResponse, htx] at hunsigned
    obtain ⟨known, hname, hid⟩ := knownEvmChain_spec known
    cases family with
    | evm stored =>
      cases hto : tx.getStr "to" with
      | none => simp [hto] at htarget
      | some target' =>
        simp only [hto, Except.ok.injEq] at hunsigned
        rw [valueToString_decimal hvalue] at hunsigned
        refine ⟨stored, target', known, hunsigned.symm, by simpa [hto] using htarget, hname, hid,
          stated, fun hdapp => absurd hdapp hkind⟩
    | solana =>
      simp only at hunsigned
      split at hunsigned
      · cases hunsigned
      · rw [← Except.ok.inj hunsigned] at hchain
        cases hchain

theorem blob_pins {quote : StoredQuote} {txBlobHex : String} (hkind : quote.kind ≠ .dappCall)
    (hchain : Execution.signingChain quote.unsigned = .solana) (extracted : Extracted quote)
    (h : ((quote.summary.get "tx").bind fun transaction => transaction.getStr "data") =
      some txBlobHex) :
    quote.unsigned = .solana txBlobHex := by
  obtain ⟨family, hunsigned⟩ := extracted_family hkind extracted
  obtain ⟨tx, htx, hdata⟩ := Option.bind_eq_some_iff.mp h
  simp only [Execution.unsignedFromResponse, htx] at hunsigned
  cases family with
  | evm stored =>
    simp only at hunsigned
    split at hunsigned
    · cases hunsigned
    · rw [← Except.ok.inj hunsigned] at hchain
      cases hchain
  | solana =>
    simp only [hdata, Except.ok.injEq] at hunsigned
    exact hunsigned.symm

theorem operationMatches_spec {quote : StoredQuote} {operation : String}
    (h : operationMatches quote.kind operation = true) :
    operation = (executionApproval quote).operation := by
  unfold executionApproval
  cases hk : quote.kind <;> simpa [hk, operationMatches] using h

/-- A request that matches the envelope of a stored quote is for that quote and
operation, and pins its transaction. -/
theorem matching_request_pins (quote : StoredQuote) (response : Web3QuoteResponse)
    (stores : Stores quote response) (request : AuthorizeWeb3ExecutionRequest)
    (h : web3ApprovalMatchesRequest response request = true) :
    request.quoteId = quote.quoteId ∧
      request.operation = (executionApproval quote).operation ∧
      Pins quote request.transaction := by
  obtain ⟨hid, hkind, hchain, hsummary, extracted⟩ := stores.envelopes
  unfold web3ApprovalMatchesRequest at h
  split at h
  · cases h
  · next hrequest =>
    simp only [Bool.or_eq_true, decide_eq_true_eq, not_or, not_not, Bool.not_eq_false] at hrequest
    refine ⟨hrequest.1.symm.trans hid, ?_, ?_⟩
    · exact operationMatches_spec (hkind ▸ hrequest.2)
    · cases htransaction : request.transaction with
      | evm network target data value nonce gasLimit gasPriceWei chainId =>
        cases hsigning : response.signingChain with
        | evm =>
          simp only [htransaction, hsigning] at h
          split at h
          · cases h
          · next hnetwork =>
            simp only [Bool.or_eq_true, not_or, Bool.not_eq_false, decide_eq_true_eq] at hnetwork
            obtain ⟨hstated, known⟩ := hnetwork
            have stated : ∀ text, quote.summary.getStr "network" = some text → text = network := by
              intro text htext
              rw [hsummary, htext] at hstated
              simpa using hstated
            rw [hkind, hsummary] at h
            cases hk : quote.kind with
            | dappCall =>
              simp only [hk] at h
              exact dapp_pins hk extracted stated known h
            | swap =>
              simp only [hk] at h
              exact tx_pins (by rw [hk]; decide) (hchain.symm.trans hsigning) extracted stated
                known h
            | bridge =>
              simp only [hk] at h
              exact tx_pins (by rw [hk]; decide) (hchain.symm.trans hsigning) extracted stated
                known h
        | _ => simp [htransaction, hsigning] at h
      | solana txBlobHex =>
        cases hsigning : response.signingChain with
        | solana =>
          simp only [htransaction, hsigning, Bool.and_eq_true, decide_eq_true_eq] at h
          rw [hkind, hsummary] at h
          exact blob_pins h.1 (hchain.symm.trans hsigning) extracted h.2
        | _ => simp [htransaction, hsigning] at h

/-- A swap on Polygon whose answer does not say so. -/
def silentSwap : Execution.SwapQuoteParams where
  chainId := 137
  tokenIn := "0x0000000000000000000000000000000000000000"
  tokenInAmount := "5"
  tokenOut := "0x3c499c542cEF5E3811e1192ce70d8cC03d5c3359"
  tokenOutRecipient := none
  senderAddress := none
  slippage := none

def swapping : (e : Request) → Option e.Answer
  | .backend _ => some (.ok (.object [("tx", .object
      [("to", .string "0x1111111111111111111111111111111111111111"), ("data", .string "0x01"),
        ("value", .number (.posInt 5))])]))
  | e => NativeIntent.preparing e

def swapRequest (network : EvmNetwork) : AuthorizeWeb3ExecutionRequest :=
  ⟨"w3_1700000000000_1", "swap", .evm network.asStr "0x1111111111111111111111111111111111111111"
    (some "0x01") "5" 0 21000 "1" network.chainId⟩

/-- The quote the swap stores, and an envelope that a request for `network`
matches. -/
theorem silentSwap_matches (network : EvmNetwork) :
    ∃ quote response, Stores quote response ∧
      quote.unsigned = .evm .polygonMainnet "0x1111111111111111111111111111111111111111"
        (some "0x01") "5" ∧
      web3ApprovalMatchesRequest response (swapRequest network) = true := by
  have run : (outcome swapping 10 (Execution.quoteSwap none silentSwap)).any (fun result =>
      web3ApprovalMatchesRequest result.2 (swapRequest network) &&
        result.1.any fun event => match event.1 with
          | .insert .web3 quote => quote.unsigned = .evm .polygonMainnet
              "0x1111111111111111111111111111111111111111" (some "0x01") "5"
          | _ => false) = true := by
    cases network <;> decide +kernel
  simp only [Option.any_eq_true, Bool.and_eq_true, List.any_eq_true] at run
  obtain ⟨⟨history, response⟩, hrun, hmatches, ⟨e, r⟩, hmem, hquote⟩ := run
  split at hquote
  · next quote he =>
    cases he
    simp only [decide_eq_true_eq] at hquote
    exact ⟨quote, response, .swap none silentSwap history (outcome_trace hrun) hmem, hquote,
      hmatches⟩
  · cases hquote

/-- The stored swap is on Polygon; a request for Ethereum matches. -/
theorem request_for_another_network_matches :
    ∃ quote response, Stores quote response ∧
      web3ApprovalMatchesRequest response (swapRequest .ethereumMainnet) = true ∧
      ∃ target data value, quote.unsigned = .evm .polygonMainnet target data value := by
  obtain ⟨quote, response, stores, hunsigned, hmatches⟩ := silentSwap_matches .ethereumMainnet
  exact ⟨quote, response, stores, hmatches, _, _, _, hunsigned⟩

theorem swap_request_pins :
    ∃ quote response, Stores quote response ∧
      web3ApprovalMatchesRequest response (swapRequest .polygonMainnet) = true ∧
      (swapRequest .polygonMainnet).quoteId = quote.quoteId ∧
      (swapRequest .polygonMainnet).operation = (executionApproval quote).operation ∧
      Pins quote (swapRequest .polygonMainnet).transaction := by
  obtain ⟨quote, response, stores, _, hmatches⟩ := silentSwap_matches .polygonMainnet
  exact ⟨quote, response, stores, hmatches,
    matching_request_pins quote response stores (swapRequest .polygonMainnet) hmatches⟩

end Web3Intent

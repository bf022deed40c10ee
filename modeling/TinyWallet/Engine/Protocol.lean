import TinyWallet.Engine.Execution

/-!
# The order of one execution

Every execution takes its quote, reads what it needs, signs once, broadcasts
once and is done; on an error it puts the quote back, unless the broadcast was
reported as done. The order is stated once, for both flows and all chains;
what runs of many calls keep is derived from it.
-/

namespace ExecutionProtocol

open RustText JsonValue Programs Wire Engine QuoteStore

/-- The answers to a broadcast that the chain modules read as done. -/
def reported (host : Host) : (e : Request) → e.Answer → Bool
  | .jsonRpc _ _ _, answer =>
    match answer with
    | .ok (.string _) => true
    | _ => false
  | .restPost _ path _ _, answer =>
    match answer with
    | .error _ => false
    | .ok body =>
      if path = "tx" then true
      else match host.codec.parse body with
        | .ok response => ((response.get "result").bind Json.asBool).getD false
        | .error _ => false
  | _, _ => false

/-- How far an execution has come. -/
inductive Progress (Q : Type) where
  | waiting
  | reading (quote : Q)
  | signed (quote : Q)
  | sent (quote : Q) (done : Bool)
  | finished

/-- The quote an execution may still put back. -/
def Progress.open {Q : Type} : Progress Q → Option Q
  | .reading quote => some quote
  | .signed quote => some quote
  | .sent quote false => some quote
  | _ => none

section Order

variable (host : Host) (flow : Flow) (quoteId : String) (signs : flow.Quote → Request → Prop)

/-- The allowed order; `signs` says which signature a quote may ask for. -/
inductive Advances :
    Progress flow.Quote → (e : Request) → e.Answer → Progress flow.Quote → Prop
  | take (caller : Option QuoteOwner) (quote : flow.Quote) :
      Advances .waiting (.take flow quoteId caller) (Except.ok quote) (.reading quote)
  | refused (caller : Option QuoteOwner) (message : String) :
      Advances .waiting (.take flow quoteId caller) (Except.error message) .finished
  | read (quote : flow.Quote) (e : Request) (r : e.Answer) (h : Reads e) :
      Advances (.reading quote) e r (.reading quote)
  | sign (quote : flow.Quote) (e : Request) (r : e.Answer) (h : signs quote e) :
      Advances (.reading quote) e r (.signed quote)
  | send (quote : flow.Quote) (e : Request) (r : e.Answer) (h : e.role = .broadcast) :
      Advances (.signed quote) e r (.sent quote (reported host e r))
  | restore (progress : Progress flow.Quote) (quote : flow.Quote)
      (h : progress.open = some quote) :
      Advances progress (.restore flow quote) () .finished

def execution : Monitor Request Request.Answer (Progress flow.Quote) where
  assumes _ _ _ := True
  advances := Advances host flow quoteId signs

end Order

section Bodies

variable {host : Host} {flow : Flow} {quoteId : String} {signs : flow.Quote → Request → Prop}
variable {quote : flow.Quote} {target : Progress flow.Quote} {α β : Type}

/-- Allowing more signatures allows no less. -/
theorem execution_mono {signs' : flow.Quote → Request → Prop}
    (more : ∀ quote e, signs quote e → signs' quote e)
    {post : Except (Failure String) α → Progress flow.Quote → Prop} {p : Op α}
    {progress : Progress flow.Quote}
    (h : Follows (execution host flow quoteId signs) post p progress) :
    Follows (execution host flow quoteId signs') post p progress := by
  refine follows_simulate Eq (fun _ _ _ _ _ _ => trivial) ?_ (fun _ _ _ same hpost => same ▸ hpost)
    rfl h
  rintro g _ e r g' rfl _ advances
  refine ⟨g', ?_, rfl⟩
  cases advances with
  | take caller quote => exact .take caller quote
  | refused caller message => exact .refused caller message
  | read quote e r reads => exact .read quote e r reads
  | sign quote e r signed => exact .sign quote e r (more quote e signed)
  | send quote e r sends => exact .send quote e r sends
  | restore _ quote isOpen => exact .restore g quote isOpen

/-- A body ends at `target`, or with an error and the quote still its own. -/
def Ends (quote : flow.Quote) (target : Progress flow.Quote) :
    Except (Failure String) α → Progress flow.Quote → Prop
  | .ok _, progress => progress = target
  | .error (.error _), progress => progress.open = some quote
  | .error .panic, _ => True

theorem ends_error {progress : Progress flow.Quote} (h : progress.open = some quote)
    (e : Failure String) : Ends quote target (.error e : Except (Failure String) α) progress := by
  cases e with
  | error message => exact h
  | panic => trivial

/-- Requests that do not move the execution on, before the rest. -/
theorem stay_bind {P : Request → Prop} {progress : Progress flow.Quote} {p : Op α} {f : α → Op β}
    (stay : ∀ e r, P e → Advances host flow quoteId signs progress e r progress)
    (isOpen : progress.open = some quote) (h : Only P p)
    (hf : ∀ a, Follows (execution host flow quoteId signs) (Ends quote target) (f a) progress) :
    Follows (execution host flow quoteId signs) (Ends quote target) (p >>= f) progress := by
  refine follows_bind (follows_of_only stay h ?_)
  intro result
  cases result with
  | error e => exact ends_error isOpen e
  | ok a => exact hf a

theorem reads_bind {p : Op α} {f : α → Op β} (h : Only Reads p)
    (hf : ∀ a, Follows (execution host flow quoteId signs) (Ends quote target) (f a)
      (.reading quote)) :
    Follows (execution host flow quoteId signs) (Ends quote target) (p >>= f)
      (.reading quote) :=
  stay_bind (fun e r he => .read quote e r he) rfl h hf

/-- Reads whose result is known to satisfy `Q`. -/
theorem returns_bind_reads {Q : α → Prop} {p : Op α} {f : α → Op β} (h : Only Reads p)
    (returns : Returns Q p)
    (hf : ∀ a, Q a → Follows (execution host flow quoteId signs) (Ends quote target) (f a)
      (.reading quote)) :
    Follows (execution host flow quoteId signs) (Ends quote target) (p >>= f)
      (.reading quote) :=
  follows_bind (follows_of_returns (fun e r he => Advances.read quote e r he) h returns
    (fun e => ends_error rfl e) hf)

/-- A check that passed tells what it computed. -/
theorem checked_bind {ε : Type} {message : ε → String} {x : Except ε α} {f : α → Op β}
    (hf : ∀ a, x = .ok a → Follows (execution host flow quoteId signs) (Ends quote target) (f a)
      (.reading quote)) :
    Follows (execution host flow quoteId signs) (Ends quote target) (check message x >>= f)
      (.reading quote) := by
  cases x with
  | error e => exact .fail rfl
  | ok a => exact hf a rfl

theorem check_bind {ε : Type} {message : ε → String} {x : Except ε α} {f : α → Op β}
    (hf : ∀ a, Follows (execution host flow quoteId signs) (Ends quote target) (f a)
      (.reading quote)) :
    Follows (execution host flow quoteId signs) (Ends quote target) (check message x >>= f)
      (.reading quote) :=
  checked_bind fun a _ => hf a

/-- After the signature only computations are left before the broadcast. -/
theorem signed_bind {p : Op α} {f : α → Op β} (h : Only (fun _ => False) p)
    (hf : ∀ a, Follows (execution host flow quoteId signs) (Ends quote target) (f a)
      (.signed quote)) :
    Follows (execution host flow quoteId signs) (Ends quote target) (p >>= f)
      (.signed quote) :=
  stay_bind (fun _ _ => False.elim) rfl h hf

theorem follows_sign {e : Request} {f : e.Answer → Except (Failure String) α}
    (h : signs quote e) :
    Follows (execution host flow quoteId signs) (Ends quote (.signed quote)) (Prog.ask e f)
      (.reading quote) := by
  refine follows_ask fun r _ => ⟨.signed quote, .sign quote e r h, ?_⟩
  cases f r with
  | error e => exact ends_error rfl e
  | ok a => rfl

theorem sign_bind {p : Op α} {f : α → Op β}
    (h : Follows (execution host flow quoteId signs) (Ends quote (.signed quote)) p
      (.reading quote))
    (hf : ∀ a, Follows (execution host flow quoteId signs) (Ends quote target) (f a)
      (.signed quote)) :
    Follows (execution host flow quoteId signs) (Ends quote target) (p >>= f)
      (.reading quote) := by
  refine follows_bind (follows_mono ?_ h)
  intro result progress ended
  match result with
  | .ok a =>
    cases ended
    exact hf a
  | .error (.error _) => exact ended
  | .error .panic => trivial

/-- The last request is a broadcast, read as done exactly when it is reported. -/
theorem follows_broadcast {e : Request} {f : e.Answer → Except (Failure String) α}
    (g : α → Except (Failure String) β) (sent : e.role = .broadcast)
    (agrees : ∀ r, reported host e r = (f r >>= g).isOk) :
    Follows (execution host flow quoteId signs) (Ends quote (.sent quote true))
      (Prog.ask e f >>= fun a => Prog.lift (g a)) (.signed quote) := by
  refine follows_bind (follows_ask fun r _ => ⟨_, .send quote e r sent, ?_⟩)
  rw [agrees]
  cases hf : f r with
  | error e => exact ends_error rfl e
  | ok a =>
    refine follows_lift ?_
    cases hg : g a with
    | error e => exact ends_error (by simp [bind, Except.bind, hg]; rfl) e
    | ok b => simp [Ends, bind, Except.bind, hg, Except.isOk, Except.toBool]

/-- What is computed from the result does not matter. -/
theorem ends_map {p : Op α} (g : α → β) {progress : Progress flow.Quote}
    (h : Follows (execution host flow quoteId signs) (Ends quote target) p progress) :
    Follows (execution host flow quoteId signs) (Ends quote target) (p >>= fun a => .pure (g a))
      progress := by
  refine follows_bind (follows_mono ?_ h)
  intro result progress ended
  match result with
  | .ok a => exact .pure ended
  | .error (.error _) => exact ended
  | .error .panic => trivial

/-- A string answer is what the JSON-RPC chains take for a transaction id. -/
theorem follows_jsonRpc {network : NetworkId} {method : String} {params : Json} (g : String → β)
    (sent : (Request.jsonRpc network method params).role = .broadcast) :
    Follows (execution host flow quoteId signs) (Ends quote (.sent quote true))
      (jsonRpc host network method params Json.asStr >>= fun text => .pure (g text))
      (.signed quote) := by
  refine follows_broadcast (fun text => .ok (g text)) sent fun answer => ?_
  cases answer with
  | error e => rfl
  | ok value => cases value <;> rfl

/-- The transaction an EVM call becomes; the node picks nonce, gas and gas price. -/
def EvmSpec (network : EvmNetwork) (target valueRaw : String) (data : Option String)
    (spec : TransactionSpec) : Prop :=
  ∃ target' value params, Address.Evm.validate target = .ok target' ∧
    parseU128 (trim valueRaw) = .ok value ∧ params.chainId = network.chainId ∧
    spec = Evm.spec target' value data params

theorem signAndBroadcast_ends (network : EvmNetwork) (fromAddress target valueRaw : String)
    (txData : Option String)
    (h : ∀ spec, EvmSpec network target valueRaw txData spec →
      signs quote (.signTransaction .evm spec)) :
    Follows (execution host flow quoteId signs) (Ends quote (.sent quote true))
      (Evm.signAndBroadcast host network fromAddress target valueRaw txData)
      (.reading quote) := by
  unfold Evm.signAndBroadcast
  refine checked_bind fun target' htarget => checked_bind fun value hvalue => ?_
  refine returns_bind_reads (Evm.nodeParams_reads ..) (Evm.nodeParams_returns ..) ?_
  intro params hchain
  have spec := h _ ⟨target', value, params, htarget, hvalue, hchain, rfl⟩
  exact sign_bind (follows_sign spec) fun signed => follows_jsonRpc _ (by simp [Request.role])

theorem executeEvmQuote_ends (transaction : PreparedTransaction)
    (h : ∀ target value data spec, Evm.transferCall transaction = .ok (target, value, data) →
      EvmSpec (transaction.evmNetwork.getD .ethereumMainnet) target value data spec →
      signs quote (.signTransaction .evm spec)) :
    Follows (execution host flow quoteId signs) (Ends quote (.sent quote true))
      (Evm.executeEvmQuote host transaction) (.reading quote) := by
  unfold Evm.executeEvmQuote
  refine checked_bind fun call hcall => ends_map _ ?_
  exact signAndBroadcast_ends _ _ _ _ _ fun spec => h _ _ _ spec hcall

theorem signAndBroadcastEvm_ends (network : EvmNetwork) (target : String)
    (dataHex : Option String) (valueRaw : String)
    (h : ∀ data spec, Evm.optionalCalldata dataHex = .ok data →
      EvmSpec network target valueRaw data spec → signs quote (.signTransaction .evm spec)) :
    Follows (execution host flow quoteId signs) (Ends quote (.sent quote true))
      (Evm.signAndBroadcastEvm host network target dataHex valueRaw) (.reading quote) := by
  unfold Evm.signAndBroadcastEvm
  refine reads_bind (requireAccount_reads _) fun account => checked_bind fun data hdata => ?_
  exact ends_map _ (signAndBroadcast_ends _ _ _ _ _ fun spec => h data spec hdata)

theorem executeBtcQuote_ends (transaction : PreparedTransaction)
    (h : ∀ amountSats feeSats utxos, transaction.kind = .nativeTransfer →
      parseU64 transaction.amountRaw = .ok amountSats → signs quote (.signTransaction .btc
        (.btc transaction.fromAddress transaction.toAddress amountSats feeSats utxos))) :
    Follows (execution host flow quoteId signs) (Ends quote (.sent quote true))
      (Btc.executeBtcQuote host transaction) (.reading quote) := by
  unfold Btc.executeBtcQuote
  split
  · exact .fail rfl
  · next hkind =>
    refine checked_bind fun amountSats hamount => check_bind fun _ => check_bind fun _ => ?_
    refine reads_bind (only_ask _ rfl) fun utxos => ?_
    split
    · exact .fail rfl
    · refine check_bind fun plan => ?_
      have signs := h amountSats plan.feeSats plan.selected (not_not.mp hkind) hamount
      refine sign_bind (follows_sign signs) fun signed => ?_
      refine follows_broadcast (fun _ => .ok _) rfl fun answer => ?_
      cases answer <;> rfl

theorem solanaSign_ends {message : List UInt8}
    (h : signs quote (.signMessage .solana message .ed25519)) :
    Follows (execution host flow quoteId signs) (Ends quote (.signed quote))
      (Solana.solanaSign message) (.reading quote) := by
  unfold Solana.solanaSign
  refine sign_bind (follows_sign h) fun signature => ?_
  cases signature with
  | secp256k1 => exact .fail rfl
  | ed25519 signatureHex =>
    refine signed_bind (only_check _ _) fun bytes => ?_
    split
    · exact .pure rfl
    · exact .fail rfl

theorem signedWire_ends (transaction : PreparedTransaction) {fromPk : List UInt8} (amount : Nat)
    (hfrom : Solana.b58ToPubkey host transaction.fromAddress = .ok fromPk)
    (transactions : ∀ blockhash, transaction.kind = .nativeTransfer →
      signs quote (.signTransaction .solana
        (.solana transaction.fromAddress transaction.toAddress amount blockhash)))
    (messages : ∀ mintAddr message, transaction.kind = .tokenTransfer →
      transaction.tokenAddress = some mintAddr →
      Solana.SplTransfer host transaction.fromAddress transaction.toAddress mintAddr amount
        message →
      signs quote (.signMessage .solana message .ed25519)) :
    Follows (execution host flow quoteId signs) (Ends quote (.signed quote))
      (Solana.signedWire host transaction fromPk amount) (.reading quote) := by
  unfold Solana.signedWire
  cases hkind : transaction.kind with
  | nativeTransfer =>
    refine reads_bind (Solana.fetchRecentBlockhash_reads _) fun blockhash => ?_
    refine sign_bind (follows_sign (transactions _ hkind)) fun signed => ?_
    exact follows_of_only (fun _ _ => False.elim) (only_check _ _) fun result => by
      cases result with
      | error e => exact ends_error rfl e
      | ok a => rfl
  | tokenTransfer =>
    refine checked_bind fun toPubkey hto => ?_
    refine returns_bind_reads (Solana.fetchRecentBlockhash_reads _)
      (Solana.fetchRecentBlockhash_returns _) fun blockhash hlength => ?_
    refine returns_bind_reads (Solana.splMessage_reads ..)
      (Solana.splMessage_returns host amount hlength hfrom hto) ?_
    rintro message ⟨mintAddr, htoken, built⟩
    have signs := messages mintAddr message hkind htoken built
    exact sign_bind (solanaSign_ends signs) fun signature => .pure rfl

theorem executeSolanaQuote_ends (transaction : PreparedTransaction)
    (transactions : ∀ amount blockhash, transaction.kind = .nativeTransfer →
      parseU64 transaction.amountRaw = .ok amount → signs quote (.signTransaction .solana
        (.solana transaction.fromAddress transaction.toAddress amount blockhash)))
    (messages : ∀ amount mintAddr message, transaction.kind = .tokenTransfer →
      parseU64 transaction.amountRaw = .ok amount → transaction.tokenAddress = some mintAddr →
      Solana.SplTransfer host transaction.fromAddress transaction.toAddress mintAddr amount
        message →
      signs quote (.signMessage .solana message .ed25519)) :
    Follows (execution host flow quoteId signs) (Ends quote (.sent quote true))
      (Solana.executeSolanaQuote host transaction) (.reading quote) := by
  unfold Solana.executeSolanaQuote
  refine check_bind fun _ => check_bind fun _ => checked_bind fun amount hamount => ?_
  refine reads_bind (Solana.signerPubkey_reads _) fun fromPk => ?_
  refine checked_bind fun expected hfrom => ?_
  split
  · exact .fail rfl
  · next same =>
    rw [← not_not.mp same] at hfrom
    refine sign_bind (signedWire_ends transaction amount hfrom ?_ ?_) fun wire => ?_
    · exact fun blockhash hkind => transactions amount blockhash hkind hamount
    · exact fun mintAddr message hkind => messages amount mintAddr message hkind hamount
    · exact follows_jsonRpc _ (by simp [Request.role])

theorem signAndBroadcastVersioned_ends (txBlobHex : String)
    (h : ∀ message, Solana.blobMessage host txBlobHex = .ok message →
      signs quote (.signMessage .solana message .ed25519)) :
    Follows (execution host flow quoteId signs) (Ends quote (.sent quote true))
      (Solana.signAndBroadcastVersioned host txBlobHex) (.reading quote) := by
  unfold Solana.signAndBroadcastVersioned
  refine checked_bind fun wire hwire => checked_bind fun layout hlayout => ?_
  refine reads_bind (Solana.signerPubkey_reads _) fun pubkey => check_bind fun index => ?_
  have message : Solana.blobMessage host txBlobHex = .ok (wire.drop layout.messageStart) := by
    simp [Solana.blobMessage, bind, Except.bind, hwire, hlayout]
  refine sign_bind (solanaSign_ends (h _ message)) fun signature => ?_
  exact follows_jsonRpc _ (by simp [Request.role])

/-- Tron's node answers with a body whose `result` tells. -/
theorem reported_tron {network : NetworkId} {body contentType : String} (txId : String)
    (g : String → β) (answer : Except TransportError String) :
    reported host (.restPost network "wallet/broadcasttransaction" body contentType) answer =
      ((match answer with
        | .error e => .error (.error e.message)
        | .ok text => decodeText host "POST" some text : Except (Failure String) Json) >>=
        fun response => (Tron.broadcastOutcome txId response).map g).isOk := by
  cases answer with
  | error e => rfl
  | ok text =>
    simp only [reported, decodeText]
    cases host.codec.parse text with
    | error e => simp [bind, Except.bind, Except.isOk, Except.toBool]
    | ok response =>
      simp only [Tron.broadcastOutcome, bind, Except.bind]
      cases ((response.get "result").bind Json.asBool).getD false <;>
        simp [Except.isOk, Except.toBool, Except.map]

theorem tronTransactionSpec_ok {rawTx : Tron.CreateTransactionResponse} {expectedTo : String}
    {transfer : TronVerify.TronTransfer} {spec : TransactionSpec}
    (h : Tron.tronTransactionSpec host rawTx expectedTo transfer = .ok spec) :
    ∃ rawDataHex txid, spec = .tron rawDataHex expectedTo txid transfer ∧
      Tron.Carries host rawDataHex expectedTo txid transfer := by
  unfold Tron.tronTransactionSpec at h
  obtain ⟨txid, hrecomputed, h⟩ := bind_ok_iff.mp h
  obtain ⟨_, hverified, h⟩ := bind_ok_iff.mp h
  cases h
  exact ⟨_, _, rfl, mapError_ok hrecomputed, _, mapError_ok hverified⟩

theorem executeTronQuote_ends (transaction : PreparedTransaction)
    (h : ∀ amount toHex expectedTo transfer rawDataHex txid,
      parseU128 transaction.amountRaw = .ok amount →
      Address.Tron.toHex host.ext transaction.toAddress = .ok toHex →
      Tron.Built host transaction toHex amount expectedTo transfer →
      Tron.Carries host rawDataHex expectedTo txid transfer →
      signs quote (.signTransaction .tron (.tron rawDataHex expectedTo txid transfer))) :
    Follows (execution host flow quoteId signs) (Ends quote (.sent quote true))
      (Tron.executeTronQuote host transaction) (.reading quote) := by
  unfold Tron.executeTronQuote
  refine check_bind fun _ => check_bind fun _ => checked_bind fun amount hamount => ?_
  refine check_bind fun owner => checked_bind fun toHex hto => ?_
  refine reads_bind (only_ask _ rfl) fun derived => ?_
  split
  · exact .fail rfl
  · refine returns_bind_reads (Tron.buildTransaction_reads ..)
      (Tron.buildTransaction_returns ..) fun built hbuilt => ?_
    refine returns_bind_reads (only_lift _) (returns_lift fun spec hspec => hspec) ?_
    intro spec hspec
    obtain ⟨rawDataHex, txid, rfl, carries⟩ := tronTransactionSpec_ok hspec
    have signs := h amount toHex _ _ rawDataHex txid hamount hto hbuilt carries
    refine sign_bind (follows_sign signs) fun signed => ?_
    simp only [Prog.lift_bind_pure]
    exact follows_broadcast _ (by simp [Request.role]) fun answer => reported_tron _ _ answer

end Bodies

section Executions

variable {host : Host}

/-- The signatures a prepared transfer may ask for. -/
inductive Pays (host : Host) (quote : PreparedTransaction) : Request → Prop
  | evm {target value : String} {data : Option String} {spec : TransactionSpec}
      (chain : quote.chain = .evm) (call : Evm.transferCall quote = .ok (target, value, data))
      (built : EvmSpec (quote.evmNetwork.getD .ethereumMainnet) target value data spec) :
      Pays host quote (.signTransaction .evm spec)
  | btc {amountSats : Nat} (chain : quote.chain = .btc) (kind : quote.kind = .nativeTransfer)
      (amount : parseU64 quote.amountRaw = .ok amountSats) (feeSats : Nat) (utxos : List Utxo) :
      Pays host quote (.signTransaction .btc
        (.btc quote.fromAddress quote.toAddress amountSats feeSats utxos))
  | solana {lamports : Nat} (chain : quote.chain = .solana) (kind : quote.kind = .nativeTransfer)
      (amount : parseU64 quote.amountRaw = .ok lamports) (blockhash : String) :
      Pays host quote (.signTransaction .solana
        (.solana quote.fromAddress quote.toAddress lamports blockhash))
  | spl {units : Nat} {mintAddr : String} {message : List UInt8} (chain : quote.chain = .solana)
      (kind : quote.kind = .tokenTransfer) (amount : parseU64 quote.amountRaw = .ok units)
      (token : quote.tokenAddress = some mintAddr)
      (built : Solana.SplTransfer host quote.fromAddress quote.toAddress mintAddr units message) :
      Pays host quote (.signMessage .solana message .ed25519)
  | tron {units : Nat} {toHex expectedTo rawDataHex txid : String}
      {transfer : TronVerify.TronTransfer}
      (chain : quote.chain = .tron) (amount : parseU128 quote.amountRaw = .ok units)
      (recipient : Address.Tron.toHex host.ext quote.toAddress = .ok toHex)
      (built : Tron.Built host quote toHex units expectedTo transfer)
      (carries : Tron.Carries host rawDataHex expectedTo txid transfer) :
      Pays host quote (.signTransaction .tron (.tron rawDataHex expectedTo txid transfer))

/-- The signatures that executing a quote may ask for. -/
def Signs (host : Host) : (flow : Flow) → flow.Quote → Request → Prop
  | .native, quote, e => Pays host quote.transaction e
  | .web3, quote, e =>
    match quote.unsigned with
    | .evm network target data value => ∃ data' spec, Evm.optionalCalldata data = .ok data' ∧
        EvmSpec network target value data' spec ∧ e = .signTransaction .evm spec
    | .solana txBlobHex =>
      ∃ message, Solana.blobMessage host txBlobHex = .ok message ∧
        e = .signMessage .solana message .ed25519

theorem signs_role {flow : Flow} {quote : flow.Quote} {e : Request} (h : Signs host flow quote e) :
    e.role = .sign := by
  cases flow with
  | native => cases h <;> rfl
  | web3 =>
    simp only [Signs] at h
    split at h
    · obtain ⟨_, _, _, _, rfl⟩ := h
      rfl
    · obtain ⟨_, _, rfl⟩ := h
      rfl

theorem executeOn_ends {quoteId : String} (quote : PreparedTransferQuote) :
    Follows (execution host .native quoteId (Signs host .native)) (Ends quote (.sent quote true))
      (Execution.executeOn host quote.transaction) (.reading quote) := by
  unfold Execution.executeOn
  cases hchain : quote.transaction.chain with
  | evm => exact executeEvmQuote_ends _ fun _ _ _ _ call built => .evm hchain call built
  | btc => exact executeBtcQuote_ends _ fun _ _ _ kind amount => .btc hchain kind amount _ _
  | solana =>
    exact executeSolanaQuote_ends _ (fun _ _ kind amount => .solana hchain kind amount _)
      fun _ _ _ kind amount token built => .spl hchain kind amount token built
  | tron =>
    exact executeTronQuote_ends _ fun _ _ _ _ _ _ amount recipient built carries =>
      .tron hchain amount recipient built carries

theorem broadcastUnsigned_ends {quoteId : String} (quote : StoredQuote) :
    Follows (execution host .web3 quoteId (Signs host .web3)) (Ends quote (.sent quote true))
      (Execution.broadcastUnsigned host quote.unsigned) (.reading quote) := by
  cases hunsigned : quote.unsigned with
  | evm network target data value =>
    refine signAndBroadcastEvm_ends network target data value fun data' spec hdata built => ?_
    simp only [Signs, hunsigned]
    exact ⟨data', spec, hdata, built, rfl⟩
  | solana txBlobHex =>
    refine signAndBroadcastVersioned_ends txBlobHex fun message hmessage => ?_
    simpa [Signs, hunsigned] using hmessage

/-- Take a quote, act on it, put it back on an error. -/
theorem takeRestore_follows {α β : Type} {flow : Flow} {quoteId : String}
    {signs : flow.Quote → Request → Prop} (owner : Option QuoteOwner)
    (body : flow.Quote → Op α) (g : flow.Quote → α → β)
    (ends : ∀ quote, Follows (execution host flow quoteId signs) (Ends quote (.sent quote true))
      (body quote) (.reading quote)) :
    Follows (execution host flow quoteId signs) (fun _ _ => True)
      (take flow quoteId owner >>= fun quote =>
        Execution.orRestore flow quote (body quote) >>= fun result => .pure (g quote result))
      .waiting := by
  refine follows_bind (follows_ask fun answer _ => ?_)
  cases answer with
  | error message => exact ⟨.finished, .refused owner message, trivial⟩
  | ok quote =>
    refine ⟨.reading quote, .take owner quote, ?_⟩
    show Follows _ _ (Execution.orRestore flow quote (body quote) >>= _) _
    unfold Execution.orRestore
    refine follows_bind (follows_bind (follows_attempt (follows_mono ?_ (ends quote))))
    intro result progress ended
    match result with
    | .ok value => exact .pure (.pure trivial)
    | .error (.error message) =>
      refine follows_bind (follows_ask fun r _ => ?_)
      exact ⟨.finished, .restore progress quote ended, .fail trivial⟩
    | .error .panic => exact .fail trivial

theorem executePrepared_follows (owner : Option QuoteOwner) (params : Execution.ExecuteParams) :
    Follows (execution host .native params.quoteId (Signs host .native)) (fun _ _ => True)
      (Execution.executePrepared host owner params) .waiting := by
  unfold Execution.executePrepared
  split
  · exact .fail trivial
  · exact takeRestore_follows owner _ _ executeOn_ends

theorem executeQuote_follows (owner : Option QuoteOwner) (params : Execution.ExecuteParams) :
    Follows (execution host .web3 params.quoteId (Signs host .web3)) (fun _ _ => True)
      (Execution.executeQuote host owner params) .waiting := by
  unfold Execution.executeQuote
  split
  · exact .fail trivial
  · exact takeRestore_follows owner _ _ broadcastUnsigned_ends

end Executions

inductive Draft (Q : Type) where
  | reading
  | named (id : String)
  | stored (quote : Q)

/-- Reads, then a fresh id, then a quote stored under that id. -/
inductive Drafts (flow : Flow) :
    Draft flow.Quote → (e : Request) → e.Answer → Draft flow.Quote → Prop
  | read (e : Request) (r : e.Answer) (h : Reads e) : Drafts flow .reading e r .reading
  | name (id : String) : Drafts flow .reading (.nextId flow) id (.named id)
  | store (quote : flow.Quote) :
      Drafts flow (.named (Quoted.quoteId quote)) (.insert flow quote) () (.stored quote)

def preparation (flow : Flow) : Monitor Request Request.Answer (Draft flow.Quote) where
  assumes _ _ _ := True
  advances := Drafts flow

/-- A preparation that succeeds has stored a quote; `facts` ties it to the result. -/
def Keeps {flow : Flow} {α : Type} (facts : flow.Quote → α → Prop) :
    Except (Failure String) α → Draft flow.Quote → Prop
  | .ok a, draft => ∃ quote, draft = .stored quote ∧ facts quote a
  | .error _, _ => True

/-- How a stored quote was come by: the call it states, or the unsigned
transaction of the backend's answer. -/
def Extracted (quote : StoredQuote) : Prop :=
  match quote.kind with
  | .dappCall => ∃ network contract calldata value,
      quote.unsigned = .evm network contract (some calldata) value ∧
        quote.summary = Execution.dappSummary network contract calldata value
  | .swap | .bridge => ∃ family,
      Execution.unsignedFromResponse quote.summary family = .ok quote.unsigned

/-- A stored quote and the envelope that was returned for it. -/
structure Envelopes (quote : StoredQuote) (response : Web3QuoteResponse) : Prop where
  quoteId : response.quoteId = quote.quoteId
  kind : response.kind = quote.kind
  signingChain : response.signingChain = Execution.signingChain quote.unsigned
  summary : response.quote = quote.summary
  extracted : Extracted quote

section Preparations

variable {host : Host} {flow : Flow} {α β : Type} {facts : flow.Quote → β → Prop}

theorem drafts_bind {p : Op α} {f : α → Op β} (h : Only Reads p)
    (hf : ∀ a, Follows (preparation flow) (Keeps facts) (f a) .reading) :
    Follows (preparation flow) (Keeps facts) (p >>= f) .reading := by
  refine follows_bind (follows_of_only (fun e r he => Drafts.read e r he) h ?_)
  intro result
  cases result with
  | error e => trivial
  | ok a => exact hf a

theorem drafts_checked {ε : Type} {message : ε → String} {x : Except ε α} {f : α → Op β}
    (hf : ∀ a, x = .ok a → Follows (preparation flow) (Keeps facts) (f a) .reading) :
    Follows (preparation flow) (Keeps facts) (check message x >>= f) .reading := by
  cases x with
  | error e => exact .fail trivial
  | ok a => exact hf a rfl

/-- Name a quote and store it under that name. -/
theorem storeNamed_follows (quote : String → flow.Quote) (g : String → β)
    (hid : ∀ id, Quoted.quoteId (quote id) = id) (hfacts : ∀ id, facts (quote id) (g id)) :
    Follows (preparation flow) (Keeps facts)
      (nextId flow >>= fun id => insert flow (quote id) >>= fun _ => .pure (g id)) .reading := by
  refine follows_bind (follows_ask fun (id : String) _ => ⟨.named id, .name id, ?_⟩)
  refine follows_bind (follows_ask fun r _ => ⟨.stored (quote id), ?_, ?_⟩)
  · have stored : Drafts flow _ (.insert flow (quote id)) () (.stored (quote id)) :=
      .store (quote id)
    rwa [hid id] at stored
  · exact .pure ⟨quote id, rfl, hfacts id⟩

theorem prepareTransfer_follows (owner : Option QuoteOwner)
    (params : Execution.PrepareTransferParams) :
    Follows (preparation .native) (Keeps fun quote transaction => quote.transaction = transaction)
      (Execution.prepareTransfer host owner params) .reading := by
  unfold Execution.prepareTransfer
  refine drafts_bind (only_check _ _) fun _ => drafts_bind (only_check _ _) fun amount => ?_
  split
  · exact .fail trivial
  · refine drafts_bind (requireAccount_reads _) fun account => ?_
    refine drafts_bind (only_check _ _) fun asset => ?_
    dsimp only
    split
    · exact .fail trivial
    · refine drafts_bind (only_ask _ rfl) fun created => ?_
      exact storeNamed_follows _ _ (fun _ => rfl) fun _ => rfl

theorem storeQuote_follows (owner : Option QuoteOwner) (kind : Web3QuoteKind)
    (unsigned : UnsignedTx) (summary : Json)
    (extracted : ∀ quote : StoredQuote, quote.kind = kind → quote.unsigned = unsigned →
      quote.summary = summary → Extracted quote) :
    Follows (preparation .web3) (Keeps Envelopes)
      (Execution.storeQuote owner kind unsigned summary) .reading := by
  unfold Execution.storeQuote
  refine drafts_bind (only_ask _ rfl) fun created => ?_
  refine storeNamed_follows _ _ (fun _ => rfl) fun id => ?_
  exact ⟨rfl, rfl, rfl, rfl, extracted _ rfl rfl rfl⟩

theorem quoteSwap_follows (owner : Option QuoteOwner) (params : Execution.SwapQuoteParams) :
    Follows (preparation .web3) (Keeps Envelopes) (Execution.quoteSwap owner params)
      .reading := by
  unfold Execution.quoteSwap
  cases Execution.chainFamily params.chainId with
  | none => exact .fail trivial
  | some family =>
    refine drafts_bind (Execution.walletAddress_reads _) fun own => ?_
    refine drafts_bind (only_ask _ rfl) fun resp => drafts_checked fun unsigned hunsigned => ?_
    refine storeQuote_follows _ _ _ _ ?_
    rintro quote hkind rfl rfl
    simp only [Extracted, hkind]
    exact ⟨family, hunsigned⟩

theorem quoteBridge_follows (owner : Option QuoteOwner) (params : Execution.BridgeQuoteParams) :
    Follows (preparation .web3) (Keeps Envelopes) (Execution.quoteBridge owner params)
      .reading := by
  unfold Execution.quoteBridge
  split
  · exact .fail trivial
  · cases Execution.chainFamily params.srcChainId with
    | none => exact .fail trivial
    | some family =>
      refine drafts_bind (Execution.walletAddress_reads _) fun src => ?_
      refine drafts_bind (Execution.destinationAddress_reads _ _) fun dst => ?_
      refine drafts_bind (only_ask _ rfl) fun resp => drafts_checked fun unsigned hunsigned => ?_
      refine storeQuote_follows _ _ _ _ ?_
      rintro quote hkind rfl rfl
      simp only [Extracted, hkind]
      exact ⟨family, hunsigned⟩

theorem prepareDappCall_follows (owner : Option QuoteOwner) (params : Execution.DappCallParams) :
    Follows (preparation .web3) (Keeps Envelopes) (Execution.prepareDappCall owner params)
      .reading := by
  unfold Execution.prepareDappCall
  refine drafts_bind (only_check _ _) fun call => ?_
  refine drafts_bind (Execution.walletAddress_reads _) fun own => ?_
  refine storeQuote_follows _ _ _ _ ?_
  rintro quote hkind hunsigned hsummary
  simp only [Extracted, hkind]
  exact ⟨_, _, _, _, hunsigned, hsummary⟩

end Preparations

end ExecutionProtocol

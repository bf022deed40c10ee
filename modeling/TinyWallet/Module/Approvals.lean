import TinyWallet.Module.Calls

/-!
# Every signature was approved

Whatever the module signs inside a call, the host has approved before in that
call, for the call's own quote and for the very transaction or message; a call
signs once at most, and not at all when it is refused, unconfirmed, or not made
by the quote's owner on the open service.
-/

namespace Approvals

open RustText JsonValue Programs Wire Engine QuoteStore ExecutionProtocol WalletModule ModuleCalls
open Execution (sampleHost sampleNow)

abbrev ModuleEvent := Event Request Request.Answer

def isSignature : Request → Bool
  | .moduleSign _ _ => true
  | .moduleSignMessage _ _ _ => true
  | _ => false

def isQuestion : Request → Bool
  | .authorizeWeb3 _ => true
  | .authorizeNative _ => true
  | _ => false

def approves : Except String AuthorizationResult → Bool
  | .ok decision => decision.approved
  | .error _ => false

/-- The host was asked and did not approve. -/
def refuses : ModuleEvent → Bool
  | ⟨.authorizeWeb3 _, answer⟩ => !approves answer
  | ⟨.authorizeNative _, answer⟩ => !approves answer
  | _ => false

/-- The host approved the quote and exactly what is signed. -/
def Covers (host : Host) (quoteId : String) : ModuleEvent → Request → Prop
  | ⟨.authorizeNative question, answer⟩, .moduleSign _ spec =>
    approves answer = true ∧ question.quoteId = quoteId ∧ question.intent = .transaction spec
  | ⟨.authorizeNative question, answer⟩, .moduleSignMessage _ messageHex _ =>
    approves answer = true ∧ question.quoteId = quoteId ∧
      question.intent = .solanaMessage messageHex
  | ⟨.authorizeWeb3 question, answer⟩, .moduleSign _ spec =>
    approves answer = true ∧ question.quoteId = quoteId ∧
      web3Intent spec = some question.transaction
  | ⟨.authorizeWeb3 question, answer⟩, .moduleSignMessage _ messageHex _ =>
    approves answer = true ∧ question.quoteId = quoteId ∧
      ∃ txBlobHex message, question.transaction = .solana txBlobHex ∧
        Solana.blobMessage host txBlobHex = .ok message ∧ messageHex = hexLower message
  | _, _ => False

/-- What a call has done before it signs: it entered the service it names, read
its own quote, and got an approval for the signature. -/
structure Warranted (host : Host) (flow : Flow) (request : ExecuteRequest)
    (past : List ModuleEvent) (e : Request) : Prop where
  confirmed : request.confirmed = true
  owned : ∃ (facts : ServiceFacts) (quote : flow.Quote) (rest : List ModuleEvent),
    past = ⟨.enter flow, some facts⟩ ::
      ⟨.get flow request.quoteId request.owner, Except.ok quote⟩ :: rest ∧
    facts.handle = request.service ∧ Quoted.quoteId quote = request.quoteId ∧
    Quoted.owner quote = request.owner
  approved : ∃ event ∈ past, Covers host request.quoteId event e
  unsigned : ∀ event ∈ past, isSignature event.1 = false
  unrefused : ∀ event ∈ past, refuses event = false

/-- The intent that stands for a signature the engine asks for. -/
def intentOf : Request → Option NativeWalletExecutionIntent
  | .signTransaction _ spec => some (.transaction spec)
  | .signMessage _ message _ => some (.solanaMessage (hexLower message))
  | _ => none

/-- The intents the host is shown while a transfer executes. -/
def Presents (host : Host) (quote : PreparedTransaction) (intent : NativeWalletExecutionIntent) :
    Prop :=
  ∃ e, Pays host quote e ∧ intentOf e = some intent

/-- What the host is asked about belongs to the quote it is shown with. -/
def Presented (host : Host) : Request → Prop
  | .authorizeNative question => Presents host question.quote question.intent
  | .authorizeWeb3 question =>
    (∃ txBlobHex, question.transaction = .solana txBlobHex) ∨
      ∃ spec, web3Intent spec = some question.transaction
  | _ => True

/-- A call with its past. -/
structure Track where
  executes : Option (Flow × ExecuteRequest)
  past : List ModuleEvent
  stage : Stage

def Track.next (t : Track) (e : Request) (r : e.Answer) (stage : Stage) : Track :=
  ⟨t.executes, t.past ++ [⟨e, r⟩], stage⟩

/-- A signature needs its warrant, and nothing is asked after it. -/
structure Permits (host : Host) (t : Track) (e : Request) : Prop where
  signature : isSignature e = true → ∃ flow request, t.executes = some (flow, request) ∧
    Warranted host flow request t.past e
  question : isQuestion e = true → ∀ event ∈ t.past, isSignature event.1 = false
  presented : Presented host e

def guard (host : Host) : Monitor Request Request.Answer Track where
  assumes t := reliable t.stage
  advances t e r t' :=
    ∃ stage, Moves t.stage e r stage ∧ Permits host t e ∧ t' = t.next e r stage

theorem guard_advances {host : Host} {t : Track} {e : Request} {r : e.Answer} {stage : Stage}
    (moves : Moves t.stage e r stage) (permits : Permits host t e) :
    (guard host).advances t e r (t.next e r stage) :=
  ⟨stage, moves, permits, rfl⟩

theorem permits_plain {host : Host} {t : Track} {e : Request} (hs : isSignature e = false)
    (hq : isQuestion e = false) : Permits host t e where
  signature h := by simp [hs] at h
  question h := by simp [hq] at h
  presented := by cases e <;> trivial

theorem plain_of_role {e : Request} (h : e.role ≠ .sign) :
    isSignature e = false ∧ isQuestion e = false := by
  cases e <;> first | exact ⟨rfl, rfl⟩ | simp [Request.role] at h

/-- The state of a guarded run is its history. -/
theorem guard_past {host : Host} {t t' : Track} {history : List ModuleEvent}
    (h : (guard host).Runs t history t') :
    t'.past = t.past ++ history ∧ t'.executes = t.executes := by
  induction h with
  | refl t => simp
  | step first _ ih =>
    obtain ⟨stage, _, _, rfl⟩ := first
    simpa [Track.next] using ih

/-- A Solana blob is approved before the execution starts. -/
def Cleared (host : Host) : (flow : Flow) → flow.Quote → List ModuleEvent → Prop
  | .native, _, _ => True
  | .web3, quote, past =>
    match quote.unsigned with
    | .evm _ _ _ _ => True
    | .solana txBlobHex => ∃ event ∈ past, ∀ message secret scheme,
        Solana.blobMessage host txBlobHex = .ok message →
        Covers host quote.quoteId event (.moduleSignMessage secret (hexLower message) scheme)

/-- The call has read its own quote and neither signed nor been refused. -/
structure Entered (flow : Flow) (request : ExecuteRequest) (quote : flow.Quote) (t : Track) :
    Prop where
  executes : t.executes = some (flow, request)
  stage : t.stage = .seen flow quote
  confirmed : request.confirmed = true
  quoteId : Quoted.quoteId quote = request.quoteId
  owned : ∃ (facts : ServiceFacts) (rest : List ModuleEvent),
    t.past = ⟨.enter flow, some facts⟩ ::
      ⟨.get flow request.quoteId request.owner, Except.ok quote⟩ :: rest ∧
    facts.handle = request.service ∧ Quoted.owner quote = request.owner
  unsigned : ∀ event ∈ t.past, isSignature event.1 = false
  unrefused : ∀ event ∈ t.past, refuses event = false

/-- The call may ask, or sign what is cleared already. -/
structure Ready (host : Host) (flow : Flow) (request : ExecuteRequest) (quote : flow.Quote)
    (t : Track) : Prop extends Entered flow request quote t where
  cleared : Cleared host flow quote t.past

theorem Cleared.append {host : Host} {flow : Flow} {quote : flow.Quote}
    {past more : List ModuleEvent} (h : Cleared host flow quote past) :
    Cleared host flow quote (past ++ more) := by
  cases flow with
  | native => trivial
  | web3 =>
    simp only [Cleared] at h ⊢
    split
    · trivial
    · rename_i hunsigned
      rw [hunsigned] at h
      obtain ⟨event, hevent, covers⟩ := h
      exact ⟨event, List.mem_append_left _ hevent, covers⟩

section Signing

variable {host : Host} {flow : Flow} {request : ExecuteRequest} {quote : flow.Quote} {t : Track}

theorem Entered.next (h : Entered flow request quote t) {e : Request} {r : e.Answer}
    (hs : isSignature e = false) (hr : refuses ⟨e, r⟩ = false) :
    Entered flow request quote (t.next e r t.stage) where
  executes := h.executes
  stage := h.stage
  confirmed := h.confirmed
  quoteId := h.quoteId
  owned := by
    obtain ⟨facts, rest, hpast, facts_owned⟩ := h.owned
    exact ⟨facts, rest ++ [⟨e, r⟩], by simp [Track.next, hpast], facts_owned⟩
  unsigned := by
    intro event hevent
    rcases List.mem_append.mp hevent with hevent | hevent
    · exact h.unsigned event hevent
    · rw [List.mem_singleton.mp hevent]
      exact hs
  unrefused := by
    intro event hevent
    rcases List.mem_append.mp hevent with hevent | hevent
    · exact h.unrefused event hevent
    · rw [List.mem_singleton.mp hevent]
      exact hr

theorem Ready.next (h : Ready host flow request quote t) {e : Request} {r : e.Answer}
    (hs : isSignature e = false) (hr : refuses ⟨e, r⟩ = false) :
    Ready host flow request quote (t.next e r t.stage) :=
  { h.toEntered.next hs hr with cleared := h.cleared.append }

theorem Ready.plain (h : Ready host flow request quote t) {e : Request} {r : e.Answer}
    (he : e.role ≠ .sign) : Ready host flow request quote (t.next e r t.stage) := by
  refine h.next (plain_of_role he).1 ?_
  cases e <;> first | rfl | simp [Request.role] at he

theorem Ready.warrants (h : Ready host flow request quote t) {e : Request}
    (approved : ∃ event ∈ t.past, Covers host request.quoteId event e) :
    Warranted host flow request t.past e where
  confirmed := h.confirmed
  owned := by
    obtain ⟨facts, rest, hpast, handle, owner⟩ := h.owned
    exact ⟨facts, quote, rest, hpast, handle, h.quoteId, owner⟩
  approved := approved
  unsigned := h.unsigned
  unrefused := h.unrefused

/-- How a piece of the signer ends: it gives a result, and the call stays where
it is. -/
def Stays {α : Type} (stage : Stage) (result : Except (Failure String) α) (t : Track) : Prop :=
  result.isOk = true ∧ t.stage = stage

/-- The outcome of asking for approval: what is allowed has a warrant. -/
def Asked (host : Host) (flow : Flow) (request : ExecuteRequest) (stage : Stage)
    (allows : Request → Prop) (result : Except (Failure String) (Except String Unit))
    (t : Track) : Prop :=
  t.stage = stage ∧ ∃ approval, result = .ok approval ∧
    (approval = .ok () → t.executes = some (flow, request) ∧
      ∀ e, allows e → Warranted host flow request t.past e)

theorem perform_signature {e : Request} (he : isSignature e = true)
    (executes : t.executes = some (flow, request)) (h : Warranted host flow request t.past e) :
    Follows (guard host) (Stays t.stage) (Prog.perform e : Op e.Answer) t := by
  have permits : Permits host t e := by
    refine ⟨fun _ => ⟨flow, request, executes, h⟩, fun hq => ?_, ?_⟩
    · cases e <;> simp [isSignature, isQuestion] at he hq
    · cases e <;> trivial
  have moves : ∀ r, Moves t.stage e r t.stage := by
    intro r
    refine .stay _ _ _ ?_
    cases e <;> simp [isSignature, Request.role] at he ⊢
  exact .call _ (fun r _ => guard_advances (moves r) permits) fun r _ => .pure ⟨rfl, rfl⟩

theorem consume_follows {α : Type} {chain : WalletChain} {secret : SecretMaterial}
    {sign : SecretMaterial → Op (Except String α)}
    (h : Follows (guard host) (Stays t.stage) (sign secret) t) :
    Follows (guard host) (Stays t.stage) (consume chain sign (some secret)) t := by
  simp only [consume]
  split
  · exact .pure ⟨rfl, rfl⟩
  · refine follows_bind (follows_mono ?_ h)
    intro result t' stays
    cases result with
    | error e => simp [Stays, Except.isOk, Except.toBool] at stays
    | ok value => exact .pure ⟨rfl, stays.2⟩

theorem approvedThen_follows {α : Type} {secret : SecretMaterial} {chain : WalletChain}
    {sign : SecretMaterial → Op (Except String α)} {allows : Request → Prop}
    {approve : Op (Except String Unit)} {stage : Stage}
    (asked : Follows (guard host) (Asked host flow request stage allows) approve t)
    (signs : ∀ t', t'.stage = stage → t'.executes = some (flow, request) →
      (∀ e, allows e → Warranted host flow request t'.past e) →
      Follows (guard host) (Stays stage) (sign secret) t') :
    Follows (guard host) (Stays stage)
      (approve >>= approvedThen (some secret) (consume chain sign (some secret))) t := by
  refine follows_bind (follows_mono ?_ asked)
  rintro _ t' ⟨hstage, approval, rfl, allowed⟩
  cases approval with
  | error message => exact .pure ⟨rfl, hstage⟩
  | ok _ =>
    obtain ⟨executes, warrants⟩ := allowed rfl
    have := signs t' hstage executes warrants
    rw [← hstage] at this ⊢
    exact consume_follows this

/-- Ask the host; an approval is on record, a refusal ends the matter. -/
theorem question_follows (ready : Ready host flow request quote t) {e : Request}
    (he : isQuestion e = true) (presented : Presented host e)
    {f : e.Answer → Except String Unit} {allows : Request → Prop}
    (covers : ∀ r, f r = .ok () → refuses ⟨e, r⟩ = false ∧
      ∀ e', allows e' → Covers host request.quoteId ⟨e, r⟩ e') :
    Follows (guard host) (Asked host flow request t.stage allows)
      (Prog.ask e fun r => .ok (f r)) t := by
  have hs : isSignature e = false := by cases e <;> simp [isSignature, isQuestion] at he ⊢
  have permits : Permits host t e :=
    ⟨fun h => by simp [hs] at h, fun _ => ready.unsigned, presented⟩
  refine follows_ask fun r _ => ⟨t.next e r t.stage, guard_advances ?_ permits, rfl, f r, rfl, ?_⟩
  · refine .stay _ _ _ ?_
    cases e <;> simp [isQuestion, Request.role] at he ⊢
  · intro approved
    obtain ⟨unrefused, covered⟩ := covers r approved
    have ready' := ready.next hs unrefused
    refine ⟨ready'.executes, fun e' he' => ready'.warrants ⟨⟨e, r⟩, ?_, covered e' he'⟩⟩
    simp [Track.next]

theorem approves_of_decided {answer : Except String AuthorizationResult}
    (h : decided answer = .ok ()) : approves answer = true := by
  cases answer with
  | error message => cases h
  | ok decision =>
    simp only [decided] at h
    split at h
    · assumption
    · cases h

def contextFor : (flow : Flow) → flow.Quote → ApprovalContext
  | .native, quote => ⟨some quote.transaction, none⟩
  | .web3, quote => ⟨none, some (executionApproval quote)⟩

theorem authorizeNative_follows {quote : PreparedTransferQuote}
    (ready : Ready host .native request quote t) {intent : NativeWalletExecutionIntent}
    (presents : Presents host quote.transaction intent) :
    Follows (guard host) (Asked host .native request t.stage fun e =>
        ∀ answer, approves answer = true → Covers host request.quoteId
          ⟨.authorizeNative ⟨quote.transaction.quoteId, "transfer", quote.transaction, intent⟩,
            answer⟩ e)
      (authorizeNative quote.transaction intent) t := by
  refine question_follows ready
    (e := .authorizeNative ⟨quote.transaction.quoteId, "transfer", quote.transaction, intent⟩) rfl
    presents fun answer decision => ?_
  have approved := approves_of_decided decision
  exact ⟨by simp [refuses, approved], fun e allowed => allowed answer approved⟩

theorem authorizeWeb3_follows {quote : StoredQuote} (ready : Ready host .web3 request quote t)
    {question : AuthorizeWeb3ExecutionRequest} {spec : TransactionSpec}
    (intent : web3Intent spec = some question.transaction) :
    Follows (guard host) (Asked host .web3 request t.stage fun e =>
        ∀ answer, approves answer = true →
          Covers host request.quoteId ⟨.authorizeWeb3 question, answer⟩ e)
      (authorizeWeb3 question) t := by
  refine question_follows ready (e := .authorizeWeb3 question) rfl (.inr ⟨spec, intent⟩)
    fun answer decision => ?_
  have approved := approves_of_decided decision
  exact ⟨by simp [refuses, approved], fun e allowed => allowed answer approved⟩

theorem native_transaction (secret : SecretMaterial) {quote : PreparedTransferQuote}
    (ready : Ready host .native request quote t) {chain : WalletChain} {spec : TransactionSpec}
    (pays : Pays host quote.transaction (.signTransaction chain spec)) :
    Follows (guard host) (Stays t.stage)
      (WalletModule.signTransaction (contextFor .native quote) (some secret) chain spec) t := by
  refine approvedThen_follows (authorizeNative_follows ready ⟨_, pays, rfl⟩) ?_
  intro t' hstage executes warrants
  have warrant := warrants (.moduleSign secret spec) fun answer approved =>
    ⟨approved, ready.quoteId, rfl⟩
  exact hstage ▸ perform_signature rfl executes warrant

theorem native_message (secret : SecretMaterial) {quote : PreparedTransferQuote}
    (ready : Ready host .native request quote t) {chain : WalletChain} {message : List UInt8}
    {scheme : Scheme} (pays : Pays host quote.transaction (.signMessage chain message scheme)) :
    Follows (guard host) (Stays t.stage)
      (WalletModule.signMessage (contextFor .native quote) (some secret) chain message scheme)
      t := by
  refine approvedThen_follows (authorizeNative_follows ready ⟨_, pays, rfl⟩) ?_
  intro t' hstage executes warrants
  have warrant := warrants (.moduleSignMessage secret (hexLower message) scheme)
    fun answer approved => ⟨approved, ready.quoteId, rfl⟩
  exact hstage ▸ perform_signature rfl executes warrant

theorem web3_transaction (secret : SecretMaterial) {quote : StoredQuote}
    (ready : Ready host .web3 request quote t) (spec : TransactionSpec) :
    Follows (guard host) (Stays t.stage)
      (WalletModule.signTransaction (contextFor .web3 quote) (some secret) .evm spec) t := by
  unfold WalletModule.signTransaction
  cases hintent : web3Intent spec with
  | none =>
    have refused : approveTransaction (contextFor .web3 quote) .evm spec =
        .pure (.error "EVM signer received a non-EVM transaction") := by
      simp [approveTransaction, contextFor, hintent]
    rw [refused]
    exact .pure ⟨rfl, rfl⟩
  | some intent =>
    have asks : approveTransaction (contextFor .web3 quote) .evm spec =
        authorizeWeb3 ⟨quote.quoteId, (executionApproval quote).operation, intent⟩ := by
      simp [approveTransaction, contextFor, hintent, executionApproval]
    rw [asks]
    refine approvedThen_follows (authorizeWeb3_follows ready hintent) ?_
    intro t' hstage executes warrants
    have warrant := warrants (.moduleSign secret spec) fun answer approved =>
      ⟨approved, ready.quoteId, hintent⟩
    exact hstage ▸ perform_signature rfl executes warrant

/-- A blob's message is signed under the approval the call already has. -/
theorem web3_message (secret : SecretMaterial) {quote : StoredQuote}
    (ready : Ready host .web3 request quote t) {txBlobHex : String} {message : List UInt8}
    (hunsigned : quote.unsigned = .solana txBlobHex)
    (hmessage : Solana.blobMessage host txBlobHex = .ok message) :
    Follows (guard host) (Stays t.stage)
      (WalletModule.signMessage (contextFor .web3 quote) (some secret) .solana message .ed25519)
      t := by
  have cleared := ready.cleared
  simp only [Cleared, hunsigned] at cleared
  obtain ⟨event, hevent, covers⟩ := cleared
  have hid : quote.quoteId = request.quoteId := ready.quoteId
  have covered := covers message secret .ed25519 hmessage
  rw [hid] at covered
  have asked : Follows (guard host) (Asked host .web3 request t.stage
      fun e => e = .moduleSignMessage secret (hexLower message) .ed25519)
      (approveMessage (contextFor .web3 quote) message) t := by
    refine .pure ⟨rfl, .ok (), rfl, fun _ => ⟨ready.executes, ?_⟩⟩
    rintro e rfl
    exact ready.warrants ⟨event, hevent, covered⟩
  refine approvedThen_follows asked ?_
  intro t' hstage executes warrants
  exact hstage ▸ perform_signature rfl executes (warrants _ rfl)

/-- Whatever signature the quote may ask for, the signer keeps the guard. -/
theorem signs_follows {α : Type} {post : Except (Failure String) α → Track → Prop}
    (secret : SecretMaterial) (ready : Ready host flow request quote t) {e : Request}
    (signs : Signs host flow quote e) {k : e.Answer → Op α}
    (rest : ∀ r slot t', t'.stage = t.stage →
      Follows (guard host) post (withSigner (contextFor flow quote) (k r) slot) t') :
    Follows (guard host) post (withSigner (contextFor flow quote) (.call e k) (some secret)) t := by
  have continued : ∀ {p : Op (e.Answer × Option SecretMaterial)},
      Follows (guard host) (Stays t.stage) p t → Follows (guard host) post
        (p >>= fun x => withSigner (contextFor flow quote) (k x.1) x.2) t := by
    intro p h
    refine follows_bind (follows_mono ?_ h)
    intro result t' stays
    cases result with
    | error e => simp [Stays, Except.isOk, Except.toBool] at stays
    | ok x => exact rest x.1 x.2 t' stays.2
  cases flow with
  | native =>
    have pays : Pays host quote.transaction e := signs
    cases signs with
    | spl => exact continued (native_message secret ready pays)
    | _ => exact continued (native_transaction secret ready pays)
  | web3 =>
    simp only [Signs] at signs
    split at signs
    · obtain ⟨_, spec, _, _, rfl⟩ := signs
      exact continued (web3_transaction secret ready spec)
    · rename_i txBlobHex hunsigned
      obtain ⟨message, hmessage, rfl⟩ := signs
      exact continued (web3_message secret ready hunsigned hmessage)

/-- The quote an execution took is the one the call has read, but for its lifetime. -/
def Same (quote taken : flow.Quote) : Prop :=
  Quoted.quoteId taken = Quoted.quoteId quote ∧ Store.content taken = Store.content quote

/-- What a call has left to do at each point of the execution. -/
def Along (host : Host) (request : ExecuteRequest) (quote : flow.Quote) :
    Progress flow.Quote → Option SecretMaterial → Track → Prop
  | .waiting, slot, t => slot.isSome = true ∧ Ready host flow request quote t
  | .reading taken, slot, t =>
    slot.isSome = true ∧ Ready host flow request quote t ∧ Same quote taken
  | .signed taken, _, t => t.stage = .seen flow quote ∧ Same quote taken
  | .sent taken _, _, t => t.stage = .seen flow quote ∧ Same quote taken
  | .finished, _, t => t.stage = .seen flow quote

theorem Along.stage {progress : Progress flow.Quote} {slot : Option SecretMaterial}
    (h : Along host request quote progress slot t) : t.stage = .seen flow quote := by
  cases progress with
  | waiting => exact h.2.stage
  | reading => exact h.2.1.stage
  | signed => exact h.1
  | sent => exact h.1
  | finished => exact h

theorem Along.same {progress : Progress flow.Quote} {slot : Option SecretMaterial}
    {taken : flow.Quote} (h : Along host request quote progress slot t)
    (isOpen : progress.open = some taken) : Same quote taken := by
  match progress with
  | .waiting => cases isOpen
  | .reading _ =>
    cases isOpen
    exact h.2.2
  | .signed _ =>
    cases isOpen
    exact h.2
  | .sent _ false =>
    cases isOpen
    exact h.2
  | .sent _ true => cases isOpen
  | .finished => cases isOpen

/-- The lifetime of a quote has no part in what is signed. -/
theorem pays_lifetime {quote : PreparedTransaction} {ms : Nat} {e : Request}
    (h : Pays host { quote with expiresAtMs := ms } e) : Pays host quote e := by
  cases h with
  | evm chain call built => exact @Pays.evm host quote _ _ _ _ chain call built
  | btc chain kind amount => exact @Pays.btc host quote _ chain kind amount _ _
  | solana chain kind amount => exact @Pays.solana host quote _ chain kind amount _
  | spl chain kind amount token built =>
    exact @Pays.spl host quote _ _ _ chain kind amount token built
  | tron chain amount recipient built carries =>
    exact @Pays.tron host quote _ _ _ _ _ _ chain amount recipient built carries

theorem signs_same {taken : flow.Quote} {e : Request} (same : Same quote taken)
    (h : Signs host flow taken e) : Signs host flow quote e := by
  cases flow with
  | native =>
    have lifetime : ∃ ms, taken.transaction = { quote.transaction with expiresAtMs := ms } := by
      refine ⟨taken.transaction.expiresAtMs, ?_⟩
      have content := congrArg (fun q : PreparedTransferQuote =>
        { q.transaction with expiresAtMs := taken.transaction.expiresAtMs }) same.2
      exact content
    obtain ⟨ms, htaken⟩ := lifetime
    simp only [Signs, htaken] at h ⊢
    exact pays_lifetime h
  | web3 =>
    have hunsigned := congrArg (fun q : StoredQuote => q.unsigned) same.2
    change taken.unsigned = quote.unsigned at hunsigned
    simpa only [Signs, hunsigned] using h

theorem splTransfer_cluster (host : Host) (cluster : SolanaCluster) :
    Solana.SplTransfer { host with cluster } = Solana.SplTransfer host := by
  have bump : ∀ seeds programId n, Solana.findBump { host with cluster } seeds programId n =
      Solana.findBump host seeds programId n := by
    intro seeds programId n
    induction n with
    | zero => rfl
    | succ n ih => simp only [Solana.findBump, ih]
  funext sender recipient mintAddr amount message
  simp only [Solana.SplTransfer, Solana.b58ToPubkey, Solana.associatedTokenAccount,
    Solana.findProgramAddress, Solana.buildSplTransferMessage, bump]

/-- The cluster of a service has no part in what is signed. -/
theorem signs_cluster {cluster : SolanaCluster} {e : Request}
    (h : Signs { host with cluster } flow quote e) : Signs host flow quote e := by
  cases flow with
  | native =>
    simp only [Signs] at h ⊢
    cases h with
    | evm chain call built => exact .evm chain call built
    | btc chain kind amount => exact .btc chain kind amount _ _
    | solana chain kind amount => exact .solana chain kind amount _
    | spl chain kind amount token built =>
      rw [splTransfer_cluster] at built
      exact .spl chain kind amount token built
    | tron chain amount recipient built carries =>
      simp only [Tron.Built, Tron.encodeTrc20TransferParam] at built
      refine @Pays.tron host _ _ _ _ _ _ _ chain amount recipient ?_ carries
      simpa only [Tron.Built, Tron.encodeTrc20TransferParam] using built
  | web3 =>
    have same : Solana.blobMessage { host with cluster } = Solana.blobMessage host := by
      funext txBlobHex
      simp only [Solana.blobMessage, Solana.blobBytes]
    simpa only [Signs, same] using h

-- `host'` is the host as the service's engine sees it.
variable {host' : Host} {quoteId : String} {progress progress' : Progress flow.Quote} {e : Request}
  {r : e.Answer} {slot : Option SecretMaterial}

theorem advances_sign (h : Advances host' flow quoteId (Signs host flow) progress e r progress')
    (he : e.role = .sign) :
    ∃ taken, progress = .reading taken ∧ Signs host flow taken e ∧ progress' = .signed taken := by
  cases h with
  | sign taken e r signs => exact ⟨taken, rfl, signs, rfl⟩
  | read _ _ _ reads => exact absurd (reads.symm.trans he) (by decide)
  | send _ _ _ sends => exact absurd (sends.symm.trans he) (by decide)
  | _ => simp [Request.role] at he

theorem Along.slot_isSome (h : Along host request quote progress slot t)
    (advances : Advances host' flow quoteId (Signs host flow) progress e r progress')
    (he : e.role = .read) : slot.isSome = true := by
  cases advances with
  | read => exact h.1
  | sign _ _ _ signs => exact absurd ((signs_role signs).symm.trans he) (by decide)
  | send _ _ _ sends => exact absurd (sends.symm.trans he) (by decide)
  | _ => simp [Request.role] at he

/-- One request of the engine that signs nothing. -/
theorem Along.step (h : Along host request quote progress slot t)
    (assumed : reliable t.stage e r)
    (advances : Advances host' flow request.quoteId (Signs host flow) progress e r progress')
    (he : e.role ≠ .sign) :
    ∃ t', (guard host).advances t e r t' ∧ Along host request quote progress' slot t' := by
  have permits : Permits host t e := permits_plain (plain_of_role he).1 (plain_of_role he).2
  have hstage := h.stage
  cases advances with
  | take caller taken =>
    obtain ⟨hslot, ready⟩ := h
    have moves : Moves t.stage (.take flow request.quoteId caller) (Except.ok taken) t.stage := by
      rw [hstage, ← ready.quoteId]
      exact .take flow quote caller _
    refine ⟨_, guard_advances moves permits, hslot, ready.plain he, ?_⟩
    rw [Same, ready.quoteId]
    exact assumed quote taken hstage ready.quoteId rfl
  | refused caller message =>
    obtain ⟨hslot, ready⟩ := h
    have moves : Moves t.stage (.take flow request.quoteId caller) (Except.error message)
        t.stage := by
      rw [hstage, ← ready.quoteId]
      exact .take flow quote caller _
    exact ⟨_, guard_advances moves permits, hstage⟩
  | read taken _ _ reads =>
    have moves := Moves.stay t.stage e r (by rw [reads]; decide)
    exact ⟨_, guard_advances moves permits, h.1, h.2.1.plain he, h.2.2⟩
  | sign _ _ _ signs => exact absurd (signs_role signs) he
  | send taken _ _ sends =>
    have moves := Moves.stay t.stage e r (by rw [sends]; decide)
    exact ⟨_, guard_advances moves permits, hstage, h.2⟩
  | restore _ taken isOpen =>
    obtain ⟨hid, same⟩ := h.same isOpen
    have moves : Moves t.stage (.restore flow taken) () t.stage := by
      rw [hstage]
      exact .restore flow quote taken hid same
    exact ⟨_, guard_advances moves permits, hstage⟩

/-- Every request can be answered. -/
theorem answer_nonempty (e : Request) : Nonempty e.Answer := by
  cases e with
  | close => exact ⟨Closing.absent⟩
  | jsonRpc network => exact ⟨Except.error (.unreachable network "")⟩
  | restGet network => exact ⟨Except.error (.unreachable network "")⟩
  | restPost network => exact ⟨Except.error (.unreachable network "")⟩
  | _ => simp only [Request.Answer]; infer_instance

/-- An execution over the module's signer keeps the guard. -/
theorem withSigner_follows {α : Type}
    {post : Except (Failure String) α → Progress flow.Quote → Prop} {p : Op α}
    (h : Follows (execution host' flow request.quoteId (Signs host flow)) post p progress)
    (along : Along host request quote progress slot t) :
    Follows (guard host) (fun _ t' => t'.stage = .seen flow quote)
      (withSigner (contextFor flow quote) p slot) t := by
  induction h generalizing slot t with
  | pure => exact .pure along.stage
  | fail => exact .fail along.stage
  | @call e k progress next allowed _ ih =>
    obtain ⟨r₀⟩ := answer_nonempty e
    have advances : ∀ r, Advances host' flow request.quoteId (Signs host flow) progress e r
        (next r) := fun r => allowed r trivial
    by_cases he : e.role = .sign
    · obtain ⟨taken, rfl, signs, _⟩ := advances_sign (advances r₀) he
      obtain ⟨hslot, ready, same⟩ := along
      obtain ⟨secret, rfl⟩ := Option.isSome_iff_exists.mp hslot
      refine signs_follows secret ready (signs_same same signs) ?_
      intro r slot t' hstage
      obtain ⟨_, hreading, _, hnext⟩ := advances_sign (advances r) he
      cases hreading
      refine ih r trivial ?_
      rw [hnext]
      exact ⟨hstage.trans ready.stage, same⟩
    · rw [withSigner_call he (along.slot_isSome (advances r₀))]
      refine follows_call fun r assumed => ?_
      obtain ⟨t', advanced, along'⟩ := along.step assumed (advances r) he
      exact ⟨t', advanced, ih r trivial along'⟩

end Signing

section Calls

variable {host : Host} {flow : Flow} {t : Track} {α : Type}

/-- How the inside of a lock ends: the lock is still held. -/
def Holds (flow : Flow) (_ : Except (Failure BusError) α) (t : Track) : Prop :=
  t.stage.within = some flow

theorem locked_follows {body : Option ServiceFacts → BusOp α} (outside : t.stage = .outside)
    (h : ∀ facts : Option ServiceFacts, Follows (guard host) (Holds flow) (body facts)
      (t.next (.enter flow) facts (.inside flow))) :
    Follows (guard host) (fun _ _ => True) (locked flow body) t := by
  refine follows_call fun (facts : Option ServiceFacts) _ => ?_
  have moves : Moves t.stage (.enter flow) facts (.inside flow) := outside ▸ .enter flow facts
  refine ⟨_, guard_advances moves (permits_plain rfl rfl), ?_⟩
  refine follows_bind (follows_attempt (follows_mono ?_ (h facts)))
  intro result t' holds
  refine follows_call fun (_ : Unit) _ => ?_
  exact ⟨_, guard_advances (.leave t'.stage flow holds) (permits_plain rfl rfl),
    follows_lift trivial⟩

theorem withService_follows {service : String} {foreign : BusError}
    {body : ServiceFacts → BusOp α} (outside : t.stage = .outside)
    (h : ∀ facts : ServiceFacts, facts.handle = service → Follows (guard host) (Holds flow)
      (body facts) (t.next (.enter flow) (some facts) (.inside flow))) :
    Follows (guard host) (fun _ _ => True) (withService flow service foreign body) t := by
  refine locked_follows outside fun facts => ?_
  cases facts with
  | none => exact .fail rfl
  | some facts =>
    by_cases hservice : service ≠ facts.handle
    · simp only [hservice, ne_eq, not_false_eq_true, if_true]
      exact .fail rfl
    · simp only [hservice, if_false]
      exact h facts (not_not.mp hservice).symm

/-- An operation that prepares a quote, inside the lock. -/
theorem prepares_follows {p : Op α} {wrap : String → BusError}
    {post : Except (Failure String) α → Draft flow.Quote → Prop} (inside : t.stage = .inside flow)
    (h : Follows (preparation flow) post p .reading) :
    Follows (guard host) (Holds flow) (reportAs wrap p) t := by
  let rel : Draft flow.Quote → Track → Prop := fun draft t =>
    match draft with
    | .reading => t.stage = .inside flow
    | .named id => t.stage = .named flow id
    | .stored _ => t.stage = .inside flow
  refine follows_mapError (follows_simulate rel (fun _ _ _ _ _ _ => trivial) ?_ ?_ inside h)
  · intro draft t e r draft' related _ drafts
    cases drafts with
    | read e r reads =>
      have apart : e.role ≠ .sign := by rw [reads]; decide
      have moves := Moves.stay t.stage e r (by rw [reads]; decide)
      exact ⟨_, guard_advances moves
        (permits_plain (plain_of_role apart).1 (plain_of_role apart).2), related⟩
    | name id =>
      have moves : Moves t.stage (.nextId flow) id (.named flow id) := by
        rw [show t.stage = .inside flow from related]
        exact .name flow id
      exact ⟨_, guard_advances moves (permits_plain rfl rfl), rfl⟩
    | store quote =>
      have moves : Moves t.stage (.insert flow quote) () (.inside flow) := by
        rw [show t.stage = .named flow (Quoted.quoteId quote) from related]
        exact .store flow quote
      exact ⟨_, guard_advances moves (permits_plain rfl rfl), rfl⟩
  · intro result draft t related _
    cases draft with
    | reading => exact (congrArg Stage.within related).trans rfl
    | named => exact (congrArg Stage.within related).trans rfl
    | stored => exact (congrArg Stage.within related).trans rfl

theorem web3Quote_follows {P : Type} {operation : Option QuoteOwner → P → Op Web3QuoteResponse}
    {service : String} {owner : Option QuoteOwner} {params : Except String P}
    (outside : t.stage = .outside)
    (h : ∀ params, Follows (preparation .web3) (Keeps Envelopes) (operation owner params)
      .reading) :
    Follows (guard host) (fun _ _ => True) (web3Quote operation service owner params) t := by
  refine withService_follows outside fun facts _ => ?_
  cases params with
  | error message => exact .fail rfl
  | ok params => exact prepares_follows rfl (h params)

/-- Read the quote under approval, and go on with it. -/
theorem get_follows {request : ExecuteRequest} {wrap : String → BusError}
    {facts : ServiceFacts} {f : flow.Quote → BusOp α}
    (confirmed : request.confirmed = true) (handle : facts.handle = request.service)
    (h : ∀ quote t, Entered flow request quote t →
      Follows (guard host) (Holds flow) (f quote) t) :
    Follows (guard host) (Holds flow)
      (reportAs wrap (get flow request.quoteId request.owner) >>= f)
      ((⟨some (flow, request), [], .outside⟩ : Track).next (.enter flow) (some facts)
        (.inside flow)) := by
  refine follows_bind (follows_mapError (follows_ask ?_))
  intro (answer : Except String flow.Quote) assumed
  cases answer with
  | error message =>
    exact ⟨_, guard_advances (.unseen flow _ _ message) (permits_plain rfl rfl), rfl⟩
  | ok quote =>
    obtain ⟨hid, howner⟩ := assumed quote rfl
    refine ⟨_, guard_advances (.get flow _ _ quote) (permits_plain rfl rfl), h quote _ ?_⟩
    exact {
      executes := rfl
      stage := rfl
      confirmed := confirmed
      quoteId := hid
      owned := ⟨facts, [], rfl, handle, howner⟩
      unsigned := by simp [Track.next, isSignature]
      unrefused := by simp [Track.next, refuses] }

theorem approveBlob_follows {request : ExecuteRequest} {quote : StoredQuote}
    (entered : Entered .web3 request quote t) {f : Unit → BusOp α}
    (h : ∀ t, Ready host .web3 request quote t → Follows (guard host) (Holds .web3) (f ()) t) :
    Follows (guard host) (Holds .web3) (approveBlob (executionApproval quote) >>= f) t := by
  have within : t.stage.within = some .web3 := by rw [entered.stage]; rfl
  cases hunsigned : quote.unsigned with
  | evm network target data value =>
    have skips : approveBlob (executionApproval quote) = .pure () := by
      simp [approveBlob, executionApproval, hunsigned]
    rw [skips]
    exact h t { entered with cleared := by simp [Cleared, hunsigned] }
  | solana txBlobHex =>
    have asks : (executionApproval quote).solanaIntent = some (.solana txBlobHex) := by
      simp [executionApproval, hunsigned]
    simp only [approveBlob, asks]
    refine follows_call fun (answer : Except String AuthorizationResult) _ => ?_
    refine ⟨_, guard_advances (.stay _ _ _ (by simp [Request.role]))
      ⟨by simp [isSignature], fun _ => entered.unsigned, .inl ⟨txBlobHex, rfl⟩⟩, ?_⟩
    cases answer with
    | error message => exact .fail within
    | ok decision =>
      by_cases approved : decision.approved = true
      · simp only [approved, if_true]
        have unrefused : refuses ⟨.authorizeWeb3 ⟨quote.quoteId,
            (executionApproval quote).operation, .solana txBlobHex⟩,
            Except.ok decision⟩ = false := by
          simp [refuses, approves, approved]
        refine h _ { entered.next rfl unrefused with cleared := ?_ }
        simp only [Cleared, hunsigned]
        refine ⟨_, List.mem_append_right _ (List.mem_singleton_self _), ?_⟩
        intro message secret scheme hmessage
        exact ⟨approved, rfl, txBlobHex, message, rfl, hmessage, rfl⟩
      · simp only [approved]
        exact .fail within

theorem web3Execute_follows (request : ExecuteRequest) :
    Follows (guard host) (fun _ _ => True) (web3Execute host request)
      ⟨some (.web3, request), [], .outside⟩ := by
  refine withService_follows rfl fun facts handle => ?_
  cases confirmed : request.confirmed with
  | false => exact .fail rfl
  | true =>
    refine get_follows confirmed handle fun quote t entered => ?_
    refine approveBlob_follows entered fun t ready => follows_mapError ?_
    have executes := @executeQuote_follows { host with cluster := facts.cluster } request.owner
      ⟨request.quoteId, true⟩
    refine follows_mono ?_ (withSigner_follows
      (execution_mono (fun _ _ => signs_cluster) executes) ⟨rfl, ready⟩)
    intro _ t' hstage
    exact (congrArg Stage.within hstage).trans rfl

theorem nativeWalletExecutePrepared_follows (request : ExecuteRequest) :
    Follows (guard host) (fun _ _ => True) (nativeWalletExecutePrepared host request)
      ⟨some (.native, request), [], .outside⟩ := by
  refine withService_follows rfl fun facts handle => ?_
  cases confirmed : request.confirmed with
  | false => exact .fail rfl
  | true =>
    refine get_follows confirmed handle fun quote t entered => follows_mapError ?_
    have executes := @executePrepared_follows { host with cluster := facts.cluster } request.owner
      ⟨request.quoteId, true⟩
    have ready : Ready host .native request quote t := { entered with cleared := trivial }
    refine follows_mono ?_ (withSigner_follows
      (execution_mono (fun _ _ => signs_cluster) executes) ⟨rfl, ready⟩)
    intro _ t' hstage
    exact (congrArg Stage.within hstage).trans rfl

/-- Every call of the module keeps the guard. -/
theorem call_follows (call : Call) :
    Follows (guard host) (fun _ _ => True) (call.program host) ⟨call.executes, [], .outside⟩ := by
  have ends : ∀ {α : Type} {p : BusOp α} {t : Track}, Follows (guard host) (fun _ _ => True) p t →
      Follows (guard host) (fun _ _ => True) (p >>= fun _ => (pure () : BusOp Unit)) t := by
    intro α p t h
    refine follows_bind (follows_mono ?_ h)
    intro result t' _
    cases result with
    | error e => trivial
    | ok a => exact .pure trivial
  cases call with
  | web3Execute request => exact ends (web3Execute_follows request)
  | nativeWalletExecutePrepared request => exact ends (nativeWalletExecutePrepared_follows request)
  | web3SwapQuote service owner params =>
    exact ends (web3Quote_follows rfl fun params => quoteSwap_follows owner params)
  | web3BridgeQuote service owner params =>
    exact ends (web3Quote_follows rfl fun params => quoteBridge_follows owner params)
  | web3DappQuote service owner params =>
    exact ends (web3Quote_follows rfl fun params => prepareDappCall_follows owner params)
  | nativeWalletPrepareTransfer service owner params =>
    refine ends (withService_follows rfl fun facts _ => ?_)
    exact prepares_follows rfl (prepareTransfer_follows owner params)
  | configure flow cluster =>
    refine ends (follows_call fun (handle : String) _ => ?_)
    exact ⟨_, guard_advances (.configure flow cluster handle) (permits_plain rfl rfl),
      .pure trivial⟩
  | web3Close handle =>
    refine follows_call fun (outcome : Closing) _ => ?_
    refine ⟨_, guard_advances (.close .web3 handle outcome) (permits_plain rfl rfl), ?_⟩
    cases outcome with
    | closed => exact .pure trivial
    | _ => exact .fail trivial
  | nativeWalletClose handle =>
    refine follows_call fun (outcome : Closing) _ => ?_
    refine ⟨_, guard_advances (.close .native handle outcome) (permits_plain rfl rfl), ?_⟩
    cases outcome with
    | closed => exact .pure trivial
    | _ => exact .fail trivial

end Calls

/-- What a guarded run has recorded at each of its requests. -/
theorem runs_permit {host : Host} {t t' : Track} {before after : List ModuleEvent} {e : Request}
    {r : e.Answer} (h : (guard host).Runs t (before ++ ⟨e, r⟩ :: after) t') :
    ∃ now : Track, now.executes = t.executes ∧ now.past = t.past ++ before ∧
      Permits host now e := by
  obtain ⟨now, later, run, ⟨_, _, permits, _⟩, _⟩ := h.split
  obtain ⟨hpast, hexecutes⟩ := guard_past run
  exact ⟨now, hexecutes, hpast, permits⟩

/-- Nothing is signed or refused after a signature. -/
theorem runs_signed {host : Host} {t t' : Track} {before after : List ModuleEvent} {e : Request}
    {r : e.Answer} (h : (guard host).Runs t (before ++ ⟨e, r⟩ :: after) t')
    (hs : isSignature e = true) (event : ModuleEvent) (hevent : event ∈ after) :
    isSignature event.1 = false ∧ refuses event = false := by
  obtain ⟨between, last, rfl⟩ := List.append_of_mem hevent
  have split : before ++ ⟨e, r⟩ :: (between ++ event :: last) =
      (before ++ ⟨e, r⟩ :: between) ++ event :: last := by simp
  rw [split] at h
  obtain ⟨now, _, hpast, permits⟩ := runs_permit h
  have signed : (⟨e, r⟩ : ModuleEvent) ∈ now.past := by simp [hpast]
  constructor
  · by_contra hagain
    obtain ⟨_, _, _, warrant⟩ := permits.signature (by simpa using hagain)
    have := warrant.unsigned _ signed
    simp [hs] at this
  · by_contra hrefused
    have question : isQuestion event.1 = true := by
      obtain ⟨e', r'⟩ := event
      cases e' <;> simp [refuses, isQuestion] at hrefused ⊢
    have := permits.question question _ signed
    simp [hs] at this

/-- Whatever a call signs has its warrant; it signs nothing else, and nobody
refused it anything. -/
structure Safe (host : Host) (call : Call) (history : List ModuleEvent) : Prop where
  approved : ∀ before e r after, history = before ++ ⟨e, r⟩ :: after → isSignature e = true →
    ∃ flow request, call.executes = some (flow, request) ∧
      Warranted host flow request before e
  once : ∀ before e r after, history = before ++ ⟨e, r⟩ :: after → isSignature e = true →
    ∀ event ∈ before ++ after, isSignature event.1 = false
  unrefused : (∃ event ∈ history, isSignature event.1 = true) →
    ∀ event ∈ history, refuses event = false

theorem safe_of_runs {host : Host} {call : Call} {history : List ModuleEvent} {t : Track}
    (h : (guard host).Runs ⟨call.executes, [], .outside⟩ history t) : Safe host call history := by
  have approved : ∀ before e r after, history = before ++ ⟨e, r⟩ :: after →
      isSignature e = true → ∃ flow request, call.executes = some (flow, request) ∧
        Warranted host flow request before e := by
    rintro before e r after rfl hs
    obtain ⟨now, hexecutes, hpast, permits⟩ := runs_permit h
    obtain ⟨flow, request, executes, warrant⟩ := permits.signature hs
    rw [hpast] at warrant
    exact ⟨flow, request, hexecutes.symm.trans executes, warrant⟩
  refine ⟨approved, ?_, ?_⟩
  · rintro before e r after rfl hs event hevent
    obtain ⟨_, _, _, warrant⟩ := approved before e r after rfl hs
    rcases List.mem_append.mp hevent with hevent | hevent
    · exact warrant.unsigned event hevent
    · exact (runs_signed h hs event hevent).1
  · rintro ⟨⟨e, r⟩, hmem, hs⟩ event hevent
    obtain ⟨before, after, rfl⟩ := List.append_of_mem hmem
    obtain ⟨_, _, _, warrant⟩ := approved before e r after rfl hs
    rcases List.mem_append.mp hevent with hevent | hevent
    · exact warrant.unrefused event hevent
    · rcases List.mem_cons.mp hevent with rfl | hevent
      · cases e <;> first | rfl | simp [isSignature] at hs
      · exact (runs_signed h hs event hevent).2

section Runs

variable {ι : Type} [DecidableEq ι]

/-- One guarded request keeps all copies of every quote alike. -/
theorem agree_advances {host : Host} {w w' : Wallet ι} {track : ι → Track} {i : ι} {e : Request}
    {r : e.Answer} {t' : Track} (agree : Agree w fun i => (track i).stage)
    (served : Served w i e r w') (advances : (guard host).advances (track i) e r t') :
    Agree w' fun j => (Function.update track i t' j).stage := by
  obtain ⟨stage, moves, _, rfl⟩ := advances
  have stages : (fun j => (Function.update track i ((track i).next e r stage) j).stage) =
      Function.update (fun j => (track j).stage) i stage := by
    funext j
    by_cases hj : j = i
    · subst hj
      simp [Track.next]
    · simp [hj]
  rw [stages]
  exact agree_kept agree served moves

/-- Every call's history is a guarded run, whatever the interleaving. -/
theorem reachable_guarded (host : Host) (calls : ι → Call)
    {c : Config (Wallet ι) ι Request Request.Answer (Failure BusError) Unit}
    (run : Reachable Served Wallet.new (fun i => (calls i).program host) c) (i : ι) :
    ∃ t, (guard host).Runs ⟨(calls i).executes, [], .outside⟩ (c.history i) t := by
  obtain ⟨track, runs, _, _⟩ := reachable_invariant (guard host)
    (fun i => ⟨(calls i).executes, [], .outside⟩)
    (fun w track => Agree w fun i => (track i).stage) agree_new (fun i => call_follows (calls i))
    (fun _ _ _ _ _ _ agree served => agree.reliable served)
    (fun _ _ _ _ _ _ _ agree served => agree_advances agree served) run
  exact ⟨track i, runs i⟩

/-- Whatever the host is asked about belongs to the quote it is shown with. -/
theorem reachable_presented {host : Host} {calls : ι → Call}
    {c : Config (Wallet ι) ι Request Request.Answer (Failure BusError) Unit}
    (run : Reachable Served Wallet.new (fun i => (calls i).program host) c) {i : ι}
    {event : ModuleEvent} (hevent : event ∈ c.history i) : Presented host event.1 := by
  obtain ⟨t, runs⟩ := reachable_guarded host calls run i
  obtain ⟨before, after, split⟩ := List.append_of_mem hevent
  rw [split] at runs
  obtain ⟨_, _, _, permits⟩ := runs_permit runs
  exact permits.presented

/-- In every run of the module, with any calls, any interleaving and any answers
of the host, every call is safe. -/
theorem every_signature_is_approved (host : Host) (calls : ι → Call)
    {c : Config (Wallet ι) ι Request Request.Answer (Failure BusError) Unit}
    (run : Reachable Served Wallet.new (fun i => (calls i).program host) c) (i : ι) :
    Safe host (calls i) (c.history i) := by
  obtain ⟨t, runs⟩ := reachable_guarded host calls run i
  exact safe_of_runs runs

end Runs

/-- A wallet is opened, a transfer is prepared and then executed. -/
def executed (params : Execution.PrepareTransferParams) : Fin 3 → Call
  | 0 => .configure .native .mainnet
  | 1 => .nativeWalletPrepareTransfer "wallet-1" none params
  | 2 => .nativeWalletExecutePrepared
      ⟨"wallet-1", none, "q_1700000000000_1", true,
        ⟨"test test test test test test test test test test test junk", "m/44'/60'/0'/0/0", .evm⟩⟩

/-- 1000 wei are sent. -/
def transferred : Fin 3 → Call :=
  executed ⟨.evm, "0x2222222222222222222222222222222222222222", "1000", none, none⟩

/-- A host that approves, with its node and its signing key. -/
def approving : (e : Request) → Option e.Answer
  | .now => some sampleNow
  | .accounts =>
    some (.ok ⟨true, [⟨.evm, "0x1111111111111111111111111111111111111111", "m/44'/60'/0'/0/0"⟩]⟩)
  | .authorizeNative _ => some (.ok ⟨true, none⟩)
  | .authorizeWeb3 _ => some (.ok ⟨true, none⟩)
  | .moduleSign _ _ => some (.ok ⟨"0x02", none⟩)
  | .jsonRpc _ method _ =>
    if method = "eth_chainId" then some (.ok (.string "0x1"))
    else if method = "eth_estimateGas" then some (.ok (.string "0x5208"))
    else some (.ok (.string "0x0"))
  | _ => none

def answering (i : Fin 3) (w : Wallet (Fin 3)) :
    (e : Request) → Option (e.Answer × Wallet (Fin 3))
  | .enter flow => some ((w.services flow).map Service.facts,
      w.setReaders flow (insert i (w.readers flow)))
  | .leave flow => some ((), w.setReaders flow ((w.readers flow).erase i))
  | .configure flow cluster =>
    if w.readers flow = ∅ then
      some ("wallet-1",
        w.setService flow (some (Service.new flow ⟨"wallet-1", cluster⟩)))
    else none
  | .nextId flow => (w.services flow).map fun service =>
      ((service.store.nextId sampleNow).1,
        w.setStore flow service (service.store.nextId sampleNow).2)
  | .insert flow quote => (w.services flow).map fun service =>
      ((), w.setStore flow service (service.store.insert sampleNow quote))
  | .get flow quoteId caller => (w.services flow).map fun service =>
      (service.store.getFor sampleNow quoteId caller, w)
  | .take flow quoteId caller => (w.services flow).map fun service =>
      ((service.store.takeFor sampleNow quoteId caller).1,
        w.setStore flow service (service.store.takeFor sampleNow quoteId caller).2)
  | e => if e.role = .store then none else (approving e).map fun r => (r, w)

theorem answering_served {i : Fin 3} (w : Wallet (Fin 3)) (e : Request) (r : e.Answer)
    (w' : Wallet (Fin 3)) (h : answering i w e = some (r, w')) : Served w i e r w' := by
  have plain : ∀ e : Request, ∀ r : e.Answer,
      (if e.role = .store then none else (approving e).map fun r => (r, w)) = some (r, w') →
      Served w i e r w' := by
    intro e r h
    split at h
    · cases h
    · rename_i apart
      obtain ⟨r', _, hr⟩ := Option.map_eq_some_iff.mp h
      cases hr
      exact .other _ _ _ _ apart
  cases e with
  | enter flow =>
    cases h
    exact .enter _ _ _
  | leave flow =>
    cases h
    exact .leave _ _ _
  | configure flow cluster =>
    simp only [answering] at h
    split at h
    · rename_i idle
      cases h
      exact .configure _ _ _ _ _ idle
    · cases h
  | nextId flow =>
    obtain ⟨service, found, hr⟩ := Option.map_eq_some_iff.mp h
    cases hr
    exact .nextId _ _ _ _ _ found
  | insert flow quote =>
    obtain ⟨service, found, hr⟩ := Option.map_eq_some_iff.mp h
    cases hr
    exact .insert _ _ _ _ _ _ found
  | get flow quoteId caller =>
    obtain ⟨service, found, hr⟩ := Option.map_eq_some_iff.mp h
    cases hr
    exact .get _ _ _ _ _ _ _ found
  | take flow quoteId caller =>
    obtain ⟨service, found, hr⟩ := Option.map_eq_some_iff.mp h
    cases hr
    exact .take _ _ _ _ _ _ _ found
  | _ => exact plain _ _ h

/-- The requests of the third call, after the other two have run. -/
def lastEvents (calls : Fin 3 → Call) : List ModuleEvent :=
  let opened := (play (answering 0) 5 Wallet.new ((calls 0).program sampleHost)).1
  let prepared := (play (answering 1) 10 opened ((calls 1).program sampleHost)).1
  (play (answering 2) 20 prepared ((calls 2).program sampleHost)).2

theorem lastEvents_reachable (calls : Fin 3 → Call) :
    ∃ c, Reachable Served Wallet.new (fun i => (calls i).program sampleHost) c ∧
      c.history 2 = lastEvents calls := by
  obtain ⟨c₀, run₀, shared₀, _, others₀⟩ := Reachable.play (answering_served (i := 0)) 5
    (Relation.ReflTransGen.refl (a := Config.initial Wallet.new
      fun i => (calls i).program sampleHost))
  obtain ⟨c₁, run₁, shared₁, _, others₁⟩ := Reachable.play (answering_served (i := 1)) 10 run₀
  obtain ⟨c₂, run₂, _, history₂, _⟩ := Reachable.play (answering_served (i := 2)) 20 run₁
  refine ⟨c₂, run₂, ?_⟩
  rw [history₂, shared₁, shared₀, (others₁ 2 (by decide)).1, (others₁ 2 (by decide)).2,
    (others₀ 2 (by decide)).1, (others₀ 2 (by decide)).2, (others₀ 1 (by decide)).1]
  simp only [lastEvents, Config.initial, List.nil_append]

theorem transfer_is_signed_and_approved :
    ∃ c, Reachable Served Wallet.new (fun i => (transferred i).program sampleHost) c ∧
      (∃ event ∈ c.history 2, isSignature event.1 = true) ∧
      Safe sampleHost (transferred 2) (c.history 2) := by
  obtain ⟨c, run, history⟩ := lastEvents_reachable transferred
  refine ⟨c, run, ?_, every_signature_is_approved sampleHost transferred run 2⟩
  have signed : (lastEvents transferred).any (fun event => isSignature event.1) = true := by
    decide +kernel
  rw [history]
  exact List.any_eq_true.mp signed

end Approvals

import TinyWallet.X402.Payments

/-!
# The tool that pays for a request

A proposed request is approved by the host with the addresses it may go to, and
sent there. Where the answer asks for a payment, one is made out against the
budget and recorded, and the same request is sent once more with it. The second
half of the file says what may be asked of the host, the ledger and the network
in which order, and that the tool asks for nothing else.
-/

namespace RequestTool

open RustText Programs X402Wire LedgerRecords LedgerStore X402Payments
open PaymentSelection (PaymentChain PayableOn startsWith)

structure ProposedRequest where
  url : String
  method : String
  headers : List (String × String)
  body : Option String
deriving DecidableEq

inductive IpAddr where
  | v4 (bits : BitVec 32)
  | v6 (bits : BitVec 128)
deriving DecidableEq

structure SocketAddr where
  ip : IpAddr
  port : BitVec 16
deriving DecidableEq

/-- The request that the host approved, and where it may go. -/
structure AuthorizedRequest where
  request : ProposedRequest
  host : String
  addrs : List SocketAddr
deriving DecidableEq

/-- A response whose body is still to be read. -/
structure Response where
  status : Nat
  headers : HeaderMap

inductive ToolResult where
  | success (text : String)
  | error (text : String)

structure Url where
  host : Option String
  /-- `port_or_known_default`. -/
  port : Option (BitVec 16)

/-- The URL and address readers. -/
structure Web where
  parseUrl : String → Option Url
  parseIp : String → Option IpAddr

inductive ToolRequest where
  | authorize (request : ProposedRequest)
  | allowsDirectConnection
  | buildClient (target : AuthorizedRequest)
  | send (host : String) (addrs : List SocketAddr) (request : ProposedRequest)
      (extraHeader : Option (String × String))
  | readBody
  | refresh
  | reserve (amount : Nat)
  | release (id : ReservationId)
  | build (challenge : PaymentRequired) (requirement : PaymentRequirements) (chain : PaymentChain)
  | sessionId
  | currentThread
  | newRecordId
  | utcNow
  | commitDurable (id : ReservationId) (record : PaymentRecord)
  | recordPayment (record : PaymentRecord)

/-- Awaits answer `none` where the call is cancelled. -/
@[reducible] def ToolRequest.Answer : ToolRequest → Type
  | .authorize _ => Option (Except String AuthorizedRequest)
  | .allowsDirectConnection => Bool
  | .buildClient _ => Except String Unit
  | .send _ _ _ _ => Option (Except String Response)
  | .readBody => Option String
  | .refresh => Option (Except X402Error Unit)
  | .reserve _ => Except String (Except BudgetRefusal ReservationId)
  | .release _ => Unit
  | .build _ _ _ => Option (Except X402Error PaymentBuild)
  | .sessionId => Except String String
  | .currentThread => Option String
  | .newRecordId => String
  | .utcNow => Instant
  | .commitDurable _ _ => Except String Unit
  | .recordPayment _ => Except String Unit

/-- A program that ends early with the result of the tool fails with it. -/
abbrev Running (ε α : Type) := Prog ToolRequest ToolRequest.Answer (Stop ε) α

def finish (result : ToolResult) : Stop ToolResult := .failed result

/-- `trim_start_matches('[')`, then `trim_end_matches(']')`. -/
def unbracketed (host : String) : String :=
  String.ofList ((host.toList.dropWhile (· = '[')).reverse.dropWhile (· = ']')).reverse

/-- Whether an approved address is none of the URL's. -/
def elsewhere (web : Web) (target : AuthorizedRequest) (host : String) (port : BitVec 16) : Bool :=
  !eqIgnoreAsciiCase host target.host || target.addrs.any (·.port ≠ port) ||
    (web.parseIp host).any fun ip => target.addrs.any (·.ip ≠ ip)

/-- What `run` checks of the approved destination before it sends anything. -/
def checkDestination (web : Web) (target : AuthorizedRequest) : Except String Unit :=
  if target.addrs.isEmpty then .error "[policy-blocked] No approved destination"
  else match web.parseUrl target.request.url with
  | none => .error "[policy-blocked] Invalid approved URL"
  | some url => match url.host with
    | none => .error "[policy-blocked] Approved URL has no host"
    | some host => match url.port with
      | none => .error "[policy-blocked] Approved URL has no port"
      | some port =>
        if elsewhere web target (unbracketed host) port then
          .error "[policy-blocked] Approved destination does not match URL"
        else .ok ()

def authorizeRequest (web : Web) (call : ProposedRequest) : Running ToolResult AuthorizedRequest :=
  .ask (.authorize call) fun answer => match answer with
  | none => .error .cancelled
  | some (.error reason) => .error (finish (.error reason))
  | some (.ok target) =>
    match checkDestination web target with
    | .error refusal => .error (finish (.error refusal))
    | .ok _ => .ok target

/-- A request with the headers and the body that were approved, and one header more. -/
def send (target : AuthorizedRequest) (extraHeader : Option (String × String))
    (failure : String) : Running ToolResult Response :=
  .ask (.send target.host target.addrs target.request extraHeader) fun answer => match answer with
  | none => .error .cancelled
  | some (.error e) => .error (finish (.error (failure ++ e)))
  | some (.ok response) => .ok response

def maxBodyBytes : Nat := 50000

/-- The characters that fit into `room` bytes. -/
def fitting : Nat → List Char → List Char
  | _, [] => []
  | room, c :: cs => if c.utf8Size ≤ room then c :: fitting (room - c.utf8Size) cs else []

def truncateBody (body : String) : String :=
  if byteLen body.toList ≤ maxBodyBytes then body
  else String.ofList (fitting maxBodyBytes body.toList) ++ "…(truncated)"

def formatResponse (response : Response) (url : String) : Running ToolResult ToolResult := do
  let body ← .ask .readBody awaited
  pure (.success ("HTTP " ++ toString response.status ++ " from " ++ url ++ "\n\n" ++
    truncateBody body))

def chainLabel (network : String) : String :=
  if startsWith network "eip155:8453" then "Base"
  else if startsWith network "eip155:1" then "Ethereum"
  else if startsWith network "eip155:" then "EVM"
  else if startsWith network "solana:" then "Solana"
  else network

def formatResponseWithPayment (response : Response) (url amountDisplay network : String)
    (txSig : Option String) : Running ToolResult ToolResult := do
  let body ← .ask .readBody awaited
  let txLine := (txSig.map fun sig => "\nTransaction: " ++ sig).getD ""
  pure (.success ("HTTP " ++ toString response.status ++ " from " ++ url ++ "\nx402 payment: " ++
    amountDisplay ++ " on " ++ chainLabel network ++ txLine ++ "\n\n" ++ truncateBody body))

/-- Nobody is asked to approve a payment of the tool. -/
def toolPayer : Payer ToolRequest ToolRequest.Answer where
  refresh := .ask .refresh fun answer => match answer with
    | none => .error .cancelled
    | some result => result.mapError .failed
  reserve amount := .ask (.reserve amount) fun result => result.mapError walletFailure
  release id := .ask (.release id) .ok
  authorize _ _ _ _ := pure ()
  build challenge requirement chain := .ask (.build challenge requirement chain) fun answer =>
    match answer with
    | none => .error .cancelled
    | some result => result.mapError .failed

/-- The receipt, if the response carries one that can be read. -/
def receiptOf (codec : Codec) (response : Response) : Option SettlementResponse := do
  let value ← response.headers.get headerPaymentResponse
  let text ← (toStr value).toOption
  let bytes ← Base64.decode text.toList
  (fromSlice codec SettlementResponse.read bytes).toOption

def succeeded (receipt : Option SettlementResponse) : Bool :=
  receipt.any SettlementResponse.success

def txSignatureOf (receipt : Option SettlementResponse) : Option String :=
  (receipt.filter fun r => r.success && r.transaction ≠ "").map SettlementResponse.transaction

/-- The closure `record`. -/
def recordOf (url recordId sessionId : String) (threadId : Option String)
    (payment : X402PaymentResult) (status : PaymentStatus) (txSignature : Option String)
    (now : Instant) : PaymentRecord where
  id := recordId
  url := url
  asset := payment.asset
  amountAtomic := payment.amountAtomic
  amountDisplay := formatUsdc payment.amountAtomic
  recipient := payment.recipient
  network := payment.network
  txSignature := txSignature
  status := status
  timestamp := now
  authorizationValidUntil := payment.authorizationValidUntil
  solanaLastValidBlockHeight := payment.solanaLastValidBlockHeight
  authorizationExpiredAt := none
  authorizationExpiryObservedHeight := none
  sessionId := sessionId
  threadId := threadId

/-- Only a receipt that says so settles the record; whether that could be
written is logged. -/
def recordOutcome (record : PaymentStatus → Option String → Instant → PaymentRecord)
    (receipt : Option SettlementResponse) : Running ToolResult Unit :=
  if succeeded receipt then do
    let now ← .ask .utcNow .ok
    let _ ← .ask (.recordPayment (record .settled (txSignatureOf receipt) now)) .ok
    pure ()
  else pure ()

def payFailed : Stop X402Error → Stop ToolResult :=
  Stop.map fun e => .error ("x402 payment failed: " ++ e.text)

def payAndRetry (codec : Codec) (target : AuthorizedRequest) (challengeHeaders : HeaderMap) :
    Running ToolResult ToolResult := do
  let url := target.request.url
  let payment ← (handle402AndPayAuthorized toolPayer codec challengeHeaders url).mapError payFailed
  let session ← .ask .sessionId .ok
  let threadId ← .ask .currentThread .ok
  let recordId ← .ask .newRecordId .ok
  let now ← .ask .utcNow .ok
  let record := recordOf url recordId (session.toOption.getD "") threadId payment
  match ← .ask (.commitDurable payment.reservation (record .pending none now)) .ok with
  | .error _ => .fail (finish (.error notRecorded))
  | .ok _ => do
    let response ← send target (some (headerPaymentSignature, payment.headerValue))
      "x402 retry request failed: "
    let receipt := receiptOf codec response
    recordOutcome record receipt
    formatResponseWithPayment response url (formatUsdc payment.amountAtomic) payment.network
      (txSignatureOf receipt)

def notAnEndpoint : String :=
  "Server returned 402 but without a PAYMENT-REQUIRED header — not an x402 endpoint"

def hasChallenge (headers : HeaderMap) : Bool :=
  (headers.get headerPaymentRequired).isSome || (headers.get headerPaymentRequiredV1).isSome

def askDirectly (target : AuthorizedRequest) : Running ToolResult Response := do
  .ask .allowsDirectConnection fun allowed =>
    if allowed then .ok ()
    else .error (finish (.error ("[policy-blocked] Direct connection is not allowed by the host" ++
      " proxy policy")))
  .ask (.buildClient target) fun built =>
    built.mapError fun e => finish (.error ("Failed to build HTTP client: " ++ e))
  send target none "Initial request failed: "

/-- `guarded` says whether the host has installed its policy. -/
def run (web : Web) (codec : Codec) (guarded : Bool) (call : ProposedRequest) :
    Running ToolResult ToolResult :=
  if guarded then do
    let target ← authorizeRequest web call
    let response ← askDirectly target
    if response.status ≠ 402 then formatResponse response target.request.url
    else if hasChallenge response.headers then payAndRetry codec target response.headers
    else .fail (finish (.error notAnEndpoint))
  else .fail (finish (.error "[policy-blocked] Network policy is unavailable"))

/-- The approved addresses are those of the approved URL. -/
structure Pinned (web : Web) (target : AuthorizedRequest) : Prop where
  somewhere : target.addrs ≠ []
  url : ∃ url host port, web.parseUrl target.request.url = some url ∧ url.host = some host ∧
    url.port = some port ∧ eqIgnoreAsciiCase (unbracketed host) target.host = true ∧
    ∀ addr ∈ target.addrs, addr.port = port ∧
      ∀ ip, web.parseIp (unbracketed host) = some ip → addr.ip = ip

/-- The option that the answer offers and the wallet takes, with the amount it asks. -/
structure Offered (codec : Codec) (headers : HeaderMap) (selected : Selected) (amount : Nat) :
    Prop where
  taken : handle402 codec headers = .ok selected
  usdc : PayableOn selected.chain selected.requirement
  read : parseU64 selected.requirement.amount = .ok amount

inductive Stage where
  | idle
  | approved (target : AuthorizedRequest)
  | direct (target : AuthorizedRequest)
  | challenged (target : AuthorizedRequest) (headers : HeaderMap)
  | held (target : AuthorizedRequest) (headers : HeaderMap) (id : ReservationId) (amount : Nat)
  | built (target : AuthorizedRequest) (id : ReservationId) (selected : Selected) (amount : Nat)
      (payment : PaymentBuild)
  | recorded (target : AuthorizedRequest) (payment : PaymentBuild) (record : PaymentRecord)
  | sent (record : PaymentRecord) (receipt : Option SettlementResponse)
  | closed

/-- The reservation in hand. -/
def Stage.holds : Stage → Option ReservationId
  | .held _ _ id _ => some id
  | .built _ id _ _ _ => some id
  | _ => none

def Quiet : ToolRequest → Prop
  | .buildClient _ | .readBody | .refresh | .sessionId => True
  | .currentThread | .newRecordId | .utcNow => True
  | _ => False

/-- The record of a payment that is about to leave. -/
structure Describes (target : AuthorizedRequest) (selected : Selected) (amount : Nat)
    (payment : PaymentBuild) (record : PaymentRecord) : Prop where
  amount : record.amountAtomic = amount
  asset : record.asset = selected.requirement.asset
  recipient : record.recipient = selected.requirement.payTo
  network : record.network = selected.requirement.network
  url : record.url = target.request.url
  validUntil : record.authorizationValidUntil = payment.authorizationValidUntil
  height : record.solanaLastValidBlockHeight = payment.solanaLastValidBlockHeight
  pending : record.status = .pending
  unsettled : record.txSignature = none

/-- The record again, settled as the receipt says. -/
def Settles (receipt : Option SettlementResponse) (record next : PaymentRecord) : Prop :=
  succeeded receipt = true ∧ next = { record with
    status := .settled
    txSignature := txSignatureOf receipt
    timestamp := next.timestamp }

/-- Only a 402 with a challenge is paid for. -/
def afterFirst (target : AuthorizedRequest) : Option (Except String Response) → Stage
  | some (.ok response) =>
    if response.status = 402 ∧ hasChallenge response.headers = true then
      .challenged target response.headers
    else .closed
  | _ => .closed

def afterBuild (target : AuthorizedRequest) (headers : HeaderMap) (id : ReservationId)
    (selected : Selected) (amount : Nat) : Option (Except X402Error PaymentBuild) → Stage
  | some (.ok payment) => .built target id selected amount payment
  | _ => .held target headers id amount

def afterCommit (target : AuthorizedRequest) (payment : PaymentBuild) (record : PaymentRecord) :
    Except String Unit → Stage
  | .ok _ => .recorded target payment record
  | .error _ => .closed

def afterRetry (codec : Codec) (record : PaymentRecord) : Option (Except String Response) → Stage
  | some (.ok response) => .sent record (receiptOf codec response)
  | _ => .closed

section Protocol

variable (web : Web) (codec : Codec) (call : ProposedRequest)

inductive Advances : Stage → (e : ToolRequest) → e.Answer → Stage → Prop
  | quiet {stage : Stage} {e : ToolRequest} {r : e.Answer} (quiet : Quiet e) :
      Advances stage e r stage
  | approved {target : AuthorizedRequest} (pinned : Pinned web target) :
      Advances .idle (.authorize call) (some (.ok target)) (.approved target)
  | unapproved {r : Option (Except String AuthorizedRequest)} :
      Advances .idle (.authorize call) r .closed
  | direct {target : AuthorizedRequest} :
      Advances (.approved target) .allowsDirectConnection true (.direct target)
  | indirect {target : AuthorizedRequest} :
      Advances (.approved target) .allowsDirectConnection false .closed
  | first {target : AuthorizedRequest} {r : Option (Except String Response)} :
      Advances (.direct target) (.send target.host target.addrs target.request none) r
        (afterFirst target r)
  | granted {target : AuthorizedRequest} {headers : HeaderMap} {selected : Selected}
      {amount : Nat} {id : ReservationId} (offered : Offered codec headers selected amount) :
      Advances (.challenged target headers) (.reserve amount) (.ok (.ok id))
        (.held target headers id amount)
  | refused {target : AuthorizedRequest} {headers : HeaderMap} {selected : Selected}
      {amount : Nat} {r : Except String (Except BudgetRefusal ReservationId)}
      (offered : Offered codec headers selected amount) (refused : ∀ id, r ≠ .ok (.ok id)) :
      Advances (.challenged target headers) (.reserve amount) r (.challenged target headers)
  | build {target : AuthorizedRequest} {headers : HeaderMap} {id : ReservationId}
      {selected : Selected} {amount : Nat} {r : Option (Except X402Error PaymentBuild)}
      (offered : Offered codec headers selected amount) :
      Advances (.held target headers id amount)
        (.build selected.challenge selected.requirement selected.chain) r
        (afterBuild target headers id selected amount r)
  | commit {target : AuthorizedRequest} {id : ReservationId} {selected : Selected} {amount : Nat}
      {payment : PaymentBuild} {record : PaymentRecord} {r : Except String Unit}
      (describes : Describes target selected amount payment record) :
      Advances (.built target id selected amount payment) (.commitDurable id record) r
        (afterCommit target payment record r)
  | release {stage : Stage} {id : ReservationId} {r : Unit} (held : stage.holds = some id) :
      Advances stage (.release id) r .closed
  | retry {target : AuthorizedRequest} {payment : PaymentBuild} {record : PaymentRecord}
      {r : Option (Except String Response)} :
      Advances (.recorded target payment record)
        (.send target.host target.addrs target.request
          (some (headerPaymentSignature, encodePayment codec payment.payload))) r
        (afterRetry codec record r)
  | settle {record next : PaymentRecord} {receipt : Option SettlementResponse}
      {r : Except String Unit} (settles : Settles receipt record next) :
      Advances (.sent record receipt) (.recordPayment next) r .closed

def protocol : Monitor ToolRequest ToolRequest.Answer Stage where
  assumes _ _ _ := True
  advances := Advances web codec call

end Protocol

theorem elsewhere_false {web : Web} {target : AuthorizedRequest} {host : String}
    {port : BitVec 16} (h : elsewhere web target host port = false) :
    eqIgnoreAsciiCase host target.host = true ∧ (∀ addr ∈ target.addrs, addr.port = port) ∧
      ∀ addr ∈ target.addrs, ∀ ip, web.parseIp host = some ip → addr.ip = ip := by
  simp only [elsewhere, Bool.or_eq_false_iff, Bool.not_eq_false', List.any_eq_false,
    decide_eq_true_eq, not_not] at h
  obtain ⟨⟨hsame, hports⟩, hips⟩ := h
  refine ⟨hsame, hports, ?_⟩
  intro addr haddr ip hip
  rw [hip, Option.any_some, List.any_eq_false] at hips
  simpa using hips addr haddr

theorem checkDestination_ok {web : Web} {target : AuthorizedRequest}
    (h : checkDestination web target = .ok ()) : Pinned web target := by
  rw [checkDestination] at h
  split_ifs at h with hempty
  cases hurl : web.parseUrl target.request.url with
  | none => simp [hurl] at h
  | some url =>
    cases hhost : url.host with
    | none => simp [hurl, hhost] at h
    | some host =>
      cases hport : url.port with
      | none => simp [hurl, hhost, hport] at h
      | some port =>
        simp only [hurl, hhost, hport] at h
        split_ifs at h with helsewhere
        obtain ⟨hsame, hports, hips⟩ := elsewhere_false (Bool.not_eq_true _ ▸ helsewhere)
        refine ⟨by simpa using hempty, url, host, port, hurl, hhost, hport, hsame, ?_⟩
        intro addr haddr
        exact ⟨hports addr haddr, hips addr haddr⟩

section Steps

variable {web : Web} {codec : Codec} {call : ProposedRequest} {target : AuthorizedRequest}
  {ε α : Type} {stage : Stage}

/-- Nothing is in hand. -/
def Free (stage : Stage) : Prop := stage.holds = none

abbrev Ends (P : α → Stage → Prop) : Except ε α → Stage → Prop := Leads Free P

theorem authorizeRequest_follows :
    Follows (protocol web codec call) (Ends fun target stage => stage = .approved target)
      (authorizeRequest web call) .idle := by
  refine follows_ask fun r _ => ?_
  rcases r with _ | _ | target
  · exact ⟨.closed, .unapproved, rfl⟩
  · exact ⟨.closed, .unapproved, rfl⟩
  · cases hcheck : checkDestination web target with
    | error refusal => exact ⟨.closed, .unapproved, by simp [hcheck, Leads, Free, Stage.holds]⟩
    | ok u => exact ⟨_, .approved (checkDestination_ok hcheck), by simp [hcheck, Leads]⟩

theorem askDirectly_follows :
    Follows (protocol web codec call) (Ends fun response stage =>
        stage = afterFirst target (some (.ok response)))
      (askDirectly target) (.approved target) := by
  unfold askDirectly
  refine leads_bind (P := fun _ stage => stage = .direct target) ?_ ?_
  · refine follows_ask fun r _ => ?_
    cases r with
    | false => exact ⟨_, .indirect, rfl⟩
    | true => exact ⟨_, .direct, rfl⟩
  rintro - stage rfl
  refine leads_bind (P := fun _ stage => stage = .direct target)
    (leads_ask (fun _ => .quiet trivial) rfl fun _ _ _ => rfl) ?_
  rintro - stage rfl
  refine follows_ask fun r _ => ⟨_, .first, ?_⟩
  rcases r with _ | _ | response <;> rfl

/-- What paying returns is of the option that was taken and the payment that was built. -/
structure Paid (codec : Codec) (id : ReservationId) (selected : Selected) (amount : Nat)
    (payment : PaymentBuild) (url : String) (result : X402PaymentResult) : Prop where
  header : result.headerValue = encodePayment codec payment.payload
  amount : result.amountAtomic = amount
  asset : result.asset = selected.requirement.asset
  recipient : result.recipient = selected.requirement.payTo
  network : result.network = selected.requirement.network
  url : result.url = url
  validUntil : result.authorizationValidUntil = payment.authorizationValidUntil
  height : result.solanaLastValidBlockHeight = payment.solanaLastValidBlockHeight
  reservation : result.reservation = id

def PaidFor (codec : Codec) (target : AuthorizedRequest) (result : X402PaymentResult)
    (stage : Stage) : Prop :=
  ∃ id selected amount payment, stage = .built target id selected amount payment ∧
    Paid codec id selected amount payment target.request.url result

theorem pay_follows {headers : HeaderMap} {selected : Selected} {id : ReservationId} {amount : Nat}
    (offered : Offered codec headers selected amount) :
    Follows (protocol web codec call)
      (Leads (fun stage => stage.holds = some id) (PaidFor codec target))
      (toolPayer.pay codec selected target.request.url amount id)
      (.held target headers id amount) := by
  unfold Payer.pay
  dsimp only [toolPayer]
  refine leads_bind (P := fun _ stage => stage = Stage.held target headers id amount)
    (.pure rfl) ?_
  rintro - stage rfl
  refine leads_bind (P := fun payment stage =>
    stage = .built target id selected amount payment) ?_ ?_
  · refine follows_ask fun r _ => ⟨_, .build offered, ?_⟩
    rcases r with _ | _ | payment <;> rfl
  rintro payment stage rfl
  exact .pure ⟨id, selected, amount, payment, rfl, rfl, rfl, rfl, rfl, rfl, rfl, rfl, rfl, rfl⟩

theorem handle402AndPay_follows {headers : HeaderMap} :
    Follows (protocol web codec call) (Ends (PaidFor codec target))
      (handle402AndPayAuthorized toolPayer codec headers target.request.url)
      (.challenged target headers) := by
  refine handle402AndPay_leads rfl ?_ ?_
  · exact leads_ask (fun _ => .quiet trivial) rfl fun _ _ _ => rfl
  intro selected amount taken hread
  have offered : Offered codec headers selected amount := ⟨taken, handle402_payable taken, hread⟩
  refine follows_ask fun r _ => ?_
  rcases r with e | refusal | id
  · exact ⟨.challenged target headers, .refused offered (by simp), rfl⟩
  · exact ⟨.challenged target headers, .refused offered (by simp), rfl⟩
  · refine ⟨.held target headers id amount, .granted offered, ?_⟩
    refine holding_leads (pay_follows offered) fun stage held => ?_
    exact follows_ask fun r _ => ⟨_, .release held, rfl⟩

/-- The record is settled on a receipt that says so, and not otherwise. -/
theorem recordOutcome_follows {record : PaymentRecord} {receipt : Option SettlementResponse}
    {write : PaymentStatus → Option String → Instant → PaymentRecord}
    (writes : ∀ status tx now,
      write status tx now = { record with status := status, txSignature := tx, timestamp := now }) :
    Follows (protocol web codec call) (Ends fun _ stage => Free stage)
      (recordOutcome write receipt) (.sent record receipt) := by
  unfold recordOutcome
  split_ifs with hsucceeded
  · refine leads_bind (P := fun _ stage => stage = .sent record receipt)
      (leads_ask (fun _ => .quiet trivial) rfl fun _ _ _ => rfl) ?_
    rintro now stage rfl
    refine leads_bind (P := fun _ stage => stage = .closed) ?_ ?_
    · refine follows_ask fun r _ => ⟨_, .settle ⟨hsucceeded, ?_⟩, rfl⟩
      rw [writes]
    · rintro - stage rfl
      exact .pure rfl
  · exact .pure rfl

theorem formatResponse_follows {response : Response} {url : String} (free : Free stage) :
    Follows (protocol web codec call) (Ends fun _ stage => Free stage)
      (formatResponse response url) stage := by
  refine leads_bind (P := fun _ stage => Free stage)
    (leads_ask (fun _ => .quiet trivial) free fun _ _ _ => free) ?_
  intro body stage' free'
  exact .pure free'

theorem formatResponseWithPayment_follows {response : Response} {url amount network : String}
    {txSig : Option String} (free : Free stage) :
    Follows (protocol web codec call) (Ends fun _ stage => Free stage)
      (formatResponseWithPayment response url amount network txSig) stage := by
  refine leads_bind (P := fun _ stage => Free stage)
    (leads_ask (fun _ => .quiet trivial) free fun _ _ _ => free) ?_
  intro body stage' free'
  exact .pure free'

theorem payAndRetry_follows {headers : HeaderMap} :
    Follows (protocol web codec call) (Ends fun _ stage => Free stage)
      (payAndRetry codec target headers) (.challenged target headers) := by
  unfold payAndRetry
  refine leads_bind (leads_mapError handle402AndPay_follows) ?_
  rintro payment stage ⟨id, selected, amount, build, rfl, paid⟩
  refine leads_bind (leads_answered ToolRequest.sessionId fun _ => Advances.quiet trivial) ?_
  rintro session stage rfl
  refine leads_bind (leads_answered ToolRequest.currentThread fun _ => Advances.quiet trivial) ?_
  rintro threadId stage rfl
  refine leads_bind (leads_answered ToolRequest.newRecordId fun _ => Advances.quiet trivial) ?_
  rintro recordId stage rfl
  refine leads_bind (leads_answered ToolRequest.utcNow fun _ => Advances.quiet trivial) ?_
  rintro now stage rfl
  have describes : Describes target selected amount build (recordOf target.request.url recordId
      (session.toOption.getD "") threadId payment .pending none now) :=
    ⟨paid.amount, paid.asset, paid.recipient, paid.network, rfl, paid.validUntil, paid.height, rfl,
      rfl⟩
  rw [paid.reservation]
  refine follows_bind (follows_ask fun r _ => ⟨_, .commit describes, ?_⟩)
  cases r with
  | error e => exact .fail rfl
  | ok u =>
    refine leads_bind (P := fun response stage =>
      stage = .sent (recordOf target.request.url recordId (session.toOption.getD "") threadId
        payment .pending none now) (receiptOf codec response)) ?_ ?_
    · rw [paid.header]
      refine follows_ask fun r _ => ⟨_, .retry, ?_⟩
      rcases r with _ | _ | response <;> rfl
    rintro response stage rfl
    refine leads_bind (recordOutcome_follows fun _ _ _ => rfl) ?_
    intro _ stage free
    exact formatResponseWithPayment_follows free

end Steps

/-- Whatever the host, the ledger and the network answer: a request goes only to
the approved addresses of the approved URL, a proof leaves only with a payment
that is durably recorded as pending, a record is settled only on a receipt that
says so, and in the end nothing is held. -/
theorem paid_request_is_recorded (web : Web) (codec : Codec) (guarded : Bool)
    (call : ProposedRequest) :
    Follows (protocol web codec call) (Ends fun _ stage => Free stage)
      (run web codec guarded call) .idle := by
  unfold run
  split_ifs with hguarded
  · refine leads_bind authorizeRequest_follows ?_
    rintro target stage rfl
    refine leads_bind askDirectly_follows ?_
    rintro response stage rfl
    by_cases hstatus : response.status = 402
    · by_cases hchallenge : hasChallenge response.headers = true
      · simp only [hstatus, hchallenge, afterFirst, and_self, ne_eq, not_true_eq_false, if_true,
          if_false]
        exact payAndRetry_follows
      · simp only [hstatus, hchallenge, afterFirst, ne_eq, not_true_eq_false, if_false]
        exact .fail rfl
    · simp only [hstatus, afterFirst, false_and, ne_eq, not_false_eq_true, if_true, if_false]
      exact formatResponse_follows rfl
  · exact .fail rfl

end RequestTool

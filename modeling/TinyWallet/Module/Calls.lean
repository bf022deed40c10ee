import TinyWallet.Library.Custody
import TinyWallet.Module.Service

/-!
# Concurrent calls of the module

The module's state is one service for each flow, behind a lock, and the calls
that hold the lock for reading. A service is replaced or dropped only when no
call holds it. What a call has seen of a quote stays true of every copy of that
quote for as long as the call holds the lock: only the lifetime may change.
-/

namespace ModuleCalls

open RustText JsonValue Programs Wire Engine QuoteStore ExecutionProtocol WalletModule Custody

structure Service (flow : Flow) where
  facts : ServiceFacts
  store : Store flow.Quote

def storePrefix : Flow → String
  | .native => "q"
  | .web3 => "w3"

def Service.new (flow : Flow) (facts : ServiceFacts) : Service flow :=
  ⟨facts, Store.new (storePrefix flow) Execution.quoteTtlMs Execution.quoteStoreCap⟩

structure Wallet (ι : Type) where
  services : (flow : Flow) → Option (Service flow)
  readers : Flow → Finset ι

variable {ι : Type} [DecidableEq ι]

namespace Wallet

def new : Wallet ι := ⟨fun _ => none, fun _ => ∅⟩

def setService (w : Wallet ι) (flow : Flow) (service : Option (Service flow)) : Wallet ι :=
  { w with services := Function.update w.services flow service }

def setReaders (w : Wallet ι) (flow : Flow) (readers : Finset ι) : Wallet ι :=
  { w with readers := Function.update w.readers flow readers }

def setStore (w : Wallet ι) (flow : Flow) (service : Service flow) (store : Store flow.Quote) :
    Wallet ι :=
  w.setService flow (some { service with store })

end Wallet

/-- How a request of call `i` may be answered. Stores answer as their operations
do; whatever the host is asked, it may answer anything. -/
inductive Served : Wallet ι → ι → (e : Request) → e.Answer → Wallet ι → Prop
  | enter (w : Wallet ι) (i : ι) (flow : Flow) :
      Served w i (.enter flow) ((w.services flow).map Service.facts)
        (w.setReaders flow (insert i (w.readers flow)))
  | leave (w : Wallet ι) (i : ι) (flow : Flow) :
      Served w i (.leave flow) () (w.setReaders flow ((w.readers flow).erase i))
  | configure (w : Wallet ι) (i : ι) (flow : Flow) (cluster : SolanaCluster) (handle : String)
      (idle : w.readers flow = ∅) :
      Served w i (.configure flow cluster) handle
        (w.setService flow (some (Service.new flow ⟨handle, cluster⟩)))
  | absent (w : Wallet ι) (i : ι) (flow : Flow) (handle : String)
      (idle : w.readers flow = ∅) (unopened : w.services flow = none) :
      Served w i (.close flow handle) Closing.absent w
  | foreign (w : Wallet ι) (i : ι) (flow : Flow) (handle : String) (service : Service flow)
      (idle : w.readers flow = ∅) (found : w.services flow = some service)
      (differs : handle ≠ service.facts.handle) :
      Served w i (.close flow handle) Closing.foreign w
  | closed (w : Wallet ι) (i : ι) (flow : Flow) (service : Service flow)
      (idle : w.readers flow = ∅) (found : w.services flow = some service) :
      Served w i (.close flow service.facts.handle) Closing.closed (w.setService flow none)
  | nextId (w : Wallet ι) (i : ι) (flow : Flow) (service : Service flow) (now : Nat)
      (found : w.services flow = some service) :
      Served w i (.nextId flow) (service.store.nextId now).1
        (w.setStore flow service (service.store.nextId now).2)
  | insert (w : Wallet ι) (i : ι) (flow : Flow) (quote : flow.Quote) (service : Service flow)
      (now : Nat) (found : w.services flow = some service) :
      Served w i (.insert flow quote) ()
        (w.setStore flow service (service.store.insert now quote))
  | restore (w : Wallet ι) (i : ι) (flow : Flow) (quote : flow.Quote) (service : Service flow)
      (now later : Nat) (found : w.services flow = some service) :
      Served w i (.restore flow quote) ()
        (w.setStore flow service (service.store.restore now later quote))
  | take (w : Wallet ι) (i : ι) (flow : Flow) (quoteId : String) (caller : Option QuoteOwner)
      (service : Service flow) (now : Nat) (found : w.services flow = some service) :
      Served w i (.take flow quoteId caller) (service.store.takeFor now quoteId caller).1
        (w.setStore flow service (service.store.takeFor now quoteId caller).2)
  | get (w : Wallet ι) (i : ι) (flow : Flow) (quoteId : String) (caller : Option QuoteOwner)
      (service : Service flow) (now : Nat) (found : w.services flow = some service) :
      Served w i (.get flow quoteId caller) (service.store.getFor now quoteId caller) w
  | other (w : Wallet ι) (i : ι) (e : Request) (r : e.Answer) (apart : e.role ≠ .store) :
      Served w i e r w

theorem served_get {w w' : Wallet ι} {i : ι} {flow : Flow} {quoteId : String}
    {caller : Option QuoteOwner} {answer : Except String flow.Quote}
    (h : Served w i (.get flow quoteId caller) answer w') :
    w' = w ∧ ∃ service now, w.services flow = some service ∧
      service.store.getFor now quoteId caller = answer := by
  cases h with
  | get _ _ _ service now found => exact ⟨rfl, service, now, found, rfl⟩
  | other _ _ apart => simp [Request.role] at apart

theorem served_take {w w' : Wallet ι} {i : ι} {flow : Flow} {quoteId : String}
    {caller : Option QuoteOwner} {answer : Except String flow.Quote}
    (h : Served w i (.take flow quoteId caller) answer w') :
    ∃ service now remaining, w.services flow = some service ∧
      service.store.takeFor now quoteId caller = (answer, remaining) ∧
      w' = w.setStore flow service remaining := by
  cases h with
  | take _ _ _ service now found => exact ⟨service, now, _, found, rfl, rfl⟩
  | other _ _ apart => simp [Request.role] at apart

inductive Call where
  | web3Execute (request : ExecuteRequest)
  | nativeWalletExecutePrepared (request : ExecuteRequest)
  | web3SwapQuote (service : String) (owner : Option QuoteOwner)
      (params : Except String Execution.SwapQuoteParams)
  | web3BridgeQuote (service : String) (owner : Option QuoteOwner)
      (params : Except String Execution.BridgeQuoteParams)
  | web3DappQuote (service : String) (owner : Option QuoteOwner)
      (params : Except String Execution.DappCallParams)
  | nativeWalletPrepareTransfer (service : String) (owner : Option QuoteOwner)
      (params : Execution.PrepareTransferParams)
  | configure (flow : Flow) (cluster : SolanaCluster)
  | web3Close (handle : String)
  | nativeWalletClose (handle : String)

/-- A call's requests; nobody looks at its result. -/
def Call.program (host : Host) : Call → BusOp Unit
  | .web3Execute request => do
    let _ ← WalletModule.web3Execute host request
  | .nativeWalletExecutePrepared request => do
    let _ ← WalletModule.nativeWalletExecutePrepared host request
  | .web3SwapQuote service owner params => do
    let _ ← WalletModule.web3SwapQuote service owner params
  | .web3BridgeQuote service owner params => do
    let _ ← WalletModule.web3BridgeQuote service owner params
  | .web3DappQuote service owner params => do
    let _ ← WalletModule.web3DappQuote service owner params
  | .nativeWalletPrepareTransfer service owner params => do
    let _ ← WalletModule.nativeWalletPrepareTransfer host service owner params
  | .configure flow cluster => do
    let _ ← configureService flow cluster
  | .web3Close handle => closeService .web3 handle web3Foreign
  | .nativeWalletClose handle => closeService .native handle nativeForeign

/-- The flow and the request of a call that executes a quote. -/
def Call.executes : Call → Option (Flow × ExecuteRequest)
  | .web3Execute request => some (.web3, request)
  | .nativeWalletExecutePrepared request => some (.native, request)
  | _ => none

/-- Where a call is: outside every lock, or inside one with nothing, with a fresh
id, or with a quote it has read. -/
inductive Stage where
  | outside
  | inside (flow : Flow)
  | named (flow : Flow) (id : String)
  | seen (flow : Flow) (quote : flow.Quote)

def Stage.within : Stage → Option Flow
  | .outside => none
  | .inside flow => some flow
  | .named flow _ => some flow
  | .seen flow _ => some flow

/-- The id a call has drawn for `flow` and not used. -/
def Stage.reserves (flow : Flow) : Stage → Option String
  | .named flow' id => if flow' = flow then some id else none
  | _ => none

inductive Moves : Stage → (e : Request) → e.Answer → Stage → Prop
  | enter (flow : Flow) (facts : Option ServiceFacts) :
      Moves .outside (.enter flow) facts (.inside flow)
  | leave (stage : Stage) (flow : Flow) (h : stage.within = some flow) :
      Moves stage (.leave flow) () .outside
  | configure (flow : Flow) (cluster : SolanaCluster) (handle : String) :
      Moves .outside (.configure flow cluster) handle .outside
  | close (flow : Flow) (handle : String) (outcome : Closing) :
      Moves .outside (.close flow handle) outcome .outside
  | stay (stage : Stage) (e : Request) (r : e.Answer) (h : e.role ≠ .store) :
      Moves stage e r stage
  | name (flow : Flow) (id : String) :
      Moves (.inside flow) (.nextId flow) id (.named flow id)
  | store (flow : Flow) (quote : flow.Quote) :
      Moves (.named flow (Quoted.quoteId quote)) (.insert flow quote) () (.inside flow)
  | get (flow : Flow) (id : String) (caller : Option QuoteOwner) (quote : flow.Quote) :
      Moves (.inside flow) (.get flow id caller) (Except.ok quote) (.seen flow quote)
  | unseen (flow : Flow) (id : String) (caller : Option QuoteOwner) (message : String) :
      Moves (.inside flow) (.get flow id caller) (Except.error message) (.inside flow)
  | take (flow : Flow) (quote : flow.Quote) (caller : Option QuoteOwner)
      (answer : Except String flow.Quote) :
      Moves (.seen flow quote) (.take flow (Quoted.quoteId quote) caller) answer
        (.seen flow quote)
  | restore (flow : Flow) (quote quote' : flow.Quote)
      (hid : Quoted.quoteId quote' = Quoted.quoteId quote)
      (h : Store.content quote' = Store.content quote) :
      Moves (.seen flow quote) (.restore flow quote') () (.seen flow quote)

section Agreement

variable (w : Wallet ι) (stage : ι → Stage)

def Issued (flow : Flow) (id : String) : Prop :=
  ∃ service, w.services flow = some service ∧ service.store.Issued id

/-- A quote of the store, or one that a call has read. -/
def Seen (flow : Flow) (id : String) (quote : flow.Quote) : Prop :=
  (∃ service, w.services flow = some service ∧ ∃ q ∈ service.store.quotes,
    Quoted.quoteId q = id ∧ Store.content q = quote) ∨
  ∃ i q, stage i = .seen flow q ∧ Quoted.quoteId q = id ∧ Store.content q = quote

structure Agree : Prop where
  locked : ∀ i flow, (stage i).within = some flow → i ∈ w.readers flow
  pinned : ∀ flow, Pinned (Issued w flow) (Seen w stage flow) fun i => (stage i).reserves flow

end Agreement

section Steps

variable {w : Wallet ι} {stage : ι → Stage} {i : ι}

omit [DecidableEq ι] in
theorem issued_setStore {flow : Flow} {service : Service flow} (store : Store flow.Quote)
    (found : w.services flow = some service)
    (h : ∀ id, service.store.Issued id → store.Issued id) (flow' : Flow) (id : String)
    (hid : Issued w flow' id) : Issued (w.setStore flow service store) flow' id := by
  obtain ⟨service', found', issued⟩ := hid
  by_cases hflow : flow' = flow
  · subst hflow
    cases found.symm.trans found'
    exact ⟨{ service' with store }, by simp [Wallet.setStore, Wallet.setService], h id issued⟩
  · exact ⟨service', by simpa [Wallet.setStore, Wallet.setService, hflow] using found', issued⟩

/-- What is seen after one store and one stage have changed: nothing but what was
seen before and what `more` lists. -/
theorem seen_setStore {flow : Flow} {service : Service flow} {store : Store flow.Quote}
    {stage' : Stage} (more : String → flow.Quote → Prop)
    (found : w.services flow = some service)
    (stored : ∀ q ∈ store.quotes, q ∈ service.store.quotes ∨
      more (Quoted.quoteId q) (Store.content q))
    (read : ∀ flow' q, stage' = .seen flow' q → Seen w stage flow' (Quoted.quoteId q)
      (Store.content q))
    (flow' : Flow) (id : String) (quote : flow'.Quote)
    (h : Seen (w.setStore flow service store) (Function.update stage i stage') flow' id quote) :
    (∃ hflow : flow = flow', more id (hflow ▸ quote)) ∨ Seen w stage flow' id quote := by
  rcases h with ⟨service', found', q, hq, rfl, rfl⟩ | ⟨j, q, hj, rfl, rfl⟩
  · by_cases hflow : flow' = flow
    · subst hflow
      have same : service' = { service with store } := by
        simpa [Wallet.setStore, Wallet.setService] using found'.symm
      subst same
      rcases stored q hq with hq | hmore
      · exact .inr (.inl ⟨service, found, q, hq, rfl, rfl⟩)
      · exact .inl ⟨rfl, hmore⟩
    · refine .inr (.inl ⟨service', ?_, q, hq, rfl, rfl⟩)
      simpa [Wallet.setStore, Wallet.setService, hflow] using found'
  · by_cases hji : j = i
    · subst hji
      exact .inr (read flow' q (by simpa using hj))
    · exact .inr (.inr ⟨j, q, by simpa [hji] using hj, rfl, rfl⟩)

/-- Nothing is read that was not there. -/
theorem seen_update {w' : Wallet ι} {stage' : Stage} (same : w'.services = w.services)
    (read : ∀ flow q, stage' = .seen flow q → Seen w stage flow (Quoted.quoteId q)
      (Store.content q))
    (flow : Flow) (id : String) (quote : flow.Quote)
    (h : Seen w' (Function.update stage i stage') flow id quote) : Seen w stage flow id quote := by
  rcases h with ⟨service, found, q, hq, rfl, rfl⟩ | ⟨j, q, hj, rfl, rfl⟩
  · rw [same] at found
    exact .inl ⟨service, found, q, hq, rfl, rfl⟩
  · by_cases hji : j = i
    · subst hji
      exact read flow q (by simpa using hj)
    · exact .inr ⟨j, q, by simpa [hji] using hj, rfl, rfl⟩

theorem reserves_update {stage' : Stage} (flow : Flow)
    (h : stage'.reserves flow = none ∨ stage'.reserves flow = (stage i).reserves flow) (j : ι)
    (id : String) (hj : (Function.update stage i stage' j).reserves flow = some id) :
    (stage j).reserves flow = some id := by
  by_cases hji : j = i
  · subst hji
    rw [Function.update_self] at hj
    rcases h with h | h
    · rw [h] at hj
      cases hj
    · rwa [h] at hj
  · simpa [hji] using hj

theorem locked_update {stage' : Stage} (h : Agree w stage)
    (within : stage'.within = none ∨ stage'.within = (stage i).within) (j : ι) (flow : Flow)
    (hj : (Function.update stage i stage' j).within = some flow) : j ∈ w.readers flow := by
  by_cases hji : j = i
  · subst hji
    rw [Function.update_self] at hj
    rcases within with h' | h'
    · rw [h'] at hj
      cases hj
    · exact h.locked j flow (h' ▸ hj)
  · exact h.locked j flow (by simpa [hji] using hj)

/-- A step that leaves the services alone. -/
theorem Agree.move (h : Agree w stage) {w' : Wallet ι} {stage' : Stage}
    (same : w'.services = w.services)
    (locked : ∀ j flow, (Function.update stage i stage' j).within = some flow →
      j ∈ w'.readers flow)
    (read : ∀ flow q, stage' = .seen flow q → Seen w stage flow (Quoted.quoteId q)
      (Store.content q))
    (reserves : ∀ flow, stage'.reserves flow = none ∨
      stage'.reserves flow = (stage i).reserves flow) :
    Agree w' (Function.update stage i stage') := by
  refine ⟨locked, fun flow => ?_⟩
  refine (h.pinned flow).lose ?_ (seen_update same read flow) (reserves_update flow (reserves flow))
  rintro id ⟨service, found, issued⟩
  exact ⟨service, by rwa [same], issued⟩

/-- A step that changes one store: `more` is what the store gains. -/
theorem Agree.store (h : Agree w stage) {flow : Flow} {service : Service flow}
    {store : Store flow.Quote} {stage' : Stage} (found : w.services flow = some service)
    (issued : ∀ id, service.store.Issued id → store.Issued id)
    (within : stage'.within = none ∨ stage'.within = (stage i).within)
    (stored : ∀ q ∈ store.quotes, Seen w stage flow (Quoted.quoteId q) (Store.content q))
    (read : ∀ flow' q, stage' = .seen flow' q → Seen w stage flow' (Quoted.quoteId q)
      (Store.content q))
    (reserves : ∀ flow', stage'.reserves flow' = none ∨
      stage'.reserves flow' = (stage i).reserves flow') :
    Agree (w.setStore flow service store) (Function.update stage i stage') := by
  refine ⟨fun j flow' hj => locked_update h within j flow' hj, fun flow' => ?_⟩
  refine (h.pinned flow').lose (issued_setStore store found issued flow') ?_
    (reserves_update flow' (reserves flow'))
  intro id quote hseen
  rcases seen_setStore (Seen w stage flow) found (fun q hq => .inr (stored q hq)) read flow' id
    quote hseen with ⟨rfl, hmore⟩ | hseen
  · exact hmore
  · exact hseen

theorem Agree.name (h : Agree w stage) {flow : Flow} {service : Service flow} (now : Nat)
    (found : w.services flow = some service) (inside : stage i = .inside flow) :
    Agree (w.setStore flow service (service.store.nextId now).2)
      (Function.update stage i (.named flow (service.store.nextId now).1)) := by
  refine ⟨fun j flow' hj => locked_update h (.inr (by rw [inside]; rfl)) j flow' hj,
    fun flow' => ?_⟩
  have issued := issued_setStore (service.store.nextId now).2 found
    (fun id hid => Store.Issued.after_nextId hid now) flow'
  have stored : ∀ q ∈ (service.store.nextId now).2.quotes, q ∈ service.store.quotes ∨ False :=
    fun q hq => .inl hq
  have unseen : ∀ id quote, Seen (w.setStore flow service (service.store.nextId now).2)
      (Function.update stage i (.named flow (service.store.nextId now).1)) flow' id quote →
      Seen w stage flow' id quote := by
    intro id quote hseen
    rcases seen_setStore (fun _ _ => False) found stored (by simp) flow' id quote hseen with
      ⟨_, none⟩ | hseen
    · exact none.elim
    · exact hseen
  by_cases hflow : flow' = flow
  · subst hflow
    refine (h.pinned flow').reserve (i := i) (k := (service.store.nextId now).1) issued ?_ ?_
      unseen ?_
    · rintro ⟨service', found', old⟩
      cases found.symm.trans found'
      exact Store.nextId_not_issued _ now old
    · exact ⟨{ service with store := (service.store.nextId now).2 },
        by simp [Wallet.setStore, Wallet.setService], Store.nextId_issued _ now⟩
    · intro j id hj
      by_cases hji : j = i
      · subst hji
        refine .inl ⟨rfl, ?_⟩
        simpa [Stage.reserves] using hj.symm
      · exact .inr (by simpa [hji] using hj)
  · refine (h.pinned flow').lose issued unseen (reserves_update flow' (.inl ?_))
    simp [Stage.reserves, Ne.symm hflow]

theorem Agree.publish (h : Agree w stage) {flow : Flow} {service : Service flow}
    {quote : flow.Quote} (now : Nat) (found : w.services flow = some service)
    (named : stage i = .named flow (Quoted.quoteId quote)) :
    Agree (w.setStore flow service (service.store.insert now quote))
      (Function.update stage i (.inside flow)) := by
  refine ⟨fun j flow' hj => locked_update h (.inr (by rw [named]; rfl)) j flow' hj,
    fun flow' => ?_⟩
  have issued := issued_setStore (service.store.insert now quote) found (fun _ => id) flow'
  have stored : ∀ q ∈ (service.store.insert now quote).quotes, q ∈ service.store.quotes ∨
      Quoted.quoteId q = Quoted.quoteId quote ∧ Store.content q = Store.content quote := by
    intro q hq
    rcases Store.insert_mem hq with hq | rfl
    · exact .inl hq
    · exact .inr ⟨rfl, rfl⟩
  by_cases hflow : flow' = flow
  · subst hflow
    refine (h.pinned flow').publish (i := i) (k := Quoted.quoteId quote)
      (v := Store.content quote) issued (by simp [named, Stage.reserves]) ?_ ?_
    · intro id q hq
      rcases seen_setStore (fun id q => id = Quoted.quoteId quote ∧ q = Store.content quote) found
        stored (by simp) flow' id q hq with ⟨_, one⟩ | hq
      · exact .inl one
      · exact .inr hq
    · intro j id hj
      by_cases hji : j = i
      · subst hji
        simp [Stage.reserves] at hj
      · exact ⟨hji, by simpa [hji] using hj⟩
  · refine (h.pinned flow').lose issued ?_ (reserves_update flow' (.inl rfl))
    intro id q hq
    rcases seen_setStore (fun id q => id = Quoted.quoteId quote ∧ q = Store.content quote) found
      stored (by simp) flow' id q hq with ⟨same, _⟩ | hq
    · exact absurd same.symm hflow
    · exact hq

omit [DecidableEq ι] in
/-- A service is replaced while nobody holds it. -/
theorem Agree.replace (h : Agree w stage) {flow : Flow} {service : Option (Service flow)}
    (idle : w.readers flow = ∅)
    (empty : ∀ opened, service = some opened → opened.store.quotes = []) :
    Agree (w.setService flow service) stage := by
  have nobody : ∀ j, (stage j).within ≠ some flow := by
    intro j hj
    have := h.locked j flow hj
    simp [idle] at this
  refine ⟨h.locked, fun flow' => ?_⟩
  by_cases hflow : flow' = flow
  · subst hflow
    have unseen : ∀ id quote, ¬Seen (w.setService flow' service) stage flow' id quote := by
      rintro id quote (⟨opened, found, q, hq, _⟩ | ⟨j, q, hj, _⟩)
      · have := empty opened (by simpa [Wallet.setService] using found)
        simp [this] at hq
      · exact nobody j (by rw [hj]; rfl)
    have unreserved : ∀ j, (stage j).reserves flow' = none := by
      intro j
      cases hstage : stage j with
      | named flow id =>
        have : flow ≠ flow' := fun hf => nobody j (by rw [hstage, ← hf]; rfl)
        simp [Stage.reserves, this]
      | _ => rfl
    refine ⟨?_, ?_, ?_, ?_, ?_⟩
    · intro id q q' hq
      exact absurd hq (unseen id q)
    · intro j id q hj
      simp [unreserved] at hj
    · intro j j' id hj
      simp [unreserved] at hj
    · intro id q hq
      exact absurd hq (unseen id q)
    · intro j id hj
      simp [unreserved] at hj
  · refine (h.pinned flow').lose ?_ ?_ (fun _ _ => id)
    · rintro id ⟨opened, found, issued⟩
      exact ⟨opened, by simpa [Wallet.setService, hflow] using found, issued⟩
    · rintro id quote (⟨opened, found, rest⟩ | read)
      · exact .inl ⟨opened, by simpa [Wallet.setService, hflow] using found, rest⟩
      · exact .inr read

/-- What a call may rely on when it looks at its store again. -/
def reliable (stage : Stage) : (e : Request) → e.Answer → Prop
  | .get _ id caller, answer =>
    ∀ quote, answer = .ok quote → Quoted.quoteId quote = id ∧ Quoted.owner quote = caller
  | .take flow id _, answer =>
    ∀ quote quote', stage = .seen flow quote → Quoted.quoteId quote = id → answer = .ok quote' →
      Quoted.quoteId quote' = id ∧ Store.content quote' = Store.content quote
  | _, _ => True

theorem Agree.reliable (h : Agree w stage) {w' : Wallet ι} {e : Request} {r : e.Answer}
    (served : Served w i e r w') : reliable (stage i) e r := by
  cases served with
  | get flow id caller service now found =>
    intro quote hquote
    exact (Store.getFor_ok hquote).2
  | take flow id caller service now found =>
    intro quote quote' hstage hid hquote
    obtain ⟨hmem, hid', _⟩ := Store.takeFor_ok (Prod.ext hquote rfl)
    refine ⟨hid', (h.pinned flow).functional id _ _ ?_ ?_⟩
    · exact .inl ⟨service, found, quote', hmem, hid', rfl⟩
    · exact .inr ⟨i, quote, hstage, hid, rfl⟩
  | other _ _ apart => cases e <;> trivial
  | _ => trivial

/-- One answered request keeps all copies of every quote alike. -/
theorem agree_kept (h : Agree w stage) {w' : Wallet ι} {e : Request} {r : e.Answer}
    {stage' : Stage} (served : Served w i e r w') (moves : Moves (stage i) e r stage') :
    Agree w' (Function.update stage i stage') := by
  generalize hstage : stage i = before at moves
  cases moves with
  | enter flow facts =>
    cases served with
    | other _ _ apart => simp [Request.role] at apart
    | enter =>
      refine h.move rfl ?_ (by simp) (fun _ => .inl rfl)
      intro j flow' hj
      by_cases hji : j = i
      · subst hji
        have hflow : flow = flow' := by simpa [Stage.within] using hj
        subst hflow
        simp [Wallet.setReaders]
      · have hmem := h.locked j flow' (by simpa [hji] using hj)
        by_cases hflow : flow' = flow
        · subst hflow
          simp [Wallet.setReaders, hmem]
        · simpa [Wallet.setReaders, hflow] using hmem
  | leave _ flow within =>
    cases served with
    | other _ _ apart => simp [Request.role] at apart
    | leave =>
      refine h.move rfl ?_ (by simp) (fun _ => .inl rfl)
      intro j flow' hj
      by_cases hji : j = i
      · subst hji
        simp [Stage.within] at hj
      · have hmem := h.locked j flow' (by simpa [hji] using hj)
        by_cases hflow : flow' = flow
        · subst hflow
          simp [Wallet.setReaders, hmem, hji]
        · simpa [Wallet.setReaders, hflow] using hmem
  | configure flow cluster handle =>
    rw [← hstage, Function.update_eq_self]
    cases served with
    | other _ _ apart => simp [Request.role] at apart
    | configure _ _ _ idle =>
      refine h.replace idle ?_
      rintro opened hopened
      cases hopened
      rfl
  | close flow handle outcome =>
    rw [← hstage, Function.update_eq_self]
    cases served with
    | other _ _ apart => simp [Request.role] at apart
    | absent => exact h
    | foreign => exact h
    | closed _ _ idle found => exact h.replace idle (by simp)
  | stay _ _ _ apart =>
    rw [← hstage, Function.update_eq_self]
    cases served with
    | other => exact h
    | _ => simp [Request.role] at apart
  | name flow id =>
    cases served with
    | other _ _ apart => simp [Request.role] at apart
    | nextId _ _ now found => exact h.name now found hstage
  | store flow quote =>
    cases served with
    | other _ _ apart => simp [Request.role] at apart
    | insert _ _ _ now found => exact h.publish now found hstage
  | get flow id caller quote =>
    obtain ⟨rfl, service, now, found, answered⟩ := served_get served
    refine h.move rfl (locked_update h (.inr (by rw [hstage]; rfl))) ?_ (fun _ => .inl rfl)
    intro flow' q hq
    cases hq
    exact .inl ⟨service, found, quote, (Store.getFor_ok answered).1, rfl, rfl⟩
  | unseen flow id caller message =>
    obtain ⟨rfl, _⟩ := served_get served
    rw [← hstage, Function.update_eq_self]
    exact h
  | take flow quote caller answer =>
    obtain ⟨service, now, remaining, found, taken, rfl⟩ := served_take served
    rw [← hstage]
    refine h.store found (fun id => (Store.issued_of_takeFor taken).mpr) (.inr rfl) ?_ ?_
      (fun _ => .inr rfl)
    · intro q hq
      exact .inl ⟨service, found, q, Store.takeFor_subset taken q hq, rfl, rfl⟩
    · intro flow' q hq
      exact .inr ⟨i, q, hq, rfl, rfl⟩
  | restore flow quote quote' hid same =>
    cases served with
    | other _ _ apart => simp [Request.role] at apart
    | restore _ _ service now later found =>
      rw [← hstage]
      refine h.store found (fun _ => id) (.inr rfl) ?_ ?_ (fun _ => .inr rfl)
      · intro q hq
        rcases Store.restore_mem hq with hq | ⟨hid', same'⟩
        · exact .inl ⟨service, found, q, hq, rfl, rfl⟩
        · exact .inr ⟨i, quote, hstage, by rw [hid', hid], by rw [same', same]⟩
      · intro flow' q hq
        exact .inr ⟨i, q, hq, rfl, rfl⟩

omit [DecidableEq ι] in
theorem agree_new : Agree (Wallet.new : Wallet ι) fun _ => .outside := by
  refine ⟨by simp [Stage.within], fun flow => ⟨?_, ?_, ?_, ?_, ?_⟩⟩
  · rintro id q q' (⟨service, found, _⟩ | ⟨j, _, hj, _⟩)
    · cases found
    · cases hj
  · intro j id q hj
    cases hj
  · intro j j' id hj
    cases hj
  · rintro id q (⟨service, found, _⟩ | ⟨j, _, hj, _⟩)
    · cases found
    · cases hj
  · intro j id hj
    cases hj

end Steps

end ModuleCalls

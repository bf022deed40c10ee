import TinyWallet.Engine.Protocol

/-!
# The stores and the network that concurrent calls share

Any number of calls run at once; each request of a call is answered on its own.
The two stores answer as their operations do, with whatever the clock reads;
a broadcast may be accepted by the network, whatever answer it gets; all other
answers are free, so that the nodes' nonces, outputs and blockhashes may move
on in any way.
-/

namespace QuoteRuns

open RustText JsonValue Programs Wire Engine QuoteStore

/-- The stores of one engine, and the broadcasts the network accepted with the
calls that made them. -/
structure Shared (ι : Type) where
  stores : (flow : Flow) → Store flow.Quote
  accepted : List (ι × Request)

variable {ι : Type}

namespace Shared

def new : Shared ι where
  stores
    | .native => Store.new "q" Execution.quoteTtlMs Execution.quoteStoreCap
    | .web3 => Store.new "w3" Execution.quoteTtlMs Execution.quoteStoreCap
  accepted := []

def setStore (s : Shared ι) (flow : Flow) (store : Store flow.Quote) : Shared ι :=
  { s with stores := Function.update s.stores flow store }

def accept (s : Shared ι) (i : ι) (e : Request) : Shared ι :=
  { s with accepted := s.accepted ++ [(i, e)] }

end Shared

/-- How the request `e` of call `i` may be answered. A broadcast that the network
accepts is answered as `reports` allows. -/
inductive Served (reports : (e : Request) → e.Answer → Prop) :
    Shared ι → ι → (e : Request) → e.Answer → Shared ι → Prop
  | nextId (s : Shared ι) (i : ι) (flow : Flow) (now : Nat) :
      Served reports s i (.nextId flow) ((s.stores flow).nextId now).1
        (s.setStore flow ((s.stores flow).nextId now).2)
  | insert (s : Shared ι) (i : ι) (flow : Flow) (quote : flow.Quote) (now : Nat) :
      Served reports s i (.insert flow quote) ()
        (s.setStore flow ((s.stores flow).insert now quote))
  | restore (s : Shared ι) (i : ι) (flow : Flow) (quote : flow.Quote) (now later : Nat) :
      Served reports s i (.restore flow quote) ()
        (s.setStore flow ((s.stores flow).restore now later quote))
  | take (s : Shared ι) (i : ι) (flow : Flow) (quoteId : String) (caller : Option QuoteOwner)
      (now : Nat) :
      Served reports s i (.take flow quoteId caller)
        ((s.stores flow).takeFor now quoteId caller).1
        (s.setStore flow ((s.stores flow).takeFor now quoteId caller).2)
  | get (s : Shared ι) (i : ι) (flow : Flow) (quoteId : String) (caller : Option QuoteOwner)
      (now : Nat) :
      Served reports s i (.get flow quoteId caller) ((s.stores flow).getFor now quoteId caller) s
  | accept (s : Shared ι) (i : ι) (e : Request) (r : e.Answer) (sent : e.role = .broadcast)
      (reported : reports e r) : Served reports s i e r (s.accept i e)
  | other (s : Shared ι) (i : ι) (e : Request) (r : e.Answer) (apart : e.role ≠ .store) :
      Served reports s i e r s

theorem served_of_broadcast {reports : (e : Request) → e.Answer → Prop} {s s' : Shared ι} {i : ι}
    {e : Request} {r : e.Answer} (sent : e.role = .broadcast) (h : Served reports s i e r s') :
    s' = s.accept i e ∧ reports e r ∨ s' = s := by
  cases h with
  | accept _ _ _ reported => exact .inl ⟨rfl, reported⟩
  | other => exact .inr rfl
  | _ => simp [Request.role] at sent

theorem served_of_apart {reports : (e : Request) → e.Answer → Prop} {s s' : Shared ι} {i : ι}
    {e : Request} {r : e.Answer} (apart : e.role ≠ .store) (kept : e.role ≠ .broadcast)
    (h : Served reports s i e r s') : s' = s := by
  cases h with
  | accept _ _ sent _ => exact absurd sent kept
  | other => rfl
  | _ => simp [Request.role] at apart

theorem served_take {reports : (e : Request) → e.Answer → Prop} {s s' : Shared ι} {i : ι}
    {flow : Flow} {quoteId : String} {caller : Option QuoteOwner}
    {answer : Except String flow.Quote}
    (h : Served reports s i (.take flow quoteId caller) answer s') :
    ∃ now remaining, (s.stores flow).takeFor now quoteId caller = (answer, remaining) ∧
      s' = s.setStore flow remaining := by
  cases h with
  | take _ _ _ now => exact ⟨now, _, rfl, rfl⟩
  | accept _ _ sent => cases sent
  | other _ _ apart => simp [Request.role] at apart

/-- One call of the engine or of the service over it, by the owner its scope
reports. -/
inductive Call where
  | prepareTransfer (owner : Option QuoteOwner) (params : Execution.PrepareTransferParams)
  | quoteSwap (owner : Option QuoteOwner) (params : Execution.SwapQuoteParams)
  | quoteBridge (owner : Option QuoteOwner) (params : Execution.BridgeQuoteParams)
  | prepareDappCall (owner : Option QuoteOwner) (params : Execution.DappCallParams)
  | executePrepared (owner : Option QuoteOwner) (params : Execution.ExecuteParams)
  | executeQuote (owner : Option QuoteOwner) (params : Execution.ExecuteParams)

/-- A call's requests; nobody looks at its result. -/
def Call.program (host : Host) : Call → Op Unit
  | .prepareTransfer owner params => do
    let _ ← Execution.prepareTransfer host owner params
  | .quoteSwap owner params => do
    let _ ← Execution.quoteSwap owner params
  | .quoteBridge owner params => do
    let _ ← Execution.quoteBridge owner params
  | .prepareDappCall owner params => do
    let _ ← Execution.prepareDappCall owner params
  | .executePrepared owner params => do
    let _ ← Execution.executePrepared host owner params
  | .executeQuote owner params => do
    let _ ← Execution.executeQuote host owner params

abbrev Key := Flow × String

/-- The quote a call executes. -/
def Call.target : Call → Option Key
  | .executePrepared _ params => some (.native, params.quoteId)
  | .executeQuote _ params => some (.web3, params.quoteId)
  | _ => none

/-- How many broadcasts of calls on one quote the network accepted. -/
def acceptedFor (target : ι → Option Key) (s : Shared ι) (key : Key) : Nat :=
  (s.accepted.filter fun entry => target entry.1 = some key).length

end QuoteRuns

import TinyWallet.Library.Custody
import TinyWallet.Quotes.Runs

/-!
# How often one quote is broadcast

A quote is named by one preparing call, lies in its store, is held by one
executing call, and is spent by the broadcast that call reports as done. While
every accepted broadcast is reported so, no quote is in two of these places and
the network accepts at most one broadcast for it. A broadcast that is accepted
but not reported puts the quote back, and a retry sends another one.
-/

namespace Broadcasts

open RustText JsonValue Programs Wire Engine QuoteStore ExecutionProtocol QuoteRuns Custody
open Execution (sampleHost sampleNow)

variable {ι : Type}

inductive Phase where
  | idle (target : Option Key)
  | named (key : Key)
  | holding (key : Key)
  | finished
deriving DecidableEq

/-- The key a call carries. -/
def Phase.carries : Phase → Option Key
  | .named key => some key
  | .holding key => some key
  | _ => none

/-- Reads and signatures do not concern a quote's whereabouts. -/
def Neutral (e : Request) : Prop := e.role = .read ∨ e.role = .sign

inductive Lives (host : Host) : Phase → (e : Request) → e.Answer → Phase → Prop
  | stay (phase : Phase) (e : Request) (r : e.Answer) (h : Neutral e) :
      Lives host phase e r phase
  | name (flow : Flow) (id : String) :
      Lives host (.idle none) (.nextId flow) id (.named (flow, id))
  | store (flow : Flow) (quote : flow.Quote) :
      Lives host (.named (flow, Quoted.quoteId quote)) (.insert flow quote) () .finished
  | take (flow : Flow) (id : String) (caller : Option QuoteOwner) (quote : flow.Quote) :
      Lives host (.idle (some (flow, id))) (.take flow id caller) (Except.ok quote)
        (.holding (flow, id))
  | refused (flow : Flow) (id : String) (caller : Option QuoteOwner) (message : String) :
      Lives host (.idle (some (flow, id))) (.take flow id caller) (Except.error message) .finished
  | spend (key : Key) (e : Request) (r : e.Answer) (sent : e.role = .broadcast)
      (done : reported host e r = true) : Lives host (.holding key) e r .finished
  | missed (key : Key) (e : Request) (r : e.Answer) (sent : e.role = .broadcast)
      (undone : reported host e r = false) : Lives host (.holding key) e r (.holding key)
  | restore (flow : Flow) (quote : flow.Quote) :
      Lives host (.holding (flow, Quoted.quoteId quote)) (.restore flow quote) () .finished

/-- A quote that is taken has the id that was asked for. -/
def takesAsked : (e : Request) → e.Answer → Prop
  | .take _ id _, answer => ∀ quote, answer = .ok quote → Quoted.quoteId quote = id
  | _, _ => True

def lifecycle (host : Host) : Monitor Request Request.Answer Phase where
  assumes _ := takesAsked
  advances := Lives host

/-- Where an execution's quote is. -/
def Executes {flow : Flow} (key : Key) : Progress flow.Quote → Phase → Prop
  | .waiting, phase => phase = .idle (some key)
  | .reading quote, phase => phase = .holding key ∧ key = (flow, Quoted.quoteId quote)
  | .signed quote, phase => phase = .holding key ∧ key = (flow, Quoted.quoteId quote)
  | .sent quote done, phase =>
    phase = (if done then .finished else .holding key) ∧ key = (flow, Quoted.quoteId quote)
  | .finished, phase => phase = .finished

/-- An execution that keeps its order lives its quote's life. -/
theorem lives_of_execution {α : Type} {host : Host} {flow : Flow} {quoteId : String}
    {p : Op α}
    (h : Follows (execution host flow quoteId (Signs host flow)) (fun _ _ => True) p .waiting) :
    Follows (lifecycle host) (fun _ _ => True) p (.idle (some (flow, quoteId))) := by
  refine follows_simulate (Executes (flow, quoteId)) (fun _ _ _ _ _ _ => trivial) ?_
    (fun _ _ _ _ _ => trivial) (show Executes _ .waiting _ from rfl) h
  intro progress phase e r progress' related asked advances
  cases advances with
  | take caller quote =>
    cases related
    have hid : Quoted.quoteId quote = quoteId := asked quote rfl
    exact ⟨_, .take flow quoteId caller quote, rfl, by rw [hid]⟩
  | refused caller message =>
    cases related
    exact ⟨_, .refused flow quoteId caller message, rfl⟩
  | read quote _ _ reads =>
    obtain ⟨rfl, hkey⟩ := related
    exact ⟨_, .stay _ e r (.inl reads), rfl, hkey⟩
  | sign quote _ _ signs =>
    obtain ⟨rfl, hkey⟩ := related
    exact ⟨_, .stay _ e r (.inr (signs_role signs)), rfl, hkey⟩
  | send quote _ _ sent =>
    obtain ⟨rfl, hkey⟩ := related
    cases hreported : reported host e r with
    | true => exact ⟨_, .spend _ e r sent hreported, rfl, hkey⟩
    | false => exact ⟨_, .missed _ e r sent hreported, rfl, hkey⟩
  | restore _ quote isOpen =>
    have holds : phase = .holding (flow, quoteId) ∧
        (flow, quoteId) = (flow, Quoted.quoteId quote) := by
      match progress, isOpen, related with
      | .reading _, rfl, related => exact related
      | .signed _, rfl, related => exact related
      | .sent _ false, rfl, related => exact related
    obtain ⟨rfl, hkey⟩ := holds
    rw [hkey]
    exact ⟨_, .restore flow quote, rfl⟩

/-- Where a quote in preparation is. -/
def Prepares (flow : Flow) : Draft flow.Quote → Phase → Prop
  | .reading, phase => phase = .idle none
  | .named id, phase => phase = .named (flow, id)
  | .stored _, phase => phase = .finished

theorem lives_of_preparation {α : Type} {host : Host} {flow : Flow} {p : Op α}
    {post : Except (Failure String) α → Draft flow.Quote → Prop}
    (h : Follows (preparation flow) post p .reading) :
    Follows (lifecycle host) (fun _ _ => True) p (.idle none) := by
  refine follows_simulate (Prepares flow) (fun _ _ _ _ _ _ => trivial) ?_
    (fun _ _ _ _ _ => trivial) (show Prepares flow .reading _ from rfl) h
  intro draft phase e r draft' related _ drafts
  cases drafts with
  | read _ _ reads =>
    cases related
    exact ⟨_, .stay _ e r (.inl reads), rfl⟩
  | name id =>
    cases related
    exact ⟨_, .name flow id, rfl⟩
  | store quote =>
    cases related
    exact ⟨_, .store flow quote, rfl⟩

theorem Call.follows {host : Host} (call : Call) :
    Follows (lifecycle host) (fun _ _ => True) (call.program host) (.idle call.target) := by
  have discard : ∀ {α : Type} {p : Op α} {phase : Phase},
      Follows (lifecycle host) (fun _ _ => True) p phase →
      Follows (lifecycle host) (fun _ _ => True) (p >>= fun _ => pure ()) phase := by
    intro α p phase h
    refine follows_bind (follows_mono ?_ h)
    intro result phase _
    cases result with
    | error e => trivial
    | ok a => exact .pure trivial
  cases call with
  | prepareTransfer owner params =>
    exact discard (lives_of_preparation (prepareTransfer_follows owner params))
  | quoteSwap owner params => exact discard (lives_of_preparation (quoteSwap_follows owner params))
  | quoteBridge owner params =>
    exact discard (lives_of_preparation (quoteBridge_follows owner params))
  | prepareDappCall owner params =>
    exact discard (lives_of_preparation (prepareDappCall_follows owner params))
  | executePrepared owner params =>
    exact discard (lives_of_execution (executePrepared_follows owner params))
  | executeQuote owner params =>
    exact discard (lives_of_execution (executeQuote_follows owner params))

section Whereabouts

variable (target : ι → Option Key)

/-- The keys of the stored quotes. -/
def stored (s : Shared ι) : Multiset Key :=
  (s.stores .native).ids.map (Prod.mk .native) + (s.stores .web3).ids.map (Prod.mk .web3)

/-- The keys whose broadcast was accepted, once for each broadcast. -/
def spent (s : Shared ι) : Multiset Key := s.accepted.filterMap fun entry => target entry.1

def known (s : Shared ι) (key : Key) : Prop := (s.stores key.1).Issued key.2

/-- Every key is in one place, and a call holds no quote but its target. -/
structure Whereabouts (s : Shared ι) (phase : ι → Phase) : Prop where
  exclusive : Exclusive (known s) (stored s + spent target s) (Phase.carries ∘ phase)
  waiting : ∀ i aim, phase i = .idle aim → aim = target i
  aimed : ∀ i key, phase i = .holding key → target i = some key

@[simp] theorem spent_setStore (s : Shared ι) (flow : Flow) (store : Store flow.Quote) :
    spent target (s.setStore flow store) = spent target s := rfl

theorem stored_setStore {s : Shared ι} {flow : Flow} {store : Store flow.Quote}
    (out back : Multiset String) (h : out + store.ids ≤ back + (s.stores flow).ids) :
    out.map (Prod.mk flow) + (stored (s.setStore flow store) + spent target s) ≤
      back.map (Prod.mk flow) + (stored s + spent target s) := by
  have keys := Multiset.map_le_map (f := Prod.mk flow) h
  simp only [Multiset.map_add] at keys
  cases flow with
  | native =>
    calc out.map (Prod.mk .native) + (stored (s.setStore .native store) + spent target s)
        = out.map (Prod.mk .native) + store.ids.map (Prod.mk .native) +
            ((s.stores .web3).ids.map (Prod.mk .web3) + spent target s) := by
          rw [show stored (s.setStore .native store) = store.ids.map (Prod.mk .native) +
            (s.stores .web3).ids.map (Prod.mk .web3) from rfl]
          ac_rfl
      _ ≤ _ := add_le_add keys le_rfl
      _ = back.map (Prod.mk .native) + (stored s + spent target s) := by
          rw [stored]
          ac_rfl
  | web3 =>
    calc out.map (Prod.mk .web3) + (stored (s.setStore .web3 store) + spent target s)
        = out.map (Prod.mk .web3) + store.ids.map (Prod.mk .web3) +
            ((s.stores .native).ids.map (Prod.mk .native) + spent target s) := by
          rw [show stored (s.setStore .web3 store) = (s.stores .native).ids.map (Prod.mk .native) +
            store.ids.map (Prod.mk .web3) from rfl]
          ac_rfl
      _ ≤ _ := add_le_add keys le_rfl
      _ = back.map (Prod.mk .web3) + (stored s + spent target s) := by
          rw [stored]
          ac_rfl

theorem known_setStore {s : Shared ι} {flow : Flow} (store : Store flow.Quote)
    (h : ∀ id, (s.stores flow).Issued id → store.Issued id) (key : Key) (hkey : known s key) :
    known (s.setStore flow store) key := by
  obtain ⟨flow', id⟩ := key
  by_cases hflow : flow' = flow
  · subst hflow
    simpa [known, Shared.setStore] using h id hkey
  · simpa [known, Shared.setStore, hflow] using hkey

variable {target}

variable [DecidableEq ι]

/-- Setting one call's phase to one that holds nothing beside its target. -/
theorem Whereabouts.set {s s' : Shared ι} {phase : ι → Phase} {i : ι} {phase' : Phase}
    (h : Whereabouts target s phase)
    (exclusive : Exclusive (known s') (stored s' + spent target s')
      (Function.update (Phase.carries ∘ phase) i phase'.carries))
    (notIdle : ∀ aim, phase' ≠ .idle aim)
    (aimed : ∀ key, phase' = .holding key → target i = some key) :
    Whereabouts target s' (Function.update phase i phase') := by
  refine ⟨by rwa [Function.comp_update], ?_, ?_⟩
  · intro j aim hj
    by_cases hji : j = i
    · subst hji
      exact absurd (by simpa using hj) (notIdle aim)
    · exact h.waiting j aim (by simpa [hji] using hj)
  · intro j key hj
    by_cases hji : j = i
    · subst hji
      exact aimed key (by simpa using hj)
    · exact h.aimed j key (by simpa [hji] using hj)

variable {host : Host} {s : Shared ι} {phase : ι → Phase} {i : ι} {phase' : Phase}

theorem kept_nextId (h : Whereabouts target s phase) (flow : Flow) (now : Nat) :
    Whereabouts target (s.setStore flow ((s.stores flow).nextId now).2)
      (Function.update phase i (.named (flow, ((s.stores flow).nextId now).1))) := by
  refine h.set ?_ (by simp) (by simp)
  have same : stored (s.setStore flow ((s.stores flow).nextId now).2) +
      spent target (s.setStore flow ((s.stores flow).nextId now).2) =
      stored s + spent target s := by
    cases flow <;> rfl
  rw [same]
  refine h.exclusive.mint (known_setStore _ fun id hid => hid.after_nextId now)
    (Store.nextId_not_issued _ now) ?_
  simpa [known, Shared.setStore] using Store.nextId_issued (s.stores flow) now

/-- A call puts the key it carries into its store. -/
theorem kept_deposit (h : Whereabouts target s phase) {flow : Flow} {id : String}
    {store : Store flow.Quote} (carries : (phase i).carries = some (flow, id))
    (issued : ∀ id, store.Issued id ↔ (s.stores flow).Issued id)
    (ids : store.ids ≤ id ::ₘ (s.stores flow).ids) :
    Whereabouts target (s.setStore flow store) (Function.update phase i .finished) := by
  refine h.set ?_ (by simp) (by simp)
  have more := h.exclusive.lose (known_setStore store fun id => (issued id).mpr) le_rfl
  refine more.deposit carries ?_
  have keys := stored_setStore target 0 {id} (by simpa using ids)
  simpa using keys

theorem kept_take (h : Whereabouts target s phase) {flow : Flow} {quoteId : String}
    {caller : Option QuoteOwner} {now : Nat} {quote : flow.Quote} {remaining : Store flow.Quote}
    (taken : (s.stores flow).takeFor now quoteId caller = (.ok quote, remaining))
    (waits : phase i = .idle (some (flow, quoteId))) :
    Whereabouts target (s.setStore flow remaining)
      (Function.update phase i (.holding (flow, quoteId))) := by
  have more := h.exclusive.lose
    (known_setStore remaining fun _ => (Store.issued_of_takeFor taken).mpr) le_rfl
  refine h.set ?_ (by simp) ?_
  · have keys := stored_setStore target {quoteId} 0
      (by simpa using (Store.takeFor_ok taken).2.2.2)
    exact more.withdraw (by simpa using keys)
  · intro key hkey
    rw [← h.waiting i _ waits]
    simpa using hkey

theorem kept_refused (h : Whereabouts target s phase) {flow : Flow} {quoteId : String}
    {caller : Option QuoteOwner} {now : Nat} {message : String} {remaining : Store flow.Quote}
    (taken : (s.stores flow).takeFor now quoteId caller = (.error message, remaining)) :
    Whereabouts target (s.setStore flow remaining) (Function.update phase i .finished) := by
  have more := h.exclusive.lose
    (known_setStore remaining fun _ => (Store.issued_of_takeFor taken).mpr) le_rfl
  refine h.set ?_ (by simp) (by simp)
  have keys := stored_setStore target 0 0 (by simpa using Store.takeFor_error taken)
  exact (more.lose (fun _ => id) (by simpa using keys)).release i

theorem kept_accept (h : Whereabouts target s phase) {key : Key} (e : Request)
    (holds : phase i = .holding key) :
    Whereabouts target (s.accept i e) (Function.update phase i .finished) := by
  refine h.set ?_ (by simp) (by simp)
  have one : spent target (s.accept i e) = key ::ₘ spent target s := by
    simp [spent, Shared.accept, h.aimed i key holds]
  rw [one, Multiset.add_cons]
  exact h.exclusive.deposit (by simp [holds, Phase.carries]) le_rfl

/-- One answered request keeps every key in one place, as long as an accepted
broadcast is reported. -/
theorem whereabouts_kept {e : Request} {r : e.Answer} {s' : Shared ι}
    (h : Whereabouts target s phase)
    (served : Served (fun e r => reported host e r = true) s i e r s')
    (lives : Lives host (phase i) e r phase') :
    Whereabouts target s' (Function.update phase i phase') := by
  generalize hphase : phase i = before at lives
  cases lives with
  | stay _ _ _ neutral =>
    have apart : e.role ≠ .store := by rcases neutral with h | h <;> simp [h]
    have kept : e.role ≠ .broadcast := by rcases neutral with h | h <;> simp [h]
    rw [served_of_apart apart kept served, ← hphase, Function.update_eq_self]
    exact h
  | name flow id =>
    cases served with
    | nextId _ now => exact kept_nextId h flow now
    | accept _ _ sent => cases sent
    | other _ _ apart => simp [Request.role] at apart
  | store flow quote =>
    cases served with
    | insert _ _ now =>
      exact kept_deposit h (by rw [hphase]; rfl) (fun id => Store.insert_issued)
        (Store.insert_ids _ now quote)
    | accept _ _ sent => cases sent
    | other _ _ apart => simp [Request.role] at apart
  | restore flow quote =>
    cases served with
    | restore _ _ now later =>
      exact kept_deposit h (by rw [hphase]; rfl) (fun id => Store.restore_issued)
        (Store.restore_ids _ now later quote)
    | accept _ _ sent => cases sent
    | other _ _ apart => simp [Request.role] at apart
  | take flow id caller quote =>
    obtain ⟨now, remaining, taken, rfl⟩ := served_take served
    exact kept_take h taken hphase
  | refused flow id caller message =>
    obtain ⟨now, remaining, taken, rfl⟩ := served_take served
    exact kept_refused h taken
  | spend key _ _ sent done =>
    rcases served_of_broadcast sent served with ⟨rfl, _⟩ | rfl
    · exact kept_accept h e hphase
    · exact h.set (h.exclusive.release i) (by simp) (by simp)
  | missed key _ _ sent undone =>
    rcases served_of_broadcast sent served with ⟨_, done⟩ | rfl
    · rw [undone] at done
      cases done
    · rw [← hphase, Function.update_eq_self]
      exact h

end Whereabouts

theorem whereabouts_new (target : ι → Option Key) :
    Whereabouts target Shared.new fun i => .idle (target i) where
  exclusive := Exclusive.empty _ _ fun _ => rfl
  waiting := by simp
  aimed := by simp

/-- A store hands out the quote that was asked for. -/
theorem served_takesAsked {reports : (e : Request) → e.Answer → Prop} {s s' : Shared ι} {i : ι}
    {e : Request} {r : e.Answer} (served : Served reports s i e r s') :
    takesAsked e r := by
  cases served with
  | take flow quoteId caller now =>
    intro quote hquote
    exact (Store.takeFor_ok (Prod.ext hquote rfl)).2.1
  | accept _ _ sent _ => cases e <;> trivial
  | other _ _ apart => cases e <;> trivial
  | _ => trivial

theorem acceptedFor_eq_count (target : ι → Option Key) (s : Shared ι) (key : Key) :
    acceptedFor target s key = (spent target s).count key := by
  simp only [acceptedFor, spent]
  induction s.accepted with
  | nil => rfl
  | cons entry rest ih =>
    cases hentry : target entry.1 with
    | none => simpa [hentry] using ih
    | some other =>
      by_cases hkey : other = key
      · subst hkey
        simpa [hentry, ← Multiset.cons_coe] using ih
      · simpa [hentry, hkey, ← Multiset.cons_coe, Multiset.count_cons_of_ne (Ne.symm hkey)] using ih

/-- In every run in which each accepted broadcast is answered with a success its
chain module recognises, the network accepts at most one broadcast for a quote. -/
theorem accepted_at_most_once_when_reported [DecidableEq ι] (host : Host) (calls : ι → Call)
    {c : Config (Shared ι) ι Request Request.Answer (Failure String) Unit}
    (run : Reachable (Served fun e r => reported host e r = true) Shared.new
      (fun i => (calls i).program host) c) (key : Key) :
    acceptedFor (fun i => (calls i).target) c.shared key ≤ 1 := by
  obtain ⟨phase, _, _, h⟩ := reachable_invariant (lifecycle host) (fun i => .idle (calls i).target)
    (Whereabouts fun i => (calls i).target) (whereabouts_new _) (fun i => Call.follows (calls i))
    (fun _ _ _ _ _ _ _ served => served_takesAsked served)
    (fun _ _ _ _ _ _ _ h served hadv => whereabouts_kept h served hadv) run
  have once : (spent (fun i => (calls i).target) c.shared).Nodup :=
    Multiset.nodup_of_le (Multiset.le_add_left _ _) h.exclusive.once
  rw [acceptedFor_eq_count]
  exact Multiset.nodup_iff_count_le_one.mp once key

/-- A transfer of 1000 wei is prepared and then executed by two calls. -/
def retried : Fin 3 → Call
  | 0 => .prepareTransfer none
      ⟨.evm, "0x2222222222222222222222222222222222222222", "1000", none, none⟩
  | _ => .executePrepared none ⟨"q_1700000000000_1", true⟩

/-- A node that accepts the transaction with the pending nonce and no other. The
signed bytes stand for their nonce; `reply` answers the accepted broadcasts in
turn. -/
def node (reply : Nat → Except TransportError Json) (i : Fin 3) (s : Shared (Fin 3)) :
    (e : Request) → Option (e.Answer × Shared (Fin 3))
  | .now => some (sampleNow, s)
  | .nextId flow =>
    some (((s.stores flow).nextId sampleNow).1,
      s.setStore flow ((s.stores flow).nextId sampleNow).2)
  | .insert flow quote => some ((), s.setStore flow ((s.stores flow).insert sampleNow quote))
  | .restore flow quote =>
    some ((), s.setStore flow ((s.stores flow).restore sampleNow sampleNow quote))
  | .take flow quoteId caller =>
    some (((s.stores flow).takeFor sampleNow quoteId caller).1,
      s.setStore flow ((s.stores flow).takeFor sampleNow quoteId caller).2)
  | .accounts =>
    some (.ok ⟨true, [⟨.evm, "0x1111111111111111111111111111111111111111", "m/44'/60'/0'/0/0"⟩]⟩, s)
  | .signTransaction _ (.evm _ _ _ nonce _ _ _) => some (.ok ⟨hexQuantity nonce, none⟩, s)
  | .jsonRpc network method params =>
    if method = "eth_sendRawTransaction" then
      match params with
      | .array [.string raw] =>
        if raw = hexQuantity s.accepted.length then
          some (reply s.accepted.length, s.accept i (.jsonRpc network method params))
        else some (.error (.rpc network "nonce too low"), s)
      | _ => none
    else if method = "eth_chainId" then some (.ok (.string "0x1"), s)
    else if method = "eth_getTransactionCount" then
      some (.ok (.string (hexQuantity s.accepted.length)), s)
    else if method = "eth_gasPrice" then some (.ok (.string "0x3b9aca00"), s)
    else if method = "eth_estimateGas" then some (.ok (.string "0x5208"), s)
    else none
  | _ => none

theorem node_served {reports : (e : Request) → e.Answer → Prop}
    {reply : Nat → Except TransportError Json}
    (hreply : ∀ n network method params, reports (.jsonRpc network method params) (reply n))
    {i : Fin 3} (s : Shared (Fin 3)) (e : Request) (r : e.Answer) (s' : Shared (Fin 3))
    (h : node reply i s e = some (r, s')) : Served reports s i e r s' := by
  cases e with
  | now =>
    cases h
    exact .other _ _ _ _ (by simp [Request.role])
  | nextId flow =>
    cases h
    exact .nextId _ _ _ _
  | insert flow quote =>
    cases h
    exact .insert _ _ _ _ _
  | restore flow quote =>
    cases h
    exact .restore _ _ _ _ _ _
  | take flow quoteId caller =>
    cases h
    exact .take _ _ _ _ _ _
  | accounts =>
    cases h
    exact .other _ _ _ _ (by simp [Request.role])
  | signTransaction chain spec =>
    cases spec with
    | evm =>
      cases h
      exact .other _ _ _ _ (by simp [Request.role])
    | _ => cases h
  | jsonRpc network method params =>
    have apart : (Request.jsonRpc network method params).role ≠ .store := by
      simp only [Request.role]
      split <;> simp
    simp only [node] at h
    split at h
    · next hmethod =>
      split at h
      · split at h
        · cases h
          exact .accept _ _ _ _ (by simp [Request.role, hmethod]) (hreply _ _ _ _)
        · cases h
          exact .other _ _ _ _ apart
      · cases h
    · repeat' split at h
      all_goals first
        | cases h
          exact .other _ _ _ _ apart
        | cases h
  | _ => cases h

local instance threeCalls : NeZero 3 := ⟨by decide⟩

/-- The shared state after the three calls ran one after another. -/
def retriedState (reply : Nat → Except TransportError Json) : Shared (Fin 3) :=
  let prepared := (play (node reply 0) 20 Shared.new ((retried 0).program sampleHost)).1
  let executed := (play (node reply 1) 20 prepared ((retried 1).program sampleHost)).1
  (play (node reply 2) 20 executed ((retried 2).program sampleHost)).1

theorem retriedState_reachable (reports : (e : Request) → e.Answer → Prop)
    (reply : Nat → Except TransportError Json)
    (hreply : ∀ n network method params, reports (.jsonRpc network method params) (reply n)) :
    ∃ c, Reachable (Served reports) Shared.new (fun i => (retried i).program sampleHost) c ∧
      c.shared = retriedState reply := by
  obtain ⟨c₀, run₀, shared₀, _, others₀⟩ :=
    Reachable.play (node_served hreply (i := 0)) 20
      (Relation.ReflTransGen.refl (a := Config.initial Shared.new
        fun i => (retried i).program sampleHost))
  obtain ⟨c₁, run₁, shared₁, _, others₁⟩ := Reachable.play (node_served hreply (i := 1)) 20 run₀
  obtain ⟨c₂, run₂, shared₂, _, _⟩ := Reachable.play (node_served hreply (i := 2)) 20 run₁
  refine ⟨c₂, run₂, ?_⟩
  rw [shared₂, shared₁, shared₀, (others₁ 2 (by decide)).1, (others₀ 2 (by decide)).1,
    (others₀ 1 (by decide)).1]
  rfl

/-- Every broadcast of the prepared transfer is reported, and one is accepted. -/
theorem reported_transfer_accepted_once :
    ∃ c, Reachable (Served fun e r => reported sampleHost e r = true) Shared.new
        (fun i => (retried i).program sampleHost) c ∧
      c.shared.accepted.map Prod.fst = [1] ∧
      acceptedFor (fun i => (retried i).target) c.shared (.native, "q_1700000000000_1") ≤ 1 := by
  obtain ⟨c, run, shared⟩ := retriedState_reachable (fun e r => reported sampleHost e r = true)
    (fun _ => .ok (.string "0x9f86d081")) (fun _ _ _ _ => rfl)
  refine ⟨c, run, ?_, accepted_at_most_once_when_reported sampleHost retried run _⟩
  rw [shared]
  decide +kernel

/-- The first broadcast is accepted and times out, the quote goes back, and the
second execution signs for the next nonce and is accepted too. -/
theorem unreported_transfer_accepted_twice :
    ∃ c, Reachable (Served fun _ _ => True) Shared.new (fun i => (retried i).program sampleHost) c ∧
      acceptedFor (fun i => (retried i).target) c.shared (.native, "q_1700000000000_1") = 2 := by
  obtain ⟨c, run, shared⟩ := retriedState_reachable (fun _ _ => True)
    (fun n => if n = 0 then .error (.unreachable (.evm 1) "timed out")
      else .ok (.string "0x9f86d081")) (fun _ _ _ _ => trivial)
  refine ⟨c, run, ?_⟩
  rw [shared]
  decide +kernel

end Broadcasts

import TinyWallet.Engine.Requests

/-!
# The quote store

A short-lived, capped store of prepared quotes. `take_for` removes a quote
before its caller acts on it, and only for the owner it was prepared by;
`restore` puts a quote back with a fresh lifetime. Every operation reads the
clock itself, so the clock reading is an argument here. The id counter is
unbounded: a 64-bit counter does not wrap in the life of a process.
-/

namespace QuoteStore

open RustText Wire Engine

/-- What a store needs to know about a stored quote. -/
class Quoted (T : Type) where
  quoteId : T → String
  owner : T → Option QuoteOwner
  expiresAtMs : T → Nat
  setExpiresAtMs : T → Nat → T
  isConsumed : T → Bool
  quoteId_setExpiresAtMs : ∀ quote ms, quoteId (setExpiresAtMs quote ms) = quoteId quote
  setExpiresAtMs_twice : ∀ quote ms ms',
    setExpiresAtMs (setExpiresAtMs quote ms) ms' = setExpiresAtMs quote ms'

instance : Quoted PreparedTransferQuote where
  quoteId quote := quote.transaction.quoteId
  owner quote := quote.owner
  expiresAtMs quote := quote.transaction.expiresAtMs
  setExpiresAtMs quote ms := { quote with transaction.expiresAtMs := ms }
  isConsumed quote := quote.transaction.status = .consumed
  quoteId_setExpiresAtMs _ _ := rfl
  setExpiresAtMs_twice _ _ _ := rfl

instance : Quoted StoredQuote where
  quoteId quote := quote.quoteId
  owner quote := quote.owner
  expiresAtMs quote := quote.expiresAtMs
  setExpiresAtMs quote ms := { quote with expiresAtMs := ms }
  isConsumed _ := false
  quoteId_setExpiresAtMs _ _ := rfl
  setExpiresAtMs_twice _ _ _ := rfl

instance (flow : Flow) : Quoted flow.Quote :=
  match flow with
  | .native => inferInstanceAs (Quoted PreparedTransferQuote)
  | .web3 => inferInstanceAs (Quoted StoredQuote)

structure Store (T : Type) where
  idPrefix : String
  ttlMs : Nat
  cap : Nat
  counter : Nat
  quotes : List T

variable {T : Type}

namespace Store

def new (idPrefix : String) (ttlMs cap : Nat) : Store T := ⟨idPrefix, ttlMs, cap, 1, []⟩

/-- `<prefix>_<now_ms>_<counter>`. -/
def idText (idPrefix : String) (now counter : Nat) : String :=
  idPrefix ++ "_" ++ toString now ++ "_" ++ toString counter

def nextId (store : Store T) (now : Nat) : String × Store T :=
  (idText store.idPrefix now store.counter, { store with counter := store.counter + 1 })

/-- Some `next_id` of this store has returned `id`. -/
def Issued (store : Store T) (id : String) : Prop :=
  ∃ now n, n < store.counter ∧ id = idText store.idPrefix now n

theorem idText_counter {p : String} {now now' n n' : Nat} (h : idText p now n = idText p now' n') :
    n = n' := by
  have digits : Nat.toDigits 10 now ++ '_' :: Nat.toDigits 10 n =
      Nat.toDigits 10 now' ++ '_' :: Nat.toDigits 10 n' := by
    simpa [idText, Nat.toList_repr] using congrArg String.toList h
  have same := ((List.append_cons_inj_of_notMem Nat.underscore_not_in_toDigits
    Nat.underscore_not_in_toDigits).mp digits).2.2
  simpa [Nat.ofDigitChars_ten_toDigits] using congrArg (Nat.ofDigitChars 10 · 0) same

theorem nextId_not_issued (store : Store T) (now : Nat) : ¬store.Issued (store.nextId now).1 := by
  rintro ⟨now', n, hn, h⟩
  exact absurd (idText_counter h) (by omega)

theorem nextId_issued (store : Store T) (now : Nat) :
    (store.nextId now).2.Issued (store.nextId now).1 :=
  ⟨now, store.counter, Nat.lt_succ_self _, rfl⟩

theorem Issued.after_nextId {store : Store T} {id : String} (h : store.Issued id) (now : Nat) :
    (store.nextId now).2.Issued id := by
  obtain ⟨now', n, hn, rfl⟩ := h
  exact ⟨now', n, Nat.lt_succ_of_lt hn, rfl⟩

variable [Quoted T]

def isLive (now : Nat) (quote : T) : Bool :=
  decide (now < Quoted.expiresAtMs quote) && !Quoted.isConsumed quote

/-- Expired and consumed quotes are dropped, and the oldest when it is full. -/
def insert (store : Store T) (now : Nat) (quote : T) : Store T :=
  let kept := store.quotes.filter (isLive now)
  let kept := if store.cap ≤ kept.length then kept.drop 1 else kept
  { store with quotes := kept ++ [quote] }

/-- The clock is read for the new lifetime and again by the insertion. -/
def restore (store : Store T) (now later : Nat) (quote : T) : Store T :=
  store.insert later (Quoted.setExpiresAtMs quote (min (now + store.ttlMs) (2 ^ 64 - 1)))

def notFound (quoteId : String) : String := "quote '" ++ quoteId ++ "' not found"

/-- How a quote that was found for its owner is refused. -/
def refusal (now : Nat) (quoteId : String) (quote : T) : Option String :=
  if Quoted.isConsumed quote then some ("quote '" ++ quoteId ++ "' already executed")
  else if Quoted.expiresAtMs quote ≤ now then some ("quote '" ++ quoteId ++ "' expired")
  else none

/-- The owner check comes before the quote is removed. -/
def takeFor (store : Store T) (now : Nat) (quoteId : String) (caller : Option QuoteOwner) :
    Except String T × Store T :=
  match store.quotes.findIdx? (fun quote => Quoted.quoteId quote = quoteId) with
  | none => (.error (notFound quoteId), store)
  | some pos =>
    match store.quotes[pos]? with
    | none => (.error (notFound quoteId), store)
    | some quote =>
      if Quoted.owner quote ≠ caller then (.error (notFound quoteId), store)
      else
        let remaining := { store with quotes := store.quotes.eraseIdx pos }
        match refusal now quoteId quote with
        | some message => (.error message, remaining)
        | none => (.ok quote, remaining)

def getFor (store : Store T) (now : Nat) (quoteId : String) (caller : Option QuoteOwner) :
    Except String T :=
  match store.quotes.find? (fun quote => Quoted.quoteId quote = quoteId) with
  | none => .error (notFound quoteId)
  | some quote =>
    if Quoted.owner quote ≠ caller then .error (notFound quoteId)
    else match refusal now quoteId quote with
      | some message => .error message
      | none => .ok quote

def ids (store : Store T) : Multiset String := store.quotes.map Quoted.quoteId

theorem insert_ids (store : Store T) (now : Nat) (quote : T) :
    (store.insert now quote).ids ≤ Quoted.quoteId quote ::ₘ store.ids := by
  have kept : (if store.cap ≤ (store.quotes.filter (isLive now)).length then
      (store.quotes.filter (isLive now)).drop 1 else store.quotes.filter (isLive now)).Sublist
      store.quotes := by
    split
    · exact (List.drop_sublist ..).trans List.filter_sublist
    · exact List.filter_sublist
  simp only [ids, insert, List.map_append, List.map_cons, List.map_nil, Multiset.cons_coe,
    Multiset.coe_le]
  refine (List.perm_append_singleton _ _).subperm.trans ?_
  exact (List.subperm_cons _).mpr (kept.map _).subperm

theorem restore_ids (store : Store T) (now later : Nat) (quote : T) :
    (store.restore now later quote).ids ≤ Quoted.quoteId quote ::ₘ store.ids := by
  have h := insert_ids store later
    (Quoted.setExpiresAtMs quote (min (now + store.ttlMs) (2 ^ 64 - 1)))
  rwa [Quoted.quoteId_setExpiresAtMs] at h

/-- A quote that is handed out was stored under the id asked for, by the caller,
and has left the store; a refusal can only shrink the store. -/
theorem takeFor_cases (store : Store T) (now : Nat) (quoteId : String)
    (caller : Option QuoteOwner) :
    (∃ message remaining, store.takeFor now quoteId caller = (.error message, remaining) ∧
      remaining.ids ≤ store.ids) ∨
    (∃ quote remaining, store.takeFor now quoteId caller = (.ok quote, remaining) ∧
      quote ∈ store.quotes ∧ Quoted.quoteId quote = quoteId ∧ Quoted.owner quote = caller ∧
      quoteId ::ₘ remaining.ids ≤ store.ids) := by
  unfold takeFor
  cases found : store.quotes.findIdx? (fun quote => Quoted.quoteId quote = quoteId) with
  | none => exact .inl ⟨_, _, rfl, le_rfl⟩
  | some pos =>
    obtain ⟨hlt, hid, _⟩ := List.findIdx?_eq_some_iff_getElem.mp found
    have hid := of_decide_eq_true hid
    simp only [List.getElem?_eq_getElem hlt]
    have erased : (store.quotes.eraseIdx pos).Sublist store.quotes := List.eraseIdx_sublist ..
    have taken : (quoteId :: (store.quotes.eraseIdx pos).map Quoted.quoteId).Perm
        (store.quotes.map Quoted.quoteId) := by
      have h := (List.getElem_cons_eraseIdx_perm hlt).map Quoted.quoteId
      rwa [List.map_cons, hid] at h
    by_cases howner : Quoted.owner store.quotes[pos] = caller
    · rw [if_neg (not_not.mpr howner)]
      cases refusal now quoteId store.quotes[pos] with
      | some message => exact .inl ⟨_, _, rfl, (erased.map _).subperm⟩
      | none =>
        exact .inr ⟨_, _, rfl, List.getElem_mem hlt, hid, howner, taken.subperm⟩
    · rw [if_pos howner]
      exact .inl ⟨_, _, rfl, le_rfl⟩

theorem takeFor_ok {store remaining : Store T} {now : Nat} {quoteId : String}
    {caller : Option QuoteOwner} {quote : T}
    (h : store.takeFor now quoteId caller = (.ok quote, remaining)) :
    quote ∈ store.quotes ∧ Quoted.quoteId quote = quoteId ∧ Quoted.owner quote = caller ∧
      quoteId ::ₘ remaining.ids ≤ store.ids := by
  rcases store.takeFor_cases now quoteId caller with ⟨message, _, htake, _⟩ | ⟨_, _, htake, facts⟩
  · rw [h] at htake
    cases htake
  · rw [h] at htake
    cases htake
    exact facts

theorem takeFor_error {store remaining : Store T} {now : Nat} {quoteId message : String}
    {caller : Option QuoteOwner}
    (h : store.takeFor now quoteId caller = (.error message, remaining)) :
    remaining.ids ≤ store.ids := by
  rcases store.takeFor_cases now quoteId caller with ⟨_, _, htake, fewer⟩ | ⟨_, _, htake, _⟩
  · rw [h] at htake
    cases htake
    exact fewer
  · rw [h] at htake
    cases htake

theorem takeFor_subset {store remaining : Store T} {now : Nat} {quoteId : String}
    {caller : Option QuoteOwner} {answer : Except String T}
    (h : store.takeFor now quoteId caller = (answer, remaining)) :
    ∀ quote ∈ remaining.quotes, quote ∈ store.quotes := by
  intro quote hmem
  unfold takeFor at h
  split at h
  · cases h
    exact hmem
  · split at h
    · cases h
      exact hmem
    · split at h
      · cases h
        exact hmem
      · split at h <;> cases h <;> exact (List.eraseIdx_sublist ..).subset hmem

theorem getFor_ok {store : Store T} {now : Nat} {quoteId : String} {caller : Option QuoteOwner}
    {quote : T} (h : store.getFor now quoteId caller = .ok quote) :
    quote ∈ store.quotes ∧ Quoted.quoteId quote = quoteId ∧ Quoted.owner quote = caller := by
  unfold getFor at h
  split at h
  · cases h
  · next found hfound =>
    split at h
    · cases h
    · next howner =>
      split at h
      · cases h
      · cases h
        have hid := List.find?_some hfound
        exact ⟨List.mem_of_find?_eq_some hfound, of_decide_eq_true hid, not_not.mp howner⟩

theorem insert_mem {store : Store T} {now : Nat} {quote quote' : T}
    (h : quote' ∈ (store.insert now quote).quotes) : quote' ∈ store.quotes ∨ quote' = quote := by
  simp only [insert, List.mem_append, List.mem_singleton] at h
  rcases h with h | h
  · refine .inl ?_
    split at h
    · exact List.mem_of_mem_filter (List.mem_of_mem_drop h)
    · exact List.mem_of_mem_filter h
  · exact .inr h

/-- A quote without its lifetime. -/
def content (quote : T) : T := Quoted.setExpiresAtMs quote 0

theorem restore_mem {store : Store T} {now later : Nat} {quote quote' : T}
    (h : quote' ∈ (store.restore now later quote).quotes) :
    quote' ∈ store.quotes ∨
      Quoted.quoteId quote' = Quoted.quoteId quote ∧ content quote' = content quote := by
  rcases insert_mem h with h | rfl
  · exact .inl h
  · exact .inr ⟨Quoted.quoteId_setExpiresAtMs .., Quoted.setExpiresAtMs_twice ..⟩

@[simp] theorem insert_issued {store : Store T} {now : Nat} {quote : T} {id : String} :
    (store.insert now quote).Issued id ↔ store.Issued id := Iff.rfl

@[simp] theorem restore_issued {store : Store T} {now later : Nat} {quote : T} {id : String} :
    (store.restore now later quote).Issued id ↔ store.Issued id := Iff.rfl

theorem issued_of_takeFor {store remaining : Store T} {now : Nat} {quoteId : String}
    {caller : Option QuoteOwner} {answer : Except String T} {id : String}
    (h : store.takeFor now quoteId caller = (answer, remaining)) :
    remaining.Issued id ↔ store.Issued id := by
  unfold takeFor at h
  split at h
  · cases h
    rfl
  · split at h
    · cases h
      rfl
    · split at h
      · cases h
        rfl
      · split at h <;> cases h <;> rfl

end Store

end QuoteStore

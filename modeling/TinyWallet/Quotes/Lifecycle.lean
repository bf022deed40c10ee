import TinyWallet.Library.Custody
import TinyWallet.Quotes.Store

/-!
# The life of a stored quote

Any number of callers use one store. Each hand of a caller is empty, has an id
for a quote that is still to be stored, is in the middle of an insertion, or has
taken a quote out. Insertions read the clock before they take the lock, so other
operations may come between; every other operation is one step.

A quote is in one place at a time: in the store or in one hand.
-/

namespace QuoteLifecycle

open RustText Wire Engine QuoteStore QuoteStore.Store Custody

variable {T ι : Type} [Quoted T]

/-- What one caller is doing. -/
inductive Hand (T : Type) where
  | empty
  | named (id : String)
  /-- An insertion, with the clock once it has been read. -/
  | inserting (quote : T) (now : Option Nat)
  | taken (quote : T)

/-- The id a hand carries. -/
def Hand.id : Hand T → Option String
  | .empty => none
  | .named id => some id
  | .inserting quote _ => some (Quoted.quoteId quote)
  | .taken quote => some (Quoted.quoteId quote)

/-- A quote was stored, by an insertion or a restoration, or taken. -/
inductive Event where
  | put (id : String)
  | took (id : String)

structure State (T ι : Type) where
  store : Store T
  clock : Nat
  hands : ι → Hand T
  /-- Newest first. -/
  history : List Event

def State.initial (idPrefix : String) (ttlMs cap : Nat) (clock : Nat) : State T ι :=
  ⟨.new idPrefix ttlMs cap, clock, fun _ => .empty, []⟩

variable [DecidableEq ι]

def State.hand (s : State T ι) (i : ι) (hand : Hand T) : State T ι :=
  { s with hands := Function.update s.hands i hand }

/-- One step of hand `i`, or of the clock. -/
inductive Step (s : State T ι) : State T ι → Prop
  | tick (now : Nat) (later : s.clock ≤ now) : Step s { s with clock := now }
  | nextId (i : ι) (now : Nat) (free : s.hands i = .empty) :
      Step s { s.hand i (.named (s.store.nextId now).1) with store := (s.store.nextId now).2 }
  /-- A caller may forget an id, or use up a quote it has taken. -/
  | drop (i : ι) : Step s (s.hand i .empty)
  | callInsert (i : ι) (quote : T) (mine : s.hands i = .named (Quoted.quoteId quote)) :
      Step s (s.hand i (.inserting quote none))
  | callRestore (i : ι) (quote : T) (mine : s.hands i = .taken quote) :
      Step s (s.hand i (.inserting
        (Quoted.setExpiresAtMs quote (min (s.clock + s.store.ttlMs) (2 ^ 64 - 1))) none))
  | readClock (i : ι) (quote : T) (mine : s.hands i = .inserting quote none) :
      Step s (s.hand i (.inserting quote (some s.clock)))
  | insert (i : ι) (quote : T) (now : Nat) (mine : s.hands i = .inserting quote (some now)) :
      Step s { s.hand i .empty with
        store := s.store.insert now quote
        history := .put (Quoted.quoteId quote) :: s.history }
  | take (i : ι) (quoteId : String) (caller : Option QuoteOwner) (quote : T) (remaining : Store T)
      (free : s.hands i = .empty)
      (found : s.store.takeFor s.clock quoteId caller = (.ok quote, remaining)) :
      Step s { s.hand i (.taken quote) with
        store := remaining
        history := .took quoteId :: s.history }
  | refused (quoteId : String) (caller : Option QuoteOwner) (message : String)
      (remaining : Store T)
      (found : s.store.takeFor s.clock quoteId caller = (.error message, remaining)) :
      Step s { s with store := remaining }
  /-- `get_for` and `live` look and change nothing. -/
  | look : Step s s

def Reaches (s t : State T ι) : Prop := Relation.ReflTransGen Step s t

/-- The last event of an id is that it was stored. -/
def Ready (history : List Event) (id : String) : Prop :=
  ∃ after before, history = after ++ .put id :: before ∧ .took id ∉ after

/-- Every taking of an id answers a storing of its own. -/
def Answered (history : List Event) : Prop :=
  ∀ after before id, history = after ++ .took id :: before → Ready before id

theorem ready_put (history : List Event) (id : String) : Ready (.put id :: history) id :=
  ⟨[], history, rfl, by simp⟩

theorem Ready.cons {history : List Event} {id : String} (h : Ready history id) {event : Event}
    (other : event ≠ .took id) : Ready (event :: history) id := by
  obtain ⟨after, before, rfl, hafter⟩ := h
  refine ⟨event :: after, before, rfl, ?_⟩
  rw [List.mem_cons, not_or]
  exact ⟨fun h => other h.symm, hafter⟩

theorem Answered.put {history : List Event} (h : Answered history) (id : String) :
    Answered (.put id :: history) := by
  intro after before other heq
  cases after with
  | nil => cases heq
  | cons event after =>
    rw [List.cons_append, List.cons.injEq] at heq
    exact h after before other heq.2

theorem Answered.took {history : List Event} (h : Answered history) {id : String}
    (ready : Ready history id) : Answered (.took id :: history) := by
  intro after before other heq
  cases after with
  | nil =>
    cases heq
    exact ready
  | cons event after =>
    rw [List.cons_append, List.cons.injEq] at heq
    exact h after before other heq.2

structure Inv (cap : Nat) (s : State T ι) : Prop where
  capped : s.store.quotes.length ≤ cap
  capacity : s.store.cap = cap
  custody : Exclusive s.store.Issued s.store.ids fun i => (s.hands i).id
  ready : ∀ id ∈ s.store.ids, Ready s.history id
  answered : Answered s.history

omit [DecidableEq ι] in
theorem inv_initial (idPrefix : String) (ttlMs cap clock : Nat) :
    Inv cap (State.initial idPrefix ttlMs cap clock : State T ι) := by
  refine ⟨Nat.zero_le _, rfl, Exclusive.empty _ _ fun _ => rfl, ?_, ?_⟩
  · intro id hid
    simp [State.initial, Store.new, ids] at hid
  · intro after before id heq
    simp [State.initial] at heq

theorem insert_length {store : Store T} {now : Nat} {quote : T} (hcap : 1 ≤ store.cap)
    (h : store.quotes.length ≤ store.cap) :
    (store.insert now quote).quotes.length ≤ store.cap := by
  have hkept : (store.quotes.filter (isLive now)).length ≤ store.quotes.length :=
    List.length_filter_le _ _
  simp only [Store.insert, List.length_append, List.length_cons, List.length_nil]
  split
  · rw [List.length_drop]
    omega
  · omega

theorem length_of_ids_le {store store' : Store T} (h : store'.ids ≤ store.ids) :
    store'.quotes.length ≤ store.quotes.length := by
  have hcard := Multiset.card_le_card h
  simpa [ids] using hcard

theorem takeFor_cap {store remaining : Store T} {now : Nat} {quoteId : String}
    {caller : Option QuoteOwner} {answer : Except String T}
    (h : store.takeFor now quoteId caller = (answer, remaining)) : remaining.cap = store.cap := by
  simp only [takeFor] at h
  split at h
  · cases h
    rfl
  · split at h
    · cases h
      rfl
    · split at h
      · cases h
        rfl
      · split at h
        · cases h
          rfl
        · cases h
          rfl

/-- The ids carried after one hand has changed. -/
theorem hand_ids (s : State T ι) (i : ι) (hand : Hand T) :
    (fun j => ((s.hand i hand).hands j).id) =
      Function.update (fun j => (s.hands j).id) i hand.id := by
  funext j
  by_cases hj : j = i
  · subst hj
    simp [State.hand]
  · simp [State.hand, hj]

/-- A hand that goes on with the same id. -/
theorem hand_same_id {s : State T ι} {i : ι} {hand : Hand T} (h : hand.id = (s.hands i).id) :
    (fun j => ((s.hand i hand).hands j).id) = fun j => (s.hands j).id := by
  rw [hand_ids, h]
  exact Function.update_eq_self i _

theorem inv_step {cap : Nat} (hcap : 1 ≤ cap) {s t : State T ι} (h : Inv cap s)
    (step : Step s t) : Inv cap t := by
  cases step with
  | tick now later => exact ⟨h.capped, h.capacity, h.custody, h.ready, h.answered⟩
  | look => exact h
  | nextId i now free =>
    refine ⟨h.capped, h.capacity, ?_, h.ready, h.answered⟩
    have hminted := h.custody.mint (i := i) (fun _ hissued => Issued.after_nextId hissued now)
      (nextId_not_issued s.store now) (nextId_issued s.store now)
    rw [← show (Hand.named (s.store.nextId now).1 : Hand T).id = some (s.store.nextId now).1 from
      rfl, ← hand_ids] at hminted
    exact hminted
  | drop i =>
    refine ⟨h.capped, h.capacity, ?_, h.ready, h.answered⟩
    have hdropped := h.custody.release i
    rw [← show (Hand.empty : Hand T).id = none from rfl, ← hand_ids] at hdropped
    exact hdropped
  | callInsert i quote mine =>
    refine ⟨h.capped, h.capacity, ?_, h.ready, h.answered⟩
    rw [hand_same_id (by rw [mine]; rfl)]
    exact h.custody
  | callRestore i quote mine =>
    refine ⟨h.capped, h.capacity, ?_, h.ready, h.answered⟩
    rw [hand_same_id (by rw [mine]; exact congrArg some (Quoted.quoteId_setExpiresAtMs ..))]
    exact h.custody
  | readClock i quote mine =>
    refine ⟨h.capped, h.capacity, ?_, h.ready, h.answered⟩
    rw [hand_same_id (by rw [mine]; rfl)]
    exact h.custody
  | insert i quote now mine =>
    have hstored := insert_ids s.store now quote
    refine ⟨?_, h.capacity, ?_, ?_, h.answered.put _⟩
    · have hlength := @insert_length _ _ s.store now quote (by rw [h.capacity]; exact hcap)
        (by rw [h.capacity]; exact h.capped)
      rw [h.capacity] at hlength
      exact hlength
    · have hcarried : (s.hands i).id = some (Quoted.quoteId quote) := by rw [mine]; rfl
      have hdeposited := h.custody.deposit hcarried hstored
      rw [← show (Hand.empty : Hand T).id = none from rfl, ← hand_ids] at hdeposited
      exact hdeposited
    · intro id hid
      rcases Multiset.mem_cons.mp (Multiset.mem_of_le hstored hid) with rfl | hold
      · exact ready_put _ _
      · exact (h.ready id hold).cons (by simp)
  | take i quoteId caller quote remaining free found =>
    obtain ⟨-, hid, -, hleft⟩ := takeFor_ok found
    have hfewer : remaining.ids ≤ s.store.ids := (Multiset.le_cons_self _ _).trans hleft
    have hstored : quoteId ∈ s.store.ids :=
      Multiset.mem_of_le hleft (Multiset.mem_cons_self _ _)
    have hgone : quoteId ∉ remaining.ids :=
      (Multiset.nodup_cons.mp (Multiset.nodup_of_le hleft h.custody.once)).1
    refine ⟨(length_of_ids_le hfewer).trans h.capped, (takeFor_cap found).trans h.capacity, ?_,
      ?_, h.answered.took (h.ready quoteId hstored)⟩
    · have htaken := (h.custody.withdraw (i := i) hleft).lose
        (fun id hissued => (issued_of_takeFor found).mpr hissued) le_rfl
      rw [← hid, ← show (Hand.taken quote).id = some (Quoted.quoteId quote) from rfl,
        ← hand_ids] at htaken
      exact htaken
    · intro id hmem
      refine (h.ready id (Multiset.mem_of_le hfewer hmem)).cons fun heq => ?_
      cases heq
      exact hgone hmem
  | refused quoteId caller message remaining found =>
    have hfewer := takeFor_error found
    refine ⟨(length_of_ids_le hfewer).trans h.capped, (takeFor_cap found).trans h.capacity, ?_,
      fun id hmem => h.ready id (Multiset.mem_of_le hfewer hmem), h.answered⟩
    exact h.custody.lose (fun id hissued => (issued_of_takeFor found).mpr hissued) hfewer

theorem inv_reaches {cap : Nat} (hcap : 1 ≤ cap) {s t : State T ι} (h : Inv cap s)
    (reach : Reaches s t) : Inv cap t := by
  induction reach with
  | refl => exact h
  | tail _ step ih => exact inv_step hcap ih step

/-- Taking and looking answer alike. -/
theorem takeFor_answer (store : Store T) (now : Nat) (quoteId : String)
    (caller : Option QuoteOwner) :
    (store.takeFor now quoteId caller).1 = store.getFor now quoteId caller := by
  simp only [takeFor, getFor, List.find?_eq_bind_findIdx?_getElem?]
  cases found : store.quotes.findIdx? (fun quote => Quoted.quoteId quote = quoteId) with
  | none => rfl
  | some pos =>
    simp only [Option.bind_some]
    cases store.quotes[pos]? with
    | none => rfl
    | some quote =>
      by_cases howner : Quoted.owner quote = caller
      · simp only [ne_eq, howner, not_true_eq_false, if_false]
        cases refusal now quoteId quote with
        | some message => rfl
        | none => rfl
      · simp only [ne_eq, howner, not_false_eq_true, if_true]

/-- The store without one quote. -/
def without (store : Store T) (quote : T) : Store T :=
  { store with
    quotes := store.quotes.filter fun other => Quoted.quoteId other ≠ Quoted.quoteId quote }

theorem find?_without_of_ne {store : Store T} {quote : T} {quoteId : String}
    (h : Quoted.quoteId quote ≠ quoteId) :
    (without store quote).quotes.find? (fun other => Quoted.quoteId other = quoteId) =
      store.quotes.find? (fun other => Quoted.quoteId other = quoteId) := by
  rw [without, List.find?_filter]
  congr 1
  funext other
  by_cases hother : Quoted.quoteId other = quoteId
  · simp [hother, h.symm]
  · simp [hother]

theorem find?_without_self (store : Store T) (quote : T) :
    (without store quote).quotes.find?
      (fun other => Quoted.quoteId other = Quoted.quoteId quote) = none := by
  rw [List.find?_eq_none]
  intro other hother
  have hne := (List.mem_filter.mp hother).2
  simpa using hne

/-- In a store with distinct ids, a quote is what its id finds. -/
theorem find?_of_mem {quotes : List T} (distinct : (quotes.map Quoted.quoteId).Nodup) {quote : T}
    (stored : quote ∈ quotes) :
    quotes.find? (fun other => Quoted.quoteId other = Quoted.quoteId quote) = some quote := by
  induction quotes with
  | nil => simp at stored
  | cons first rest ih =>
    rw [List.map_cons, List.nodup_cons] at distinct
    rcases List.mem_cons.mp stored with rfl | hrest
    · simp
    · have hne : Quoted.quoteId first ≠ Quoted.quoteId quote := by
        intro heq
        exact distinct.1 (heq ▸ List.mem_map_of_mem hrest)
      rw [List.find?_cons_of_neg (by simpa using hne)]
      exact ih distinct.2 hrest

/-- A quote of somebody else is as good as absent. -/
theorem getFor_without {store : Store T} (distinct : (store.quotes.map Quoted.quoteId).Nodup)
    {quote : T} (stored : quote ∈ store.quotes) {caller : Option QuoteOwner}
    (foreign : Quoted.owner quote ≠ caller) (now : Nat) (quoteId : String) :
    store.getFor now quoteId caller = (without store quote).getFor now quoteId caller := by
  by_cases hid : Quoted.quoteId quote = quoteId
  · subst hid
    rw [getFor, getFor, find?_of_mem distinct stored, find?_without_self]
    simp only [ne_eq, foreign, not_false_eq_true, if_true]
  · rw [getFor, getFor, find?_without_of_ne hid]

theorem takeFor_foreign {store : Store T} (distinct : (store.quotes.map Quoted.quoteId).Nodup)
    {quote : T} (stored : quote ∈ store.quotes) {caller : Option QuoteOwner}
    (foreign : Quoted.owner quote ≠ caller) (now : Nat) :
    (store.takeFor now (Quoted.quoteId quote) caller).2 = store := by
  have hfound := find?_of_mem distinct stored
  rw [List.find?_eq_bind_findIdx?_getElem?] at hfound
  obtain ⟨pos, hpos, hquote⟩ := Option.bind_eq_some_iff.mp hfound
  simp only [takeFor, hpos, hquote, ne_eq, foreign, not_false_eq_true, if_true]

theorem refusal_none {now : Nat} {quoteId : String} {quote : T}
    (h : refusal now quoteId quote = none) : now < Quoted.expiresAtMs quote := by
  simp only [refusal] at h
  split at h
  · cases h
  · split at h
    · cases h
    · next hlate => exact Nat.not_le.mp hlate

theorem getFor_live {store : Store T} {now : Nat} {quoteId : String} {caller : Option QuoteOwner}
    {quote : T} (h : store.getFor now quoteId caller = .ok quote) :
    Quoted.owner quote = caller ∧ now < Quoted.expiresAtMs quote := by
  refine ⟨(getFor_ok h).2.2, ?_⟩
  simp only [getFor] at h
  split at h
  · cases h
  · split at h
    · cases h
    · split at h
      · cases h
      · next hrefusal =>
        cases h
        exact refusal_none hrefusal

/-- However the callers interleave, the store keeps its bound and its ids apart,
hands out each stored quote at most once, to its owner and before it expires,
and tells nobody about the quotes of others. -/
theorem store_keeps_its_rules (idPrefix : String) (ttlMs cap clock : Nat) (hcap : 1 ≤ cap)
    {state : State T ι} (reach : Reaches (State.initial idPrefix ttlMs cap clock) state) :
    state.store.quotes.length ≤ cap ∧
      (state.store.quotes.map Quoted.quoteId).Nodup ∧
      Answered state.history ∧
      (∀ now quoteId caller quote remaining,
        state.store.takeFor now quoteId caller = (.ok quote, remaining) →
          Quoted.owner quote = caller ∧ now < Quoted.expiresAtMs quote) ∧
      (∀ now quoteId caller quote, state.store.getFor now quoteId caller = .ok quote →
        Quoted.owner quote = caller ∧ now < Quoted.expiresAtMs quote) ∧
      ∀ quote ∈ state.store.quotes, ∀ caller, Quoted.owner quote ≠ caller → ∀ now,
        (∀ quoteId,
          (state.store.takeFor now quoteId caller).1 =
              ((without state.store quote).takeFor now quoteId caller).1 ∧
            state.store.getFor now quoteId caller =
              (without state.store quote).getFor now quoteId caller) ∧
        (state.store.takeFor now (Quoted.quoteId quote) caller).2 = state.store := by
  have hinv := inv_reaches hcap (inv_initial idPrefix ttlMs cap clock) reach
  have hdistinct : (state.store.quotes.map Quoted.quoteId).Nodup :=
    Multiset.coe_nodup.mp hinv.custody.once
  refine ⟨hinv.capped, hdistinct, hinv.answered, ?_, ?_, ?_⟩
  · intro now quoteId caller quote remaining htake
    have hanswer := takeFor_answer state.store now quoteId caller
    rw [htake] at hanswer
    exact getFor_live hanswer.symm
  · intro now quoteId caller quote hget
    exact getFor_live hget
  · intro quote hstored caller hforeign now
    refine ⟨fun quoteId => ?_, takeFor_foreign hdistinct hstored hforeign now⟩
    have hget := getFor_without hdistinct hstored hforeign now quoteId
    rw [takeFor_answer, takeFor_answer]
    exact ⟨hget, hget⟩

/-- One quote, named, stored and taken. -/
def sampleQuote : StoredQuote where
  quoteId := "quote_7_1"
  kind := .swap
  unsigned := .solana "00"
  summary := .null
  owner := none
  expiresAtMs := 10

theorem sample_store_keeps_its_rules :
    ∃ state : State StoredQuote Unit, Reaches (State.initial "quote" 3 1 7) state ∧
      state.history = [.took "quote_7_1", .put "quote_7_1"] ∧ Answered state.history := by
  have hid : (Hand.named (Store.idText "quote" 7 1) : Hand StoredQuote) = .named "quote_7_1" :=
    congrArg Hand.named (by decide)
  have hreach : Reaches (State.initial "quote" 3 1 7 : State StoredQuote Unit) _ :=
    (((((Relation.ReflTransGen.refl.tail (.nextId () 7 rfl)).tail
      (.callInsert () sampleQuote hid)).tail (.readClock () sampleQuote rfl)).tail
      (.insert () sampleQuote 7 rfl)).tail (.take () "quote_7_1" none sampleQuote _ rfl rfl))
  exact ⟨_, hreach, rfl, (store_keeps_its_rules "quote" 3 1 7 (by decide) hreach).2.2.1⟩

end QuoteLifecycle

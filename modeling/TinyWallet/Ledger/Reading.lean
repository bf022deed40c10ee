import TinyWallet.Ledger.Storage

/-!
# Reading the stream to its end

Windows are read while others append. Whatever they do, a reading that ends has
read a segment that was, at one instant, everything from where it began to the
end of the stream.
-/

namespace LedgerReading

open Programs Sharing LedgerRecords LedgerStore LedgerStorage

variable {P ι γ : Type} [DecidableEq P]

def recordsOf (entries : List (Option StoredPayment)) : List PaymentRecord :=
  (entries.filterMap parsed).map Prod.fst

/-- The holds that entries commit. -/
def keysOf (entries : List (Option StoredPayment)) : List String :=
  (entries.filterMap parsed).filterMap Prod.snd

@[simp] theorem recordsOf_append (entries more : List (Option StoredPayment)) :
    recordsOf (entries ++ more) = recordsOf entries ++ recordsOf more := by
  simp [recordsOf]

@[simp] theorem keysOf_append (entries more : List (Option StoredPayment)) :
    keysOf (entries ++ more) = keysOf entries ++ keysOf more := by
  simp [keysOf]

theorem windowAt_values (stream : List (Option StoredPayment)) (next : Nat) :
    (windowAt stream next).map StreamEntry.value = (stream.drop next).take windowSize := by
  have hfst : (StreamEntry.value ∘ fun entry : Option StoredPayment × Nat =>
      (⟨entry.2, entry.1⟩ : StreamEntry)) = Prod.fst := rfl
  rw [windowAt, List.map_map, hfst, List.zipIdx_map_fst]

theorem windowAt_parsed (stream : List (Option StoredPayment)) (next : Nat) :
    ((windowAt stream next).filterMap fun entry => parsed entry.value) =
      ((stream.drop next).take windowSize).filterMap parsed := by
  rw [← windowAt_values, List.filterMap_map]
  rfl

theorem windowAt_length (stream : List (Option StoredPayment)) (next : Nat) :
    (windowAt stream next).length = ((stream.drop next).take windowSize).length := by
  rw [← windowAt_values, List.length_map]

/-- An empty window is the end of the stream. -/
theorem windowAt_getLast_none {stream : List (Option StoredPayment)} {next : Nat}
    (h : (windowAt stream next).getLast? = none) : stream.length ≤ next := by
  have hempty := windowAt_length stream next
  rw [List.getLast?_eq_none_iff.mp h] at hempty
  simp only [List.length_nil, List.length_take, List.length_drop, windowSize] at hempty
  omega

theorem windowAt_getLast {stream : List (Option StoredPayment)} {next : Nat} {last : StreamEntry}
    (h : (windowAt stream next).getLast? = some last) :
    last.offset + 1 = next + ((stream.drop next).take windowSize).length := by
  rw [windowAt, List.getLast?_map] at h
  obtain ⟨entry, hentry, rfl⟩ := Option.map_eq_some_iff.mp h
  rw [List.getLast?_eq_getElem?, List.getElem?_zipIdx] at hentry
  obtain ⟨value, hvalue, rfl⟩ := Option.map_eq_some_iff.mp hentry
  rw [List.length_zipIdx] at hvalue ⊢
  obtain ⟨hlt, -⟩ := List.getElem?_eq_some_iff.mp hvalue
  simp only
  omega

/-- A window goes on where a segment ends. -/
theorem segment_append_window {stream segment : List (Option StoredPayment)} {start : Nat}
    (h : segment <+: stream.drop start) :
    segment ++ (stream.drop (start + segment.length)).take windowSize <+: stream.drop start := by
  obtain ⟨rest, hrest⟩ := h
  have hdrop : stream.drop (start + segment.length) = rest := by
    rw [← List.drop_drop, ← hrest, List.drop_left]
  rw [hdrop, ← hrest]
  exact List.prefix_append_right_inj segment |>.mpr (List.take_prefix _ _)

theorem segment_complete {stream segment : List (Option StoredPayment)} {start : Nat}
    (h : segment <+: stream.drop start) (hend : stream.length ≤ start + segment.length) :
    segment = stream.drop start := by
  refine h.eq_of_length ?_
  have := h.length_le
  rw [List.length_drop] at this ⊢
  omega

/-- The ledger after reading everything the stream holds. -/
def caughtUp (ledger : PaymentLedger) (stream : List (Option StoredPayment)) : PaymentLedger :=
  ledger.loaded ((stream.drop ledger.nextOffset).filterMap parsed) stream.length

variable {process : ι → P} {rules : Rules P ι γ} {inv : Shared P ι × γ → Prop}
  {extra : ι → Shared P ι × γ → Shared P ι × γ → Prop} {i : ι}

/-- A property that the other calls keep, and reading the stream as well. -/
structure Steady (process : ι → P) (rules : Rules P ι γ) (inv : Shared P ι × γ → Prop)
    (extra : ι → Shared P ι × γ → Shared P ι × γ → Prop) (i : ι)
    (known : Shared P ι × γ → Prop) : Prop where
  others : ∀ s t, known s → inv t → (∃ j, j ≠ i ∧ (contract process rules inv extra).guar j s t) →
    known t
  reading : ∀ s next r t, inv s → known s → env process rules s i (.readWindow next) r t →
    inv t ∧ extra i s t ∧ known t

theorem rely_stream {s t : Shared P ι × γ} (h : (contract process rules inv extra).Rely i s t) :
    s.1.stream <+: t.1.stream := by
  refine h.stable (P := fun u => s.1.stream <+: u.1.stream) (fun u v hu _ step => ?_)
    List.prefix_rfl
  obtain ⟨j, -, ⟨e, r, hstep, -⟩, -⟩ := step
  exact hu.trans hstep.change.stream

theorem Steady.rely {known : Shared P ι × γ → Prop}
    (steady : Steady process rules inv extra i known)
    {s t : Shared P ι × γ} (h : (contract process rules inv extra).Rely i s t) (hs : known s) :
    known t :=
  h.stable (fun u v hu hv step => steady.others u v hu hv step) hs

/-- A window whose reading failed. -/
def ReadFails (process : ι → P) (rules : Rules P ι γ) (inv : Shared P ι × γ → Prop) (i : ι)
    (known : Shared P ι × γ → Prop) (text : String) : Prop :=
  ∃ s next t, inv s ∧ known s ∧ env process rules s i (.readWindow next) (.error text) t

theorem Steady.withPrefix {known : Shared P ι × γ → Prop}
    (steady : Steady process rules inv extra i known) (before : List (Option StoredPayment)) :
    Steady process rules inv extra i fun s => known s ∧ before <+: s.1.stream where
  others := by
    rintro s t ⟨hknown, hprefix⟩ hinv ⟨j, hj, ⟨e, r, hstep⟩, hextra⟩
    exact ⟨steady.others s t hknown hinv ⟨j, hj, ⟨e, r, hstep⟩, hextra⟩,
      hprefix.trans hstep.1.change.stream⟩
  reading := by
    rintro s next r t hinv ⟨hknown, hprefix⟩ hstep
    obtain ⟨hinvt, hextra, hknownt⟩ := steady.reading s next r t hinv hknown hstep
    exact ⟨hinvt, hextra, hknownt, hprefix.trans hstep.1.change.stream⟩

theorem ReadFails.mono {known known' : Shared P ι × γ → Prop} {text : String}
    (imp : ∀ s, known s → known' s) (h : ReadFails process rules inv i known text) :
    ReadFails process rules inv i known' text := by
  obtain ⟨s, next, t, hinv, hknown, hstep⟩ := h
  exact ⟨s, next, t, hinv, imp s hknown, hstep⟩

/-- What reading from `start` ends with: at one instant `u`, everything. -/
def ReadTo (process : ι → P) (rules : Rules P ι γ) (inv : Shared P ι × γ → Prop)
    (extra : ι → Shared P ι × γ → Shared P ι × γ → Prop) (i : ι)
    (known : Shared P ι × γ → Prop) (start : Nat) (r : Except String (List LoadedPayment × Nat))
    (v : Shared P ι × γ) : Prop :=
  ∃ u, inv u ∧ known u ∧ (contract process rules inv extra).Rely i u v ∧
    match r with
    | .ok found => start ≤ u.1.stream.length ∧
        found = ((u.1.stream.drop start).filterMap parsed, u.1.stream.length)
    | .error text => ReadFails process rules inv i known text

theorem readFrom_meets {known : Shared P ι × γ → Prop}
    (steady : Steady process rules inv extra i known) {start : Nat} (rounds : Nat) :
    ∀ {segment : List (Option StoredPayment)} {m : PaymentLedger} {s : Shared P ι × γ},
      known s → start ≤ s.1.stream.length → segment <+: s.1.stream.drop start →
      Meets (env process rules) (contract process rules inv extra) i
        (fun r m' v => m' = m ∧ ReadTo process rules inv extra i known start r v)
        (readFrom rounds (start + segment.length) (segment.filterMap parsed)) m s := by
  induction rounds with
  | zero =>
    intro segment m s _ _ _ t _ _ r u hu
    exact r.elim
  | succ rounds ih =>
    intro segment m s hknown hstart hsegment
    rw [readFrom]
    refine meets_ask_bind fun t ht hinvt r u hu => ?_
    obtain ⟨hinvu, hextra, hknownu⟩ := steady.reading t _ r u hinvt (steady.rely ht hknown) hu
    refine ⟨hinvu, ⟨⟨_, r, hu⟩, hextra⟩, ?_⟩
    cases r with
    | error text =>
      intro v hv _
      exact ⟨rfl, u, hinvu, hknownu, hv, t, _, u, hinvt, steady.rely ht hknown, hu⟩
    | ok window =>
      obtain ⟨hwindow, hsame⟩ := hu.1
      have hgrown : s.1.stream <+: t.1.stream := rely_stream ht
      have hlonger := hgrown.length_le
      have hsegmentt : segment <+: t.1.stream.drop start := by
        refine hsegment.trans ?_
        obtain ⟨more, hmore⟩ := hgrown
        rw [← hmore, List.drop_append_of_le_length hstart]
        exact List.prefix_append _ _
      subst hwindow
      dsimp only [id]
      cases hlast : (windowAt t.1.stream (start + segment.length)).getLast? with
      | none =>
        have hdone := segment_complete hsegmentt (windowAt_getLast_none hlast)
        have hcount : start + segment.length = t.1.stream.length := by
          rw [hdone, List.length_drop]
          omega
        refine meets_pure fun v hv _ => ⟨rfl, u, hinvu, hknownu, hv, ?_⟩
        rw [hsame]
        dsimp only
        rw [hcount, hdone]
        exact ⟨by omega, rfl⟩
      | some last =>
        have hnext := windowAt_getLast hlast
        have hcount : last.offset + 1 = start +
            (segment ++ (t.1.stream.drop (start + segment.length)).take windowSize).length := by
          rw [hnext, List.length_append]
          omega
        have hparsed : segment.filterMap parsed ++
            (windowAt t.1.stream (start + segment.length)).filterMap (fun e => parsed e.value) =
            (segment ++ (t.1.stream.drop (start + segment.length)).take windowSize).filterMap
              parsed := by
          rw [windowAt_parsed, List.filterMap_append]
        dsimp only
        rw [hcount, hparsed]
        refine ih hknownu ?_ ?_
        · rw [hsame]
          omega
        · rw [hsame]
          exact segment_append_window hsegmentt

theorem readFrom_nil_meets {known : Shared P ι × γ → Prop}
    (steady : Steady process rules inv extra i known) (rounds start : Nat) {m : PaymentLedger}
    {s : Shared P ι × γ} (hknown : known s) (hstart : start ≤ s.1.stream.length) :
    Meets (env process rules) (contract process rules inv extra) i
      (fun r m' v => m' = m ∧ ReadTo process rules inv extra i known start r v)
      (readFrom rounds start []) m s := by
  have hsegment : ([] : List (Option StoredPayment)) <+: s.1.stream.drop start := List.nil_prefix
  exact readFrom_meets steady rounds hknown hstart hsegment

/-- A refresh catches up with the stream at one instant, or changes nothing. -/
theorem refreshRecords_meets {known : Shared P ι × γ → Prop}
    (steady : Steady process rules inv extra i known) (rounds : Nat) {m : PaymentLedger}
    {s : Shared P ι × γ} (hinv : inv s) (hknown : known s)
    (hoffset : m.nextOffset ≤ s.1.stream.length) :
    Meets (env process rules) (contract process rules inv extra) i
      (fun r m' v => ∃ u, inv u ∧ known u ∧ (contract process rules inv extra).Rely i u v ∧
        match r with
        | .ok _ => m.nextOffset ≤ u.1.stream.length ∧ m' = caughtUp m u.1.stream
        | .error text => m' = m ∧ ReadFails process rules inv i known text)
      (refreshRecords rounds) m s := by
  refine meets_self_bind (meets_bind hinv
    (readFrom_nil_meets steady rounds m.nextOffset hknown hoffset) ?_ ?_)
  · rintro ⟨fresh, next⟩ m' t hinvt ⟨rfl, u, hinvu, hknownu, hrely, hle, heq⟩
    cases heq
    exact meets_update_bind (meets_pure fun v hv _ =>
      ⟨u, hinvu, hknownu, hrely.trans hv, hle, rfl⟩)
  · rintro text m' t hinvt ⟨rfl, u, hinvu, hknownu, hrely, hfails⟩ v hv _
    exact ⟨u, hinvu, hknownu, hrely.trans hv, rfl, hfails⟩

/-- How a ledger takes in its own entry, appended after `before`; `now` is the
stream when the method ends, and `failed` says that a re-read failed. -/
inductive TookIn (failed : Prop) (m : PaymentLedger) (record : PaymentRecord)
    (key : Option String) (before now : List (Option StoredPayment)) : PaymentLedger → Prop
  | next (here : before.length = m.nextOffset) :
      TookIn failed m record key before now
        { (commitKey key m).push record with nextOffset := before.length + 1 }
  | reread (later : before.length ≠ m.nextOffset) :
      TookIn failed m record key before now (caughtUp (commitKey key m) now)
  /-- The ledger keeps its own record alone. -/
  | kept (later : before.length ≠ m.nextOffset) (unread : failed) :
      TookIn failed m record key before now ((commitKey key m).push record)

/-- What an append must be shown to keep: `refused` where it failed, `after`
where its entry follows `before`. -/
structure Appends (process : ι → P) (rules : Rules P ι γ) (inv : Shared P ι × γ → Prop)
    (extra : ι → Shared P ι × γ → Shared P ι × γ → Prop) (i : ι)
    (known refused : Shared P ι × γ → Prop)
    (after : List (Option StoredPayment) → Shared P ι × γ → Prop) (value : StoredPayment) :
    Prop where
  others : ∀ s t, known s → inv t → (∃ j, j ≠ i ∧ (contract process rules inv extra).guar j s t) →
    known t
  step : ∀ s r t, inv s → known s → env process rules s i (.append value) r t →
    inv t ∧ extra i s t ∧
      match r with
      | .ok _ => after s.1.stream t
      | .error _ => refused t
  later : ∀ before, Steady process rules inv extra i (after before)

/-- The result of an append: nothing happened, or the entry is in the stream. -/
def AppendTo (process : ι → P) (rules : Rules P ι γ) (inv : Shared P ι × γ → Prop)
    (extra : ι → Shared P ι × γ → Shared P ι × γ → Prop) (i : ι)
    (refused : Shared P ι × γ → Prop)
    (after : List (Option StoredPayment) → Shared P ι × γ → Prop) (m : PaymentLedger)
    (record : PaymentRecord) (key : Option String) (r : Except String Unit) (m' : PaymentLedger)
    (v : Shared P ι × γ) : Prop :=
  ∃ u, inv u ∧ (contract process rules inv extra).Rely i u v ∧
    match r with
    | .error _ => refused u ∧ m' = m
    | .ok _ => ∃ before, after before u ∧ m.nextOffset ≤ before.length ∧
        before ++ [some (storedPayment record key)] <+: u.1.stream ∧
        TookIn (∃ text, ReadFails process rules inv i (after before) text) m record key before
          u.1.stream m'

theorem appendRecord_meets {known refused : Shared P ι × γ → Prop}
    {after : List (Option StoredPayment) → Shared P ι × γ → Prop} (rounds : Nat)
    {record : PaymentRecord} {key : Option String}
    (appends : Appends process rules inv extra i known refused after
      (storedPayment record.atMillisecondPrecision key))
    {m : PaymentLedger} {s : Shared P ι × γ} (hknown : known s)
    (hoffset : m.nextOffset ≤ s.1.stream.length) :
    Meets (env process rules) (contract process rules inv extra) i
      (AppendTo process rules inv extra i refused after m record.atMillisecondPrecision key)
      (appendRecord rounds record key) m s := by
  generalize hrecord : record.atMillisecondPrecision = cut at appends
  simp only [appendRecord, hrecord]
  refine meets_ask_bind fun t ht hinvt r u hu => ?_
  have hknownt : known t := ht.stable (fun a b ha hb step => appends.others a b ha hb step) hknown
  obtain ⟨hinvu, hextra, hresult⟩ := appends.step t r u hinvt hknownt hu
  refine ⟨hinvu, ⟨⟨_, r, hu⟩, hextra⟩, ?_⟩
  cases r with
  | error text => exact fun v hv _ => ⟨u, hinvu, hv, hresult, rfl⟩
  | ok offset =>
    obtain ⟨hoffsetEq, happended⟩ := hu.1
    dsimp only [id]
    have hbefore : m.nextOffset ≤ t.1.stream.length :=
      Nat.le_trans hoffset (rely_stream ht).length_le
    have hentry : u.1.stream = t.1.stream ++ [some (storedPayment cut key)] := by
      rw [happended]
      rfl
    refine meets_update_bind (meets_self_bind ?_)
    by_cases hhere : offset = (commitKey key m).nextOffset
    · rw [if_pos hhere]
      refine fun v hv _ => ⟨u, hinvu, hv, t.1.stream, hresult, hbefore, ?_, ?_⟩
      · rw [hentry]
      · rw [hoffsetEq] at hhere ⊢
        exact .next hhere
    · rw [if_neg hhere]
      have hlater : t.1.stream.length ≠ m.nextOffset := by
        rw [← hoffsetEq]
        exact hhere
      have hroom : (commitKey key m).nextOffset ≤ u.1.stream.length := by
        rw [hentry, List.length_append]
        exact Nat.le_trans hbefore (Nat.le_add_right _ _)
      have hrefresh := refreshRecords_meets
        ((appends.later t.1.stream).withPrefix (t.1.stream ++ [some (storedPayment cut key)]))
        rounds hinvu ⟨hresult, by rw [hentry]⟩ hroom
      refine meets_tried_bind hinvu hrefresh ?_
      rintro out m' v - ⟨w, hinvw, ⟨hafter, hprefix⟩, hrely, hout⟩
      cases out with
      | ok _ =>
        refine meets_pure fun x hx _ => ⟨w, hinvw, hrely.trans hx, t.1.stream, hafter, hbefore,
          hprefix, ?_⟩
        rw [hout.2]
        exact .reread hlater
      | error text =>
        intro x hx _
        refine ⟨w, hinvw, hrely.trans hx, t.1.stream, hafter, hbefore, hprefix, ?_⟩
        rw [hout.1]
        exact .kept hlater ⟨text, hout.2.mono fun _ h => h.1⟩

end LedgerReading

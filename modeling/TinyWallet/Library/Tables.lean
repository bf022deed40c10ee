import Mathlib

/-!
# Finite tables and their totals

Association lists with one entry a key, the ordered and the hashed map of the
source alike: nothing below depends on the order of the entries.
-/

namespace Tables

abbrev Table (κ ν : Type) := AList fun _ : κ => ν

variable {κ ν : Type} [DecidableEq κ]

/-- The entries that pass a test. -/
def retain (keep : κ → ν → Bool) (t : Table κ ν) : Table κ ν where
  entries := t.entries.filter fun e => keep e.1 e.2
  nodupKeys := t.nodupKeys.sublist List.filter_sublist

/-- The sum of a weight over the entries. -/
def total (weight : κ → ν → Nat) (t : Table κ ν) : Nat :=
  (t.entries.map fun e => weight e.1 e.2).sum

/-- Every value read, or nothing. -/
def readAll {μ : Type} (read : ν → Option μ) (t : Table κ ν) : Option (Table κ μ) :=
  t.entries.foldr (fun e done => done.bind fun done => (read e.2).map (done.insert e.1)) (some ∅)

/-- What is read has the same keys. -/
theorem lookup_readAll {μ : Type} {read : ν → Option μ} {t : Table κ ν} {t' : Table κ μ}
    (h : readAll read t = some t') (k : κ) :
    t'.lookup k = (t.lookup k).bind read ∧ ((t.lookup k).isSome → (t'.lookup k).isSome) := by
  have hentries : ∀ (entries : List (Sigma fun _ : κ => ν)) (t' : Table κ μ), entries.NodupKeys →
      entries.foldr (fun e done => done.bind fun done => (read e.2).map (done.insert e.1))
        (some ∅) = some t' →
      t'.lookup k = (entries.dlookup k).bind read ∧
        ((entries.dlookup k).isSome → (t'.lookup k).isSome) := by
    intro entries
    induction entries with
    | nil =>
      rintro t' - h
      obtain rfl := Option.some.inj h
      exact ⟨rfl, id⟩
    | cons e rest ih =>
      intro t' hnodup h
      rw [List.foldr_cons] at h
      obtain ⟨done, hdone, h⟩ := Option.bind_eq_some_iff.mp h
      obtain ⟨v, hv, rfl⟩ := Option.map_eq_some_iff.mp h
      obtain ⟨hlookup, hsome⟩ := ih done (List.nodupKeys_cons.mp hnodup).2 hdone
      by_cases hkey : k = e.1
      · subst hkey
        rw [AList.lookup_insert, List.dlookup_cons_eq]
        exact ⟨hv.symm, fun _ => rfl⟩
      · rw [AList.lookup_insert_ne hkey, List.dlookup_cons_ne _ _ hkey]
        exact ⟨hlookup, hsome⟩
  exact hentries t.entries t' t.nodupKeys h

theorem readAll_none {μ : Type} {read : ν → Option μ} {t : Table κ ν}
    (h : readAll read t = none) : ∃ k v, t.lookup k = some v ∧ read v = none := by
  have hentries : ∀ entries : List (Sigma fun _ : κ => ν),
      entries.foldr (fun e done => done.bind fun done => (read e.2).map (done.insert e.1))
        (some (∅ : Table κ μ)) = none → ∃ e ∈ entries, read e.2 = none := by
    intro entries
    induction entries with
    | nil =>
      intro h
      cases h
    | cons e rest ih =>
      intro h
      rw [List.foldr_cons] at h
      cases hrest : rest.foldr
          (fun e done => done.bind fun done => (read e.2).map (done.insert e.1))
          (some (∅ : Table κ μ)) with
      | none =>
        obtain ⟨f, hf, hread⟩ := ih hrest
        exact ⟨f, List.mem_cons_of_mem _ hf, hread⟩
      | some done =>
        rw [hrest] at h
        exact ⟨e, List.mem_cons_self, by simpa using h⟩
  obtain ⟨e, he, hread⟩ := hentries t.entries h
  exact ⟨e.1, e.2, AList.mem_lookup_iff.mpr he, hread⟩

theorem lookup_retain (keep : κ → ν → Bool) (t : Table κ ν) (k : κ) :
    (retain keep t).lookup k = (t.lookup k).filter (keep k) := by
  ext v
  rw [← Option.mem_def, AList.mem_lookup_iff, ← Option.mem_def, Option.mem_filter_iff,
    AList.mem_lookup_iff]
  simp [retain]

/-- A total depends on what each key maps to and on nothing else. -/
theorem total_congr (weight : κ → ν → Nat) {t t' : Table κ ν}
    (h : ∀ k, t.lookup k = t'.lookup k) : total weight t = total weight t' := by
  have hperm : t.entries.Perm t'.entries := by
    refine List.lookup_ext t.nodupKeys t'.nodupKeys fun k v => ?_
    have hk := h k
    simp only [AList.lookup] at hk
    rw [hk]
  exact (hperm.map _).sum_eq

theorem total_insert_of_notMem (weight : κ → ν → Nat) {t : Table κ ν} {k : κ} (h : k ∉ t) (v : ν) :
    total weight (t.insert k v) = weight k v + total weight t := by
  rw [total, AList.entries_insert_of_notMem h]
  rfl

theorem lookup_insert_erase {t : Table κ ν} {k : κ} (v : ν) (k' : κ) :
    ((t.erase k).insert k v).lookup k' = (t.insert k v).lookup k' := by
  by_cases h : k' = k
  · subst h
    rw [AList.lookup_insert, AList.lookup_insert]
  · rw [AList.lookup_insert_ne h, AList.lookup_insert_ne h, AList.lookup_erase_ne h]

theorem total_insert (weight : κ → ν → Nat) (t : Table κ ν) (k : κ) (v : ν) :
    total weight (t.insert k v) = weight k v + total weight (t.erase k) := by
  have hfresh : k ∉ t.erase k := by simp [AList.mem_erase]
  rw [← total_insert_of_notMem weight hfresh v]
  exact total_congr weight fun k' => (lookup_insert_erase v k').symm

theorem insert_of_lookup {t : Table κ ν} {k : κ} {v : ν} (h : t.lookup k = some v) (k' : κ) :
    (t.insert k v).lookup k' = t.lookup k' := by
  by_cases hk : k' = k
  · subst hk
    rw [AList.lookup_insert, h]
  · rw [AList.lookup_insert_ne hk]

theorem total_erase (weight : κ → ν → Nat) {t : Table κ ν} {k : κ} {v : ν}
    (h : t.lookup k = some v) : total weight t = weight k v + total weight (t.erase k) := by
  rw [← total_insert]
  exact total_congr weight fun k' => (insert_of_lookup h k').symm

theorem total_erase_of_notMem (weight : κ → ν → Nat) {t : Table κ ν} {k : κ} (h : k ∉ t) :
    total weight (t.erase k) = total weight t := by
  refine total_congr weight fun k' => ?_
  by_cases hk : k' = k
  · subst hk
    rw [AList.lookup_erase, AList.lookup_eq_none.mpr h]
  · rw [AList.lookup_erase_ne hk]

theorem total_erase_le (weight : κ → ν → Nat) (t : Table κ ν) (k : κ) :
    total weight (t.erase k) ≤ total weight t := by
  cases h : t.lookup k with
  | none => exact (total_erase_of_notMem weight (AList.lookup_eq_none.mp h)).le
  | some v =>
    rw [total_erase weight h]
    omega

theorem total_le_of_weight {weight weight' : κ → ν → Nat} {t : Table κ ν}
    (h : ∀ k v, t.lookup k = some v → weight k v ≤ weight' k v) :
    total weight t ≤ total weight' t := by
  refine List.sum_le_sum fun e he => h e.1 e.2 ?_
  exact AList.mem_lookup_iff.mpr he

theorem total_eq_of_weight {weight weight' : κ → ν → Nat} {t : Table κ ν}
    (h : ∀ k v, t.lookup k = some v → weight k v = weight' k v) :
    total weight t = total weight' t :=
  Nat.le_antisymm (total_le_of_weight fun k v hk => (h k v hk).le)
    (total_le_of_weight fun k v hk => (h k v hk).ge)

/-- A key that no longer weighs anything takes its weight out of the total. -/
theorem total_drop (weight weight' : κ → ν → Nat) {t : Table κ ν} {k : κ} {v : ν}
    (h : t.lookup k = some v) (gone : weight' k v = 0)
    (same : ∀ k' v', k' ≠ k → t.lookup k' = some v' → weight' k' v' = weight k' v') :
    total weight' t + weight k v = total weight t := by
  have hrest : total weight' (t.erase k) = total weight (t.erase k) := by
    refine total_eq_of_weight fun k' v' hk' => ?_
    have hne : k' ≠ k := by
      rintro rfl
      rw [AList.lookup_erase] at hk'
      cases hk'
    rw [AList.lookup_erase_ne hne] at hk'
    exact same k' v' hne hk'
  rw [total_erase weight' h, total_erase weight h, gone, hrest]
  omega

/-- A table whose entries are covered by those of another has no larger total. -/
theorem total_le_of_lookup {weight weight' : κ → ν → Nat} {t : Table κ ν} : ∀ {t' : Table κ ν},
    (∀ k v, t.lookup k = some v → ∃ v', t'.lookup k = some v' ∧ weight k v ≤ weight' k v') →
      total weight t ≤ total weight' t' := by
  induction t using AList.insertRec with
  | H0 =>
    intro t' _
    exact Nat.zero_le _
  | IH k v t hfresh ih =>
    intro t' h
    obtain ⟨v', hv', hle⟩ := h k v (AList.lookup_insert t)
    rw [total_insert_of_notMem weight hfresh, total_erase weight' hv']
    refine Nat.add_le_add hle (ih fun k' w hw => ?_)
    have hne : k' ≠ k := by
      rintro rfl
      rw [AList.lookup_eq_none.mpr hfresh] at hw
      cases hw
    rw [AList.lookup_erase_ne hne]
    exact h k' w (by rw [AList.lookup_insert_ne hne, hw])

omit [DecidableEq κ] in
theorem total_retain (keep : κ → ν → Bool) (weight : κ → ν → Nat) (t : Table κ ν) :
    total weight (retain keep t) = total (fun k v => if keep k v then weight k v else 0) t := by
  simp only [total, retain]
  induction t.entries with
  | nil => rfl
  | cons e rest ih =>
    by_cases h : keep e.1 e.2 = true
    · simp [h, ih]
    · simp [h, ih]

end Tables

import Mathlib

/-!
# Keys that are in one place at a time, and keys whose value is fixed once

Each key lies in a common pool or is carried by one of many holders. Keys are
minted, put down, picked up and lost; none of these makes a second copy. Every
key in sight is `known`, so that a key that is not known is new.

A weaker discipline lets copies of a key's value spread, and asks only that all
copies agree: a key is reserved first, and its holder fixes the value.
-/

namespace Custody

variable {K ι : Type}

/-- No key is in two places: not twice in the pool, not with two holders, not in
the pool and with a holder. -/
structure Exclusive (known : K → Prop) (placed : Multiset K) (held : ι → Option K) : Prop where
  once : placed.Nodup
  apart : ∀ i k, held i = some k → k ∉ placed
  sole : ∀ i j k, held i = some k → held j = some k → i = j
  placed_known : ∀ k ∈ placed, known k
  held_known : ∀ i k, held i = some k → known k

namespace Exclusive

variable {known known' : K → Prop} {placed placed' : Multiset K} {held : ι → Option K}

theorem empty (known : K → Prop) (held : ι → Option K) (free : ∀ i, held i = none) :
    Exclusive known 0 held where
  once := Multiset.nodup_zero
  apart i k h := by simp [free] at h
  sole i j k h := by simp [free] at h
  placed_known := by simp
  held_known i k h := by simp [free] at h

/-- Keys may be lost from the pool, and more may become known. -/
theorem lose (h : Exclusive known placed held) (imp : ∀ k, known k → known' k)
    (fewer : placed' ≤ placed) : Exclusive known' placed' held where
  once := Multiset.nodup_of_le fewer h.once
  apart i k hk hmem := h.apart i k hk (Multiset.mem_of_le fewer hmem)
  sole := h.sole
  placed_known k hk := imp k (h.placed_known k (Multiset.mem_of_le fewer hk))
  held_known i k hk := imp k (h.held_known i k hk)

variable [DecidableEq ι]

/-- A holder may drop what it carries. -/
theorem release (h : Exclusive known placed held) (i : ι) :
    Exclusive known placed (Function.update held i none) := by
  have kept : ∀ j k, Function.update held i none j = some k → j ≠ i ∧ held j = some k := by
    intro j k hj
    by_cases hji : j = i
    · subst hji
      simp at hj
    · exact ⟨hji, by simpa [hji] using hj⟩
  refine ⟨h.once, ?_, ?_, h.placed_known, ?_⟩
  · intro j k hj
    exact h.apart j k (kept j k hj).2
  · intro j j' k hj hj'
    exact h.sole j j' k (kept j k hj).2 (kept j' k hj').2
  · intro j k hj
    exact h.held_known j k (kept j k hj).2

/-- A key nobody carries and the pool does not hold goes to a holder. -/
theorem give (h : Exclusive known placed held) {i : ι} {k : K} (new : k ∉ placed)
    (free : ∀ j, held j ≠ some k) (hk : known k) :
    Exclusive known placed (Function.update held i (some k)) := by
  have cases : ∀ j k', Function.update held i (some k) j = some k' →
      j = i ∧ k' = k ∨ j ≠ i ∧ held j = some k' := by
    intro j k' hj
    by_cases hji : j = i
    · subst hji
      simp only [Function.update_self, Option.some.injEq] at hj
      exact .inl ⟨rfl, hj.symm⟩
    · exact .inr ⟨hji, by simpa [hji] using hj⟩
  refine ⟨h.once, ?_, ?_, h.placed_known, ?_⟩
  · intro j k' hj
    rcases cases j k' hj with ⟨_, rfl⟩ | ⟨_, hj⟩
    · exact new
    · exact h.apart j k' hj
  · intro j j' k' hj hj'
    rcases cases j k' hj with ⟨hji, hk'⟩ | ⟨_, hj⟩
    · rcases cases j' k' hj' with ⟨hji', _⟩ | ⟨_, hj'⟩
      · rw [hji, hji']
      · exact absurd (hk' ▸ hj') (free j')
    · rcases cases j' k' hj' with ⟨_, hk'⟩ | ⟨_, hj'⟩
      · exact absurd (hk' ▸ hj) (free j)
      · exact h.sole j j' k' hj hj'
  · intro j k' hj
    rcases cases j k' hj with ⟨_, rfl⟩ | ⟨_, hj⟩
    · exact hk
    · exact h.held_known j k' hj

/-- A key that was not known before goes to a holder. -/
theorem mint (h : Exclusive known placed held) {i : ι} {k : K} (imp : ∀ k, known k → known' k)
    (new : ¬known k) (hk : known' k) : Exclusive known' placed (Function.update held i (some k)) :=
  (h.lose imp le_rfl).give (fun hmem => new (h.placed_known k hmem))
    (fun j hj => new (h.held_known j k hj)) hk

/-- A holder puts its key into the pool. -/
theorem deposit (h : Exclusive known placed held) {i : ι} {k : K} (holds : held i = some k)
    (one : placed' ≤ k ::ₘ placed) :
    Exclusive known placed' (Function.update held i none) := by
  have freed := h.release i
  have apart : ∀ j k', Function.update held i none j = some k' → k' ∉ k ::ₘ placed := by
    intro j k' hj hmem
    have hji : j ≠ i := by
      rintro rfl
      simp at hj
    rcases Multiset.mem_cons.mp hmem with rfl | hmem
    · exact hji (h.sole j i k' (by simpa [hji] using hj) holds)
    · exact freed.apart j k' hj hmem
  have full : Exclusive known (k ::ₘ placed) (Function.update held i none) :=
    ⟨Multiset.nodup_cons.mpr ⟨h.apart i k holds, h.once⟩, apart, freed.sole,
      Multiset.forall_mem_cons.mpr ⟨h.held_known i k holds, h.placed_known⟩, freed.held_known⟩
  exact full.lose (fun _ => id) one

/-- A holder takes a key out of the pool. -/
theorem withdraw (h : Exclusive known placed held) {i : ι} {k : K}
    (one : k ::ₘ placed' ≤ placed) :
    Exclusive known placed' (Function.update held i (some k)) := by
  have apart : k ∉ placed' := (Multiset.nodup_cons.mp (Multiset.nodup_of_le one h.once)).1
  have hmem : k ∈ placed := Multiset.mem_of_le one (Multiset.mem_cons_self ..)
  have fewer : placed' ≤ placed := (Multiset.le_cons_self placed' k).trans one
  exact (h.lose (fun _ => id) fewer).give apart (fun j hj => h.apart j k hj hmem)
    (h.placed_known k hmem)

end Exclusive

/-- Whatever is seen under a key is one value. A reserved key has no value yet,
and one holder at most. -/
structure Pinned {V : Type} (known : K → Prop) (seen : K → V → Prop) (reserved : ι → Option K) :
    Prop where
  functional : ∀ k v w, seen k v → seen k w → v = w
  fresh : ∀ i k v, reserved i = some k → ¬seen k v
  sole : ∀ i j k, reserved i = some k → reserved j = some k → i = j
  seen_known : ∀ k v, seen k v → known k
  reserved_known : ∀ i k, reserved i = some k → known k

namespace Pinned

variable {V : Type} {known known' : K → Prop} {seen seen' : K → V → Prop}
variable {reserved reserved' : ι → Option K}

/-- Nothing new is seen or reserved. -/
theorem lose (h : Pinned known seen reserved) (imp : ∀ k, known k → known' k)
    (fewer : ∀ k v, seen' k v → seen k v)
    (kept : ∀ i k, reserved' i = some k → reserved i = some k) :
    Pinned known' seen' reserved' where
  functional k v w hv hw := h.functional k v w (fewer k v hv) (fewer k w hw)
  fresh i k v hi hv := h.fresh i k v (kept i k hi) (fewer k v hv)
  sole i j k hi hj := h.sole i j k (kept i k hi) (kept j k hj)
  seen_known k v hv := imp k (h.seen_known k v (fewer k v hv))
  reserved_known i k hi := imp k (h.reserved_known i k (kept i k hi))

/-- A key that was not known before is reserved. -/
theorem reserve (h : Pinned known seen reserved) {i : ι} {k : K}
    (imp : ∀ k, known k → known' k) (new : ¬known k) (hk : known' k)
    (fewer : ∀ k v, seen' k v → seen k v)
    (kept : ∀ j k', reserved' j = some k' → j = i ∧ k' = k ∨ reserved j = some k') :
    Pinned known' seen' reserved' := by
  have unseen : ∀ v, ¬seen k v := fun v hv => new (h.seen_known k v hv)
  have unreserved : ∀ j, reserved j ≠ some k := fun j hj => new (h.reserved_known j k hj)
  refine ⟨?_, ?_, ?_, ?_, ?_⟩
  · intro k v w hv hw
    exact h.functional k v w (fewer k v hv) (fewer k w hw)
  · intro j k' v hj hv
    rcases kept j k' hj with ⟨_, rfl⟩ | hj
    · exact unseen v (fewer _ v hv)
    · exact h.fresh j k' v hj (fewer _ v hv)
  · intro j j' k' hj hj'
    rcases kept j k' hj with ⟨hji, hk'⟩ | hj
    · rcases kept j' k' hj' with ⟨hji', _⟩ | hj'
      · rw [hji, hji']
      · exact absurd (hk' ▸ hj') (unreserved j')
    · rcases kept j' k' hj' with ⟨_, hk'⟩ | hj'
      · exact absurd (hk' ▸ hj) (unreserved j)
      · exact h.sole j j' k' hj hj'
  · intro k v hv
    exact imp k (h.seen_known k v (fewer k v hv))
  · intro j k' hj
    rcases kept j k' hj with ⟨_, rfl⟩ | hj
    · exact hk
    · exact imp k' (h.reserved_known j k' hj)

/-- A reserved key gets its value and is reserved no more. -/
theorem publish (h : Pinned known seen reserved) {i : ι} {k : K} {v : V}
    (imp : ∀ k, known k → known' k) (holds : reserved i = some k)
    (one : ∀ k' w, seen' k' w → k' = k ∧ w = v ∨ seen k' w)
    (kept : ∀ j k', reserved' j = some k' → j ≠ i ∧ reserved j = some k') :
    Pinned known' seen' reserved' := by
  refine ⟨?_, ?_, ?_, ?_, ?_⟩
  · intro k' w w' hw hw'
    rcases one k' w hw with ⟨hk, rfl⟩ | hw
    · rcases one k' w' hw' with ⟨_, rfl⟩ | hw'
      · rfl
      · exact absurd (hk ▸ hw') (h.fresh i k w' holds)
    · rcases one k' w' hw' with ⟨hk, _⟩ | hw'
      · exact absurd (hk ▸ hw) (h.fresh i k w holds)
      · exact h.functional k' w w' hw hw'
  · intro j k' w hj hw
    obtain ⟨hji, hj⟩ := kept j k' hj
    rcases one k' w hw with ⟨hk, _⟩ | hw
    · exact hji (h.sole j i k' hj (hk ▸ holds))
    · exact h.fresh j k' w hj hw
  · intro j j' k' hj hj'
    exact h.sole j j' k' (kept j k' hj).2 (kept j' k' hj').2
  · intro k' w hw
    rcases one k' w hw with ⟨rfl, _⟩ | hw
    · exact imp k' (h.reserved_known i k' holds)
    · exact imp k' (h.seen_known k' w hw)
  · intro j k' hj
    exact imp k' (h.reserved_known j k' (kept j k' hj).2)

end Pinned

end Custody

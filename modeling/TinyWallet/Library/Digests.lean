import Mathlib

/-!
# Digests of joined words

Words of one width, put one after the other, are the words they were. Equal
digests tell what was hashed, or else the two inputs at hand collide: some two
inputs of a fixed-width hash function always do, so a collision is only ever
claimed of inputs that are named.
-/

namespace Digests

abbrev Word (width : Nat) := { bytes : List UInt8 // bytes.length = width }

variable {width : Nat} {α β : Type}

def joined (words : List (Word width)) : List UInt8 := (words.map Subtype.val).flatten

theorem joined_injective {words others : List (Word width)} (count : words.length = others.length)
    (h : joined words = joined others) : words = others := by
  induction words generalizing others with
  | nil => exact (List.length_eq_zero_iff.mp count.symm).symm
  | cons word rest ih =>
    cases others with
    | nil => cases count
    | cons other others =>
      simp only [joined, List.map_cons, List.flatten_cons] at h
      obtain ⟨hword, hrest⟩ := List.append_inj h (word.2.trans other.2.symm)
      rw [Subtype.ext hword, ih (Nat.succ.inj count) hrest]

/-- These two inputs differ and have one digest. -/
def Collide (hash : α → β) (a b : α) : Prop := a ≠ b ∧ hash a = hash b

/-- Some input of the one list collides with the input at its place in the other. -/
def CollideAt (hash : α → β) (inputs others : List α) : Prop :=
  ∃ pair ∈ inputs.zip others, Collide hash pair.1 pair.2

theorem eq_or_collide {hash : α → β} {a b : α} (h : hash a = hash b) :
    a = b ∨ Collide hash a b := by
  by_cases hsame : a = b
  · exact .inl hsame
  · exact .inr ⟨hsame, h⟩

/-- Digests of words in a row: the words are the same, each of them. -/
theorem words_or_collide {hash : List UInt8 → β} {words others : List (Word width)}
    (h : hash (joined words) = hash (joined others)) (count : words.length = others.length) :
    words = others ∨ Collide hash (joined words) (joined others) :=
  (eq_or_collide h).imp_left (joined_injective count)

theorem CollideAt.head {hash : α → β} {a b : α} {inputs others : List α} (h : Collide hash a b) :
    CollideAt hash (a :: inputs) (b :: others) :=
  ⟨(a, b), List.mem_cons_self, h⟩

theorem CollideAt.tail {hash : α → β} {a b : α} {inputs others : List α}
    (h : CollideAt hash inputs others) : CollideAt hash (a :: inputs) (b :: others) := by
  obtain ⟨pair, hmem, hcollide⟩ := h
  exact ⟨pair, List.mem_cons_of_mem _ hmem, hcollide⟩

end Digests

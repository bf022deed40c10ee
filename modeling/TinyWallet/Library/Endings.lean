import TinyWallet.Library.Programs

/-!
# Endings of programs

A program that follows a monitor ends with a value in one kind of state and
with an error in another. Stated so, the parts of a program compose: an error
of a part is an error of the whole.
-/

namespace Programs

variable {E : Type} {R : E → Type} {G ε ε' α β : Type}

/-- A value comes with `ok`, an error with `failed`. -/
def Leads (failed : G → Prop) (ok : α → G → Prop) : Except ε α → G → Prop
  | .ok a, g => ok a g
  | .error _, g => failed g

variable {m : Monitor E R G} {failed : G → Prop} {P : α → G → Prop} {Q : β → G → Prop} {g : G}

theorem leads_bind {p : Prog E R ε α} {f : α → Prog E R ε β}
    (first : Follows m (Leads failed P) p g)
    (next : ∀ a g', P a g' → Follows m (Leads failed Q) (f a) g') :
    Follows m (Leads failed Q) (p >>= f) g := by
  refine follows_bind (follows_mono ?_ first)
  intro result g' h
  cases result with
  | ok a => exact next a g' h
  | error e => exact h

theorem leads_lift {x : Except ε α} (hfailed : failed g) (h : ∀ a, x = .ok a → P a g) :
    Follows m (Leads failed P) (Prog.lift x : Prog E R ε α) g := by
  refine follows_lift ?_
  cases x with
  | error e => exact hfailed
  | ok a => exact h a rfl

theorem leads_mapError {f : ε → ε'} {p : Prog E R ε α} (h : Follows m (Leads failed P) p g) :
    Follows m (Leads failed P) (p.mapError f) g := by
  refine follows_mapError (follows_mono ?_ h)
  intro result g' hresult
  cases result <;> exact hresult

/-- A request that leaves the monitor where it is. -/
theorem leads_ask {e : E} {f : R e → Except ε α} (stays : ∀ r, m.advances g e r g)
    (hfailed : failed g) (h : ∀ r a, f r = .ok a → P a g) :
    Follows m (Leads failed P) (Prog.ask e f : Prog E R ε α) g := by
  refine follows_ask fun r _ => ⟨g, stays r, ?_⟩
  cases hr : f r with
  | error e => exact hfailed
  | ok a => exact h r a hr

/-- The same, where the answer itself is the value. -/
theorem leads_answered (e : E) (stays : ∀ r, m.advances g e r g) :
    Follows m (Leads failed fun _ g' => g' = g) (Prog.ask e .ok : Prog E R ε (R e)) g :=
  follows_ask fun r _ => ⟨g, stays r, rfl⟩

end Programs

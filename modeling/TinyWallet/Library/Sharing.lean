import TinyWallet.Library.Programs

/-!
# Programs that share a state

Rely and guarantee over the systems of `Programs`. A contract says what every
reachable state satisfies and what each program may change in one request; a
program is safe when it keeps its side whatever the others do on theirs.

A method is a program over a private memory: it may end with an error, and its
changes to the memory stay when it does.
-/

namespace Sharing

open Programs

/-- What holds of every state, and what each program may do in one request. -/
structure Contract (S ι : Type) where
  inv : S → Prop
  guar : ι → S → S → Prop

section Contracts

variable {S ι : Type} {E : Type} {R : E → Type} {α β : Type}

/-- One request of some program other than `i`. -/
def Contract.Interferes (c : Contract S ι) (i : ι) (s t : S) : Prop :=
  c.inv t ∧ ∃ j, j ≠ i ∧ c.guar j s t

/-- Any number of requests of programs other than `i`. -/
def Contract.Rely (c : Contract S ι) (i : ι) : S → S → Prop :=
  Relation.ReflTransGen (c.Interferes i)

/-- The program keeps its side of the contract from `s` on, and ends in `post`,
whatever the other programs do between its requests. -/
def Safe (env : S → ι → (e : E) → R e → S → Prop) (c : Contract S ι) (i : ι)
    (post : α → S → Prop) : Prog E R Empty α → S → Prop
  | .pure a, s => ∀ t, c.Rely i s t → c.inv t → post a t
  | .fail e, _ => e.elim
  | .call e k, s => ∀ t, c.Rely i s t → c.inv t → ∀ r u, env t i e r u →
      c.inv u ∧ c.guar i t u ∧ Safe env c i post (k r) u

variable {env : S → ι → (e : E) → R e → S → Prop} {c : Contract S ι} {i : ι}

/-- A property that interference keeps is kept by all of it. -/
theorem Contract.Rely.stable {P : S → Prop}
    (step : ∀ s t, P s → c.inv t → (∃ j, j ≠ i ∧ c.guar j s t) → P t) {s t : S}
    (h : c.Rely i s t) (hs : P s) : P t := by
  induction h with
  | refl => exact hs
  | tail _ last ih => exact step _ _ ih last.1 last.2

theorem safe_of_rely {post : α → S → Prop} {p : Prog E R Empty α} {s t : S}
    (h : Safe env c i post p s) (rely : c.Rely i s t) : Safe env c i post p t := by
  cases p with
  | pure a => exact fun u hu => h u (rely.trans hu)
  | fail e => exact e.elim
  | call e k => exact fun u hu => h u (rely.trans hu)

theorem safe_mono {post post' : α → S → Prop} (imp : ∀ a s, c.inv s → post a s → post' a s)
    {p : Prog E R Empty α} {s : S} (h : Safe env c i post p s) : Safe env c i post' p s := by
  induction p generalizing s with
  | pure a => exact fun t ht hinv => imp a t hinv (h t ht hinv)
  | fail e => exact e.elim
  | call e k ih =>
    intro t ht hinv r u hu
    obtain ⟨hinv', hguar, hrest⟩ := h t ht hinv r u hu
    exact ⟨hinv', hguar, ih r hrest⟩

theorem safe_bind {mid : α → S → Prop} {post : β → S → Prop} {f : α → Prog E R Empty β}
    (rest : ∀ a s, c.inv s → mid a s → Safe env c i post (f a) s) {p : Prog E R Empty α} {s : S}
    (hinv : c.inv s) (h : Safe env c i mid p s) : Safe env c i post (p >>= f) s := by
  induction p generalizing s with
  | pure a => exact rest a s hinv (h s .refl hinv)
  | fail e => exact e.elim
  | call e k ih =>
    intro t ht hinvt r u hu
    obtain ⟨hinv', hguar, hrest⟩ := h t ht hinvt r u hu
    exact ⟨hinv', hguar, ih r hinv' hrest⟩

variable [DecidableEq ι]

/-- Programs that are safe from the start are safe forever. -/
theorem reachable_safe {post : ι → α → S → Prop} {s : S} {programs : ι → Prog E R Empty α}
    (hinv : c.inv s) (safe : ∀ i, Safe env c i (post i) (programs i) s)
    {config : Config S ι E R Empty α} (reach : Reachable env s programs config) :
    c.inv config.shared ∧ ∀ i, Safe env c i (post i) (config.program i) config.shared := by
  induction reach with
  | refl => exact ⟨hinv, safe⟩
  | tail _ step ih =>
    obtain ⟨hinvNow, hsafe⟩ := ih
    cases step with
    | @answer i e k r t next allowed =>
    have hi := hsafe i
    rw [next] at hi
    obtain ⟨hinv', hguar, hrest⟩ := hi _ .refl hinvNow r t allowed
    refine ⟨hinv', fun j => ?_⟩
    by_cases hj : j = i
    · subst hj
      simpa using hrest
    · have hstep : c.Interferes j _ t := ⟨hinv', i, fun h => hj h.symm, hguar⟩
      simpa [hj] using safe_of_rely (hsafe j) (.single hstep)

theorem reachable_ends {post : ι → α → S → Prop} {s : S} {programs : ι → Prog E R Empty α}
    (hinv : c.inv s) (safe : ∀ i, Safe env c i (post i) (programs i) s)
    {config : Config S ι E R Empty α} (reach : Reachable env s programs config) {i : ι} {a : α}
    (ended : config.program i = .pure a) : post i a config.shared := by
  obtain ⟨hinvNow, hsafe⟩ := reachable_safe hinv safe reach
  have hi := hsafe i
  rw [ended] at hi
  exact hi _ .refl hinvNow

end Contracts

/-- A program with a private memory `M`; an error keeps what it changed. -/
def Method (E : Type) (R : E → Type) (M α : Type) : Type :=
  M → Prog E R Empty (Except String α × M)

section Methods

variable {E : Type} {R : E → Type} {M α β : Type}

namespace Method

def bind (method : Method E R M α) (f : α → Method E R M β) : Method E R M β := fun m =>
  method m >>= fun out =>
    match out with
    | (.ok a, m') => f a m'
    | (.error e, m') => .pure (.error e, m')

instance : Monad (Method E R M) where
  pure a := fun m => .pure (.ok a, m)
  bind := bind

def throw (text : String) : Method E R M α := fun m => .pure (.error text, m)

/-- The memory as it is now. -/
def self : Method E R M M := fun m => .pure (.ok m, m)

def update (f : M → M) : Method E R M Unit := fun m => .pure (.ok (), f m)

/-- Make one request and turn its answer into a value or an error. -/
def ask (e : E) (f : R e → Except String α) : Method E R M α :=
  fun m => .call e fun r => .pure (f r, m)

/-- Run a method and look at how it ended. -/
def tried (method : Method E R M α) : Method E R M (Except String α) := fun m =>
  method m >>= fun out => .pure (.ok out.1, out.2)

end Method

variable {S ι : Type} (env : S → ι → (e : E) → R e → S → Prop) (c : Contract S ι) (i : ι)

/-- The method, called on memory `m` in state `s`, is safe and ends in `post`. -/
def Meets (post : Except String α → M → S → Prop) (method : Method E R M α) (m : M) (s : S) :
    Prop :=
  Safe env c i (fun out t => post out.1 out.2 t) (method m) s

variable {env} {c} {i}

theorem meets_mono {post post' : Except String α → M → S → Prop}
    (imp : ∀ r m s, c.inv s → post r m s → post' r m s) {method : Method E R M α} {m : M} {s : S}
    (h : Meets env c i post method m s) : Meets env c i post' method m s :=
  safe_mono (fun out t hinv => imp out.1 out.2 t hinv) h

theorem meets_pure {post : Except String α → M → S → Prop} {a : α} {m : M} {s : S}
    (h : ∀ t, c.Rely i s t → c.inv t → post (.ok a) m t) :
    Meets env c i post (pure a : Method E R M α) m s := h

theorem meets_throw {post : Except String α → M → S → Prop} {text : String} {m : M} {s : S}
    (h : ∀ t, c.Rely i s t → c.inv t → post (.error text) m t) :
    Meets env c i post (Method.throw text : Method E R M α) m s := h

theorem meets_bind {mid : Except String α → M → S → Prop} {post : Except String β → M → S → Prop}
    {method : Method E R M α} {f : α → Method E R M β} {m : M} {s : S} (hinv : c.inv s)
    (h : Meets env c i mid method m s)
    (value : ∀ a m' t, c.inv t → mid (.ok a) m' t → Meets env c i post (f a) m' t)
    (error : ∀ e m' t, c.inv t → mid (.error e) m' t →
      ∀ u, c.Rely i t u → c.inv u → post (.error e) m' u) :
    Meets env c i post (method >>= f) m s := by
  refine safe_bind (fun out t hinvt hmid => ?_) hinv h
  obtain ⟨result, m'⟩ := out
  cases result with
  | ok a => exact value a m' t hinvt hmid
  | error e => exact error e m' t hinvt hmid

/-- A tried method goes on however it ended. -/
theorem meets_tried_bind {mid : Except String α → M → S → Prop}
    {post : Except String β → M → S → Prop} {method : Method E R M α}
    {f : Except String α → Method E R M β} {m : M} {s : S} (hinv : c.inv s)
    (h : Meets env c i mid method m s)
    (next : ∀ r m' t, c.inv t → mid r m' t → Meets env c i post (f r) m' t) :
    Meets env c i post (method.tried >>= f) m s := by
  have hflat : (method.tried >>= f) m = method m >>= fun out => f out.1 out.2 :=
    Prog.bind_assoc (method m) _ _
  simp only [Meets, hflat]
  refine safe_bind ?_ hinv h
  exact fun out t hinvt hmid => next out.1 out.2 t hinvt hmid

/-- Steps that only touch the memory. -/
theorem meets_self_bind {post : Except String β → M → S → Prop} {f : M → Method E R M β} {m : M}
    {s : S} (h : Meets env c i post (f m) m s) :
    Meets env c i post (Method.self >>= f) m s := h

theorem meets_update_bind {post : Except String β → M → S → Prop} {change : M → M}
    {f : Unit → Method E R M β} {m : M} {s : S} (h : Meets env c i post (f ()) (change m) s) :
    Meets env c i post (Method.update change >>= f) m s := h

theorem meets_ask {post : Except String α → M → S → Prop} {e : E} {g : R e → Except String α}
    {m : M} {s : S}
    (h : ∀ t, c.Rely i s t → c.inv t → ∀ r u, env t i e r u → c.inv u ∧ c.guar i t u ∧
      ∀ v, c.Rely i u v → c.inv v → post (g r) m v) :
    Meets env c i post (Method.ask e g) m s := h

/-- One request: whatever has happened before it and whatever it answers. -/
theorem meets_ask_bind {post : Except String β → M → S → Prop} {e : E}
    {g : R e → Except String α} {f : α → Method E R M β} {m : M} {s : S}
    (h : ∀ t, c.Rely i s t → c.inv t → ∀ r u, env t i e r u → c.inv u ∧ c.guar i t u ∧
      match g r with
      | .ok a => Meets env c i post (f a) m u
      | .error text => ∀ v, c.Rely i u v → c.inv v → post (.error text) m v) :
    Meets env c i post (Method.ask e g >>= f) m s := by
  intro t ht hinv r u hu
  obtain ⟨hinv', hguar, hrest⟩ := h t ht hinv r u hu
  refine ⟨hinv', hguar, ?_⟩
  dsimp only [Prog.bind]
  cases hg : g r with
  | ok a =>
    rw [hg] at hrest
    exact hrest
  | error text =>
    rw [hg] at hrest
    exact hrest

/-- A sequence ends with the error of its first part, or runs through both. -/
theorem method_trace_bind {method : Method E R M α} {f : α → Method E R M β} {m m' : M}
    {history : List (Event E R)} {r : Except String β}
    (trace : Trace ((method >>= f) m) history (.pure (r, m'))) :
    (∃ text, Trace (method m) history (.pure (.error text, m')) ∧ r = .error text) ∨
      ∃ a m₁ before after, history = before ++ after ∧
        Trace (method m) before (.pure (.ok a, m₁)) ∧ Trace (f a m₁) after (.pure (r, m')) := by
  obtain ⟨⟨result, m₁⟩, before, after, rfl, first, second⟩ := Programs.trace_bind trace
  cases result with
  | error text =>
    obtain ⟨rfl, hend⟩ := trace_pure second
    obtain ⟨rfl, rfl⟩ := Prod.mk.inj hend
    rw [List.append_nil]
    exact .inl ⟨text, first, rfl⟩
  | ok a => exact .inr ⟨a, m₁, before, after, rfl, first, second⟩

/-- A tried method runs as it is and hands on how it ended. -/
theorem method_trace_tried {method : Method E R M α} {f : Except String α → Method E R M β}
    {m m' : M} {history : List (Event E R)} {r : Except String β}
    (trace : Trace ((method.tried >>= f) m) history (.pure (r, m'))) :
    ∃ result m₁ before after, history = before ++ after ∧
      Trace (method m) before (.pure (result, m₁)) ∧ Trace (f result m₁) after (.pure (r, m')) := by
  have hflat : (method.tried >>= f) m = method m >>= fun out => f out.1 out.2 :=
    Prog.bind_assoc (method m) _ _
  rw [hflat] at trace
  obtain ⟨out, before, after, rfl, first, second⟩ := Programs.trace_bind trace
  exact ⟨out.1, out.2, before, after, rfl, first, second⟩

theorem method_trace_ask {e : E} {g : R e → Except String α} {m m' : M}
    {history : List (Event E R)} {r : Except String α}
    (trace : Trace (Method.ask e g m) history (.pure (r, m'))) :
    ∃ a, history = [⟨e, a⟩] ∧ r = g a ∧ m' = m := by
  obtain ⟨a, rest, rfl, tail⟩ := trace_call trace
  obtain ⟨rfl, hend⟩ := trace_pure tail
  obtain ⟨rfl, rfl⟩ := Prod.mk.inj hend
  exact ⟨a, rfl, rfl, rfl⟩

/-- A sequence that begins with a request ends with it, or goes on with what it was answered. -/
theorem method_trace_asked {e : E} {g : R e → Except String α} {f : α → Method E R M β} {m m' : M}
    {history : List (Event E R)} {r : Except String β}
    (trace : Trace ((Method.ask e g >>= f) m) history (.pure (r, m'))) :
    ∃ a rest, history = ⟨e, a⟩ :: rest ∧
      ((∃ text, g a = .error text ∧ rest = [] ∧ r = .error text ∧ m' = m) ∨
        ∃ value, g a = .ok value ∧ Trace (f value m) rest (.pure (r, m'))) := by
  rcases method_trace_bind trace with ⟨text, first, rfl⟩ |
    ⟨value, m₁, before, rest, rfl, first, second⟩
  · obtain ⟨a, rfl, hfailed, rfl⟩ := method_trace_ask first
    exact ⟨a, [], rfl, .inl ⟨text, hfailed.symm, rfl, rfl, rfl⟩⟩
  · obtain ⟨a, rfl, hanswered, rfl⟩ := method_trace_ask first
    exact ⟨a, rest, rfl, .inr ⟨value, hanswered.symm, second⟩⟩

/-- Steps that only touch the memory make no request. -/
theorem method_trace_self {f : M → Method E R M β} {m : M} {history : List (Event E R)}
    {out : Except String β × M} (trace : Trace ((Method.self >>= f) m) history (.pure out)) :
    Trace (f m m) history (.pure out) := trace

theorem method_trace_update {change : M → M} {f : Unit → Method E R M β} {m : M}
    {history : List (Event E R)} {out : Except String β × M}
    (trace : Trace ((Method.update change >>= f) m) history (.pure out)) :
    Trace (f () (change m)) history (.pure out) := trace

theorem method_trace_done {a : α} {m m' : M} {history : List (Event E R)} {r : Except String α}
    (trace : Trace ((pure a : Method E R M α) m) history (.pure (r, m'))) :
    history = [] ∧ r = .ok a ∧ m' = m := by
  obtain ⟨rfl, hend⟩ := trace_pure trace
  obtain ⟨rfl, rfl⟩ := Prod.mk.inj hend
  exact ⟨rfl, rfl, rfl⟩

/-- A value computed in the end makes no request. -/
theorem method_trace_map {method : Method E R M α} {g : α → β} {m m' : M}
    {history : List (Event E R)} {r : Except String β}
    (trace : Trace ((method >>= fun a => pure (g a)) m) history (.pure (r, m'))) :
    ∃ result, Trace (method m) history (.pure (result, m')) ∧ r = result.map g := by
  rcases method_trace_bind trace with ⟨text, first, rfl⟩ |
    ⟨a, m₁, before, after, rfl, first, second⟩
  · exact ⟨.error text, first, rfl⟩
  · obtain ⟨rfl, rfl, rfl⟩ := method_trace_done second
    rw [List.append_nil]
    exact ⟨.ok a, first, rfl⟩

theorem method_trace_throw {text : String} {m m' : M} {history : List (Event E R)}
    {r : Except String α}
    (trace : Trace ((Method.throw text : Method E R M α) m) history (.pure (r, m'))) :
    history = [] ∧ r = .error text ∧ m' = m := by
  obtain ⟨rfl, hend⟩ := trace_pure trace
  obtain ⟨rfl, rfl⟩ := Prod.mk.inj hend
  exact ⟨rfl, rfl, rfl⟩

theorem method_trace_changed {change : M → M} {m m' : M} {history : List (Event E R)}
    {r : Except String Unit}
    (trace : Trace ((Method.update change : Method E R M Unit) m) history (.pure (r, m'))) :
    history = [] ∧ r = .ok () ∧ m' = change m := by
  obtain ⟨rfl, hend⟩ := trace_pure trace
  obtain ⟨rfl, rfl⟩ := Prod.mk.inj hend
  exact ⟨rfl, rfl, rfl⟩

end Methods

end Sharing

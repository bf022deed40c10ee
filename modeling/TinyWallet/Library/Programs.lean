import Mathlib

/-!
# Programs that ask the outside world, and the systems they run in

A program is a finite tree of requests: it ends with a value or an error, or it
makes one request and continues with the answer. A monitor says step by step
which requests are allowed; a program that follows it makes no other, whatever
the answers it is assumed to get.

A system is any number of programs over one shared state, one request at a
time. The invariant rule below reduces a property of every reachable
configuration to one property of each program and one of each request.
-/

namespace Programs

inductive Prog (E : Type) (R : E → Type) (ε α : Type) : Type where
  | pure (a : α)
  | fail (e : ε)
  | call (e : E) (k : R e → Prog E R ε α)

variable {E : Type} {R : E → Type} {ε ε' α β : Type}

namespace Prog

def bind : Prog E R ε α → (α → Prog E R ε β) → Prog E R ε β
  | .pure a, f => f a
  | .fail e, _ => .fail e
  | .call e k, f => .call e fun r => (k r).bind f

instance : Monad (Prog E R ε) where
  pure := .pure
  bind := bind

/-- Make one request and return its answer. -/
def perform (e : E) : Prog E R ε (R e) := .call e .pure

def lift : Except ε α → Prog E R ε α
  | .ok a => .pure a
  | .error e => .fail e

/-- Make one request and turn its answer into a value or an error. -/
def ask (e : E) (f : R e → Except ε α) : Prog E R ε α := .call e fun r => lift (f r)

/-- Run a program and look at how it ended. -/
def attempt : Prog E R ε α → Prog E R ε' (Except ε α)
  | .pure a => .pure (.ok a)
  | .fail e => .pure (.error e)
  | .call e k => .call e fun r => (k r).attempt

def mapError (f : ε → ε') : Prog E R ε α → Prog E R ε' α
  | .pure a => .pure a
  | .fail e => .fail (f e)
  | .call e k => .call e fun r => (k r).mapError f

/-- The value of a program that has ended with one. -/
def value? : Prog E R ε α → Option α
  | .pure a => some a
  | _ => none

theorem eq_pure_of_value? {p : Prog E R ε α} {a : α} (h : p.value? = some a) : p = .pure a := by
  cases p with
  | pure b =>
    cases h
    rfl
  | fail e => cases h
  | call e k => cases h

@[simp] theorem pure_bind (a : α) (f : α → Prog E R ε β) : (Prog.pure a >>= f) = f a := rfl

@[simp] theorem fail_bind (e : ε) (f : α → Prog E R ε β) :
    ((Prog.fail e : Prog E R ε α) >>= f) = .fail e := rfl

@[simp] theorem call_bind (e : E) (k : R e → Prog E R ε α) (f : α → Prog E R ε β) :
    (Prog.call e k >>= f) = .call e fun r => k r >>= f := rfl

@[simp] theorem lift_ok (a : α) : (lift (.ok a) : Prog E R ε α) = .pure a := rfl

@[simp] theorem lift_error (e : ε) : (lift (.error e) : Prog E R ε α) = .fail e := rfl

theorem bind_assoc {δ : Type} (p : Prog E R ε α) (f : α → Prog E R ε β) (g : β → Prog E R ε δ) :
    (p >>= f) >>= g = p >>= fun a => f a >>= g := by
  induction p with
  | pure a => rfl
  | fail e => rfl
  | call e k ih => exact congrArg (Prog.call e) (funext ih)

theorem lift_bind_pure (x : Except ε α) (f : α → β) :
    (lift x >>= fun a => Prog.pure (f a) : Prog E R ε β) = lift (x.map f) := by
  cases x <;> rfl

end Prog

abbrev Event (E : Type) (R : E → Type) := (e : E) × R e

/-- After the requests and answers of `history`, `rest` is left to do. -/
inductive Trace : Prog E R ε α → List (Event E R) → Prog E R ε α → Prop
  | refl (p : Prog E R ε α) : Trace p [] p
  | call {e : E} {k : R e → Prog E R ε α} {r : R e} {history : List (Event E R)}
      {rest : Prog E R ε α} (tail : Trace (k r) history rest) :
      Trace (.call e k) (⟨e, r⟩ :: history) rest

theorem trace_pure {a b : α} {history : List (Event E R)}
    (trace : Trace (.pure a : Prog E R ε α) history (.pure b)) : history = [] ∧ b = a := by
  cases trace
  exact ⟨rfl, rfl⟩

/-- A finished run of a sequence is a finished run of each part. -/
theorem trace_bind {p : Prog E R ε α} {f : α → Prog E R ε β} {b : β}
    {history : List (Event E R)} (trace : Trace (p >>= f) history (.pure b)) :
    ∃ a before after, history = before ++ after ∧ Trace p before (.pure a) ∧
      Trace (f a) after (.pure b) := by
  induction p generalizing history with
  | pure a => exact ⟨a, [], history, rfl, .refl _, trace⟩
  | fail e => cases trace
  | call e k ih =>
    cases trace with
    | call tail =>
      obtain ⟨a, before, after, rfl, first, second⟩ := ih _ tail
      exact ⟨a, _ :: before, after, rfl, .call first, second⟩

/-- A finished run has passed its checks. -/
theorem trace_lift {x : Except ε α} {a : α} {history : List (Event E R)}
    (trace : Trace (Prog.lift x) history (.pure a)) : history = [] ∧ x = .ok a := by
  cases x with
  | error e => cases trace
  | ok b =>
    obtain ⟨rfl, rfl⟩ := trace_pure trace
    exact ⟨rfl, rfl⟩

theorem trace_call {e : E} {k : R e → Prog E R ε α} {a : α} {history : List (Event E R)}
    (trace : Trace (.call e k) history (.pure a)) :
    ∃ r rest, history = ⟨e, r⟩ :: rest ∧ Trace (k r) rest (.pure a) := by
  cases trace with
  | call tail => exact ⟨_, _, rfl, tail⟩

/-- A finished run of a request has made it, and its answer was accepted. -/
theorem trace_ask {e : E} {f : R e → Except ε α} {a : α} {history : List (Event E R)}
    (trace : Trace (Prog.ask e f) history (.pure a)) : ∃ r, history = [⟨e, r⟩] ∧ f r = .ok a := by
  obtain ⟨r, rest, rfl, tail⟩ := trace_call trace
  obtain ⟨rfl, h⟩ := trace_lift tail
  exact ⟨r, rfl, h⟩

/-- Every request the program can make satisfies `P`. -/
inductive Only (P : E → Prop) : Prog E R ε α → Prop
  | pure (a : α) : Only P (.pure a)
  | fail (e : ε) : Only P (.fail e)
  | call {e : E} {k : R e → Prog E R ε α} (here : P e) (rest : ∀ r, Only P (k r)) :
      Only P (.call e k)

theorem only_bind {P : E → Prop} {p : Prog E R ε α} {f : α → Prog E R ε β} (h : Only P p)
    (hf : ∀ a, Only P (f a)) : Only P (p >>= f) := by
  induction h with
  | pure a => exact hf a
  | fail e => exact .fail e
  | call here _ ih => exact .call here ih

theorem only_lift {P : E → Prop} (x : Except ε α) : Only P (Prog.lift x : Prog E R ε α) := by
  cases x with
  | error e => exact .fail e
  | ok a => exact .pure a

theorem only_ask {P : E → Prop} {e : E} (f : R e → Except ε α) (h : P e) :
    Only P (Prog.ask e f) :=
  .call h fun r => only_lift (f r)

theorem only_attempt {P : E → Prop} {p : Prog E R ε α} (h : Only P p) :
    Only P (p.attempt : Prog E R ε' (Except ε α)) := by
  induction h with
  | pure a => exact .pure _
  | fail e => exact .pure _
  | call here _ ih => exact .call here ih

theorem Trace.only {P : E → Prop} {p rest : Prog E R ε α} {history : List (Event E R)}
    (trace : Trace p history rest) (h : Only P p) : ∀ event ∈ history, P event.1 := by
  induction trace with
  | refl => simp
  | call tail ih =>
    cases h with
    | call here rest =>
      intro event hevent
      rcases List.mem_cons.mp hevent with rfl | hevent
      · exact here
      · exact ih (rest _) event hevent

/-- Every value the program can end with satisfies `Q`. -/
inductive Returns (Q : α → Prop) : Prog E R ε α → Prop
  | pure {a : α} (h : Q a) : Returns Q (.pure a)
  | fail (e : ε) : Returns Q (.fail e)
  | call {e : E} {k : R e → Prog E R ε α} (rest : ∀ r, Returns Q (k r)) : Returns Q (.call e k)

theorem returns_bind {Q : β → Prop} {p : Prog E R ε α} {f : α → Prog E R ε β}
    (hf : ∀ a, Returns Q (f a)) : Returns Q (p >>= f) := by
  induction p with
  | pure a => exact hf a
  | fail e => exact .fail e
  | call e k ih => exact .call ih

theorem returns_lift {Q : α → Prop} {x : Except ε α} (h : ∀ a, x = .ok a → Q a) :
    Returns Q (Prog.lift x : Prog E R ε α) := by
  cases x with
  | error e => exact .fail e
  | ok a => exact .pure (h a rfl)

theorem Trace.returns {Q : α → Prop} {p : Prog E R ε α} {history : List (Event E R)} {a : α}
    (trace : Trace p history (.pure a)) (h : Returns Q p) : Q a := by
  generalize hrest : Prog.pure a = rest at trace
  induction trace with
  | refl p =>
    subst hrest
    cases h with
    | pure h => exact h
  | call tail ih =>
    cases h with
    | call rest => exact ih (rest _) hrest

/-- How a program runs when `answer` answers its requests. -/
def outcome (answer : (e : E) → Option (R e)) : Nat → Prog E R ε α → Option (List (Event E R) × α)
  | _, .pure a => some ([], a)
  | _, .fail _ => none
  | 0, .call _ _ => none
  | fuel + 1, .call e k => (answer e).bind fun r =>
      (outcome answer fuel (k r)).map fun result => (⟨e, r⟩ :: result.1, result.2)

theorem outcome_trace {answer : (e : E) → Option (R e)} {fuel : Nat} {p : Prog E R ε α}
    {history : List (Event E R)} {a : α} (h : outcome answer fuel p = some (history, a)) :
    Trace p history (.pure a) := by
  induction fuel generalizing p history with
  | zero =>
    cases p with
    | pure b =>
      cases h
      exact .refl _
    | fail e => cases h
    | call e k => cases h
  | succ fuel ih =>
    cases p with
    | pure b =>
      cases h
      exact .refl _
    | fail e => cases h
    | call e k =>
      obtain ⟨r, _, hrest⟩ := Option.bind_eq_some_iff.mp h
      obtain ⟨result, hresult, heq⟩ := Option.map_eq_some_iff.mp hrest
      cases heq
      exact .call (ih hresult)

/-- Every request of such a run is answered by `answer`. -/
theorem outcome_answers {answer : (e : E) → Option (R e)} {fuel : Nat} {p : Prog E R ε α}
    {history : List (Event E R)} {a : α} (h : outcome answer fuel p = some (history, a)) :
    ∀ event ∈ history, answer event.1 = some event.2 := by
  induction fuel generalizing p history with
  | zero =>
    cases p with
    | pure b =>
      cases h
      simp
    | fail e => cases h
    | call e k => cases h
  | succ fuel ih =>
    cases p with
    | pure b =>
      cases h
      simp
    | fail e => cases h
    | call e k =>
      obtain ⟨r, hr, hrest⟩ := Option.bind_eq_some_iff.mp h
      obtain ⟨result, hresult, heq⟩ := Option.map_eq_some_iff.mp hrest
      cases heq
      intro event hmem
      rcases List.mem_cons.mp hmem with rfl | hlater
      · exact hr
      · exact ih hresult event hlater

/-- A program whose rest makes no request runs like its first part. -/
theorem outcome_bind {answer : (e : E) → Option (R e)} {f : α → Prog E R ε β} {a : α} {b : β}
    (hf : f a = .pure b) {fuel : Nat} : ∀ {p : Prog E R ε α} {history : List (Event E R)},
      outcome answer fuel p = some (history, a) →
        outcome answer fuel (p >>= f) = some (history, b) := by
  induction fuel with
  | zero =>
    intro p history h
    cases p with
    | pure c =>
      cases h
      rw [Prog.pure_bind, hf]
      rfl
    | fail e => cases h
    | call e k => cases h
  | succ fuel ih =>
    intro p history h
    cases p with
    | pure c =>
      cases h
      rw [Prog.pure_bind, hf]
      rfl
    | fail e => cases h
    | call e k =>
      obtain ⟨r, hr, hrest⟩ := Option.bind_eq_some_iff.mp h
      obtain ⟨result, hresult, heq⟩ := Option.map_eq_some_iff.mp hrest
      cases heq
      have hlater := ih hresult
      rw [Prog.call_bind, outcome, hr, Option.bind_some, hlater]
      rfl

/-- What one program is allowed to do, step by step: `assumes` restricts the
answers, and a request that `advances` nowhere is not allowed. -/
structure Monitor (E : Type) (R : E → Type) (G : Type) where
  assumes : G → (e : E) → R e → Prop
  advances : G → (e : E) → R e → G → Prop

section Monitors

variable {G G' : Type} (m : Monitor E R G)

inductive Monitor.Runs : G → List (Event E R) → G → Prop
  | refl (g : G) : Runs g [] g
  | step {g g' g'' : G} {e : E} {r : R e} {rest : List (Event E R)}
      (first : m.advances g e r g') (tail : Runs g' rest g'') : Runs g (⟨e, r⟩ :: rest) g''

/-- The program does only what the monitor allows and ends in `post`. -/
inductive Follows (post : Except ε α → G → Prop) : Prog E R ε α → G → Prop
  | pure {a : α} {g : G} (h : post (.ok a) g) : Follows post (.pure a) g
  | fail {e : ε} {g : G} (h : post (.error e) g) : Follows post (.fail e) g
  | call {e : E} {k : R e → Prog E R ε α} {g : G} (next : R e → G)
      (allowed : ∀ r, m.assumes g e r → m.advances g e r (next r))
      (rest : ∀ r, m.assumes g e r → Follows post (k r) (next r)) : Follows post (.call e k) g

variable {m} {m' : Monitor E R G'}

theorem Monitor.Runs.snoc {g g' g'' : G} {history : List (Event E R)} {e : E} {r : R e}
    (h : m.Runs g history g') (last : m.advances g' e r g'') :
    m.Runs g (history ++ [⟨e, r⟩]) g'' := by
  induction h with
  | refl g => exact .step last (.refl _)
  | step first _ ih => exact .step first (ih last)

/-- A run can be cut at any event. -/
theorem Monitor.Runs.split {g g' : G} {before after : List (Event E R)} {e : E} {r : R e}
    (h : m.Runs g (before ++ ⟨e, r⟩ :: after) g') :
    ∃ g₁ g₂, m.Runs g before g₁ ∧ m.advances g₁ e r g₂ ∧ m.Runs g₂ after g' := by
  induction before generalizing g with
  | nil =>
    cases h with
    | step first tail => exact ⟨_, _, .refl _, first, tail⟩
  | cons event rest ih =>
    cases h with
    | step first tail =>
      obtain ⟨g₁, g₂, run, step, tail⟩ := ih tail
      exact ⟨g₁, g₂, .step first run, step, tail⟩

theorem follows_mono {post post' : Except ε α → G → Prop}
    (imp : ∀ result g, post result g → post' result g) {p : Prog E R ε α} {g : G}
    (h : Follows m post p g) : Follows m post' p g := by
  induction h with
  | pure h => exact .pure (imp _ _ h)
  | fail h => exact .fail (imp _ _ h)
  | call next allowed _ ih => exact .call next allowed ih

/-- What `f` must follow after a result; an error ends the whole program. -/
def Continues (m : Monitor E R G) (post : Except ε β → G → Prop) (f : α → Prog E R ε β) :
    Except ε α → G → Prop
  | .ok a, g => Follows m post (f a) g
  | .error e, g => post (.error e) g

theorem follows_bind {post : Except ε β → G → Prop} {p : Prog E R ε α}
    {f : α → Prog E R ε β} {g : G} (h : Follows m (Continues m post f) p g) :
    Follows m post (p >>= f) g := by
  induction h with
  | pure h => exact h
  | fail h => exact .fail h
  | call next allowed _ ih => exact .call next allowed ih

theorem follows_attempt {post : Except ε' (Except ε α) → G → Prop} {p : Prog E R ε α} {g : G}
    (h : Follows m (fun result g' => post (.ok result) g') p g) :
    Follows m post p.attempt g := by
  induction h with
  | pure h => exact .pure h
  | fail h => exact .pure h
  | call next allowed _ ih => exact .call next allowed ih

theorem follows_mapError {post : Except ε' α → G → Prop} {f : ε → ε'} {p : Prog E R ε α} {g : G}
    (h : Follows m (fun result g' => post (result.mapError f) g') p g) :
    Follows m post (p.mapError f) g := by
  induction h with
  | pure h => exact .pure h
  | fail h => exact .fail h
  | call next allowed _ ih => exact .call next allowed ih

theorem follows_lift {post : Except ε α → G → Prop} {x : Except ε α} {g : G} (h : post x g) :
    Follows m post (Prog.lift x : Prog E R ε α) g := by
  cases x with
  | error e => exact .fail h
  | ok a => exact .pure h

/-- One request, with a next state for each answer. -/
theorem follows_call {post : Except ε α → G → Prop} {e : E} {k : R e → Prog E R ε α} {g : G}
    (h : ∀ r, m.assumes g e r → ∃ g', m.advances g e r g' ∧ Follows m post (k r) g') :
    Follows m post (.call e k) g := by
  have : Nonempty G := ⟨g⟩
  choose! next allowed rest using h
  exact .call next allowed rest

theorem follows_ask {post : Except ε α → G → Prop} {e : E} {f : R e → Except ε α} {g : G}
    (h : ∀ r, m.assumes g e r → ∃ g', m.advances g e r g' ∧ post (f r) g') :
    Follows m post (Prog.ask e f) g := by
  refine follows_call fun r assumed => ?_
  obtain ⟨g', advanced, hpost⟩ := h r assumed
  exact ⟨g', advanced, follows_lift hpost⟩

/-- The requests a program has made are a run of the monitor it follows, where
nothing is assumed. -/
theorem Follows.runs {post : Except ε α → G → Prop} {p rest : Prog E R ε α} {g : G}
    {history : List (Event E R)} (h : Follows m post p g) (total : ∀ g e r, m.assumes g e r)
    (trace : Trace p history rest) : ∃ g', m.Runs g history g' ∧ Follows m post rest g' := by
  induction trace generalizing g with
  | refl p => exact ⟨g, .refl g, h⟩
  | call tail ih =>
    cases h with
    | call next allowed rest =>
      obtain ⟨g', run, hrest⟩ := ih (rest _ (total _ _ _))
      exact ⟨g', .step (allowed _ (total _ _ _)) run, hrest⟩

/-- A finished run ends as the program may. -/
theorem Follows.trace {post : Except ε α → G → Prop} {p : Prog E R ε α} {g : G} {a : α}
    {history : List (Event E R)} (h : Follows m post p g) (total : ∀ g e r, m.assumes g e r)
    (trace : Trace p history (.pure a)) : ∃ g', m.Runs g history g' ∧ post (.ok a) g' := by
  obtain ⟨g', run, finished⟩ := h.runs total trace
  cases finished with
  | pure hpost => exact ⟨g', run, hpost⟩

/-- A program whose requests all leave the monitor where it is. -/
theorem follows_of_only {P : E → Prop} {post : Except ε α → G → Prop} {g : G}
    (stay : ∀ e r, P e → m.advances g e r g) {p : Prog E R ε α} (h : Only P p)
    (hpost : ∀ result, post result g) : Follows m post p g := by
  induction h with
  | pure a => exact .pure (hpost _)
  | fail e => exact .fail (hpost _)
  | call here _ ih => exact .call (fun _ => g) (fun r _ => stay _ r here) fun r _ => ih r

/-- The same, where only some values are returned. -/
theorem follows_of_returns {P : E → Prop} {Q : α → Prop} {post : Except ε α → G → Prop} {g : G}
    (stay : ∀ e r, P e → m.advances g e r g) {p : Prog E R ε α} (h : Only P p)
    (returns : Returns Q p) (failed : ∀ e, post (.error e) g) (value : ∀ a, Q a → post (.ok a) g) :
    Follows m post p g := by
  induction h with
  | pure a =>
    cases returns with
    | pure h => exact .pure (value a h)
  | fail e => exact .fail (failed e)
  | call here _ ih =>
    cases returns with
    | call rest => exact .call (fun _ => g) (fun r _ => stay _ r here) fun r _ => ih r (rest r)

/-- A program that follows one monitor follows any monitor that allows at least
as much in related states. -/
theorem follows_simulate {post : Except ε α → G → Prop} {post' : Except ε α → G' → Prop}
    (rel : G → G' → Prop)
    (assumed : ∀ g g' e r, rel g g' → m'.assumes g' e r → m.assumes g e r)
    (step : ∀ g g' e r h, rel g g' → m'.assumes g' e r → m.advances g e r h →
      ∃ h', m'.advances g' e r h' ∧ rel h h')
    (final : ∀ result g g', rel g g' → post result g → post' result g')
    {p : Prog E R ε α} {g : G} {g' : G'} (related : rel g g') (h : Follows m post p g) :
    Follows m' post' p g' := by
  induction h generalizing g' with
  | pure h => exact .pure (final _ _ _ related h)
  | fail h => exact .fail (final _ _ _ related h)
  | call next allowed _ ih =>
    refine follows_call fun r hr => ?_
    have hassumed := assumed _ _ _ _ related hr
    obtain ⟨h', advanced, related'⟩ := step _ _ _ _ _ related hr (allowed r hassumed)
    exact ⟨h', advanced, ih r hassumed related'⟩

end Monitors

section Systems

variable {S ι G : Type} [DecidableEq ι]

/-- Programs over a shared state, each with the requests it has made. -/
structure Config (S ι E : Type) (R : E → Type) (ε α : Type) where
  shared : S
  program : ι → Prog E R ε α
  history : ι → List (Event E R)

/-- Program `i` makes its next request and is answered as `env` allows. -/
inductive Step (env : S → ι → (e : E) → R e → S → Prop) :
    Config S ι E R ε α → Config S ι E R ε α → Prop
  | answer {c : Config S ι E R ε α} {i : ι} {e : E} {k : R e → Prog E R ε α} {r : R e} {s : S}
      (next : c.program i = .call e k) (allowed : env c.shared i e r s) :
      Step env c ⟨s, Function.update c.program i (k r),
        Function.update c.history i (c.history i ++ [⟨e, r⟩])⟩

def Config.initial (s : S) (programs : ι → Prog E R ε α) : Config S ι E R ε α :=
  ⟨s, programs, fun _ => []⟩

def Reachable (env : S → ι → (e : E) → R e → S → Prop) (s : S) (programs : ι → Prog E R ε α)
    (c : Config S ι E R ε α) : Prop :=
  Relation.ReflTransGen (Step env) (Config.initial s programs) c

/-- The invariant rule. Every program follows the monitor from its own start;
every request keeps `inv`, which speaks of the shared state and of the monitor
states of all programs, and `inv` justifies what the monitor assumes. -/
theorem reachable_invariant (m : Monitor E R G) (start : ι → G) (inv : S → (ι → G) → Prop)
    {env : S → ι → (e : E) → R e → S → Prop} {s : S} {programs : ι → Prog E R ε α}
    (initially : inv s start)
    (follows : ∀ i, Follows m (fun _ _ => True) (programs i) (start i))
    (assumed : ∀ s g i e r s', inv s g → env s i e r s' → m.assumes (g i) e r)
    (kept : ∀ s g i e r s' g', inv s g → env s i e r s' → m.advances (g i) e r g' →
      inv s' (Function.update g i g'))
    {c : Config S ι E R ε α} (reach : Reachable env s programs c) :
    ∃ g : ι → G, (∀ i, m.Runs (start i) (c.history i) (g i)) ∧
      (∀ i, Follows m (fun _ _ => True) (c.program i) (g i)) ∧ inv c.shared g := by
  induction reach with
  | refl => exact ⟨start, fun _ => .refl _, follows, initially⟩
  | tail _ step ih =>
    obtain ⟨g, hruns, hfollows, hinv⟩ := ih
    cases step with
    | @answer i e k r s' next allowed =>
    have hi := hfollows i
    rw [next] at hi
    have hassumed := assumed _ _ _ _ _ _ hinv allowed
    cases hi with
    | call nextOf advances rest =>
    have hadvance := advances r hassumed
    refine ⟨Function.update g i (nextOf r), ?_, ?_, kept _ _ _ _ _ _ _ hinv allowed hadvance⟩
    · intro j
      by_cases hj : j = i
      · subst hj
        simpa using (hruns j).snoc hadvance
      · simpa [hj] using hruns j
    · intro j
      by_cases hj : j = i
      · subst hj
        simpa using rest r hassumed
      · simpa [hj] using hfollows j

/-- Program `i` runs alone for some steps, answered by a function of the shared
state: the state it leaves and the requests it made. -/
def play (answer : S → (e : E) → Option (R e × S)) :
    Nat → S → Prog E R ε α → S × List (Event E R)
  | 0, s, _ => (s, [])
  | _ + 1, s, .pure _ => (s, [])
  | _ + 1, s, .fail _ => (s, [])
  | fuel + 1, s, .call e k =>
    match answer s e with
    | some (r, s') =>
      let (s'', events) := play answer fuel s' (k r)
      (s'', ⟨e, r⟩ :: events)
    | none => (s, [])

/-- Answers that the environment allows keep a configuration reachable. -/
theorem Reachable.play {env : S → ι → (e : E) → R e → S → Prop} {s : S}
    {programs : ι → Prog E R ε α} {i : ι} {answer : S → (e : E) → Option (R e × S)}
    (allowed : ∀ s e r s', answer s e = some (r, s') → env s i e r s') (fuel : Nat)
    {c : Config S ι E R ε α} (reach : Reachable env s programs c) :
    ∃ c', Reachable env s programs c' ∧
      c'.shared = (Programs.play answer fuel c.shared (c.program i)).1 ∧
      c'.history i = c.history i ++ (Programs.play answer fuel c.shared (c.program i)).2 ∧
      ∀ j, j ≠ i → c'.program j = c.program j ∧ c'.history j = c.history j := by
  induction fuel generalizing c with
  | zero => exact ⟨c, reach, rfl, by simp [Programs.play], fun _ _ => ⟨rfl, rfl⟩⟩
  | succ fuel ih =>
    cases next : c.program i with
    | pure a => exact ⟨c, reach, rfl, by simp [Programs.play], fun _ _ => ⟨rfl, rfl⟩⟩
    | fail e => exact ⟨c, reach, rfl, by simp [Programs.play], fun _ _ => ⟨rfl, rfl⟩⟩
    | call e k =>
      cases answered : answer c.shared e with
      | none =>
        have stuck : Programs.play answer (fuel + 1) c.shared (.call e k) = (c.shared, []) := by
          simp [Programs.play, answered]
        rw [stuck]
        exact ⟨c, reach, rfl, by simp, fun _ _ => ⟨rfl, rfl⟩⟩
      | some reply =>
        obtain ⟨r, s'⟩ := reply
        have step := Step.answer next (allowed _ _ _ _ answered)
        obtain ⟨c', reach', shared', history', others⟩ :=
          ih (Relation.ReflTransGen.tail reach step)
        refine ⟨c', reach', ?_, ?_, ?_⟩
        · simpa [Programs.play, answered] using shared'
        · simpa [Programs.play, answered] using history'
        · intro j hj
          simpa [hj] using others j hj

/-- Program `i` runs alone for some steps: the state it leaves and what it has
left to do. -/
def advance (answer : S → (e : E) → Option (R e × S)) :
    Nat → S → Prog E R ε α → S × Prog E R ε α
  | 0, s, p => (s, p)
  | _ + 1, s, .pure a => (s, .pure a)
  | _ + 1, s, .fail e => (s, .fail e)
  | fuel + 1, s, .call e k =>
    match answer s e with
    | some (r, s') => advance answer fuel s' (k r)
    | none => (s, .call e k)

theorem Reachable.advance {env : S → ι → (e : E) → R e → S → Prop} {s : S}
    {programs : ι → Prog E R ε α} {i : ι} {answer : S → (e : E) → Option (R e × S)}
    (allowed : ∀ s e r s', answer s e = some (r, s') → env s i e r s') (fuel : Nat)
    {c : Config S ι E R ε α} (reach : Reachable env s programs c) :
    ∃ c', Reachable env s programs c' ∧
      c'.shared = (Programs.advance answer fuel c.shared (c.program i)).1 ∧
      c'.program =
        Function.update c.program i (Programs.advance answer fuel c.shared (c.program i)).2 := by
  induction fuel generalizing c with
  | zero => exact ⟨c, reach, rfl, by simp [Programs.advance]⟩
  | succ fuel ih =>
    have stuck : ∀ p, c.program i = p → Function.update c.program i p = c.program := by
      rintro p rfl
      simp
    cases next : c.program i with
    | pure a => exact ⟨c, reach, rfl, (stuck _ next).symm⟩
    | fail e => exact ⟨c, reach, rfl, (stuck _ next).symm⟩
    | call e k =>
      cases answered : answer c.shared e with
      | none =>
        refine ⟨c, reach, by simp [Programs.advance, answered], ?_⟩
        simp only [Programs.advance, answered]
        exact (stuck _ next).symm
      | some reply =>
        obtain ⟨r, s'⟩ := reply
        have step := Step.answer next (allowed _ _ _ _ answered)
        obtain ⟨c', reach', shared', program'⟩ := ih (Relation.ReflTransGen.tail reach step)
        refine ⟨c', reach', ?_, ?_⟩
        · simpa [Programs.advance, answered] using shared'
        · simpa [Programs.advance, answered] using program'

/-- Programs that run one after the other, each for some steps. -/
def schedule (answer : ι → S → (e : E) → Option (R e × S)) :
    List (ι × Nat) → S → (ι → Prog E R ε α) → S × (ι → Prog E R ε α)
  | [], s, programs => (s, programs)
  | (i, fuel) :: rest, s, programs =>
    let (s', p) := advance (answer i) fuel s (programs i)
    schedule answer rest s' (Function.update programs i p)

theorem Reachable.schedule {env : S → ι → (e : E) → R e → S → Prop} {s : S}
    {programs : ι → Prog E R ε α} {answer : ι → S → (e : E) → Option (R e × S)}
    (allowed : ∀ i s e r s', answer i s e = some (r, s') → env s i e r s')
    (turns : List (ι × Nat)) {c : Config S ι E R ε α} (reach : Reachable env s programs c) :
    ∃ c', Reachable env s programs c' ∧
      c'.shared = (Programs.schedule answer turns c.shared c.program).1 ∧
      c'.program = (Programs.schedule answer turns c.shared c.program).2 := by
  induction turns generalizing c with
  | nil => exact ⟨c, reach, rfl, rfl⟩
  | cons turn rest ih =>
    obtain ⟨i, fuel⟩ := turn
    obtain ⟨c₁, reach₁, shared₁, program₁⟩ := reach.advance (allowed i) fuel
    obtain ⟨c', reach', shared', program'⟩ := ih reach₁
    refine ⟨c', reach', ?_, ?_⟩
    · rw [shared', shared₁, program₁]
      rfl
    · rw [program', shared₁, program₁]
      rfl

end Systems

end Programs

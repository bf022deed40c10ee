import TinyWallet.X402.Types

/-!
# Choosing what a challenge is paid with

A server lists what it accepts; the client takes one entry of the list, or
refuses the challenge. Only USDC on known networks is paid, Solana before EVM.
-/

namespace PaymentSelection

open RustText X402Wire

inductive PaymentChain where
  | solana
  | evm
deriving DecidableEq, Repr

inductive AssetCheck where
  | allowed
  | unknownNetwork
  | wrongAsset
deriving DecidableEq, Repr

def startsWith (s p : String) : Bool := p.toList.isPrefixOf s.toList

/-- Every payable network with its USDC mint or contract. -/
def supportedUsdc : List (String × String) :=
  [("solana:5eykt4UsFv8P8NJdTREpY1vzqKqZKvdp", "EPjFWdd5AufqSSqeM2qN1xzybapC8G4wEGGkZwyTDt1v"),
    ("solana:EtWTRABZaYq6iMfeYKouRu166VU2xqa1", "4zMMC9srt5Ri5X14GAgXhaHii3GnPAEERYPJgZJDncDU"),
    ("eip155:8453", "0x833589fCD6eDb6E08f4c7C32D4f71b54bdA02913"),
    ("eip155:84532", "0x036CbD53842c5426634e7929541eC2318f3dCF7e"),
    ("eip155:1", "0xA0b86991c6218b36c1d19D4a2e9Eb0cE3606eB48")]

def checkUsdc (network asset : String) : AssetCheck :=
  match supportedUsdc.find? fun entry => entry.1 = network with
  | none => .unknownNetwork
  | some (_, usdc) =>
    let same := if startsWith network "eip155:" then eqIgnoreAsciiCase usdc asset
      else decide (usdc = asset)
    if same then .allowed else .wrongAsset

def chainOf (network : String) : Option PaymentChain :=
  if startsWith network "solana:" then some .solana
  else if startsWith network "eip155:" then some .evm
  else none

def ensurePayable (requirement : PaymentRequirements) : Except X402Error Unit :=
  match checkUsdc requirement.network requirement.asset with
  | .allowed => .ok ()
  | .unknownNetwork => .error (.unsupportedNetwork requirement.network)
  | .wrongAsset => .error (.unsupportedAsset requirement.network requirement.asset)

/-- What is left when the list is at its end. -/
def fallback (evm : Option (Nat × PaymentChain)) (firstRefusal : Option X402Error) :
    Except X402Error (Nat × PaymentChain) :=
  match evm, firstRefusal with
  | some choice, _ => .ok choice
  | none, some refusal => .error refusal
  | none, none => .error .noPaymentOption

def selectLoop (index : Nat) (evm : Option (Nat × PaymentChain))
    (firstRefusal : Option X402Error) :
    List PaymentRequirements → Except X402Error (Nat × PaymentChain)
  | [] => fallback evm firstRefusal
  | requirement :: rest =>
    match (chainOf requirement.network).filter fun _ => requirement.scheme = "exact" with
    | none => selectLoop (index + 1) evm firstRefusal rest
    | some chain =>
      match ensurePayable requirement with
      | .ok () =>
        if chain = .solana then .ok (index, chain)
        else selectLoop (index + 1) (evm.or (some (index, chain))) firstRefusal rest
      | .error refusal => selectLoop (index + 1) evm (firstRefusal.or (some refusal)) rest

def selectRequirement (challenge : PaymentRequired) : Except X402Error (Nat × PaymentChain) :=
  selectLoop 0 none none challenge.accepts

def PaymentChain.family : PaymentChain → String
  | solana => "solana:"
  | evm => "eip155:"

/-- An `exact` option on a network of the family. -/
def OfferedOn (chain : PaymentChain) (r : PaymentRequirements) : Prop :=
  r.scheme = "exact" ∧ chain.family.toList <+: r.network.toList

def Offered (r : PaymentRequirements) : Prop := ∃ chain, OfferedOn chain r

def Allowlisted (network : String) : Prop := ∃ usdc, (network, usdc) ∈ supportedUsdc

/-- The network's USDC; letter case is of no matter in an EVM address. -/
def IsUsdc (network asset : String) : Prop :=
  ∃ usdc, (network, usdc) ∈ supportedUsdc ∧
    (usdc = asset ∨ PaymentChain.evm.family.toList <+: network.toList ∧
      usdc.toList.map Char.toLower = asset.toList.map Char.toLower)

def Payable (r : PaymentRequirements) : Prop := r.scheme = "exact" ∧ IsUsdc r.network r.asset

def PayableOn (chain : PaymentChain) (r : PaymentRequirements) : Prop :=
  OfferedOn chain r ∧ IsUsdc r.network r.asset

/-- Why an option that is offered is not paid. -/
inductive Refuses (r : PaymentRequirements) : X402Error → Prop
  | network (unknown : ¬Allowlisted r.network) : Refuses r (.unsupportedNetwork r.network)
  | asset (known : Allowlisted r.network) (wrong : ¬IsUsdc r.network r.asset) :
      Refuses r (.unsupportedAsset r.network r.asset)

/-- `i` is the least index of an option with the property. -/
def First (accepts : List PaymentRequirements) (P : PaymentRequirements → Prop) (i : Nat) : Prop :=
  (∃ r, accepts[i]? = some r ∧ P r) ∧ ∀ j < i, ∀ r, accepts[j]? = some r → ¬P r

/-- The option that the priority rule picks. -/
inductive Preferred (accepts : List PaymentRequirements) (i : Nat) : PaymentChain → Prop
  | solana (first : First accepts (PayableOn .solana) i) : Preferred accepts i .solana
  | evm (noSolana : ∀ r ∈ accepts, ¬PayableOn .solana r)
      (first : First accepts (PayableOn .evm) i) : Preferred accepts i .evm

/-- The refusal of a list with nothing payable in it. -/
inductive Refusal (accepts : List PaymentRequirements) : X402Error → Prop
  | first (i : Nat) (r : PaymentRequirements) (refusal : X402Error)
      (first : First accepts Offered i) (here : accepts[i]? = some r)
      (refuses : Refuses r refusal) : Refusal accepts refusal
  | nothing (none : ∀ r ∈ accepts, ¬Offered r) : Refusal accepts .noPaymentOption

theorem startsWith_iff {s p : String} : startsWith s p = true ↔ p.toList <+: s.toList :=
  List.isPrefixOf_iff_prefix

theorem find_supported {network usdc : String} (h : (network, usdc) ∈ supportedUsdc) :
    supportedUsdc.find? (fun entry => entry.1 = network) = some (network, usdc) := by
  have hall : ∀ entry ∈ supportedUsdc,
      supportedUsdc.find? (fun other => other.1 = entry.1) = some entry := by
    decide +kernel
  exact hall _ h

/-- A payable network is of one of the two families. -/
theorem Allowlisted.offered {r : PaymentRequirements} (h : Allowlisted r.network)
    (scheme : r.scheme = "exact") : Offered r := by
  have hall : ∀ entry ∈ supportedUsdc, PaymentChain.solana.family.toList <+: entry.1.toList ∨
      PaymentChain.evm.family.toList <+: entry.1.toList := by
    decide +kernel
  obtain ⟨usdc, hmem⟩ := h
  rcases hall _ hmem with hsolana | hevm
  · exact ⟨.solana, scheme, hsolana⟩
  · exact ⟨.evm, scheme, hevm⟩

theorem IsUsdc.allowlisted {network asset : String} (h : IsUsdc network asset) :
    Allowlisted network := by
  obtain ⟨usdc, hmem, -⟩ := h
  exact ⟨usdc, hmem⟩

theorem payable_iff {r : PaymentRequirements} : Payable r ↔ ∃ chain, PayableOn chain r := by
  constructor
  · rintro ⟨hexact, husdc⟩
    obtain ⟨chain, hoffered⟩ := husdc.allowlisted.offered hexact
    exact ⟨chain, hoffered, husdc⟩
  · rintro ⟨chain, ⟨hexact, -⟩, husdc⟩
    exact ⟨hexact, husdc⟩

/-- The two families have no network in common. -/
theorem family_unique {chain chain' : PaymentChain} {network : String}
    (h : chain.family.toList <+: network.toList) (h' : chain'.family.toList <+: network.toList) :
    chain = chain' := by
  have hfirst : ∀ chain : PaymentChain, chain.family.toList <+: network.toList →
      network.toList.head? = chain.family.toList.head? := by
    rintro chain ⟨rest, hrest⟩
    rw [← hrest]
    cases chain <;> rfl
  have hsame := (hfirst chain h).symm.trans (hfirst chain' h')
  revert hsame
  cases chain <;> cases chain' <;> decide +kernel

theorem chainOf_iff {network : String} {chain : PaymentChain} :
    chainOf network = some chain ↔ chain.family.toList <+: network.toList := by
  have hsolana : startsWith network "solana:" = true ↔
      PaymentChain.solana.family.toList <+: network.toList := startsWith_iff
  have hevm : startsWith network "eip155:" = true ↔
      PaymentChain.evm.family.toList <+: network.toList := startsWith_iff
  rw [chainOf]
  constructor
  · intro h
    split_ifs at h with hs he
    · cases h
      exact hsolana.mp hs
    · cases h
      exact hevm.mp he
  · intro h
    cases chain with
    | solana => rw [if_pos (hsolana.mpr h)]
    | evm =>
      rw [if_neg, if_pos (hevm.mpr h)]
      intro hs
      cases family_unique h (hsolana.mp hs)

theorem offeredOn_iff {r : PaymentRequirements} {chain : PaymentChain} :
    ((chainOf r.network).filter fun _ => r.scheme = "exact") = some chain ↔
      OfferedOn chain r := by
  rw [Option.filter_eq_some_iff, chainOf_iff, decide_eq_true_eq, and_comm]
  rfl

theorem checkUsdc_allowed {network asset : String} :
    checkUsdc network asset = .allowed ↔ IsUsdc network asset := by
  rw [checkUsdc]
  constructor
  · intro h
    cases hfind : supportedUsdc.find? fun entry => entry.1 = network with
    | none =>
      rw [hfind] at h
      cases h
    | some entry =>
      obtain ⟨known, usdc⟩ := entry
      rw [hfind] at h
      have hmem := List.mem_of_find?_eq_some hfind
      obtain rfl : known = network := by simpa using List.find?_some hfind
      refine ⟨usdc, hmem, ?_⟩
      dsimp only at h
      by_cases hevm : startsWith known "eip155:" = true
      · rw [if_pos hevm] at h
        have hsame : eqIgnoreAsciiCase usdc asset = true := by
          by_contra hne
          rw [if_neg hne] at h
          cases h
        exact .inr ⟨startsWith_iff.mp hevm, by simpa [eqIgnoreAsciiCase] using hsame⟩
      · rw [if_neg hevm] at h
        have hsame : usdc = asset := by
          by_contra hne
          rw [if_neg (by simpa using hne)] at h
          cases h
        exact .inl hsame
  · rintro ⟨usdc, hmem, hsame⟩
    rw [find_supported hmem]
    dsimp only
    rw [if_pos]
    by_cases hevm : startsWith network "eip155:" = true
    · rw [if_pos hevm, eqIgnoreAsciiCase, beq_iff_eq]
      rcases hsame with rfl | ⟨-, hsame⟩
      · rfl
      · exact hsame
    · rw [if_neg hevm, decide_eq_true_eq]
      rcases hsame with rfl | ⟨hnetwork, -⟩
      · rfl
      · exact absurd (startsWith_iff.mpr hnetwork) hevm

theorem checkUsdc_unknown {network asset : String} :
    checkUsdc network asset = .unknownNetwork ↔ ¬Allowlisted network := by
  rw [checkUsdc]
  constructor
  · rintro h ⟨usdc, hmem⟩
    rw [find_supported hmem] at h
    dsimp only at h
    split_ifs at h
  · intro hunknown
    cases hfind : supportedUsdc.find? fun entry => entry.1 = network with
    | none => rfl
    | some entry =>
      obtain ⟨known, usdc⟩ := entry
      have hmem := List.mem_of_find?_eq_some hfind
      obtain rfl : known = network := by simpa using List.find?_some hfind
      exact absurd ⟨usdc, hmem⟩ hunknown

theorem ensurePayable_ok {r : PaymentRequirements} :
    ensurePayable r = .ok () ↔ IsUsdc r.network r.asset := by
  rw [← checkUsdc_allowed, ensurePayable]
  cases checkUsdc r.network r.asset <;> simp

theorem ensurePayable_error {r : PaymentRequirements} {refusal : X402Error} :
    ensurePayable r = .error refusal ↔ Refuses r refusal := by
  rw [ensurePayable]
  cases hcheck : checkUsdc r.network r.asset with
  | allowed =>
    have husdc := checkUsdc_allowed.mp hcheck
    constructor
    · intro h
      cases h
    · intro h
      cases h with
      | network unknown => exact absurd husdc.allowlisted unknown
      | asset known wrong => exact absurd husdc wrong
  | unknownNetwork =>
    have hunknown := checkUsdc_unknown.mp hcheck
    constructor
    · rintro ⟨⟩
      exact .network hunknown
    · intro h
      cases h with
      | network => rfl
      | asset known => exact absurd known hunknown
  | wrongAsset =>
    have hknown : Allowlisted r.network := by
      by_contra hunknown
      rw [checkUsdc_unknown.mpr hunknown] at hcheck
      cases hcheck
    have hwrong : ¬IsUsdc r.network r.asset := by
      intro husdc
      rw [checkUsdc_allowed.mpr husdc] at hcheck
      cases hcheck
    constructor
    · rintro ⟨⟩
      exact .asset hknown hwrong
    · intro h
      cases h with
      | network unknown => exact absurd hknown unknown
      | asset => rfl

def pays (chain : PaymentChain) (r : PaymentRequirements) : Bool :=
  ((chainOf r.network).filter fun _ => r.scheme = "exact") = some chain ∧
    checkUsdc r.network r.asset = .allowed

/-- What a pass over the option remembers as its refusal. -/
def refusalOf (r : PaymentRequirements) : Option X402Error :=
  match (chainOf r.network).filter fun _ => r.scheme = "exact", ensurePayable r with
  | some _, .error refusal => some refusal
  | _, _ => none

theorem pays_iff {chain : PaymentChain} {r : PaymentRequirements} :
    pays chain r = true ↔ PayableOn chain r := by
  rw [pays, decide_eq_true_eq, offeredOn_iff, checkUsdc_allowed]
  rfl

theorem refusalOf_eq_some {r : PaymentRequirements} {refusal : X402Error} :
    refusalOf r = some refusal ↔ Offered r ∧ Refuses r refusal := by
  rw [← ensurePayable_error, refusalOf]
  cases hchain : (chainOf r.network).filter fun _ => r.scheme = "exact" with
  | none =>
    have hnone : ¬Offered r := by
      rintro ⟨chain, h⟩
      rw [offeredOn_iff.mpr h] at hchain
      cases hchain
    simp [hnone]
  | some chain =>
    have hoffered : Offered r := ⟨chain, offeredOn_iff.mp hchain⟩
    cases ensurePayable r <;> simp [hoffered]

theorem refusalOf_eq_none {r : PaymentRequirements} (h : ¬Payable r) :
    refusalOf r = none ↔ ¬Offered r := by
  rw [refusalOf]
  cases hchain : (chainOf r.network).filter fun _ => r.scheme = "exact" with
  | none =>
    simp only [true_iff]
    rintro ⟨chain, hoffered⟩
    rw [offeredOn_iff.mpr hoffered] at hchain
    cases hchain
  | some chain =>
    have hoffered := offeredOn_iff.mp hchain
    cases hpayable : ensurePayable r with
    | ok => exact absurd (payable_iff.mpr ⟨chain, hoffered, ensurePayable_ok.mp hpayable⟩) h
    | error refusal => simpa using ⟨chain, hoffered⟩

/-- The loop's answer from any point on: the first Solana option ahead, else the
EVM option it has or meets first, else the refusal it has or meets first. -/
theorem selectLoop_eq (index : Nat) (evm : Option (Nat × PaymentChain))
    (firstRefusal : Option X402Error) (rest : List PaymentRequirements) :
    selectLoop index evm firstRefusal rest =
      match rest.findIdx? (pays .solana) with
      | some i => .ok (index + i, .solana)
      | none => fallback
          (evm.or ((rest.findIdx? (pays .evm)).map fun i => (index + i, PaymentChain.evm)))
          (firstRefusal.or (rest.findSome? refusalOf)) := by
  induction rest generalizing index evm firstRefusal with
  | nil => simp [selectLoop]
  | cons r rest ih =>
    have hnext : ∀ i, index + 1 + i = index + (i + 1) := by
      intro i
      omega
    rw [selectLoop, List.findIdx?_cons, List.findIdx?_cons, List.findSome?_cons]
    cases hchain : (chainOf r.network).filter fun _ => r.scheme = "exact" with
    | none =>
      have hpays : ∀ chain, pays chain r = false := by simp [pays, hchain]
      have hrefusal : refusalOf r = none := by simp [refusalOf, hchain]
      simp only [hpays, hrefusal, ih, hnext, Bool.false_eq_true, if_false, Option.map_map]
      cases rest.findIdx? (pays .solana) <;> rfl
    | some chain =>
      cases hpayable : ensurePayable r with
      | ok =>
        have hallowed := checkUsdc_allowed.mpr (ensurePayable_ok.mp hpayable)
        have hpays : ∀ chain', pays chain' r = decide (chain = chain') := by
          simp [pays, hchain, hallowed]
        have hrefusal : refusalOf r = none := by simp [refusalOf, hpayable]
        cases chain with
        | solana => simp [hpays]
        | evm =>
          simp only [hpays, hrefusal, ih, hnext, decide_true, decide_false, reduceCtorEq,
            Bool.false_eq_true, if_false, if_true, Option.map_some, Nat.add_zero]
          cases rest.findIdx? (pays .solana) with
          | some i => rfl
          | none => cases evm <;> rfl
      | error refusal =>
        have hpays : ∀ chain', pays chain' r = false := by
          intro chain'
          have hwrong : checkUsdc r.network r.asset ≠ .allowed := by
            intro h
            rw [ensurePayable_ok.mpr (checkUsdc_allowed.mp h)] at hpayable
            cases hpayable
          simp [pays, hwrong]
        have hrefusal : refusalOf r = some refusal := by simp [refusalOf, hchain, hpayable]
        simp only [hpays, hrefusal, ih, hnext, Bool.false_eq_true, if_false, Option.map_map]
        cases rest.findIdx? (pays .solana) with
        | some i => rfl
        | none => cases firstRefusal <;> rfl

theorem findIdx?_first {accepts : List PaymentRequirements} {chain : PaymentChain} {i : Nat} :
    accepts.findIdx? (pays chain) = some i ↔ First accepts (PayableOn chain) i := by
  rw [List.findIdx?_eq_some_iff_getElem]
  constructor
  · rintro ⟨hi, hhere, hbefore⟩
    refine ⟨⟨accepts[i], List.getElem?_eq_getElem hi, pays_iff.mp hhere⟩, ?_⟩
    intro j hj r hr hpayable
    obtain ⟨hlt, rfl⟩ := List.getElem?_eq_some_iff.mp hr
    exact hbefore j hj (pays_iff.mpr hpayable)
  · rintro ⟨⟨r, hr, hpayable⟩, hbefore⟩
    obtain ⟨hi, rfl⟩ := List.getElem?_eq_some_iff.mp hr
    refine ⟨hi, pays_iff.mpr hpayable, ?_⟩
    intro j hj hpays
    exact hbefore j hj _ (List.getElem?_eq_getElem _) (pays_iff.mp hpays)

theorem findIdx?_nowhere {accepts : List PaymentRequirements} {chain : PaymentChain} :
    accepts.findIdx? (pays chain) = none ↔ ∀ r ∈ accepts, ¬PayableOn chain r := by
  simp only [List.findIdx?_eq_none_iff, ← Bool.not_eq_true, pays_iff]

theorem findSome?_first {accepts : List PaymentRequirements} {refusal : X402Error}
    (h : ∀ r ∈ accepts, ¬Payable r) : accepts.findSome? refusalOf = some refusal ↔
      ∃ i r, First accepts Offered i ∧ accepts[i]? = some r ∧ Refuses r refusal := by
  rw [List.findSome?_eq_some_iff]
  constructor
  · rintro ⟨before, r, after, rfl, hrefusal, hbefore⟩
    obtain ⟨hoffered, hrefuses⟩ := refusalOf_eq_some.mp hrefusal
    have hhere : (before ++ r :: after)[before.length]? = some r := by simp
    refine ⟨before.length, r, ⟨⟨r, hhere, hoffered⟩, ?_⟩, hhere, hrefuses⟩
    intro j hj r' hr'
    rw [List.getElem?_append_left hj] at hr'
    have hmem := List.mem_of_getElem? hr'
    exact (refusalOf_eq_none (h r' (List.mem_append_left _ hmem))).mp (hbefore r' hmem)
  · rintro ⟨i, r, ⟨⟨r', hr', hoffered⟩, hbefore⟩, hr, hrefuses⟩
    obtain rfl : r' = r := Option.some.inj (hr'.symm.trans hr)
    obtain ⟨hi, rfl⟩ := List.getElem?_eq_some_iff.mp hr
    refine ⟨accepts.take i, accepts[i], accepts.drop (i + 1), ?_, ?_, ?_⟩
    · rw [← List.drop_eq_getElem_cons hi, List.take_append_drop]
    · exact refusalOf_eq_some.mpr ⟨hoffered, hrefuses⟩
    · intro r hmem
      obtain ⟨j, hj, rfl⟩ := List.mem_take_iff_getElem.mp hmem
      have hlt : j < i := (lt_min_iff.mp hj).1
      exact (refusalOf_eq_none (h _ (List.getElem_mem _))).mpr
        (hbefore j hlt _ (List.getElem?_eq_getElem _))

theorem findSome?_nowhere {accepts : List PaymentRequirements} (h : ∀ r ∈ accepts, ¬Payable r) :
    accepts.findSome? refusalOf = none ↔ ∀ r ∈ accepts, ¬Offered r := by
  rw [List.findSome?_eq_none_iff]
  constructor
  · intro hnone r hr
    exact (refusalOf_eq_none (h r hr)).mp (hnone r hr)
  · intro hnone r hr
    exact (refusalOf_eq_none (h r hr)).mpr (hnone r hr)

theorem selectRequirement_eq (challenge : PaymentRequired) :
    selectRequirement challenge =
      match challenge.accepts.findIdx? (pays .solana), challenge.accepts.findIdx? (pays .evm) with
      | some i, _ => .ok (i, .solana)
      | none, some i => .ok (i, .evm)
      | none, none => fallback none (challenge.accepts.findSome? refusalOf) := by
  rw [selectRequirement, selectLoop_eq]
  cases challenge.accepts.findIdx? (pays .solana) with
  | some i => simp
  | none => cases challenge.accepts.findIdx? (pays .evm) <;> simp [fallback]

theorem selectRequirement_ok {challenge : PaymentRequired} {i : Nat} {chain : PaymentChain} :
    selectRequirement challenge = .ok (i, chain) ↔ Preferred challenge.accepts i chain := by
  rw [selectRequirement_eq]
  cases hsolana : challenge.accepts.findIdx? (pays .solana) with
  | some k =>
    have hfirst := findIdx?_first.mp hsolana
    constructor
    · rintro ⟨⟩
      exact .solana hfirst
    · intro h
      cases h with
      | solana first =>
        obtain rfl := Option.some.inj (hsolana.symm.trans (findIdx?_first.mpr first))
        rfl
      | evm noSolana _ =>
        obtain ⟨r, hr, hpayable⟩ := hfirst.1
        exact absurd hpayable (noSolana r (List.mem_of_getElem? hr))
  | none =>
    have hnone := findIdx?_nowhere.mp hsolana
    cases hevm : challenge.accepts.findIdx? (pays .evm) with
    | some k =>
      constructor
      · rintro ⟨⟩
        exact .evm hnone (findIdx?_first.mp hevm)
      · intro h
        cases h with
        | solana first =>
          obtain ⟨r, hr, hpayable⟩ := first.1
          exact absurd hpayable (hnone r (List.mem_of_getElem? hr))
        | evm _ first =>
          obtain rfl := Option.some.inj (hevm.symm.trans (findIdx?_first.mpr first))
          rfl
    | none =>
      constructor
      · intro h
        cases hrefused : challenge.accepts.findSome? refusalOf with
        | none =>
          rw [hrefused] at h
          cases h
        | some refusal =>
          rw [hrefused] at h
          cases h
      · intro h
        cases h with
        | solana first =>
          obtain ⟨r, hr, hpayable⟩ := first.1
          exact absurd hpayable (hnone r (List.mem_of_getElem? hr))
        | evm _ first =>
          obtain ⟨r, hr, hpayable⟩ := first.1
          exact absurd hpayable (findIdx?_nowhere.mp hevm r (List.mem_of_getElem? hr))

theorem Preferred.payable {accepts : List PaymentRequirements} {i : Nat} {chain : PaymentChain}
    (h : Preferred accepts i chain) : ∃ r ∈ accepts, Payable r := by
  cases h with
  | solana first =>
    obtain ⟨r, hr, hpayable⟩ := first.1
    exact ⟨r, List.mem_of_getElem? hr, payable_iff.mpr ⟨_, hpayable⟩⟩
  | evm _ first =>
    obtain ⟨r, hr, hpayable⟩ := first.1
    exact ⟨r, List.mem_of_getElem? hr, payable_iff.mpr ⟨_, hpayable⟩⟩

/-- An option that can be paid is paid. -/
theorem selectRequirement_pays {challenge : PaymentRequired}
    (h : ∃ r ∈ challenge.accepts, Payable r) :
    ∃ choice, selectRequirement challenge = .ok choice := by
  rw [selectRequirement_eq]
  cases hsolana : challenge.accepts.findIdx? (pays .solana) with
  | some k => exact ⟨_, rfl⟩
  | none =>
    cases hevm : challenge.accepts.findIdx? (pays .evm) with
    | some k => exact ⟨_, rfl⟩
    | none =>
      obtain ⟨r, hr, hpayable⟩ := h
      obtain ⟨chain, hon⟩ := payable_iff.mp hpayable
      cases chain with
      | solana => exact absurd hon (findIdx?_nowhere.mp hsolana r hr)
      | evm => exact absurd hon (findIdx?_nowhere.mp hevm r hr)

theorem selectRequirement_refuses {challenge : PaymentRequired}
    (h : ∀ r ∈ challenge.accepts, ¬Payable r) :
    selectRequirement challenge = fallback none (challenge.accepts.findSome? refusalOf) := by
  have hnowhere : ∀ chain, challenge.accepts.findIdx? (pays chain) = none := by
    intro chain
    exact findIdx?_nowhere.mpr fun r hr hon => h r hr (payable_iff.mpr ⟨chain, hon⟩)
  rw [selectRequirement_eq, hnowhere, hnowhere]

theorem selectRequirement_error {challenge : PaymentRequired} {refusal : X402Error} :
    selectRequirement challenge = .error refusal ↔
      (∀ r ∈ challenge.accepts, ¬Payable r) ∧ Refusal challenge.accepts refusal := by
  by_cases hpayable : ∃ r ∈ challenge.accepts, Payable r
  · obtain ⟨choice, hchoice⟩ := selectRequirement_pays hpayable
    obtain ⟨r, hr, hpays⟩ := hpayable
    rw [hchoice]
    constructor
    · intro h
      cases h
    · rintro ⟨hnone, -⟩
      exact absurd hpays (hnone r hr)
  · have hnone : ∀ r ∈ challenge.accepts, ¬Payable r := by
      intro r hr hpays
      exact hpayable ⟨r, hr, hpays⟩
    rw [selectRequirement_refuses hnone]
    cases hrefused : challenge.accepts.findSome? refusalOf with
    | some first =>
      obtain ⟨i, r, hfirst, hr, hrefuses⟩ := (findSome?_first hnone).mp hrefused
      constructor
      · rintro ⟨⟩
        exact ⟨hnone, .first i r _ hfirst hr hrefuses⟩
      · rintro ⟨-, h⟩
        cases h with
        | first j r' _ hfirst' hr' hrefuses' =>
          have hother := (findSome?_first hnone).mpr ⟨j, r', hfirst', hr', hrefuses'⟩
          rw [hrefused] at hother
          obtain rfl := Option.some.inj hother
          rfl
        | nothing hnothing =>
          rw [(findSome?_nowhere hnone).mpr hnothing] at hrefused
          cases hrefused
    | none =>
      have hnothing := (findSome?_nowhere hnone).mp hrefused
      constructor
      · rintro ⟨⟩
        exact ⟨hnone, .nothing hnothing⟩
      · rintro ⟨-, h⟩
        cases h with
        | first i r _ hfirst hr =>
          obtain ⟨r', hr', hoffered⟩ := hfirst.1
          exact absurd hoffered (hnothing r' (List.mem_of_getElem? hr'))
        | nothing => rfl

/-- The choice is the first payable Solana option, else the first payable EVM
option; a list without either is refused for its first option. -/
theorem select_requirement_iff (challenge : PaymentRequired) :
    ((∃ choice, selectRequirement challenge = .ok choice) ↔ ∃ r ∈ challenge.accepts, Payable r) ∧
      (∀ i chain, selectRequirement challenge = .ok (i, chain) ↔
        Preferred challenge.accepts i chain) ∧
      ∀ refusal, selectRequirement challenge = .error refusal ↔
        (∀ r ∈ challenge.accepts, ¬Payable r) ∧ Refusal challenge.accepts refusal := by
  refine ⟨⟨?_, selectRequirement_pays⟩, fun i chain => selectRequirement_ok,
    fun refusal => selectRequirement_error⟩
  rintro ⟨⟨i, chain⟩, hchoice⟩
  exact (selectRequirement_ok.mp hchoice).payable

end PaymentSelection

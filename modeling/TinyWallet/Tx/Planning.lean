import TinyWallet.Tx.Btc

/-!
# Planning a Bitcoin spend

Each further coin raises both what is there and what the transaction costs. The
loop is described by the prefixes of the coins it has passed over: none of them
covers its own fee, and a k-prefix of the largest coins is worth at least any
other k coins.

The covering test adds with saturation, so a total of exactly 2^64 - 1 looks
sufficient for any larger target.
-/

namespace BtcPlanning

open RustText Wire Btc TxBtc

theorem largestFirst_perm (coins : List Utxo) : (largestFirst coins).Perm coins :=
  List.mergeSort_perm coins _

theorem largestFirst_pairwise (coins : List Utxo) :
    (largestFirst coins).Pairwise fun a b => b.value ≤ a.value := by
  have hsorted : (largestFirst coins).Pairwise fun a b => decide (b.value ≤ a.value) = true := by
    refine List.pairwise_mergeSort ?_ ?_ coins
    · intro a b c hab hbc
      simp only [decide_eq_true_eq] at hab hbc ⊢
      omega
    · intro a b
      simp only [Bool.or_eq_true, decide_eq_true_eq]
      omega
  exact hsorted.imp of_decide_eq_true

@[simp] theorem coinTotal_append (coins more : List Utxo) :
    coinTotal (coins ++ more) = coinTotal coins + coinTotal more := by
  simp [coinTotal]

@[simp] theorem coinTotal_cons (coin : Utxo) (coins : List Utxo) :
    coinTotal (coin :: coins) = coin.value + coinTotal coins := by
  simp [coinTotal]

@[simp] theorem coinTotal_nil : coinTotal [] = 0 := rfl

theorem coinTotal_prefix {coins more : List Utxo} (h : coins <+: more) :
    coinTotal coins ≤ coinTotal more := by
  obtain ⟨rest, rfl⟩ := h
  rw [coinTotal_append]
  omega

/-- One more coin is worth no more than a coin that is at least as large as all. -/
theorem coinTotal_take_succ {coin : Utxo} {coins : List Utxo}
    (h : ∀ other ∈ coins, other.value ≤ coin.value) (n : Nat) :
    coinTotal (coins.take (n + 1)) ≤ coin.value + coinTotal (coins.take n) := by
  rw [List.take_add_one, coinTotal_append]
  cases hn : coins[n]? with
  | none => simp
  | some other =>
    have hle := h other (List.mem_of_getElem? hn)
    simp only [Option.toList_some, coinTotal_cons, coinTotal_nil]
    omega

/-- The first coins of a list in falling order are worth at least as much as any
others of that number. -/
theorem coinTotal_sublist_le {part coins : List Utxo} (h : part.Sublist coins)
    (falling : coins.Pairwise fun a b => b.value ≤ a.value) :
    coinTotal part ≤ coinTotal (coins.take part.length) := by
  induction h with
  | slnil => simp
  | @cons part coins coin hsub ih =>
    obtain ⟨hlargest, hrest⟩ := List.pairwise_cons.mp falling
    have hle := ih hrest
    cases hlength : part.length with
    | zero =>
      have hempty : part = [] := List.length_eq_zero_iff.mp hlength
      subst hempty
      simp
    | succ n =>
      rw [hlength] at hle
      have hone := coinTotal_take_succ hlargest n
      rw [List.take_succ_cons, coinTotal_cons]
      omega
  | cons_cons coin hsub ih =>
    have hle := ih (List.pairwise_cons.mp falling).2
    rw [List.length_cons, List.take_succ_cons, coinTotal_cons, coinTotal_cons]
    omega

theorem coinTotal_subperm_le {part utxos : List Utxo} (h : part.Subperm utxos) :
    coinTotal part ≤ coinTotal ((largestFirst utxos).take part.length) := by
  obtain ⟨sub, hperm, hsub⟩ := h.trans (largestFirst_perm utxos).symm.subperm
  have hle := coinTotal_sublist_le hsub (largestFirst_pairwise utxos)
  have hsum : coinTotal sub = coinTotal part := (hperm.map Utxo.value).sum_eq
  rw [hsum, hperm.length_eq] at hle
  exact hle

theorem feeFor_error {rate inputs outputs : Nat} {text : String}
    (h : feeFor rate inputs outputs = .error text) :
    text = "amount + fee overflow" ∧ 2 ^ 64 ≤ rate * estimatedVbytes inputs outputs := by
  by_cases hlt : rate * estimatedVbytes inputs outputs < 2 ^ 64
  · simp only [feeFor, if_pos hlt, reduceCtorEq] at h
  · simp only [feeFor, if_neg hlt, Except.error.injEq] at h
    exact ⟨h.symm, Nat.not_lt.mp hlt⟩

theorem feeFor_fits {rate inputs outputs fee : Nat} (h : feeFor rate inputs outputs = .ok fee) :
    rate * estimatedVbytes inputs outputs < 2 ^ 64 := by
  by_cases hlt : rate * estimatedVbytes inputs outputs < 2 ^ 64
  · exact hlt
  · simp only [feeFor, if_neg hlt, reduceCtorEq] at h

theorem checkedAdd_error {message text : String} {a b : Nat}
    (h : checkedAdd message a b = .error text) : text = message ∧ 2 ^ 64 ≤ a + b := by
  by_cases hlt : a + b < 2 ^ 64
  · simp only [checkedAdd, if_pos hlt, reduceCtorEq] at h
  · simp only [checkedAdd, if_neg hlt, Except.error.injEq] at h
    exact ⟨h.symm, Nat.not_lt.mp hlt⟩

/-- Coins taken one after another that the loop passes over. -/
def Passed (amount rate : Nat) (chosen more : List Utxo) : Prop :=
  ∀ taken, taken ≠ [] → taken <+: more → taken ≠ more →
    coinTotal (chosen ++ taken) < least amount rate (chosen ++ taken).length

/-- What the loop over `rest` can end with, `chosen` being taken already. -/
inductive Ends (amount rate : Nat) (chosen rest : List Utxo) : Except String SpendPlan → Prop
  | stops (more : List Utxo) (nonempty : more ≠ []) (ahead : more <+: rest)
      (passed : Passed amount rate chosen more) (fits : coinTotal (chosen ++ more) < 2 ^ 64)
      (priced : rate * estimatedVbytes (chosen ++ more).length 2 < 2 ^ 64) (plan : SpendPlan)
      (selected : plan.selected = chosen ++ more)
      (stop : Stops amount rate (coinTotal (chosen ++ more)) (chosen ++ more).length plan) :
      Ends amount rate chosen rest (.ok plan)
  | sumOverflow (more : List Utxo) (nonempty : more ≠ []) (ahead : more <+: rest)
      (passed : Passed amount rate chosen more) (excess : 2 ^ 64 ≤ coinTotal (chosen ++ more)) :
      Ends amount rate chosen rest (.error "utxo sum overflow")
  | feeOverflow (more : List Utxo) (nonempty : more ≠ []) (ahead : more <+: rest)
      (passed : Passed amount rate chosen more)
      (excess : 2 ^ 64 ≤ rate * estimatedVbytes (chosen ++ more).length 2) :
      Ends amount rate chosen rest (.error "amount + fee overflow")
  | exhausted (text : String)
      (passed : ∀ taken, taken ≠ [] → taken <+: rest →
        coinTotal (chosen ++ taken) < least amount rate (chosen ++ taken).length) :
      Ends amount rate chosen rest (.error text)

theorem passed_singleton (amount rate : Nat) (chosen : List Utxo) (coin : Utxo) :
    Passed amount rate chosen [coin] := by
  rintro taken hsome ⟨rest, hrest⟩ hne
  cases taken with
  | nil => exact absurd rfl hsome
  | cons first others =>
    simp only [List.cons_append, List.cons.injEq, List.append_eq_nil_iff] at hrest
    obtain ⟨rfl, rfl, -⟩ := hrest
    exact absurd rfl hne

theorem passed_cons {amount rate : Nat} {chosen more : List Utxo} {coin : Utxo}
    (here : coinTotal (chosen ++ [coin]) < least amount rate (chosen ++ [coin]).length)
    (later : Passed amount rate (chosen ++ [coin]) more) :
    Passed amount rate chosen (coin :: more) := by
  intro taken hsome hahead hne
  cases taken with
  | nil => exact absurd rfl hsome
  | cons first others =>
    obtain ⟨rfl, hothers⟩ := List.cons_prefix_cons.mp hahead
    by_cases hnone : others = []
    · subst hnone
      exact here
    · have hlater := later others hnone hothers fun h => hne (by rw [h])
      rwa [List.append_assoc] at hlater

/-- One coin that was not enough, then the rest. -/
theorem Ends.cons {amount rate : Nat} {chosen rest : List Utxo} {coin : Utxo}
    {result : Except String SpendPlan}
    (here : coinTotal (chosen ++ [coin]) < least amount rate (chosen ++ [coin]).length)
    (h : Ends amount rate (chosen ++ [coin]) rest result) :
    Ends amount rate chosen (coin :: rest) result := by
  have hassoc : ∀ more : List Utxo, chosen ++ [coin] ++ more = chosen ++ coin :: more := by simp
  cases h with
  | stops more hsome ahead passed fits priced plan selected stop =>
    rw [hassoc] at fits priced selected stop
    exact .stops (coin :: more) (by simp) (by simpa using ahead) (passed_cons here passed) fits
      priced plan selected stop
  | sumOverflow more hsome ahead passed excess =>
    rw [hassoc] at excess
    exact .sumOverflow (coin :: more) (by simp) (by simpa using ahead) (passed_cons here passed)
      excess
  | feeOverflow more hsome ahead passed excess =>
    rw [hassoc] at excess
    exact .feeOverflow (coin :: more) (by simp) (by simpa using ahead) (passed_cons here passed)
      excess
  | exhausted text passed =>
    refine .exhausted text fun taken hsome hahead => ?_
    cases taken with
    | nil => exact absurd rfl hsome
    | cons first others =>
      obtain ⟨rfl, hothers⟩ := List.cons_prefix_cons.mp hahead
      by_cases hnone : others = []
      · subst hnone
        exact here
      · have hlater := passed others hnone hothers
        rwa [hassoc] at hlater

theorem estimatedVbytes_outputs (inputs : Nat) :
    estimatedVbytes inputs 1 ≤ estimatedVbytes inputs 2 := by
  simp only [estimatedVbytes]
  omega

/-- A plan's first coin was priced with two outputs. -/
theorem selectFrom_priced {amount rate : Nat} {coin : Utxo} {rest chosen : List Utxo} {total : Nat}
    {plan : SpendPlan} (h : selectFrom amount rate (coin :: rest) chosen total = .ok plan) :
    rate * estimatedVbytes (chosen ++ [coin]).length 2 < 2 ^ 64 := by
  rw [selectFrom] at h
  obtain ⟨sum, -, h⟩ := bind_ok_iff.mp h
  obtain ⟨feeWith, hwith, -⟩ := bind_ok_iff.mp h
  exact feeFor_fits hwith

theorem selectFrom_ends {amount rate : Nat} (hamount : amount < 2 ^ 64) (rest : List Utxo) :
    ∀ chosen, Ends amount rate chosen rest
      (selectFrom amount rate rest chosen (coinTotal chosen)) := by
  induction rest with
  | nil =>
    intro chosen
    have hnone : ∀ taken : List Utxo, taken ≠ [] → taken <+: [] → False := fun taken hsome h =>
      hsome (List.prefix_nil.mp h)
    rw [selectFrom]
    cases feeFor rate chosen.length 1 with
    | error text => exact .exhausted _ fun taken hsome h => (hnone taken hsome h).elim
    | ok fee => exact .exhausted _ fun taken hsome h => (hnone taken hsome h).elim
  | cons coin rest ih =>
    intro chosen
    have htotal : coinTotal chosen + coin.value = coinTotal (chosen ++ [coin]) := by simp
    have hahead : [coin] <+: coin :: rest := by simp
    have hone := passed_singleton amount rate chosen coin
    cases hresult : selectFrom amount rate (coin :: rest) chosen (coinTotal chosen) with
    | ok plan =>
      have hparts := selectFrom_cons hamount hresult
      rw [htotal] at hparts
      obtain ⟨hfits, ⟨hselected, hstop⟩ | ⟨hshort, hrest⟩⟩ := hparts
      · have hprice := selectFrom_priced hresult
        refine .stops [coin] (by simp) hahead hone hfits ?_ plan hselected ?_
        · simpa using hprice
        · simpa using hstop
      · have hlater := ih (chosen ++ [coin])
        rw [hrest] at hlater
        exact hlater.cons (by simpa using hshort)
    | error text =>
      rw [selectFrom] at hresult
      cases hsum : checkedAdd "utxo sum overflow" (coinTotal chosen) coin.value with
      | error text' =>
        obtain ⟨rfl, hover⟩ := checkedAdd_error hsum
        simp only [hsum, bind, Except.bind, Except.error.injEq] at hresult
        subst hresult
        rw [htotal] at hover
        exact .sumOverflow [coin] (by simp) hahead hone hover
      | ok total =>
      obtain ⟨rfl, hfits⟩ := checkedAdd_ok hsum
      cases hwith : feeFor rate (chosen ++ [coin]).length 2 with
      | error text' =>
        obtain ⟨rfl, hover⟩ := feeFor_error hwith
        simp only [hsum, hwith, bind, Except.bind, Except.error.injEq] at hresult
        subst hresult
        exact .feeOverflow [coin] (by simp) hahead hone hover
      | ok feeWith =>
      cases hwithout : feeFor rate (chosen ++ [coin]).length 1 with
      | error text' =>
        -- one output is no dearer than two
        have hover := (feeFor_error hwithout).2
        have hbytes := Nat.mul_le_mul_left rate
          (estimatedVbytes_outputs (chosen ++ [coin]).length)
        have hlt := feeFor_fits hwith
        omega
      | ok feeWithout =>
        simp only [hsum, hwith, hwithout, bind, Except.bind] at hresult
        split_ifs at hresult with hchange hcover
        have hshort : coinTotal (chosen ++ [coin]) <
            least amount rate (chosen ++ [coin]).length := by
          rw [feeFor_ok hwithout] at hcover
          rw [← htotal]
          exact Nat.not_le.mp hcover
        have hlater := ih (chosen ++ [coin])
        rw [htotal] at hresult
        rw [hresult] at hlater
        exact hlater.cons hshort

def addU64 (a b : Nat) : Option Nat := if a + b < 2 ^ 64 then some (a + b) else none

def mulU64 (a b : Nat) : Option Nat := if a * b < 2 ^ 64 then some (a * b) else none

def subU64 (a b : Nat) : Option Nat := if b ≤ a then some (a - b) else none

/-- `estimated_vbytes` on 64-bit words; `none` where a step would wrap. -/
def estimatedVbytesU64 (inputs outputs : Nat) : Option Nat := do
  let inputBytes ← mulU64 inputs 68
  let outputBytes ← mulU64 outputs 31
  let withInputs ← addU64 11 inputBytes
  addU64 withInputs outputBytes

def feeForU64 (feeRateSatVb inputs outputs : Nat) : Option (Except String Nat) := do
  let vbytes ← estimatedVbytesU64 inputs outputs
  some (if feeRateSatVb * vbytes < 2 ^ 64 then .ok (feeRateSatVb * vbytes)
    else .error "amount + fee overflow")

def selectFromU64 (amountSats feeRateSatVb : Nat) :
    List Utxo → List Utxo → Nat → Option (Except String SpendPlan)
  | [], chosen, total => do
    match ← feeForU64 feeRateSatVb chosen.length 1 with
    | .error text => some (.error text)
    | .ok feeSats =>
      some (.error ("insufficient BTC: have " ++ toString total ++ " sats, need " ++
        toString (saturatingAdd amountSats feeSats) ++ " (amount " ++ toString amountSats ++
        " + fee " ++ toString feeSats ++ ")"))
  | utxo :: rest, chosen, total => do
    match checkedAdd "utxo sum overflow" total utxo.value with
    | .error text => some (.error text)
    | .ok total =>
    let chosen := chosen ++ [utxo]
    match ← feeForU64 feeRateSatVb chosen.length 2 with
    | .error text => some (.error text)
    | .ok feeWithChange =>
    match ← feeForU64 feeRateSatVb chosen.length 1 with
    | .error text => some (.error text)
    | .ok feeWithoutChange =>
    let withChange := saturatingAdd amountSats feeWithChange
    if withChange ≤ total ∧ dustThresholdSats < total - withChange then do
      let changeSats ← subU64 total withChange
      some (.ok ⟨chosen, feeWithChange, changeSats⟩)
    else if saturatingAdd amountSats feeWithoutChange ≤ total then do
      let feeSats ← subU64 total amountSats
      some (.ok ⟨chosen, feeSats, 0⟩)
    else selectFromU64 amountSats feeRateSatVb rest chosen total

def planSpendU64 (utxos : List Utxo) (amountSats feeRateSatVb : Nat) :
    Option (Except String SpendPlan) := do
  let sorted := largestFirst utxos
  match ← feeForU64 feeRateSatVb 1 1 with
  | .error text => some (.error text)
  | .ok cheapest =>
  match checkedAdd "amount + fee overflow" cheapest amountSats with
  | .error text => some (.error text)
  | .ok _ => selectFromU64 amountSats feeRateSatVb sorted [] 0

theorem estimatedVbytesU64_eq {inputs outputs : Nat} (hinputs : inputs * 68 + 73 < 2 ^ 64)
    (houtputs : outputs ≤ 2) :
    estimatedVbytesU64 inputs outputs = some (estimatedVbytes inputs outputs) := by
  have hin : inputs * 68 < 2 ^ 64 := by omega
  have hout : outputs * 31 < 2 ^ 64 := by omega
  have hfirst : 11 + inputs * 68 < 2 ^ 64 := by omega
  have hall : 11 + inputs * 68 + outputs * 31 < 2 ^ 64 := by omega
  simp only [estimatedVbytesU64, mulU64, addU64, if_pos hin, if_pos hout, if_pos hfirst,
    if_pos hall, bind, Option.bind, estimatedVbytes]

theorem feeForU64_eq (rate : Nat) {inputs outputs : Nat} (hinputs : inputs * 68 + 73 < 2 ^ 64)
    (houtputs : outputs ≤ 2) :
    feeForU64 rate inputs outputs = some (feeFor rate inputs outputs) := by
  simp only [feeForU64, estimatedVbytesU64_eq hinputs houtputs, bind, Option.bind, feeFor]

theorem subU64_eq {a b : Nat} (h : b ≤ a) : subU64 a b = some (a - b) := if_pos h

/-- No step of the loop wraps or underflows. -/
theorem selectFromU64_eq {amount : Nat} (hamount : amount < 2 ^ 64) (rate : Nat)
    (rest : List Utxo) : ∀ (chosen : List Utxo) (total : Nat),
      (chosen.length + rest.length) * 68 + 73 < 2 ^ 64 →
        selectFromU64 amount rate rest chosen total =
          some (selectFrom amount rate rest chosen total) := by
  induction rest with
  | nil =>
    intro chosen total hsize
    have hlength : chosen.length * 68 + 73 < 2 ^ 64 := by simpa using hsize
    rw [selectFromU64, selectFrom, feeForU64_eq rate hlength (by decide)]
    cases feeFor rate chosen.length 1 with
    | error text => rfl
    | ok fee => rfl
  | cons coin rest ih =>
    intro chosen total hsize
    have hsize' : ((chosen ++ [coin]).length + rest.length) * 68 + 73 < 2 ^ 64 := by
      simp only [List.length_append, List.length_cons, List.length_nil] at hsize ⊢
      omega
    have hlength : (chosen ++ [coin]).length * 68 + 73 < 2 ^ 64 := by omega
    rw [selectFromU64, selectFrom]
    cases checkedAdd "utxo sum overflow" total coin.value with
    | error text => rfl
    | ok sum =>
    dsimp only
    rw [feeForU64_eq rate hlength (show 2 ≤ 2 by decide),
      feeForU64_eq rate hlength (show 1 ≤ 2 by decide)]
    cases feeFor rate (chosen ++ [coin]).length 2 with
    | error text => rfl
    | ok feeWith =>
    cases feeFor rate (chosen ++ [coin]).length 1 with
    | error text => rfl
    | ok feeWithout =>
    dsimp only [bind, Option.bind, Except.bind]
    by_cases hchange : saturatingAdd amount feeWith ≤ sum ∧
        dustThresholdSats < sum - saturatingAdd amount feeWith
    · rw [if_pos hchange, if_pos hchange, subU64_eq hchange.1]
    · rw [if_neg hchange, if_neg hchange]
      by_cases hcover : saturatingAdd amount feeWithout ≤ sum
      · have hle := (le_saturatingAdd feeWithout hamount).trans hcover
        rw [if_pos hcover, if_pos hcover, subU64_eq hle]
      · rw [if_neg hcover, if_neg hcover]
        exact ih (chosen ++ [coin]) sum hsize'

theorem planSpendU64_eq {utxos : List Utxo} {amount : Nat} (hamount : amount < 2 ^ 64) (rate : Nat)
    (hsize : utxos.length * 68 + 73 < 2 ^ 64) :
    planSpendU64 utxos amount rate = some (planSpend utxos amount rate) := by
  have hsorted : (([] : List Utxo).length + (largestFirst utxos).length) * 68 + 73 < 2 ^ 64 := by
    simpa [(largestFirst_perm utxos).length_eq] using hsize
  simp only [planSpendU64, planSpend, feeForU64_eq rate (show 1 * 68 + 73 < 2 ^ 64 by decide)
    (show 1 ≤ 2 by decide)]
  cases feeFor rate 1 1 with
  | error text => rfl
  | ok cheapest =>
  dsimp only [bind, Option.bind, Except.bind]
  cases checkedAdd "amount + fee overflow" cheapest amount with
  | error text => rfl
  | ok _ => exact selectFromU64_eq hamount rate (largestFirst utxos) [] 0 hsorted

/-- A plan that conserves value, pays for its size and takes no more coins than needed. -/
structure Planned (utxos : List Utxo) (amount rate : Nat) (plan : SpendPlan) : Prop where
  conserves : coinTotal plan.selected = amount + plan.feeSats + plan.changeSats
  change : plan.changeSats = 0 ∨ dustThresholdSats < plan.changeSats
  pays : rate * estimatedVbytes plan.selected.length (if plan.changeSats = 0 then 1 else 2) ≤
    plan.feeSats
  coins : plan.selected.Subperm utxos
  largest : plan.selected <+: largestFirst utxos
  falling : plan.selected.Pairwise fun a b => b.value ≤ a.value
  shortest : ∀ taken, taken ≠ [] → taken <+: plan.selected → taken ≠ plan.selected →
    coinTotal taken < amount + rate * estimatedVbytes taken.length 1

/-- Nothing wraps, every plan is sound, and a refusal for lack of funds means
that no coins would do. -/
def PlansCorrectly (utxos : List Utxo) (amount rate : Nat) : Prop :=
  planSpendU64 utxos amount rate = some (planSpend utxos amount rate) ∧
    (∀ plan, planSpend utxos amount rate = .ok plan → Planned utxos amount rate plan) ∧
    ∀ text, planSpend utxos amount rate = .error text → text ≠ "utxo sum overflow" →
      text ≠ "amount + fee overflow" → ∀ coins, coins ≠ [] → coins.Subperm utxos →
        coinTotal coins < amount + rate * estimatedVbytes coins.length 1

/-- Some largest coins are worth exactly 2^64 - 1, which is less than they need,
and no fewer of them cover their own fee. -/
def Saturates (utxos : List Utxo) (amount rate : Nat) : Prop :=
  ∃ taken, taken ≠ [] ∧ taken <+: largestFirst utxos ∧ coinTotal taken = 2 ^ 64 - 1 ∧
    2 ^ 64 ≤ amount + rate * estimatedVbytes taken.length 1 ∧
    rate * estimatedVbytes taken.length 2 < 2 ^ 64 ∧
    amount + rate * estimatedVbytes 1 1 < 2 ^ 64 ∧
    ∀ fewer, fewer ≠ [] → fewer <+: taken → fewer ≠ taken →
      coinTotal fewer < amount + rate * estimatedVbytes fewer.length 1

theorem least_le (amount rate inputs : Nat) :
    least amount rate inputs ≤ amount + rate * estimatedVbytes inputs 1 :=
  saturatingAdd_le _ _

/-- What `planSpend` does: it fails on the first check, or runs the loop. -/
theorem planSpend_cases (utxos : List Utxo) (amount rate : Nat) :
    (planSpend utxos amount rate = .error "amount + fee overflow" ∧
        2 ^ 64 ≤ amount + rate * estimatedVbytes 1 1) ∨
      (amount + rate * estimatedVbytes 1 1 < 2 ^ 64 ∧
        Ends amount rate [] (largestFirst utxos) (planSpend utxos amount rate)) := by
  simp only [planSpend]
  cases hcheapest : feeFor rate 1 1 with
  | error text =>
    obtain ⟨rfl, hexcess⟩ := feeFor_error hcheapest
    exact .inl ⟨rfl, by omega⟩
  | ok cheapest =>
  have hfee := feeFor_ok hcheapest
  dsimp only [bind, Except.bind]
  cases hsum : checkedAdd "amount + fee overflow" cheapest amount with
  | error text =>
    obtain ⟨rfl, hexcess⟩ := checkedAdd_error hsum
    exact .inl ⟨rfl, by omega⟩
  | ok sum =>
    have hfits := (checkedAdd_ok hsum).2
    exact .inr ⟨by omega, selectFrom_ends (by omega) (largestFirst utxos) []⟩

theorem prefix_passed {amount rate : Nat} {more shorter : List Utxo}
    (passed : Passed amount rate [] more) (hsome : shorter ≠ []) (hahead : shorter <+: more)
    (hne : shorter ≠ more) : coinTotal shorter < least amount rate shorter.length := by
  have h := passed shorter hsome hahead hne
  rwa [List.nil_append] at h

/-- A plan is sound unless its coins saturate. -/
theorem planned_of_stops {utxos more : List Utxo} {amount rate : Nat} {plan : SpendPlan}
    (hsome : more ≠ []) (hahead : more <+: largestFirst utxos)
    (passed : Passed amount rate [] more) (hfits : coinTotal more < 2 ^ 64)
    (hpriced : rate * estimatedVbytes more.length 2 < 2 ^ 64)
    (hcheapest : amount + rate * estimatedVbytes 1 1 < 2 ^ 64) (hselected : plan.selected = more)
    (hstop : Stops amount rate (coinTotal more) more.length plan)
    (hplain : ¬Saturates utxos amount rate) : Planned utxos amount rate plan := by
  have hshort : ∀ taken, taken ≠ [] → taken <+: more → taken ≠ more →
      coinTotal taken < amount + rate * estimatedVbytes taken.length 1 :=
    fun taken htaken hprefix hne => Nat.lt_of_lt_of_le
      (prefix_passed passed htaken hprefix hne) (least_le _ _ _)
  have hpays : rate * estimatedVbytes more.length (if plan.changeSats = 0 then 1 else 2) ≤
      plan.feeSats := by
    cases hstop with
    | withChange hfee htotal hchange =>
      have hne : plan.changeSats ≠ 0 := by
        simp only [dustThresholdSats] at hchange
        omega
      rw [if_neg hne, hfee]
    | withoutChange htotal hleast hchange =>
      rw [if_pos hchange]
      by_cases hsmall : amount + rate * estimatedVbytes more.length 1 < 2 ^ 64
      · simp only [least, saturatingAdd] at hleast
        omega
      · -- the covering test was saturated
        refine absurd ⟨more, hsome, hahead, ?_, by omega, hpriced, hcheapest, hshort⟩ hplain
        simp only [least, saturatingAdd] at hleast
        omega
  subst hselected
  refine ⟨?_, ?_, hpays, ?_, hahead, ?_, hshort⟩
  · exact (stops_selects hstop).2.2
  · cases hstop with
    | withChange hfee htotal hchange => exact .inr hchange
    | withoutChange htotal hleast hchange => exact .inl hchange
  · exact hahead.sublist.subperm.trans (largestFirst_perm utxos).subperm
  · exact (largestFirst_pairwise utxos).sublist hahead.sublist

/-- Coins that were all passed over leave nothing that would do. -/
theorem none_covers {utxos : List Utxo} {amount rate : Nat}
    (passed : ∀ taken, taken ≠ [] → taken <+: largestFirst utxos →
      coinTotal ([] ++ taken) < least amount rate ([] ++ taken).length) {coins : List Utxo}
    (hsome : coins ≠ []) (hcoins : coins.Subperm utxos) :
    coinTotal coins < amount + rate * estimatedVbytes coins.length 1 := by
  have hlength : ((largestFirst utxos).take coins.length).length = coins.length := by
    rw [List.length_take, (largestFirst_perm utxos).length_eq]
    exact Nat.min_eq_left hcoins.length_le
  have hbest := coinTotal_subperm_le hcoins
  have hne : (largestFirst utxos).take coins.length ≠ [] := by
    intro hempty
    rw [hempty] at hlength
    exact hsome (List.length_eq_zero_iff.mp hlength.symm)
  have hpassed := passed _ hne (List.take_prefix _ _)
  rw [List.nil_append, hlength] at hpassed
  have hle := least_le amount rate coins.length
  omega

/-- Coins that saturate end the loop with a fee that is too small. -/
theorem saturates_underpays {utxos : List Utxo} {amount rate : Nat}
    (h : Saturates utxos amount rate) :
    ∃ plan, planSpend utxos amount rate = .ok plan ∧ ¬Planned utxos amount rate plan := by
  obtain ⟨taken, hsome, hahead, htotal, hneed, hpriced, hcheapest, hfewer⟩ := h
  have hunreached : ¬coinTotal taken < least amount rate taken.length := by
    simp only [least, saturatingAdd]
    omega
  rcases planSpend_cases utxos amount rate with ⟨-, hexcess⟩ | ⟨-, hends⟩
  · omega
  generalize planSpend utxos amount rate = result at hends
  have hwithin : ∀ more, more ≠ [] → more <+: largestFirst utxos → Passed amount rate [] more →
      more <+: taken := by
    intro more hmore hprefix passed
    rcases List.prefix_or_prefix_of_prefix hprefix hahead with hle | hge
    · exact hle
    · by_cases heq : taken = more
      · rw [heq]
      · exact absurd (prefix_passed passed hsome hge heq) hunreached
  cases hends with
  | stops more hmore hprefix passed fits priced plan selected stop =>
    rw [List.nil_append] at fits selected stop
    have hle := hwithin more hmore hprefix passed
    have hshort : coinTotal more < amount + rate * estimatedVbytes more.length 1 := by
      by_cases heq : more = taken
      · rw [heq]
        omega
      · exact hfewer more hmore hle heq
    refine ⟨plan, rfl, fun hplanned => ?_⟩
    have hpays := hplanned.pays
    rw [selected] at hpays
    cases stop with
    | withChange hfee htotal' hchange =>
      have hbytes := Nat.mul_le_mul_left rate (estimatedVbytes_outputs more.length)
      omega
    | withoutChange htotal' hleast hchange =>
      rw [if_pos hchange] at hpays
      omega
  | sumOverflow more hmore hprefix passed excess =>
    have hle := coinTotal_prefix (hwithin more hmore hprefix passed)
    rw [List.nil_append] at excess
    omega
  | feeOverflow more hmore hprefix passed excess =>
    have hlength := (hwithin more hmore hprefix passed).length_le
    have hbytes : estimatedVbytes more.length 2 ≤ estimatedVbytes taken.length 2 :=
      estimatedVbytes_mono hlength
    have hle := Nat.mul_le_mul_left rate hbytes
    rw [List.nil_append] at excess
    omega
  | exhausted text passed =>
    have hpassed := passed taken hsome hahead
    rw [List.nil_append] at hpassed
    exact absurd hpassed hunreached

/-- Planning is correct and complete exactly when the covering test does not
saturate. A list of coins of 40 bytes each fits in memory. -/
theorem plans_correctly_iff (utxos : List Utxo) (amount rate : Nat) (hamount : amount < 2 ^ 64)
    (hsize : utxos.length * 40 < 2 ^ 63) :
    PlansCorrectly utxos amount rate ↔ ¬Saturates utxos amount rate := by
  constructor
  · rintro ⟨-, hplanned, -⟩ hsaturates
    obtain ⟨plan, hplan, hbad⟩ := saturates_underpays hsaturates
    exact hbad (hplanned plan hplan)
  · intro hplain
    refine ⟨planSpendU64_eq hamount rate (by omega), ?_, ?_⟩
    · intro plan hplan
      rcases planSpend_cases utxos amount rate with ⟨hfail, -⟩ | ⟨hcheapest, hends⟩
      · rw [hfail] at hplan
        cases hplan
      rw [hplan] at hends
      cases hends with
      | stops more hsome ahead passed fits priced plan selected stop =>
        rw [List.nil_append] at fits priced selected stop
        exact planned_of_stops hsome ahead passed fits priced hcheapest selected stop hplain
    · intro text htext hsum hfee coins hsome hcoins
      rcases planSpend_cases utxos amount rate with ⟨hfail, -⟩ | ⟨-, hends⟩
      · rw [hfail] at htext
        exact absurd (Except.error.inj htext).symm hfee
      rw [htext] at hends
      cases hends with
      | sumOverflow => exact absurd rfl hsum
      | feeOverflow => exact absurd rfl hfee
      | exhausted text passed => exact none_covers passed hsome hcoins

/-- Two coins that together are worth 2^64 - 1, for an amount 149 below that. -/
def saturatingCoins : List Utxo := [⟨"", 0, 2 ^ 63⟩, ⟨"", 1, 2 ^ 63 - 1⟩]

theorem saturated_plan_underpays : ¬PlansCorrectly saturatingCoins (2 ^ 64 - 150) 1 := by
  rintro ⟨-, hplanned, -⟩
  have hplan : planSpend saturatingCoins (2 ^ 64 - 150) 1 = .ok ⟨saturatingCoins, 149, 0⟩ := by
    simp only [planSpend]
    rw [List.mergeSort_of_pairwise (by decide)]
    decide +kernel
  have hpays := (hplanned _ hplan).pays
  exact absurd hpays (by decide)

theorem sample_coins_plan_correctly : PlansCorrectly sampleUtxos 30000 20 := by
  refine (plans_correctly_iff sampleUtxos 30000 20 (by decide) (by decide)).mpr ?_
  rintro ⟨taken, -, hahead, htotal, -⟩
  have hle := coinTotal_prefix hahead
  have hall : coinTotal (largestFirst sampleUtxos) = 49000 :=
    ((largestFirst_perm sampleUtxos).map Utxo.value).sum_eq
  omega

end BtcPlanning

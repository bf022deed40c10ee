import TinyWallet.Engine.Requests

/-!
# Bitcoin transfers over Esplora

Coin selection grows one input at a time, largest first, and prices the
transaction again after each. Sums are checked 64-bit sums.
-/

namespace Btc

open RustText JsonValue Programs Wire Engine

def defaultFeeRateSatVb : Nat := 20

def dustThresholdSats : Nat := 546

/-- The vbytes of a P2WPKH transaction. -/
def estimatedVbytes (inputs outputs : Nat) : Nat := 11 + inputs * 68 + outputs * 31

def decodeUtxo (value : Json) : Option Utxo :=
  match value.structOf ["txid", "vout", "value"] with
  | some [.string txid, .number (.posInt vout), .number (.posInt amount)] =>
    if vout < 2 ^ 32 then some ⟨txid, vout, amount⟩ else none
  | _ => none

def decodeUtxos : Json → Option (List Utxo)
  | .array items => items.mapM decodeUtxo
  | _ => none

structure SpendPlan where
  selected : List Utxo
  feeSats : Nat
  changeSats : Nat
deriving DecidableEq, Repr

def checkedAdd (message : String) (a b : Nat) : Except String Nat :=
  if a + b < 2 ^ 64 then .ok (a + b) else .error message

def saturatingAdd (a b : Nat) : Nat := min (a + b) (2 ^ 64 - 1)

def feeFor (feeRateSatVb inputs outputs : Nat) : Except String Nat :=
  let fee := feeRateSatVb * estimatedVbytes inputs outputs
  if fee < 2 ^ 64 then .ok fee else .error "amount + fee overflow"

/-- The selection loop: `chosen` holds what is taken, worth `total`. -/
def selectFrom (amountSats feeRateSatVb : Nat) :
    List Utxo → List Utxo → Nat → Except String SpendPlan
  | [], chosen, total => do
    let feeSats ← feeFor feeRateSatVb chosen.length 1
    .error ("insufficient BTC: have " ++ toString total ++ " sats, need " ++
      toString (saturatingAdd amountSats feeSats) ++ " (amount " ++ toString amountSats ++
      " + fee " ++ toString feeSats ++ ")")
  | utxo :: rest, chosen, total => do
    let total ← checkedAdd "utxo sum overflow" total utxo.value
    let chosen := chosen ++ [utxo]
    let feeWithChange ← feeFor feeRateSatVb chosen.length 2
    let feeWithoutChange ← feeFor feeRateSatVb chosen.length 1
    let withChange := saturatingAdd amountSats feeWithChange
    if withChange ≤ total ∧ dustThresholdSats < total - withChange then
      .ok ⟨chosen, feeWithChange, total - withChange⟩
    else if saturatingAdd amountSats feeWithoutChange ≤ total then
      .ok ⟨chosen, total - amountSats, 0⟩
    else selectFrom amountSats feeRateSatVb rest chosen total

def planSpend (utxos : List Utxo) (amountSats feeRateSatVb : Nat) : Except String SpendPlan := do
  -- a stable sort, largest value first
  let sorted := utxos.mergeSort fun a b => decide (b.value ≤ a.value)
  -- the cheapest a spend can be
  let cheapest ← feeFor feeRateSatVb 1 1
  let _ ← checkedAdd "amount + fee overflow" cheapest amountSats
  selectFrom amountSats feeRateSatVb sorted [] 0

def kindText : PreparedKind → String
  | .nativeTransfer => "NativeTransfer"
  | .tokenTransfer => "TokenTransfer"

def executeBtcQuote (host : Host) (quote : PreparedTransaction) : Op ExecutionResult := do
  if quote.kind ≠ .nativeTransfer then
    failWith ("BTC only supports native transfers; got kind " ++ kindText quote.kind)
  else do
    let amountSats ← check (fun e => "invalid BTC amount '" ++ quote.amountRaw ++ "': " ++ e)
      (parseU64 quote.amountRaw)
    let _ ← check Address.Error.text (Address.Btc.validateSender host.ext quote.fromAddress)
    let _ ← check Address.Error.text (Address.Btc.validate host.ext quote.toAddress)
    let utxos ← restGetJson host .btc ("address/" ++ quote.fromAddress ++ "/utxo") decodeUtxos
    if utxos.isEmpty then failWith ("no spendable UTXOs for " ++ quote.fromAddress)
    else do
      let plan ← check id (planSpend utxos amountSats defaultFeeRateSatVb)
      let signed ← signTransaction .btc
        (.btc quote.fromAddress quote.toAddress amountSats plan.feeSats plan.selected)
      let txidHex ← restPostText .btc "tx" signed.raw "text/plain"
      .pure
        { quoteId := quote.quoteId
          status := .broadcasted
          chain := .btc
          evmNetwork := none
          transactionHash := txidHex
          explorerUrl := explorerTxUrl .btc host.cluster txidHex
          transaction :=
            { quote with estimatedFeeRaw := toString plan.feeSats, status := .broadcasted } }

end Btc

import TinyWallet.Library.Base64
import TinyWallet.Module.Construction
import TinyWallet.Solana.Versioned

/-!
# Transactions as base64 text

Two encoders write base64 by hand, one in the module and one in the client. A
signed transfer leaves the module as such a text, and the engine decodes it
before it encodes the transaction again for the node.
-/

namespace SolanaTransport

open RustText Programs JsonValue Wire Engine Solana SolanaMessages SolanaVersioned
  UnsignedTransactions

def table : List Char :=
  "ABCDEFGHIJKLMNOPQRSTUVWXYZabcdefghijklmnopqrstuvwxyz0123456789+/".toList

/-- `chunks(3)`. -/
def chunks : List UInt8 → List (List UInt8)
  | [] => []
  | [a] => [[a]]
  | [a, b] => [[a, b]]
  | a :: b :: c :: rest => [a, b, c] :: chunks rest

def tripleOf (chunk : List UInt8) : UInt32 :=
  let b0 := (chunk.getD 0 0).toUInt32
  let b1 := (chunk.getD 1 0).toUInt32
  let b2 := (chunk.getD 2 0).toUInt32
  b0 <<< 16 ||| b1 <<< 8 ||| b2

/-- The turn of either loop; `index` is how it computes a place in the table. -/
def quad (index : UInt32 → UInt32 → Nat) (chunk : List UInt8) : List Char :=
  let triple := tripleOf chunk
  [table.getD (index triple 18) '=', table.getD (index triple 12) '=',
    if 1 < chunk.length then table.getD (index triple 6) '=' else '=',
    if 2 < chunk.length then table.getD (index triple 0) '=' else '=']

def encodeChunks (index : UInt32 → UInt32 → Nat) (bytes : List UInt8) : String :=
  String.ofList ((chunks bytes).flatMap (quad index))

/-- The module's encoder: the mask is put on before the cast. -/
def base64 : List UInt8 → String :=
  encodeChunks fun triple shift => ((triple >>> shift) &&& 0x3f).toNat

/-- The client's encoder: the mask is put on after the cast. -/
def base64Encode : List UInt8 → String :=
  encodeChunks fun triple shift => (triple >>> shift).toNat &&& 0x3f

theorem toNat_shifted {a : UInt8} {shift : UInt32} (h : shift.toNat ≤ 24) :
    (a.toUInt32 <<< shift).toNat = a.toNat * 2 ^ shift.toNat := by
  have hshift : shift.toNat % 32 = shift.toNat := Nat.mod_eq_of_lt (by omega)
  have hfits : a.toNat * 2 ^ shift.toNat < 2 ^ 32 := calc
    a.toNat * 2 ^ shift.toNat ≤ 255 * 2 ^ 24 :=
      Nat.mul_le_mul (Nat.le_of_lt_succ a.toNat_lt) (Nat.pow_le_pow_right (by decide) h)
    _ < 2 ^ 32 := by decide
  rw [UInt32.toNat_shiftLeft, UInt8.toNat_toUInt32, hshift, Nat.shiftLeft_eq,
    Nat.mod_eq_of_lt hfits]

theorem toNat_triple (a b c : UInt8) :
    (a.toUInt32 <<< 16 ||| b.toUInt32 <<< 8 ||| c.toUInt32).toNat =
      a.toNat * 2 ^ 16 + (b.toNat * 2 ^ 8 + c.toNat) := by
  have hb := b.toNat_lt
  have hc : c.toNat < 2 ^ 8 := c.toNat_lt
  have hlow : b.toNat * 2 ^ 8 + c.toNat < 2 ^ 16 := by omega
  have hfirst : (a.toUInt32 <<< 16).toNat = a.toNat * 2 ^ 16 := toNat_shifted (by decide)
  have hsecond : (b.toUInt32 <<< 8).toNat = b.toNat * 2 ^ 8 := toNat_shifted (by decide)
  have hjoin : b.toNat * 2 ^ 8 ||| c.toNat = b.toNat * 2 ^ 8 + c.toNat := by
    rw [← Nat.shiftLeft_eq, ← Nat.shiftLeft_add_eq_or_of_lt hc]
  rw [UInt32.toNat_or, UInt32.toNat_or, hfirst, hsecond, UInt8.toNat_toUInt32, Nat.or_assoc,
    hjoin, ← Nat.shiftLeft_eq, ← Nat.shiftLeft_add_eq_or_of_lt hlow]

/-- Six bits of a triple, wherever the cast stands. -/
structure Indexes (index : UInt32 → UInt32 → Nat) : Prop where
  bits : ∀ (triple shift : UInt32), shift.toNat < 32 →
    index triple shift = triple.toNat / 2 ^ shift.toNat % 64

theorem indexes_masked : Indexes fun triple shift => ((triple >>> shift) &&& 0x3f).toNat where
  bits triple shift h := by
    rw [UInt32.toNat_and, UInt32.toNat_shiftRight, Nat.mod_eq_of_lt h, Nat.shiftRight_eq_div_pow]
    exact Nat.and_two_pow_sub_one_eq_mod _ 6

theorem indexes_cast : Indexes fun triple shift => (triple >>> shift).toNat &&& 0x3f where
  bits triple shift h := by
    rw [UInt32.toNat_shiftRight, Nat.mod_eq_of_lt h, Nat.shiftRight_eq_div_pow]
    exact Nat.and_two_pow_sub_one_eq_mod _ 6

section Encoding

variable {index : UInt32 → UInt32 → Nat} (h : Indexes index)
include h

theorem index_triple (a b c : UInt8) :
    index (a.toUInt32 <<< 16 ||| b.toUInt32 <<< 8 ||| c.toUInt32) 18 = a.toNat / 4 ∧
    index (a.toUInt32 <<< 16 ||| b.toUInt32 <<< 8 ||| c.toUInt32) 12 =
      a.toNat % 4 * 16 + b.toNat / 16 ∧
    index (a.toUInt32 <<< 16 ||| b.toUInt32 <<< 8 ||| c.toUInt32) 6 =
      b.toNat % 16 * 4 + c.toNat / 64 ∧
    index (a.toUInt32 <<< 16 ||| b.toUInt32 <<< 8 ||| c.toUInt32) 0 = c.toNat % 64 := by
  have ha := a.toNat_lt
  have hb := b.toNat_lt
  have hc := c.toNat_lt
  rw [h.bits _ 18 (by decide), h.bits _ 12 (by decide), h.bits _ 6 (by decide),
    h.bits _ 0 (by decide), toNat_triple]
  simp only [UInt32.reduceToNat, Nat.reducePow]
  omega

theorem quad_one (a : UInt8) : quad index [a] = Base64.encode [a] := by
  obtain ⟨hfirst, hsecond, -, -⟩ := index_triple h a 0 0
  have hzero : (0 : UInt8).toNat = 0 := rfl
  rw [hzero, Nat.zero_div, Nat.add_zero] at hsecond
  simp only [quad, tripleOf, List.getD_cons_zero, List.getD_cons_succ, List.getD_nil,
    List.length_cons, List.length_nil, hfirst, hsecond]
  rfl

theorem quad_two (a b : UInt8) : quad index [a, b] = Base64.encode [a, b] := by
  obtain ⟨hfirst, hsecond, hthird, -⟩ := index_triple h a b 0
  have hzero : (0 : UInt8).toNat = 0 := rfl
  rw [hzero, Nat.zero_div, Nat.add_zero] at hthird
  simp only [quad, tripleOf, List.getD_cons_zero, List.getD_cons_succ, List.getD_nil,
    List.length_cons, List.length_nil, hfirst, hsecond, hthird]
  rfl

theorem quad_three (a b c : UInt8) : quad index [a, b, c] = Base64.encode [a, b, c] := by
  obtain ⟨hfirst, hsecond, hthird, hfourth⟩ := index_triple h a b c
  simp only [quad, tripleOf, List.getD_cons_zero, List.getD_cons_succ,
    List.length_cons, List.length_nil, hfirst, hsecond, hthird, hfourth]
  rfl

theorem encodeChunks_eq (bytes : List UInt8) :
    encodeChunks index bytes = String.ofList (Base64.encode bytes) := by
  have hchars : (chunks bytes).flatMap (quad index) = Base64.encode bytes := by
    induction bytes using chunks.induct with
    | case1 => rfl
    | case2 a => rw [chunks, List.flatMap_singleton, quad_one h]
    | case3 a b => rw [chunks, List.flatMap_singleton, quad_two h]
    | case4 a b c rest ih =>
      rw [chunks, List.flatMap_cons, ih, quad_three h]
      rfl
  rw [encodeChunks, hchars]

end Encoding

theorem base64_eq (bytes : List UInt8) : base64 bytes = String.ofList (Base64.encode bytes) :=
  encodeChunks_eq indexes_masked bytes

theorem base64Encode_eq (bytes : List UInt8) :
    base64Encode bytes = String.ofList (Base64.encode bytes) :=
  encodeChunks_eq indexes_cast bytes

/-- `NativeTransfer::attach_signature`. -/
def attachSignature (ext : Address.Crates) (tx : NativeTransfer) (signature : List UInt8) :
    Except TxEvm.Error (List UInt8) := do
  let message ← tx.message ext
  .ok (encodeShortvec 1 ++ signature ++ message)

def singleEd25519 : List Signature → Built (List UInt8)
  | [.ed25519 signatureHex] => EvmConstruction.fixedHex 64 signatureHex "signature"
  | _ => invalid "expected exactly one ed25519 signature"

/-- The Solana arm of the module's `attach_signature`. -/
def attachSolana (ext : Address.Crates) (tx : NativeTransfer) (signatures : List Signature) :
    Built SignedTransaction := do
  let signature ← singleEd25519 signatures
  let signed ← (attachSignature ext tx signature).mapError fun e => .error (.buildFailed e.text)
  .ok { raw := base64 signed, txid := some (ext.base58Encode signature) }

/-- The count of one signature is one byte. -/
theorem attachSignature_ok {ext : Address.Crates} {tx : NativeTransfer}
    {signature wire : List UInt8} (h : attachSignature ext tx signature = .ok wire) :
    ∃ message, tx.message ext = .ok message ∧ wire = 1 :: signature ++ message := by
  obtain ⟨message, hmessage, h⟩ := bind_ok_iff.mp h
  exact ⟨message, hmessage, (Except.ok.inj h).symm⟩

theorem attachSolana_ok_iff {ext : Address.Crates} {tx : NativeTransfer}
    {signatures : List Signature} {signed : SignedTransaction} :
    attachSolana ext tx signatures = .ok signed ↔
      ∃ signature wire, singleEd25519 signatures = .ok signature ∧
        attachSignature ext tx signature = .ok wire ∧
        signed = ⟨base64 wire, some (ext.base58Encode signature)⟩ := by
  constructor
  · intro h
    obtain ⟨signature, hsignature, h⟩ := bind_ok_iff.mp h
    obtain ⟨wire, hwire, h⟩ := bind_ok_iff.mp h
    exact ⟨signature, wire, hsignature, mapError_ok hwire, (Except.ok.inj h).symm⟩
  · rintro ⟨signature, wire, hsignature, hwire, rfl⟩
    simp only [attachSolana, hsignature, hwire, bind, Except.bind, Except.mapError]

/-- The engine's base64 crate, as it documents itself. -/
structure StandardBase64 (host : Host) : Prop where
  encodes : ∀ bytes, host.base64Encode bytes = String.ofList (Base64.encode bytes)
  decodes : ∀ text bytes, Base64.decode text.toList = some bytes →
    host.base64Decode text = .ok bytes

theorem checked_run {α ε : Type} {message : ε → String} {x : Except ε α} {a : α}
    {history : List (Event Request Request.Answer)}
    (run : Trace (check message x : Op α) history (.pure a)) : history = [] ∧ x = .ok a := by
  obtain ⟨rfl, h⟩ := trace_lift run
  exact ⟨rfl, mapError_ok h⟩

/-- A native transfer ends with the signer's transaction decoded and broadcast. -/
theorem signedWire_run {host : Host} {quote : PreparedTransaction} {fromPk wire : List UInt8}
    {amount : Nat} {history : List (Event Request Request.Answer)}
    (native : quote.kind = .nativeTransfer)
    (run : Trace (signedWire host quote fromPk amount) history (.pure wire)) :
    ∃ before blockhash signed, history = before ++
        [⟨.signTransaction .solana (.solana quote.fromAddress quote.toAddress amount blockhash),
          .ok signed⟩] ∧
      host.base64Decode signed.raw = .ok wire := by
  simp only [signedWire, native] at run
  obtain ⟨recentBlockhash, before, _, rfl, -, unsigned⟩ := trace_bind run
  obtain ⟨signed, _, _, rfl, asked, decoded⟩ := trace_bind unsigned
  obtain ⟨answer, rfl, hanswer⟩ := trace_ask asked
  obtain rfl := mapError_ok hanswer
  obtain ⟨rfl, hwire⟩ := checked_run decoded
  exact ⟨before, _, signed, by rw [List.append_nil], hwire⟩

theorem executeSolanaQuote_run {host : Host} {quote : PreparedTransaction}
    {result : ExecutionResult} {history : List (Event Request Request.Answer)}
    (native : quote.kind = .nativeTransfer)
    (run : Trace (executeSolanaQuote host quote) history (.pure result)) :
    ∃ before lamports blockhash signed wire params value,
      history = before ++
        [⟨.signTransaction .solana (.solana quote.fromAddress quote.toAddress lamports blockhash),
            .ok signed⟩,
          ⟨.jsonRpc (networkId .solana none) "sendTransaction" (.array params), .ok value⟩] ∧
      host.base64Decode signed.raw = .ok wire ∧
      params.head? = some (.string (host.base64Encode wire)) := by
  obtain ⟨-, first, _, rfl, -, run⟩ := trace_bind run
  obtain ⟨-, second, _, rfl, -, run⟩ := trace_bind run
  obtain ⟨amount, third, _, rfl, -, run⟩ := trace_bind run
  obtain ⟨fromPk, fourth, _, rfl, -, run⟩ := trace_bind run
  obtain ⟨expectedFrom, fifth, _, rfl, -, run⟩ := trace_bind run
  split_ifs at run with hmismatch
  · cases run
  · obtain ⟨wire, _, _, rfl, wired, unsent⟩ := trace_bind run
    obtain ⟨before, blockhash, signed, rfl, hdecode⟩ := signedWire_run native wired
    obtain ⟨txSig, _, _, rfl, sent, finished⟩ := trace_bind unsent
    obtain ⟨params, value, hparams, rfl⟩ := broadcastSolana_run sent
    obtain ⟨rfl, -⟩ := trace_pure finished
    refine ⟨first ++ second ++ third ++ fourth ++ fifth ++ before, amount, blockhash, signed, wire,
      params, value, ?_, hdecode, hparams⟩
    simp only [List.append_assoc, List.append_nil, List.cons_append, List.nil_append]

/-- Both encoders write standard base64, the module answers with the transaction
it assembled, and what a node is sent decodes to the bytes that were assembled and
signed. -/
theorem broadcast_is_what_was_signed (host : Host) (standard : StandardBase64 host) :
    (∀ bytes, base64 bytes = base64Encode bytes ∧
      (base64 bytes).toList.length = 4 * ((bytes.length + 2) / 3) ∧
      Base64.decode (base64 bytes).toList = some bytes) ∧
    (∀ ext tx signatures signature wire, singleEd25519 signatures = .ok signature →
      attachSignature ext tx signature = .ok wire →
      ∃ signed, attachSolana ext tx signatures = .ok signed ∧
        Base64.decode signed.raw.toList = some wire) ∧
    ∀ (quote : PreparedTransaction) (result : ExecutionResult)
      (history : List (Event Request Request.Answer)), quote.kind = .nativeTransfer →
      Trace (executeSolanaQuote host quote) history (.pure result) →
      ∃ before lamports blockhash signed params value,
        history = before ++
          [⟨.signTransaction .solana (.solana quote.fromAddress quote.toAddress lamports blockhash),
              .ok signed⟩,
            ⟨.jsonRpc (networkId .solana none) "sendTransaction" (.array params), .ok value⟩] ∧
        ∀ ext tx signatures, attachSolana ext tx signatures = .ok signed →
          ∃ signature message text, singleEd25519 signatures = .ok signature ∧
            tx.message ext = .ok message ∧
            attachSignature ext tx signature = .ok (1 :: signature ++ message) ∧
            params.head? = some (.string text) ∧
            Base64.decode text.toList = some (1 :: signature ++ message) := by
  have hdecode : ∀ bytes, Base64.decode (base64 bytes).toList = some bytes := by
    intro bytes
    rw [base64_eq, String.toList_ofList]
    exact Base64.decode_encode bytes
  refine ⟨?_, ?_, ?_⟩
  · intro bytes
    refine ⟨(base64_eq bytes).trans (base64Encode_eq bytes).symm, ?_, hdecode bytes⟩
    rw [base64_eq, String.toList_ofList]
    exact Base64.encode_length bytes
  · intro ext tx signatures signature wire hsignature hassembled
    exact ⟨_, attachSolana_ok_iff.mpr ⟨signature, wire, hsignature, hassembled, rfl⟩, hdecode wire⟩
  · intro quote result history native run
    obtain ⟨before, lamports, blockhash, signed, wire, params, value, hhistory, hwire, hparams⟩ :=
      executeSolanaQuote_run native run
    refine ⟨before, lamports, blockhash, signed, params, value, hhistory, ?_⟩
    intro ext tx signatures hattached
    obtain ⟨signature, assembled, hsignature, hassembled, rfl⟩ := attachSolana_ok_iff.mp hattached
    obtain ⟨message, hmessage, hbytes⟩ := attachSignature_ok hassembled
    have hsame : wire = assembled := by
      have hread := standard.decodes (base64 assembled) assembled (hdecode assembled)
      rw [hwire] at hread
      exact Except.ok.inj hread
    rw [hbytes] at hsame hassembled
    refine ⟨signature, message, host.base64Encode wire, hsignature, hmessage, hassembled, hparams,
      ?_⟩
    rw [standard.encodes, String.toList_ofList, hsame]
    exact Base64.decode_encode _

/-- A native transfer from an account to itself; the address and the blockhash are
one text, so that decoding it is the constant function. -/
def sampleHost : Host :=
  { SolanaMessages.sampleHost with
    ext := { sampleExt with base58Decode := fun _ => .ok (List.replicate 32 1) }
    base64Encode := fun bytes => String.ofList (Base64.encode bytes)
    base64Decode := fun text =>
      ((Base64.decode text.toList).map Except.ok).getD (.error "invalid base64") }

theorem sampleHost_standard : StandardBase64 sampleHost where
  encodes := fun _ => rfl
  decodes := by
    intro text bytes h
    simp [sampleHost, h]

def sampleQuote : PreparedTransaction where
  quoteId := "quote"
  kind := .nativeTransfer
  chain := .solana
  evmNetwork := none
  fromAddress := sampleAccount.address
  toAddress := sampleAccount.address
  assetSymbol := "SOL"
  amountRaw := "1000000"
  amountFormatted := "0.001000000"
  tokenAddress := none
  estimatedFeeRaw := "5000"
  status := .awaitingConfirmation
  createdAtMs := 0
  expiresAtMs := 0
  notes := []

def sampleSignatures : List Signature :=
  [.ed25519 (String.ofList (List.replicate 128 '7'))]

/-- The module's answer to a transfer it is asked to sign. -/
def sampleSigned (sender recipient : String) (lamports : Nat) (recentBlockhash : String) :
    Built SignedTransaction :=
  attachSolana sampleHost.ext ⟨sender, recipient, BitVec.ofNat 64 lamports, recentBlockhash⟩
    sampleSignatures

/-- The node gives a blockhash, the module assembles and signs the transfer, and the
node accepts it. -/
def sampleReply : (e : Engine.Request) → Option e.Answer
  | .derive _ => some (.ok sampleAccount)
  | .jsonRpc _ method _ =>
    if method = "getLatestBlockhash" then
      some (.ok (.object [("value", .object
        [("blockhash", .string sampleAccount.address)])]))
    else some (.ok (.string "sent"))
  | .signTransaction _ (.solana sender recipient lamports recentBlockhash) =>
    (sampleSigned sender recipient lamports recentBlockhash).toOption.map .ok
  | _ => none

theorem sampleReply_signs {sender recipient blockhash : String} {lamports : Nat}
    {signed : SignedTransaction}
    (h : sampleReply (.signTransaction .solana (.solana sender recipient lamports blockhash)) =
      some (.ok signed)) : sampleSigned sender recipient lamports blockhash = .ok signed := by
  rw [sampleReply] at h
  cases hsigned : sampleSigned sender recipient lamports blockhash with
  | error e =>
    rw [hsigned] at h
    cases h
  | ok answer =>
    rw [hsigned] at h
    cases h
    rfl

theorem sample_broadcast_is_signed :
    Base64.decode (base64 [1, 2, 255]).toList = some [1, 2, 255] ∧
    ∃ history result before lamports blockhash signed params value signature message text,
      Trace (executeSolanaQuote sampleHost sampleQuote) history (.pure result) ∧
      history = before ++
        [⟨.signTransaction .solana (.solana sampleQuote.fromAddress sampleQuote.toAddress lamports
            blockhash), .ok signed⟩,
          ⟨.jsonRpc (networkId .solana none) "sendTransaction" (.array params), .ok value⟩] ∧
      sampleSigned sampleQuote.fromAddress sampleQuote.toAddress lamports blockhash =
        .ok signed ∧
      singleEd25519 sampleSignatures = .ok signature ∧
      params.head? = some (.string text) ∧
      Base64.decode text.toList = some (1 :: signature ++ message) := by
  obtain ⟨hencoders, -, hbroadcast⟩ :=
    broadcast_is_what_was_signed sampleHost sampleHost_standard
  obtain ⟨⟨history, result⟩, hran⟩ := Option.isSome_iff_exists.mp
    (show (outcome sampleReply 4 (executeSolanaQuote sampleHost sampleQuote)).isSome = true by
      decide +kernel)
  have run := outcome_trace hran
  have hanswers := outcome_answers hran
  clear hran
  obtain ⟨before, lamports, blockhash, signed, params, value, hhistory, hsent⟩ :=
    hbroadcast sampleQuote result history rfl run
  have hasked : (⟨.signTransaction .solana (.solana sampleQuote.fromAddress sampleQuote.toAddress
      lamports blockhash), .ok signed⟩ : Event Request Request.Answer) ∈ history := by
    rw [hhistory]
    exact List.mem_append_right _ List.mem_cons_self
  have hanswered := hanswers _ hasked
  have hassembled := @sampleReply_signs sampleQuote.fromAddress sampleQuote.toAddress blockhash
    lamports signed hanswered
  obtain ⟨signature, message, text, hsignature, -, -, hparams, hdecoded⟩ := hsent _ _ _ hassembled
  exact ⟨(hencoders [1, 2, 255]).2.2, history, result, before, lamports, blockhash, signed, params,
    value, signature, message, text, run, hhistory, hassembled, hsignature, hparams, hdecoded⟩

end SolanaTransport

import TinyWallet.Library.Base64
import TinyWallet.Library.Json
import TinyWallet.X402.Types

/-!
# What the headers of a paid request carry

A challenge, the proof that answers it and the receipt travel as base64 of
JSON. A record is written without the fields it has no value for, and read from
an object in which no field is written twice, or from an array of its fields.
The two kinds of proof carry no tag: which one it is shows in its fields.

The text of a JSON value is left to the JSON library; the value itself, and
what is read out of it, is not.
-/

namespace X402Wire

open RustText JsonValue Tables

def x402Version : BitVec 8 := 2

def headerPaymentRequired : String := "PAYMENT-REQUIRED"

def headerPaymentRequiredV1 : String := "X-PAYMENT-REQUIRED"

def headerPaymentSignature : String := "PAYMENT-SIGNATURE"

def headerPaymentResponse : String := "PAYMENT-RESPONSE"

def PaymentRequirements.evmChainId (r : PaymentRequirements) : Option (BitVec 64) :=
  (strip "eip155:" r.network).bind fun id => ((parseU64 id).toOption).map (BitVec.ofNat 64)

def PaymentRequirements.feePayerPubkey (r : PaymentRequirements) : Option String :=
  r.extra.bind PaymentExtra.feePayer

def PaymentRequirements.memoValue (r : PaymentRequirements) : Option String :=
  r.extra.bind PaymentExtra.memo

def text (s : String) : Option Json := some (.string s)

def textOption (s : Option String) : Option Json := s.map Json.string

def unsigned {w : Nat} (n : BitVec w) : Option Json := some (.number (.posInt n.toNat))

/-- An empty map of extensions is not written. -/
def extensionsField (extensions : Table String Json) : Option Json :=
  if extensions.entries.isEmpty then none else some (Json.ofTable extensions)

def ResourceInfo.fields (r : ResourceInfo) : List (String × Option Json) :=
  [("url", text r.url), ("description", textOption r.description),
    ("mimeType", textOption r.mimeType)]

def PaymentExtra.fields (e : PaymentExtra) : List (String × Option Json) :=
  [("feePayer", textOption e.feePayer), ("memo", textOption e.memo), ("name", textOption e.name),
    ("version", textOption e.version)]

def PaymentRequirements.fields (r : PaymentRequirements) : List (String × Option Json) :=
  [("scheme", text r.scheme), ("network", text r.network), ("amount", text r.amount),
    ("asset", text r.asset), ("payTo", text r.payTo),
    ("maxTimeoutSeconds", unsigned r.maxTimeoutSeconds),
    ("extra", r.extra.map fun e => Json.written e.fields)]

def PaymentRequired.fields (c : PaymentRequired) : List (String × Option Json) :=
  [("x402Version", unsigned c.x402Version), ("error", textOption c.error),
    ("resource", some (Json.written c.resource.fields)),
    ("accepts", some (.array (c.accepts.map fun r => Json.written r.fields))),
    ("extensions", extensionsField c.extensions)]

def EvmAuthorization.fields (a : EvmAuthorization) : List (String × Option Json) :=
  [("from", text a.fromAddress), ("to", text a.toAddress), ("value", text a.value),
    ("validAfter", text a.validAfter), ("validBefore", text a.validBefore),
    ("nonce", text a.nonce)]

def PaymentProof.fields : PaymentProof → List (String × Option Json)
  | .solana proof => [("transaction", text proof.transaction)]
  | .evm proof => [("signature", text proof.signature),
      ("authorization", some (Json.written proof.authorization.fields))]

def PaymentPayload.fields (p : PaymentPayload) : List (String × Option Json) :=
  [("x402Version", unsigned p.x402Version),
    ("resource", p.resource.map fun r => Json.written r.fields),
    ("accepted", some (Json.written p.accepted.fields)),
    ("payload", some (Json.written p.payload.fields)),
    ("extensions", extensionsField p.extensions)]

def SettlementResponse.fields (r : SettlementResponse) : List (String × Option Json) :=
  [("success", some (.bool r.success)), ("transaction", text r.transaction),
    ("network", text r.network), ("payer", textOption r.payer),
    ("errorReason", textOption r.errorReason), ("amount", textOption r.amount),
    ("extensions", extensionsField r.extensions)]

def writtenOnce (names : List String) : Json → Bool
  | .object members => names.all fun name => (members.filter (·.1 = name)).length ≤ 1
  | _ => true

/-- The fields of a record, none of them written twice. -/
def record (names : List String) (value : Json) : Option (String → Option Json) :=
  if value.isRecord names && writtenOnce names value then some fun name => value.field names name
  else none

def readUnsigned (w : Nat) (value : Json) : Option (BitVec w) :=
  value.asU64.bind fun n => if n < 2 ^ w then some (BitVec.ofNat w n) else none

/-- A map that may be absent, but not null. -/
def readExtensions : Option Json → Option (Table String Json)
  | none => some ∅
  | some value => value.members

def readAll {α : Type} (read : Json → Option α) : Json → Option (List α)
  | .array items => items.mapM read
  | _ => none

def ResourceInfo.read (value : Json) : Option ResourceInfo := do
  let field ← record ["url", "description", "mimeType"] value
  let url ← (field "url").bind Json.asStr
  let description ← Json.optional Json.asStr (field "description")
  let mimeType ← Json.optional Json.asStr (field "mimeType")
  some ⟨url, description, mimeType⟩

def PaymentExtra.read (value : Json) : Option PaymentExtra := do
  let field ← record ["feePayer", "memo", "name", "version"] value
  let feePayer ← Json.optional Json.asStr (field "feePayer")
  let memo ← Json.optional Json.asStr (field "memo")
  let name ← Json.optional Json.asStr (field "name")
  let version ← Json.optional Json.asStr (field "version")
  some ⟨feePayer, memo, name, version⟩

def PaymentRequirements.read (value : Json) : Option PaymentRequirements := do
  let field ← record
    ["scheme", "network", "amount", "asset", "payTo", "maxTimeoutSeconds", "extra"] value
  let scheme ← (field "scheme").bind Json.asStr
  let network ← (field "network").bind Json.asStr
  let amount ← (field "amount").bind Json.asStr
  let asset ← (field "asset").bind Json.asStr
  let payTo ← (field "payTo").bind Json.asStr
  let maxTimeoutSeconds ← (field "maxTimeoutSeconds").bind (readUnsigned 64)
  let extra ← Json.optional PaymentExtra.read (field "extra")
  some ⟨scheme, network, amount, asset, payTo, maxTimeoutSeconds, extra⟩

def PaymentRequired.read (value : Json) : Option PaymentRequired := do
  let field ← record ["x402Version", "error", "resource", "accepts", "extensions"] value
  let version ← (field "x402Version").bind (readUnsigned 8)
  let error ← Json.optional Json.asStr (field "error")
  let resource ← (field "resource").bind ResourceInfo.read
  let accepts ← (field "accepts").bind (readAll PaymentRequirements.read)
  let extensions ← readExtensions (field "extensions")
  some ⟨version, error, resource, accepts, extensions⟩

def SolanaPaymentProof.read (value : Json) : Option SolanaPaymentProof := do
  let field ← record ["transaction"] value
  let transaction ← (field "transaction").bind Json.asStr
  some ⟨transaction⟩

def EvmAuthorization.read (value : Json) : Option EvmAuthorization := do
  let field ← record ["from", "to", "value", "validAfter", "validBefore", "nonce"] value
  let fromAddress ← (field "from").bind Json.asStr
  let toAddress ← (field "to").bind Json.asStr
  let amount ← (field "value").bind Json.asStr
  let validAfter ← (field "validAfter").bind Json.asStr
  let validBefore ← (field "validBefore").bind Json.asStr
  let nonce ← (field "nonce").bind Json.asStr
  some ⟨fromAddress, toAddress, amount, validAfter, validBefore, nonce⟩

def EvmPaymentProof.read (value : Json) : Option EvmPaymentProof := do
  let field ← record ["signature", "authorization"] value
  let signature ← (field "signature").bind Json.asStr
  let authorization ← (field "authorization").bind EvmAuthorization.read
  some ⟨signature, authorization⟩

/-- The first kind of proof that the value is one of. -/
def PaymentProof.read (value : Json) : Option PaymentProof :=
  ((SolanaPaymentProof.read value).map PaymentProof.solana).or
    ((EvmPaymentProof.read value).map PaymentProof.evm)

def PaymentPayload.read (value : Json) : Option PaymentPayload := do
  let field ← record ["x402Version", "resource", "accepted", "payload", "extensions"] value
  let version ← (field "x402Version").bind (readUnsigned 8)
  let resource ← Json.optional ResourceInfo.read (field "resource")
  let accepted ← (field "accepted").bind PaymentRequirements.read
  let payload ← (field "payload").bind PaymentProof.read
  let extensions ← readExtensions (field "extensions")
  some ⟨version, resource, accepted, payload, extensions⟩

def SettlementResponse.read (value : Json) : Option SettlementResponse := do
  let field ← record
    ["success", "transaction", "network", "payer", "errorReason", "amount", "extensions"] value
  let success ← (field "success").bind Json.asBool
  let transaction ← (field "transaction").bind Json.asStr
  let network ← (field "network").bind Json.asStr
  let payer ← Json.optional Json.asStr (field "payer")
  let errorReason ← Json.optional Json.asStr (field "errorReason")
  let amount ← Json.optional Json.asStr (field "amount")
  let extensions ← readExtensions (field "extensions")
  some ⟨success, transaction, network, payer, errorReason, amount, extensions⟩

/-- The JSON library over the bytes of a header, and the error texts of the two
decoders. -/
structure Codec where
  fromSlice : List UInt8 → Except String Json
  mismatch : Json → String
  print : Json → String
  base64Error : String → String

/-- Header names in the order they came in, with the bytes of their values. -/
abbrev HeaderMap := List (String × List UInt8)

def HeaderMap.get (headers : HeaderMap) (name : String) : Option (List UInt8) :=
  (headers.find? fun header => eqIgnoreAsciiCase header.1 name).map Prod.snd

def isVisibleAscii (b : UInt8) : Bool := (32 ≤ b && b < 127) || b = 9

/-- `HeaderValue::to_str`. -/
def toStr (value : List UInt8) : Except String String :=
  if value.all isVisibleAscii then .ok (String.ofList (value.map fun b => Char.ofNat b.toNat))
  else .error "failed to convert header to a str"

def base64Decode (codec : Codec) (text : String) : Except String (List UInt8) :=
  match Base64.decode text.toList with
  | some bytes => .ok bytes
  | none => .error (codec.base64Error text)

/-- `serde_json::from_slice`. -/
def fromSlice {α : Type} (codec : Codec) (read : Json → Option α) (bytes : List UInt8) :
    Except String α :=
  match codec.fromSlice bytes with
  | .error e => .error e
  | .ok value =>
    match read value with
    | none => .error (codec.mismatch value)
    | some a => .ok a

def parse402Headers (codec : Codec) (headers : HeaderMap) : Except X402Error PaymentRequired :=
  match (headers.get headerPaymentRequired).or (headers.get headerPaymentRequiredV1) with
  | none => .error .noPaymentHeader
  | some raw => do
    let text ← (toStr raw).mapError fun e =>
      .protocol ("PAYMENT-REQUIRED header not valid UTF-8: " ++ e)
    let bytes ← (base64Decode codec (trim text)).mapError fun e =>
      .protocol ("PAYMENT-REQUIRED base64 decode: " ++ e)
    (fromSlice codec PaymentRequired.read bytes).mapError fun e =>
      .protocol ("PAYMENT-REQUIRED JSON parse: " ++ e)

def parseSettlementResponse (codec : Codec) (text : String) : Except String SettlementResponse := do
  let bytes ← (base64Decode codec (trim text)).mapError fun e =>
    "PAYMENT-RESPONSE base64 decode: " ++ e
  (fromSlice codec SettlementResponse.read bytes).mapError fun e =>
    "PAYMENT-RESPONSE JSON parse: " ++ e

/-- Base64 of the text a JSON value is printed as. -/
def encodeJson (codec : Codec) (value : Json) : String :=
  String.ofList (Base64.encode (utf8Bytes (codec.print value)))

/-- Nothing in a payload can fail to be written. -/
def encodePayment (codec : Codec) (payment : PaymentPayload) : String :=
  encodeJson codec (Json.written payment.fields)

theorem names_written (fields : List (String × Option Json)) :
    ((fields.filterMap fun f => f.2.map fun value => (f.1, value)).map Prod.fst).Sublist
      (fields.map Prod.fst) := by
  induction fields with
  | nil => exact .slnil
  | cons f rest ih =>
    obtain ⟨name, value⟩ := f
    cases value with
    | none => exact ih.cons name
    | some v => exact ih.cons_cons name

theorem once_of_distinct {members : List (String × Json)} (distinct : (members.map Prod.fst).Nodup)
    (name : String) : (members.filter (·.1 = name)).length ≤ 1 := by
  have hcount := List.nodup_iff_count_le_one.mp distinct name
  rw [List.count, List.countP_map, List.countP_eq_length_filter] at hcount
  exact hcount

/-- A record that was written is read field by field. -/
theorem record_written {names : List String} {fields : List (String × Option Json)}
    (named : fields.map Prod.fst = names) (distinct : names.Nodup) :
    ∃ field, record names (Json.written fields) = some field ∧
      ∀ entry ∈ fields, field entry.1 = entry.2 := by
  subst named
  refine ⟨fun name => (Json.written fields).field (fields.map Prod.fst) name, ?_, ?_⟩
  · have honce : ∀ name ∈ fields.map Prod.fst, ((fields.filterMap fun f =>
        f.2.map fun value => (f.1, value)).filter (·.1 = name)).length ≤ 1 :=
      fun name _ => once_of_distinct ((names_written fields).nodup distinct) name
    have hnames : writtenOnce (fields.map Prod.fst) (Json.written fields) = true := by
      rw [Json.written, writtenOnce, List.all_eq_true]
      exact fun name hname => decide_eq_true (honce name hname)
    rw [record, hnames]
    rfl
  · rintro ⟨name, value⟩ h
    exact Json.get_written distinct h

@[simp] theorem bind_text (s : String) : (text s).bind Json.asStr = some s := rfl

@[simp] theorem optional_textOption (s : Option String) :
    Json.optional Json.asStr (textOption s) = some s := by
  cases s <;> rfl

@[simp] theorem bind_unsigned {w : Nat} (n : BitVec w) :
    (unsigned n).bind (readUnsigned w) = some n := by
  simp [unsigned, readUnsigned, Json.asU64, n.isLt]

theorem optional_written {α : Type} {read : Json → Option α}
    {fields : α → List (String × Option Json)}
    (reads : ∀ a, read (Json.written (fields a)) = some a) (a : Option α) :
    Json.optional read (a.map fun a => Json.written (fields a)) = some a := by
  cases a with
  | none => rfl
  | some a =>
    have h : Json.optional read (some (Json.written (fields a))) =
        (read (Json.written (fields a))).map some := rfl
    rw [Option.map_some, h, reads]
    rfl

theorem mapM_written {α : Type} {read : Json → Option α} {fields : α → List (String × Option Json)}
    (reads : ∀ a, read (Json.written (fields a)) = some a) (items : List α) :
    (items.map fun a => Json.written (fields a)).mapM read = some items := by
  induction items with
  | nil => rfl
  | cons a rest ih => simp [reads, ih]

/-- A map comes back with the same entries, in whatever order. -/
theorem readExtensions_written (extensions : Table String Json) :
    ∃ t, readExtensions (extensionsField extensions) = some t ∧
      ∀ key, t.lookup key = extensions.lookup key := by
  rw [extensionsField]
  split_ifs with hempty
  · refine ⟨∅, rfl, fun key => ?_⟩
    have hentries : extensions = ∅ := AList.ext (List.isEmpty_iff.mp hempty)
    rw [hentries]
  · refine ⟨_, rfl, fun key => ?_⟩
    have hmembers : Json.members (Json.ofTable extensions) = some _ := rfl
    rw [Json.lookup_members hmembers, Json.get_ofTable]

theorem ResourceInfo.read_written (r : ResourceInfo) :
    ResourceInfo.read (Json.written r.fields) = some r := by
  obtain ⟨field, hrecord, hfield⟩ :=
    @record_written ["url", "description", "mimeType"] r.fields rfl (by decide)
  simp only [fields, List.forall_mem_cons] at hfield
  obtain ⟨hurl, hdescription, hmimeType, -⟩ := hfield
  simp [ResourceInfo.read, hrecord, hurl, hdescription, hmimeType]

theorem PaymentExtra.read_written (e : PaymentExtra) :
    PaymentExtra.read (Json.written e.fields) = some e := by
  obtain ⟨field, hrecord, hfield⟩ :=
    @record_written ["feePayer", "memo", "name", "version"] e.fields rfl (by decide)
  simp only [fields, List.forall_mem_cons] at hfield
  obtain ⟨hfeePayer, hmemo, hname, hversion, -⟩ := hfield
  simp [PaymentExtra.read, hrecord, hfeePayer, hmemo, hname, hversion]

theorem PaymentRequirements.read_written (r : PaymentRequirements) :
    PaymentRequirements.read (Json.written r.fields) = some r := by
  obtain ⟨field, hrecord, hfield⟩ := @record_written
    ["scheme", "network", "amount", "asset", "payTo", "maxTimeoutSeconds", "extra"] r.fields rfl
    (by decide)
  simp only [fields, List.forall_mem_cons] at hfield
  obtain ⟨hscheme, hnetwork, hamount, hasset, hpayTo, htimeout, hextra, -⟩ := hfield
  simp [PaymentRequirements.read, hrecord, hscheme, hnetwork, hamount, hasset, hpayTo, htimeout,
    hextra, optional_written PaymentExtra.read_written]

/-- Two challenges or payloads with the same extensions under each name. -/
def SameEntries (t t' : Table String Json) : Prop := ∀ key, t.lookup key = t'.lookup key

theorem PaymentRequired.read_written (c : PaymentRequired) :
    ∃ extensions, PaymentRequired.read (Json.written c.fields) =
      some { c with extensions := extensions } ∧ SameEntries extensions c.extensions := by
  obtain ⟨field, hrecord, hfield⟩ := @record_written
    ["x402Version", "error", "resource", "accepts", "extensions"] c.fields rfl (by decide)
  simp only [fields, List.forall_mem_cons] at hfield
  obtain ⟨hversion, herror, hresource, haccepts, hextensions, -⟩ := hfield
  obtain ⟨t, hread, hsame⟩ := readExtensions_written c.extensions
  refine ⟨t, ?_, hsame⟩
  have hall : readAll PaymentRequirements.read (.array (c.accepts.map fun r =>
      Json.written r.fields)) = some c.accepts :=
    mapM_written PaymentRequirements.read_written c.accepts
  simp [PaymentRequired.read, hrecord, hversion, herror, hresource, haccepts, hextensions,
    ResourceInfo.read_written, hall, hread]

theorem EvmAuthorization.read_written (a : EvmAuthorization) :
    EvmAuthorization.read (Json.written a.fields) = some a := by
  obtain ⟨field, hrecord, hfield⟩ := @record_written
    ["from", "to", "value", "validAfter", "validBefore", "nonce"] a.fields rfl (by decide)
  simp only [fields, List.forall_mem_cons] at hfield
  obtain ⟨hfrom, hto, hvalue, hafter, hbefore, hnonce, -⟩ := hfield
  simp [EvmAuthorization.read, hrecord, hfrom, hto, hvalue, hafter, hbefore, hnonce]

/-- An authorization has no `transaction`, so that neither kind of proof is taken
for the other. -/
theorem PaymentProof.read_written (proof : PaymentProof) :
    PaymentProof.read (Json.written proof.fields) = some proof := by
  cases proof with
  | solana proof =>
    obtain ⟨field, hrecord, hfield⟩ :=
      @record_written ["transaction"] (PaymentProof.solana proof).fields rfl (by decide)
    simp only [fields, List.forall_mem_cons] at hfield
    simp [PaymentProof.read, SolanaPaymentProof.read, hrecord, hfield.1]
  | evm proof =>
    obtain ⟨field, hrecord, hfield⟩ := @record_written ["signature", "authorization"]
      (PaymentProof.evm proof).fields rfl (by decide)
    simp only [fields, List.forall_mem_cons] at hfield
    obtain ⟨hsignature, hauthorization, -⟩ := hfield
    have hother : SolanaPaymentProof.read (Json.written (PaymentProof.evm proof).fields) =
        none := by
      simp [SolanaPaymentProof.read, record, fields, Json.written, text, Json.isRecord,
        writtenOnce, Json.field, Json.get]
    rw [PaymentProof.read, hother]
    simp [EvmPaymentProof.read, hrecord, hsignature, hauthorization,
      EvmAuthorization.read_written]

theorem PaymentPayload.read_written (p : PaymentPayload) :
    ∃ extensions, PaymentPayload.read (Json.written p.fields) =
      some { p with extensions := extensions } ∧ SameEntries extensions p.extensions := by
  obtain ⟨field, hrecord, hfield⟩ := @record_written
    ["x402Version", "resource", "accepted", "payload", "extensions"] p.fields rfl (by decide)
  simp only [fields, List.forall_mem_cons] at hfield
  obtain ⟨hversion, hresource, haccepted, hpayload, hextensions, -⟩ := hfield
  obtain ⟨t, hread, hsame⟩ := readExtensions_written p.extensions
  refine ⟨t, ?_, hsame⟩
  simp [PaymentPayload.read, hrecord, hversion, hresource, haccepted, hpayload, hextensions,
    optional_written ResourceInfo.read_written, PaymentRequirements.read_written,
    PaymentProof.read_written, hread]

theorem SettlementResponse.read_written (r : SettlementResponse) :
    ∃ extensions, SettlementResponse.read (Json.written r.fields) =
      some { r with extensions := extensions } ∧ SameEntries extensions r.extensions := by
  obtain ⟨field, hrecord, hfield⟩ := @record_written
    ["success", "transaction", "network", "payer", "errorReason", "amount", "extensions"] r.fields
    rfl (by decide)
  simp only [fields, List.forall_mem_cons] at hfield
  obtain ⟨hsuccess, htransaction, hnetwork, hpayer, hreason, hamount, hextensions, -⟩ := hfield
  obtain ⟨t, hread, hsame⟩ := readExtensions_written r.extensions
  refine ⟨t, ?_, hsame⟩
  simp [SettlementResponse.read, hrecord, hsuccess, htransaction, hnetwork, hpayer, hreason,
    hamount, hextensions, Json.asBool, hread]

theorem symbol_visible (bits : Nat) :
    32 < (Base64.symbol bits).toNat ∧ (Base64.symbol bits).toNat < 127 := by
  by_cases h : bits < 64
  · have hall : ∀ n : Fin 64, 32 < (Base64.symbol n.val).toNat ∧
        (Base64.symbol n.val).toNat < 127 := by
      decide +kernel
    exact hall ⟨bits, h⟩
  · have hlength : Base64.alphabet.length = 64 := by decide +kernel
    have hpad : Base64.symbol bits = '=' := by
      rw [Base64.symbol, List.getD_eq_default]
      omega
    rw [hpad]
    decide

theorem encode_visible (bytes : List UInt8) :
    ∀ c ∈ Base64.encode bytes, 32 < c.toNat ∧ c.toNat < 127 := by
  induction bytes using Base64.encode.induct with
  | case1 => simp [Base64.encode]
  | case2 a => simp [Base64.encode, symbol_visible]
  | case3 a b => simp [Base64.encode, symbol_visible]
  | case4 a b c rest ih =>
    simp only [Base64.encode, List.forall_mem_cons]
    exact ⟨symbol_visible _, symbol_visible _, symbol_visible _, symbol_visible _, ih⟩

/-- A text of ASCII characters as the bytes of a header. -/
def headerBytes (text : String) : List UInt8 := text.toList.map fun c => UInt8.ofNat c.toNat

theorem toStr_headerBytes {text : String} (h : ∀ c ∈ text.toList, 32 < c.toNat ∧ c.toNat < 127) :
    toStr (headerBytes text) = .ok text := by
  have hbyte : ∀ c ∈ text.toList, (UInt8.ofNat c.toNat).toNat = c.toNat := by
    intro c hc
    have := (h c hc).2
    simp only [UInt8.toNat_ofNat']
    omega
  have hvisible : (headerBytes text).all isVisibleAscii = true := by
    rw [headerBytes, List.all_map, List.all_eq_true]
    intro c hc
    have hlow := (h c hc).1
    have hhigh := (h c hc).2
    have hle : (32 : UInt8) ≤ UInt8.ofNat c.toNat := by
      rw [UInt8.le_iff_toNat_le, hbyte c hc]
      exact hlow.le
    have hlt : UInt8.ofNat c.toNat < (127 : UInt8) := by
      rw [UInt8.lt_iff_toNat_lt, hbyte c hc]
      exact hhigh
    simp [isVisibleAscii, hle, hlt]
  have hback : ((headerBytes text).map fun b => Char.ofNat b.toNat) = text.toList := by
    rw [headerBytes, List.map_map]
    refine (List.map_congr_left fun c hc => ?_).trans (List.map_id _)
    rw [Function.comp_apply, hbyte c hc, Char.ofNat_toNat, id]
  rw [toStr, if_pos hvisible, hback, String.ofList_toList]

theorem trim_of_visible {text : String} (h : ∀ c ∈ text.toList, 32 < c.toNat ∧ c.toNat < 127) :
    trim text = text := by
  have hspace : ∀ c ∈ text.toList, isWhiteSpace c = false := by
    intro c hc
    have hlow := (h c hc).1
    have hhigh := (h c hc).2
    simp only [isWhiteSpace]
    simp
    omega
  rw [trim, trimChars_of_no_space hspace, String.ofList_toList]

/-- The JSON library reads back what it prints. -/
def Codec.ReadsBack (codec : Codec) (value : Json) : Prop :=
  codec.fromSlice (utf8Bytes (codec.print value)) = .ok value

theorem encodeJson_visible (codec : Codec) (value : Json) :
    ∀ c ∈ (encodeJson codec value).toList, 32 < c.toNat ∧ c.toNat < 127 := by
  rw [encodeJson, String.toList_ofList]
  exact encode_visible _

theorem base64Decode_encodeJson (codec : Codec) (value : Json) :
    base64Decode codec (encodeJson codec value) = .ok (utf8Bytes (codec.print value)) := by
  rw [base64Decode, encodeJson, String.toList_ofList, Base64.decode_encode]

theorem fromSlice_printed {α : Type} {codec : Codec} {value : Json} (h : codec.ReadsBack value)
    {read : Json → Option α} {a : α} (hread : read value = some a) :
    fromSlice codec read (utf8Bytes (codec.print value)) = .ok a := by
  have hslice : codec.fromSlice (utf8Bytes (codec.print value)) = .ok value := h
  rw [fromSlice, hslice]
  simp only [hread]

/-- What is read in a payment header on the other side. -/
def readPayment (codec : Codec) (header : String) : Except String PaymentPayload :=
  (base64Decode codec header).bind (fromSlice codec PaymentPayload.read)

/-- A challenge arrives as the server wrote it, under either header name, a payment as the
client wrote it, and a receipt as the server wrote it. -/
theorem headers_read_back (codec : Codec) :
    (∀ (challenge : PaymentRequired) (headers : HeaderMap),
      codec.ReadsBack (Json.written challenge.fields) →
      (headers.get headerPaymentRequired).or (headers.get headerPaymentRequiredV1) =
        some (headerBytes (encodeJson codec (Json.written challenge.fields))) →
      ∃ extensions, parse402Headers codec headers =
          .ok { challenge with extensions := extensions } ∧
        SameEntries extensions challenge.extensions) ∧
    (∀ payment : PaymentPayload, codec.ReadsBack (Json.written payment.fields) → ∃ extensions,
      readPayment codec (encodePayment codec payment) =
          .ok { payment with extensions := extensions } ∧
        SameEntries extensions payment.extensions) ∧
    ∀ receipt : SettlementResponse, codec.ReadsBack (Json.written receipt.fields) → ∃ extensions,
      parseSettlementResponse codec (encodeJson codec (Json.written receipt.fields)) =
          .ok { receipt with extensions := extensions } ∧
        SameEntries extensions receipt.extensions := by
  refine ⟨?_, ?_, ?_⟩
  · intro challenge headers reads hget
    obtain ⟨extensions, hread, hsame⟩ := challenge.read_written
    refine ⟨extensions, ?_, hsame⟩
    have hvisible := encodeJson_visible codec (Json.written challenge.fields)
    simp only [parse402Headers, hget, toStr_headerBytes hvisible, trim_of_visible hvisible,
      base64Decode_encodeJson, fromSlice_printed reads hread, Except.mapError, bind,
      Except.bind]
  · intro payment reads
    obtain ⟨extensions, hread, hsame⟩ := payment.read_written
    refine ⟨extensions, ?_, hsame⟩
    simp only [readPayment, encodePayment, base64Decode_encodeJson, Except.bind,
      fromSlice_printed reads hread]
  · intro receipt reads
    obtain ⟨extensions, hread, hsame⟩ := receipt.read_written
    refine ⟨extensions, ?_, hsame⟩
    have hvisible := encodeJson_visible codec (Json.written receipt.fields)
    simp only [parseSettlementResponse, trim_of_visible hvisible, base64Decode_encodeJson,
      fromSlice_printed reads hread, Except.mapError, bind, Except.bind]

/-- A challenge under the older header name, the payment that answers it, and its receipt. -/
def sampleOption : PaymentRequirements where
  scheme := "exact"
  network := "solana:5eykt4UsFv8P8NJdTREpY1vzqKqZKvdp"
  amount := "2500"
  asset := "EPjFWdd5AufqSSqeM2qN1xzybapC8G4wEGGkZwyTDt1v"
  payTo := "11111111111111111111111111111112"
  maxTimeoutSeconds := 60
  extra := some ⟨some "11111111111111111111111111111113", none, none, none⟩

def sampleChallenge : PaymentRequired where
  x402Version := 2
  error := none
  resource := ⟨"https://api.example.com/data", none, none⟩
  accepts := [sampleOption]
  extensions := ∅

def samplePayment : PaymentPayload where
  x402Version := 2
  resource := none
  accepted := sampleOption
  payload := .solana ⟨"AQ=="⟩
  extensions := ∅

def sampleReceipt : SettlementResponse where
  success := true
  transaction := "5xT"
  network := "solana:5eykt4UsFv8P8NJdTREpY1vzqKqZKvdp"
  payer := none
  errorReason := none
  amount := some "2500"
  extensions := ∅

def sampleOptionText : String :=
  "\x7b\"scheme\":\"exact\",\"network\":\"solana:5eykt4UsFv8P8NJdTREpY1vzqKqZKvdp\"," ++
    "\"amount\":\"2500\",\"asset\":\"EPjFWdd5AufqSSqeM2qN1xzybapC8G4wEGGkZwyTDt1v\"," ++
    "\"payTo\":\"11111111111111111111111111111112\",\"maxTimeoutSeconds\":60," ++
    "\"extra\":\x7b\"feePayer\":\"11111111111111111111111111111113\"\x7d\x7d"

def sampleChallengeText : String :=
  "\x7b\"x402Version\":2,\"resource\":\x7b\"url\":\"https://api.example.com/data\"\x7d," ++
    "\"accepts\":[" ++ sampleOptionText ++ "]\x7d"

def samplePaymentText : String :=
  "\x7b\"x402Version\":2,\"accepted\":" ++ sampleOptionText ++
    ",\"payload\":\x7b\"transaction\":\"AQ==\"\x7d\x7d"

def sampleReceiptText : String :=
  "\x7b\"success\":true,\"transaction\":\"5xT\"," ++
    "\"network\":\"solana:5eykt4UsFv8P8NJdTREpY1vzqKqZKvdp\",\"amount\":\"2500\"\x7d"

/-- The JSON library on the three texts. -/
def sampleCodec : Codec where
  fromSlice bytes :=
    if bytes = utf8Bytes sampleChallengeText then .ok (Json.written sampleChallenge.fields)
    else if bytes = utf8Bytes samplePaymentText then .ok (Json.written samplePayment.fields)
    else if bytes = utf8Bytes sampleReceiptText then .ok (Json.written sampleReceipt.fields)
    else .error "expected value at line 1 column 1"
  mismatch := fun _ => "invalid type"
  print value :=
    if (value.get "accepts").isSome then sampleChallengeText
    else if (value.get "success").isSome then sampleReceiptText
    else samplePaymentText
  base64Error := fun _ => "Invalid padding"

theorem sample_texts_differ : samplePaymentText ≠ sampleChallengeText ∧
    sampleReceiptText ≠ sampleChallengeText ∧ sampleReceiptText ≠ samplePaymentText := by
  decide +kernel

theorem sample_challenge_reads : sampleCodec.ReadsBack (Json.written sampleChallenge.fields) := by
  have hprint : sampleCodec.print (Json.written sampleChallenge.fields) = sampleChallengeText := rfl
  rw [Codec.ReadsBack, hprint, sampleCodec]
  dsimp only
  rw [if_pos rfl]

theorem sample_payment_reads : sampleCodec.ReadsBack (Json.written samplePayment.fields) := by
  have hprint : sampleCodec.print (Json.written samplePayment.fields) = samplePaymentText := rfl
  rw [Codec.ReadsBack, hprint, sampleCodec]
  dsimp only
  rw [if_neg (utf8Bytes_injective.ne sample_texts_differ.1), if_pos rfl]

theorem sample_receipt_reads : sampleCodec.ReadsBack (Json.written sampleReceipt.fields) := by
  have hprint : sampleCodec.print (Json.written sampleReceipt.fields) = sampleReceiptText := rfl
  rw [Codec.ReadsBack, hprint, sampleCodec]
  dsimp only
  rw [if_neg (utf8Bytes_injective.ne sample_texts_differ.2.1),
    if_neg (utf8Bytes_injective.ne sample_texts_differ.2.2), if_pos rfl]

def sampleHeaders : HeaderMap :=
  [("content-type", utf8Bytes "application/json"),
    ("x-payment-required",
      headerBytes (encodeJson sampleCodec (Json.written sampleChallenge.fields)))]

/-- The older name is looked at where the newer one is not given. -/
theorem older_header_found (other value : List UInt8) :
    (HeaderMap.get [("content-type", other), ("x-payment-required", value)]
        headerPaymentRequired).or
      (HeaderMap.get [("content-type", other), ("x-payment-required", value)]
        headerPaymentRequiredV1) = some value := by
  have hname : eqIgnoreAsciiCase "x-payment-required" headerPaymentRequiredV1 = true := by
    decide +kernel
  have hother : eqIgnoreAsciiCase "x-payment-required" headerPaymentRequired = false ∧
      eqIgnoreAsciiCase "content-type" headerPaymentRequired = false ∧
      eqIgnoreAsciiCase "content-type" headerPaymentRequiredV1 = false := by
    decide +kernel
  simp [HeaderMap.get, hname, hother]

theorem sample_headers_read_back :
    (∃ extensions, parse402Headers sampleCodec sampleHeaders =
        .ok { sampleChallenge with extensions := extensions } ∧
      SameEntries extensions sampleChallenge.extensions) ∧
    (∃ extensions, readPayment sampleCodec (encodePayment sampleCodec samplePayment) =
        .ok { samplePayment with extensions := extensions } ∧
      SameEntries extensions samplePayment.extensions) ∧
    ∃ extensions, parseSettlementResponse sampleCodec
        (encodeJson sampleCodec (Json.written sampleReceipt.fields)) =
        .ok { sampleReceipt with extensions := extensions } ∧
      SameEntries extensions sampleReceipt.extensions := by
  obtain ⟨challenges, payments, receipts⟩ := headers_read_back sampleCodec
  refine ⟨?_, payments samplePayment sample_payment_reads,
    receipts sampleReceipt sample_receipt_reads⟩
  exact challenges sampleChallenge sampleHeaders sample_challenge_reads (older_header_found _ _)

end X402Wire

import TinyWallet.Library.Programs
import TinyWallet.Tron.Acceptance
import TinyWallet.Wire

/-!
# The library's own Tron send

`client::tron::send` has the node build a transfer, checks the answer, signs it
and broadcasts it. The check is `verify_transfer`, a search for byte runs, so
what it signs is the requested transfer only when the runs are where the
transfer is. Signing itself is a request here: it is the event of interest.
-/

namespace TronSend

open RustText JsonValue Programs Wire TronProto TronVerify TronAcceptance

inductive Error where
  | address (e : Address.Error)
  | transport (e : TransportError)
  | tx (e : TronProto.Error)
  | malformedResponse (network : NetworkId) (operation detail : String)

inductive Request where
  | restPost (network : NetworkId) (path body contentType : String)
  | sign (rawDataHex : String) (secretKey : List UInt8)

def Request.Answer : Request → Type
  | .restPost .. => Except TransportError String
  | .sign .. => Except TronProto.Error (List UInt8)

abbrev Client := Prog Request Request.Answer (Failure Error)

def network : NetworkId := .ofChain .tron

def malformed (operation detail : String) : Failure Error :=
  .error (.malformedResponse network operation detail)

def liftAddress {α : Type} (x : Except Address.Error α) : Client α :=
  .lift (x.mapError fun e => .error (.address e))

def txFailure : Failure TronProto.Error → Failure Error
  | .error e => .error (.tx e)
  | .panic => .panic

def restPost (path body contentType : String) : Client String :=
  .ask (.restPost network path body contentType) fun (answer : Except TransportError String) =>
    answer.mapError fun e => .error (.transport e)

def parseAnswer (codec : Codec) (operation body : String) : Client Json :=
  .lift ((codec.parse body).mapError fun e => malformed operation ("not JSON: " ++ e))

def stringField (codec : Codec) (built : Json) (field : String) : Client String :=
  match built.getStr field with
  | some value => .pure value
  | none => .fail (malformed "wallet/createtransaction"
      ("no " ++ field ++ " in " ++ codec.print built))

def sign (rawDataHex : String) (secretKey : List UInt8) : Client (List UInt8) :=
  .ask (.sign rawDataHex secretKey) fun (answer : Except TronProto.Error (List UInt8)) =>
    answer.mapError fun e => .error (.tx e)

def broadcast (codec : Codec) (built : Json) (txid : String) (signature : List UInt8) :
    Client String := do
  let signed := built.set "signature" (.array [.string (hexLower signature)])
  let body ← restPost "wallet/broadcasttransaction" (codec.print signed) "application/json"
  let result ← parseAnswer codec "wallet/broadcasttransaction" body
  -- a 200 with result false is a rejection
  if (result.get "result").bind Json.asBool = some true then .pure txid
  else .fail (.error (.transport (.rpc network ("broadcast rejected: " ++ codec.print result))))

/-- From the node's answer on: check, sign, broadcast. -/
def signBuilt (ext : Address.Crates) (codec : Codec) (toAddr : String) (amount : Nat)
    (secretKey : List UInt8) (body : String) : Client String := do
  let built ← parseAnswer codec "wallet/createtransaction" body
  let rawDataHex ← stringField codec built "raw_data_hex"
  let txid ← stringField codec built "txID"
  -- verify before signing: the node built this
  Prog.lift ((verifyTransfer ext rawDataHex toAddr txid (.native amount)).mapError txFailure)
  let signature ← sign rawDataHex secretKey
  broadcast codec built txid signature

def createBody (codec : Codec) (ownerHex toHex : String) (amount : Nat) : String :=
  codec.print (.object [("owner_address", .string ownerHex), ("to_address", .string toHex),
    ("amount", .number (.posInt amount)), ("visible", .bool false)])

def send (ext : Address.Crates) (codec : Codec) (sender toAddr : String) (amount : Nat)
    (secretKey : List UInt8) : Client String := do
  let ownerHex ← liftAddress (Address.Tron.toHex ext sender)
  let toHex ← liftAddress (Address.Tron.toHex ext toAddr)
  let body ← restPost "wallet/createtransaction" (createBody codec ownerHex toHex amount)
    "application/json"
  signBuilt ext codec toAddr amount secretKey body

/-- Whatever `send` signs after the node answered `answer` is accepted by
`verify_contract` for this recipient, this amount and the answered id. -/
def SignsOnlyRequested (ext : Address.Crates) (codec : Codec) (sender toAddr : String)
    (amount : Nat) (secretKey : List UInt8) (answer : Except TransportError String) : Prop :=
  ∀ path body contentType history rest rawDataHex key signature,
    Trace (send ext codec sender toAddr amount secretKey)
      (⟨.restPost network path body contentType, answer⟩ :: history) rest →
    (⟨.sign rawDataHex key, signature⟩ : Event Request Request.Answer) ∈ history →
    ∃ text built txid, answer = .ok text ∧ codec.parse text = .ok built ∧
      built.getStr "raw_data_hex" = some rawDataHex ∧ built.getStr "txID" = some txid ∧
      verifyContract ext rawDataHex toAddr txid (.native amount) none = .ok ()

/-- What a search of the answered bytes comes upon: the digits of the recipient
somewhere in the text and the varint of the amount somewhere in the bytes. -/
structure HasRuns (ext : Address.Crates) (rawDataHex txid : String) (raw recipient : List UInt8)
    (amount : Nat) : Prop where
  decoded : decodeHex rawDataHex = .ok raw
  id : eqIgnoreAsciiCase (hexLower (ext.sha256 raw)) (trim txid) = true
  recipient : (hexLower recipient).toList <:+: (toAsciiLowercase rawDataHex).toList
  amount : encodeVarint amount <:+: raw

/-- The bytes are one transfer, and the runs are in it where a transfer has them: the
recipient is its field 2 and the amount its field 3, each once. -/
def RunsAtTheirFields (raw recipient : List UInt8) (amount : Nat) : Prop :=
  ∃ layers : Layers raw, layers.kind = contractTypeTransfer ∧
    endsWith layers.typeUrl ".TransferContract" = true ∧
    layers.payloadFields.filter (·.number = 2) = [⟨2, .bytes recipient⟩] ∧
    layers.payloadFields.filter (·.number = 3) = [⟨3, .varint amount⟩]

/-- An answer in which the two runs occur has them at their fields. -/
def RunsAreTheTransfer (ext : Address.Crates) (codec : Codec) (sender toAddr : String)
    (amount : Nat) (answer : Except TransportError String) : Prop :=
  ∀ text built rawDataHex txid owner raw recipient,
    Address.Tron.decode ext sender = .ok owner → Address.Tron.decode ext toAddr = .ok recipient →
    answer = .ok text → codec.parse text = .ok built →
    built.getStr "raw_data_hex" = some rawDataHex → built.getStr "txID" = some txid →
    HasRuns ext rawDataHex txid raw recipient amount → RunsAtTheirFields raw recipient amount

theorem toAsciiLowercase_hexLower (bytes : List UInt8) :
    toAsciiLowercase (hexLower bytes) = hexLower bytes := by
  have hdigit : ∀ n : Fin 16, (hexDigit n.val).toLower = hexDigit n.val := by decide
  have hbyte : ∀ b : UInt8, (hexByte b).map Char.toLower = hexByte b := by
    intro b
    have hlt := b.toNat_lt
    simp only [hexByte, List.map_cons, List.map_nil, hdigit ⟨b.toNat / 16, by omega⟩,
      hdigit ⟨b.toNat % 16, by omega⟩]
  have hall : (bytes.flatMap hexByte).map Char.toLower = bytes.flatMap hexByte := by
    induction bytes with
    | nil => rfl
    | cons b bytes ih => rw [List.flatMap_cons, List.map_append, hbyte, ih]
  rw [toAsciiLowercase, hexLower, String.toList_ofList, hall]

theorem encodeVarint_ne_nil (value : Nat) : (encodeVarint value).isEmpty = false := by
  rw [encodeVarint, encodeVarintFuel]
  split <;> rfl

section Runs

variable {ext : Address.Crates} {codec : Codec} {sender toAddr : String} {amount : Nat}
  {secretKey : List UInt8}

/-- The check of the library is the search for the two runs. -/
theorem verifyTransfer_ok_iff {rawDataHex txid : String} :
    verifyTransfer ext rawDataHex toAddr txid (.native amount) = .ok () ↔
      ∃ raw recipient, Address.Tron.decode ext toAddr = .ok recipient ∧
        HasRuns ext rawDataHex txid raw recipient amount := by
  have hlower : ∀ recipient, contains (toAsciiLowercase rawDataHex)
      (toAsciiLowercase (hexLower recipient)) = true ↔
        (hexLower recipient).toList <:+: (toAsciiLowercase rawDataHex).toList := by
    intro recipient
    rw [toAsciiLowercase_hexLower, contains, decide_eq_true_eq]
  unfold verifyTransfer recomputeTxid
  constructor
  · intro h
    obtain ⟨expectedId, hid, h⟩ := bind_ok_iff.mp h
    obtain ⟨raw, hraw, hid⟩ := bind_ok_iff.mp hid
    cases hid
    split at h
    · cases h
    next htxid =>
    obtain ⟨toHex, hhex, h⟩ := bind_ok_iff.mp h
    cases hto : Address.Tron.decode ext toAddr with
    | error e =>
      rw [Address.Tron.toHex, hto] at hhex
      cases hhex
    | ok recipient =>
      rw [Address.Tron.toHex, hto] at hhex
      cases hhex
      split at h
      · cases h
      next hfound =>
      obtain ⟨bytes, hbytes, h⟩ := bind_ok_iff.mp h
      obtain rfl : raw = bytes := Except.ok.inj (hraw.symm.trans hbytes)
      obtain ⟨expected, hexpected, h⟩ := bind_ok_iff.mp h
      cases hexpected
      have hwindow : hasWindow (encodeVarint amount) raw = true := by
        by_contra hmissing
        dsimp only at h
        rw [if_pos (by simp [hmissing])] at h
        cases h
      refine ⟨raw, recipient, rfl, hraw, by simpa using htxid, ?_, ?_⟩
      · exact (hlower recipient).mp (by simpa using hfound)
      · simpa [hasWindow] using hwindow
  · rintro ⟨raw, recipient, hto, hruns⟩
    refine bind_ok_iff.mpr ⟨_, bind_ok_iff.mpr ⟨raw, hruns.decoded, rfl⟩, ?_⟩
    rw [if_neg (by simp [hruns.id])]
    refine bind_ok_iff.mpr ⟨hexLower recipient, ?_, ?_⟩
    · rw [Address.Tron.toHex, hto]
      rfl
    rw [if_neg (by simp [(hlower recipient).mpr hruns.recipient])]
    refine bind_ok_iff.mpr ⟨raw, hruns.decoded, ?_⟩
    refine bind_ok_iff.mpr ⟨encodeVarint amount, rfl, ?_⟩
    simp [encodeVarint_ne_nil, hasWindow, hruns.amount]

/-- Where the runs occur, `verify_contract` asks that they be at their fields. -/
theorem verifyContract_iff_fields {rawDataHex txid : String} {raw recipient : List UInt8}
    (address : Address.Tron.decode ext toAddr = .ok recipient)
    (runs : HasRuns ext rawDataHex txid raw recipient amount) :
    verifyContract ext rawDataHex toAddr txid (.native amount) none = .ok () ↔
      RunsAtTheirFields raw recipient amount := by
  rw [verifyContract_ok_iff]
  constructor
  · rintro ⟨bytes, found, hbytes, _, hfound, hcheck⟩
    obtain rfl : raw = bytes := Except.ok.inj (runs.decoded.symm.trans hbytes)
    obtain rfl : recipient = found := Except.ok.inj (address.symm.trans hfound)
    exact checkContract_ok_iff.mp hcheck
  · intro hfields
    exact ⟨raw, recipient, runs.decoded, runs.id, address, checkContract_ok_iff.mpr hfields⟩

/-- The run of `send` up to the node's answer. -/
theorem trace_send {path body contentType : String} {answer : Except TransportError String}
    {history : List (Event Request Request.Answer)} {rest : Client String}
    (h : Trace (send ext codec sender toAddr amount secretKey)
      (⟨.restPost network path body contentType, answer⟩ :: history) rest) :
    ∃ owner, Address.Tron.decode ext sender = .ok owner ∧
      ((∃ text, answer = .ok text ∧
        Trace (signBuilt ext codec toAddr amount secretKey text) history rest) ∨
        history = []) := by
  unfold send at h
  cases hsender : Address.Tron.decode ext sender with
  | error e =>
    rw [Address.Tron.toHex, hsender] at h
    cases h
  | ok owner =>
    rw [Address.Tron.toHex, hsender] at h
    cases hto : Address.Tron.toHex ext toAddr with
    | error e =>
      rw [hto] at h
      cases h
    | ok toHex =>
      rw [hto] at h
      refine ⟨owner, rfl, ?_⟩
      change Trace (Prog.call _ _) _ _ at h
      cases h with
      | call tail =>
        cases answer with
        | error e =>
          cases tail
          exact Or.inr rfl
        | ok text => exact Or.inl ⟨text, rfl, tail⟩

theorem broadcast_never_signs (codec : Codec) (built : Json) (txid : String)
    (signature : List UInt8) :
    Only (fun request => ∀ raw key, request ≠ .sign raw key)
      (broadcast codec built txid signature) := by
  refine only_bind (only_ask _ (by intro raw key h; cases h)) fun body => ?_
  refine only_bind (only_lift _) fun result => ?_
  split
  · exact .pure _
  · exact .fail _

/-- Before it signs, `signBuilt` has found both texts and searched the bytes. -/
theorem trace_signBuilt {text rawDataHex : String} {key : List UInt8}
    {signature : Except TronProto.Error (List UInt8)}
    {history : List (Event Request Request.Answer)} {rest : Client String}
    (h : Trace (signBuilt ext codec toAddr amount secretKey text) history rest)
    (signed : (⟨.sign rawDataHex key, signature⟩ : Event Request Request.Answer) ∈ history) :
    ∃ built txid, codec.parse text = .ok built ∧ built.getStr "raw_data_hex" = some rawDataHex ∧
      built.getStr "txID" = some txid ∧
      verifyTransfer ext rawDataHex toAddr txid (.native amount) = .ok () := by
  unfold signBuilt parseAnswer stringField at h
  cases hparse : codec.parse text with
  | error e =>
    simp only [hparse, Except.mapError, Prog.lift_error, Prog.fail_bind] at h
    cases h
    cases signed
  | ok built =>
  simp only [hparse, Except.mapError, Prog.lift_ok, Prog.pure_bind] at h
  cases hraw : built.getStr "raw_data_hex" with
  | none =>
    simp only [hraw, Prog.fail_bind] at h
    cases h
    cases signed
  | some raw =>
  simp only [hraw, Prog.pure_bind] at h
  cases htxid : built.getStr "txID" with
  | none =>
    simp only [htxid, Prog.fail_bind] at h
    cases h
    cases signed
  | some txid =>
  simp only [htxid, Prog.pure_bind] at h
  cases hscan : verifyTransfer ext raw toAddr txid (.native amount) with
  | error e =>
    simp only [hscan, Prog.lift_error, Prog.fail_bind] at h
    cases h
    cases signed
  | ok _ =>
  simp only [hscan, Prog.lift_ok, Prog.pure_bind, sign, Prog.ask, Prog.call_bind] at h
  cases h with
  | refl => cases signed
  | call tail =>
  rcases List.mem_cons.mp signed with hhead | htail
  · cases hhead
    exact ⟨built, txid, rfl, hraw, htxid, hscan⟩
  · -- nothing after the signature signs again
    have honly := tail.only (only_bind (only_lift _) (broadcast_never_signs codec built txid))
    exact absurd rfl (honly _ htail rawDataHex key)

/-- The run that posts, gets an answer the search accepts, and signs it. -/
theorem trace_to_sign {text rawDataHex txid ownerHex toHex : String} {built : Json}
    (howner : Address.Tron.toHex ext sender = .ok ownerHex)
    (hto : Address.Tron.toHex ext toAddr = .ok toHex) (hparse : codec.parse text = .ok built)
    (hraw : built.getStr "raw_data_hex" = some rawDataHex)
    (htxid : built.getStr "txID" = some txid)
    (hscan : verifyTransfer ext rawDataHex toAddr txid (.native amount) = .ok ()) :
    Trace (send ext codec sender toAddr amount secretKey)
      [⟨.restPost network "wallet/createtransaction" (createBody codec ownerHex toHex amount)
        "application/json", .ok text⟩, ⟨.sign rawDataHex secretKey, .ok (List.replicate 65 0)⟩]
      (broadcast codec built txid (List.replicate 65 0)) := by
  simp only [send, liftAddress, howner, hto, Except.mapError, Prog.lift_ok, Prog.pure_bind,
    restPost, Prog.ask, Prog.call_bind]
  refine .call ?_
  simp only [Except.mapError, Prog.lift_ok, Prog.pure_bind, signBuilt, parseAnswer, hparse,
    stringField, hraw, htxid, hscan, sign, Prog.ask, Prog.call_bind]
  exact .call (.refl _)

end Runs

/-- The library signs only the requested transfer exactly on the answers that have
the two runs at the fields of the transfer, if they have them at all. -/
theorem send_signs_only_requested_iff (ext : Address.Crates) (codec : Codec)
    (sender toAddr : String) (amount : Nat) (secretKey : List UInt8)
    (answer : Except TransportError String) :
    SignsOnlyRequested ext codec sender toAddr amount secretKey answer ↔
      RunsAreTheTransfer ext codec sender toAddr amount answer := by
  constructor
  · intro signs text built rawDataHex txid owner raw recipient howner hto hanswer hparse hraw
      htxid hruns
    subst hanswer
    have hscan := verifyTransfer_ok_iff.mpr ⟨raw, recipient, hto, hruns⟩
    have hownerHex : Address.Tron.toHex ext sender = .ok (hexLower owner) := by
      rw [Address.Tron.toHex, howner]
      rfl
    have htoHex : Address.Tron.toHex ext toAddr = .ok (hexLower recipient) := by
      rw [Address.Tron.toHex, hto]
      rfl
    obtain ⟨text', built', txid', hsame, hparse', _, htxid', haccepts⟩ :=
      signs _ _ _ _ _ rawDataHex secretKey (.ok (List.replicate 65 0))
        (trace_to_sign hownerHex htoHex hparse hraw htxid hscan) (by simp)
    obtain rfl : text = text' := Except.ok.inj hsame
    obtain rfl : built = built' := Except.ok.inj (hparse.symm.trans hparse')
    obtain rfl : txid = txid' := Option.some.inj (htxid.symm.trans htxid')
    exact (verifyContract_iff_fields hto hruns).mp haccepts
  · intro runs path body contentType history rest rawDataHex key signature trace signed
    obtain ⟨owner, howner, ⟨text, hanswer, tail⟩ | hnone⟩ := trace_send trace
    · obtain ⟨built, txid, hparse, hraw, htxid, hscan⟩ := trace_signBuilt tail signed
      obtain ⟨raw, recipient, hto, hruns⟩ := verifyTransfer_ok_iff.mp hscan
      have hfields := runs text built rawDataHex txid owner raw recipient howner hto hanswer hparse
        hraw htxid hruns
      exact ⟨text, built, txid, hanswer, hparse, hraw, htxid,
        (verifyContract_iff_fields hto hruns).mpr hfields⟩
    · rw [hnone] at signed
      cases signed

/-- A transfer to another address, with the requested one in field 99. -/
def decoyRaw : List UInt8 :=
  beBytes 40 0x5a500801124c0a2d747970652e676f6f676c65617069732e636f6d2f70726f746f636f6c2e547261 ++
    beBytes 40 0x6e73666572436f6e7472616374121b12154178c842ee63b253f8f0d2955bbc582c661a078c9d18c0 ++
    beBytes 26 0x843d9a061541a614f803b6fd780986a42c78ec9c7f77e6ded13c

def decoyTxid : List UInt8 :=
  beBytes 32 0x8f64c6dfb81b656935024e70ecbf5937457a2bed04086ce9ac3cc312321e9c24

def decoyJson : Json :=
  .object [("raw_data_hex", .string (hexLower decoyRaw)), ("txID", .string (hexLower decoyTxid))]

def decoyText : String :=
  "\x7b\"raw_data_hex\":\"" ++ hexLower decoyRaw ++ "\",\"txID\":\"" ++ hexLower decoyTxid ++
    "\"\x7d"

/-- The JSON library at the one text it is asked about. -/
def decoyCodec : Codec where
  parse text := if text = decoyText then .ok decoyJson else .error "not in the table"
  print _ := ""
  mismatch _ := ""

theorem toList_hexLower_infix {needle raw : List UInt8} (h : needle <:+: raw) :
    (hexLower needle).toList <:+: (toAsciiLowercase (hexLower raw)).toList := by
  obtain ⟨before, after, rfl⟩ := h
  rw [toAsciiLowercase_hexLower]
  simp only [hexLower, String.toList_ofList, List.flatMap_append]
  exact ⟨_, _, rfl⟩

theorem verifyTransfer_sample {raw digest : List UInt8} {amount : Nat}
    (hto : requestedBytes <:+: raw) (hamount : encodeVarint amount <:+: raw) :
    verifyTransfer (sampleCrates raw digest) (hexLower raw) requested (hexLower digest)
      (.native amount) = .ok () := by
  refine verifyTransfer_ok_iff.mpr ⟨raw, requestedBytes, decode_requested raw digest,
    decodeHex_hexLower raw, ?_, toList_hexLower_infix hto, hamount⟩
  simp [sampleCrates, trim_hexLower, eqIgnoreAsciiCase]

/-- The library signs a transfer of 1 TRX to somebody else. -/
theorem decoy_answer_is_signed :
    ¬SignsOnlyRequested (sampleCrates decoyRaw decoyTxid) decoyCodec sampleOwner requested 1000000
        (List.replicate 32 1) (.ok decoyText) ∧
      nodeRecipient decoyRaw = some elsewhereBytes := by
  refine ⟨?_, by decide +kernel⟩
  intro signs
  have howner : Address.Tron.toHex (sampleCrates decoyRaw decoyTxid) sampleOwner =
      .ok (hexLower sampleOwnerBytes) := by
    simp [Address.Tron.toHex, decode_sampleOwner, Except.map]
  have hto : Address.Tron.toHex (sampleCrates decoyRaw decoyTxid) requested =
      .ok (hexLower requestedBytes) := by
    simp [Address.Tron.toHex, decode_requested, Except.map]
  have hscan : verifyTransfer (sampleCrates decoyRaw decoyTxid) (hexLower decoyRaw) requested
      (hexLower decoyTxid) (.native 1000000) = .ok () :=
    verifyTransfer_sample (by decide +kernel) (by decide +kernel)
  have hparse : decoyCodec.parse decoyText = .ok decoyJson := by simp [decoyCodec]
  obtain ⟨_, _, txid, _, _, _, _, haccepts⟩ := signs _ _ _ _ _ (hexLower decoyRaw)
    (List.replicate 32 1) (.ok (List.replicate 65 0))
    (trace_to_sign howner hto hparse rfl rfl hscan) (by simp)
  obtain ⟨raw, recipient, hraw, _, hrecipient, hcheck⟩ := verifyContract_ok_iff.mp haccepts
  obtain rfl : decoyRaw = raw := Except.ok.inj ((decodeHex_hexLower decoyRaw).symm.trans hraw)
  obtain rfl : requestedBytes = recipient :=
    Except.ok.inj ((decode_requested decoyRaw decoyTxid).symm.trans hrecipient)
  exact absurd hcheck (by decide +kernel)

end TronSend

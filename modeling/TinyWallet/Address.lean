import TinyWallet.Library.RustText

/-!
# Chains and address validation

The four address formats, as their validators read them. Base58, bech32, the
SHA-256 digest and the ed25519 point check belong to crates outside the
repository; `Crates` collects them and every definition that needs one takes
the collection as its first argument.
-/

namespace Address

open RustText

inductive Chain where
  | btc
  | evm
  | solana
  | tron
deriving DecidableEq, Repr

def Chain.asStr : Chain → String
  | .btc => "btc"
  | .evm => "evm"
  | .solana => "solana"
  | .tron => "tron"

inductive Error where
  | emptyAddress (chain : Chain)
  | invalidAddress (chain : Chain) (address reason : String)
  | wrongNetwork (chain : Chain) (address expected reason : String)
  | unsupportedAddressType (chain : Chain) (address reason : String)
deriving DecidableEq, Repr

/-- The `Display` text of an error. -/
def Error.text : Error → String
  | .emptyAddress chain => chain.asStr ++ " address is empty"
  | .invalidAddress chain address reason =>
    "invalid " ++ chain.asStr ++ " address '" ++ address ++ "': " ++ reason
  | .wrongNetwork chain address expected reason =>
    chain.asStr ++ " address '" ++ address ++ "' is not on " ++ expected ++ ": " ++ reason
  | .unsupportedAddressType chain address reason =>
    chain.asStr ++ " address '" ++ address ++ "' is not supported as a sender: " ++ reason

/-- The functions of third-party crates the wallet calls. The error text of a
failed decoding is the crate's own. -/
structure Crates where
  sha256 : List UInt8 → List UInt8
  base58Decode : String → Except String (List UInt8)
  base58CheckDecode : Option UInt8 → String → Except String (List UInt8)
  base58Encode : List UInt8 → String
  segwitDecode : String → Except String (String × Nat × List UInt8)
  onCurve : List UInt8 → Bool

namespace Evm

def hexLen : Nat := 40

def stripAddress (address : String) : String := (strip "0x" address).getD address

/-- The address comes back trimmed and otherwise unmodified. -/
def validate (address : String) : Except Error String :=
  let trimmed := trim address
  let body := (stripAddress trimmed).toList
  if trimmed = "" then .error (.emptyAddress .evm)
  else if byteLen body ≠ hexLen then
    .error (.invalidAddress .evm trimmed
      ("expected " ++ toString hexLen ++ " hex digits, got " ++ toString (byteLen body)))
  else match body.find? (fun c => !isAsciiHexDigit c) with
    | some bad => .error (.invalidAddress .evm trimmed
        ("contains a non-hex character '" ++ String.singleton bad ++ "'"))
    | none => .ok trimmed

/-- A valid address: its text trimmed, and forty hex digits after the prefix. -/
theorem validate_spec {address valid : String} (h : validate address = .ok valid) :
    valid = trim address ∧ byteLen (stripAddress valid).toList = 40 ∧
      (stripAddress valid).toList.all isAsciiHexDigit = true := by
  simp only [validate] at h
  split at h
  · cases h
  · split at h
    · cases h
    · next hlength =>
      split at h
      · cases h
      · next hdigits =>
        cases h
        refine ⟨rfl, not_not.mp hlength, ?_⟩
        simpa [List.find?_eq_none, List.all_eq_true] using hdigits

end Evm

namespace Tron

def mainnetVersion : UInt8 := 0x41

def addressBytes : Nat := 21

def decode (ext : Crates) (address : String) : Except Error (List UInt8) :=
  let trimmed := trim address
  if trimmed = "" then .error (.emptyAddress .tron)
  else match ext.base58CheckDecode (some mainnetVersion) trimmed with
    | .error e => .error (.invalidAddress .tron trimmed ("base58check decoding failed: " ++ e))
    | .ok decoded =>
      if decoded.length = addressBytes then .ok decoded
      else .error (.invalidAddress .tron trimmed
        ("expected " ++ toString addressBytes ++ " bytes after base58check, got " ++
          toString decoded.length))

def validate (ext : Crates) (address : String) : Except Error String :=
  (decode ext address).map (fun _ => trim address)

def toHex (ext : Crates) (address : String) : Except Error String :=
  (decode ext address).map hexLower

theorem decode_length {ext : Crates} {address : String} {bytes : List UInt8}
    (h : decode ext address = .ok bytes) : bytes.length = addressBytes := by
  simp only [decode] at h
  split at h
  · cases h
  · split at h
    · cases h
    · split at h
      · next hlen =>
        cases h
        exact hlen
      · cases h

end Tron

namespace Solana

def addressBytes : Nat := 32

def decode (ext : Crates) (address : String) : Except Error (List UInt8) :=
  let trimmed := trim address
  if trimmed = "" then .error (.emptyAddress .solana)
  else match ext.base58Decode trimmed with
    | .error e => .error (.invalidAddress .solana trimmed ("not valid base58: " ++ e))
    | .ok decoded =>
      if decoded.length = addressBytes then .ok decoded
      else .error (.invalidAddress .solana trimmed
        ("expected " ++ toString addressBytes ++ " bytes, got " ++ toString decoded.length))

def validate (ext : Crates) (address : String) : Except Error String :=
  (decode ext address).map (fun _ => trim address)

end Solana

namespace Btc

inductive Kind where
  | p2pkh
  | p2sh
  | p2wpkh
  | p2wsh
  | otherWitness
deriving DecidableEq, Repr

def mainnetHrp : String := "bc"

def wrongNetwork (address reason : String) : Error :=
  .wrongNetwork .btc address "mainnet" reason

def parseBech32 (ext : Crates) (address : String) : Except Error Kind :=
  match ext.segwitDecode address with
  | .error e => .error (.invalidAddress .btc address e)
  | .ok (hrp, version, program) =>
    if hrp ≠ mainnetHrp then .error (wrongNetwork address "a non-mainnet human-readable part")
    else if version ≠ 0 then .ok .otherWitness
    else if program.length = 20 then .ok .p2wpkh
    else if program.length = 32 then .ok .p2wsh
    else .error (.invalidAddress .btc address
      ("witness v0 program must be 20 or 32 bytes, got " ++ toString program.length))

/-- A version byte as Rust's `{:#04x}` prints it. -/
def versionText (version : UInt8) : String := "0x" ++ hexLower [version]

def parseBase58 (ext : Crates) (address : String) : Except Error Kind :=
  match ext.base58CheckDecode none address with
  | .error e => .error (.invalidAddress .btc address e)
  | .ok [] => .error (.invalidAddress .btc address "empty base58check payload")
  | .ok (version :: payload) =>
    if version = 0x6f ∨ version = 0xc4 then
      .error (wrongNetwork address "a test network version byte")
    else if payload.length ≠ 20 then
      .error (.invalidAddress .btc address
        ("hash must be 20 bytes, got " ++ toString payload.length))
    else if version = 0x00 then .ok .p2pkh
    else if version = 0x05 then .ok .p2sh
    else .error (.invalidAddress .btc address
      ("unknown base58check version byte " ++ versionText version))

/-- The text before the last `1`, when there is one. -/
def humanReadablePart (lower : List Char) : Option (List Char) :=
  match lower.reverse.dropWhile (· ≠ '1') with
  | [] => none
  | _ :: before => some before.reverse

def parse (ext : Crates) (address : String) : Except Error Kind :=
  match humanReadablePart (address.toList.map Char.toLower) with
  | some hrp =>
    if hrp ≠ [] ∧ hrp.all (fun c => 'a' ≤ c && c ≤ 'z') then parseBech32 ext address
    else parseBase58 ext address
  | none => parseBase58 ext address

def trimmedNonEmpty (address : String) : Except Error String :=
  if trim address = "" then .error (.emptyAddress .btc) else .ok (trim address)

def validate (ext : Crates) (address : String) : Except Error String := do
  let trimmed ← trimmedNonEmpty address
  let _ ← parse ext trimmed
  .ok trimmed

def validateSender (ext : Crates) (address : String) : Except Error String := do
  let trimmed ← trimmedNonEmpty address
  let kind ← parse ext trimmed
  if kind ≠ .p2wpkh then
    .error (.unsupportedAddressType .btc trimmed
      "only P2WPKH (bc1q… native segwit) can be signed for")
  else .ok trimmed

end Btc

def validate (ext : Crates) : Chain → String → Except Error String
  | .btc => Btc.validate ext
  | .evm => Evm.validate
  | .solana => Solana.validate ext
  | .tron => Tron.validate ext

end Address

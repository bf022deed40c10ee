import TinyWallet.Library.LongDecimal
import TinyWallet.Tx.Evm

/-!
# ERC-20 calldata

The payment client's encoder of `transfer(address,uint256)`, which the engine
and the module call too. It succeeds exactly for a valid address and a decimal
text whose number has 256 bits.
-/

namespace Erc20

open RustText Numerals Rlp LongDecimal

inductive Eip712Error where
  | invalidAmount (reason : String)
deriving DecidableEq, Repr

def Eip712Error.text : Eip712Error → String
  | .invalidAmount reason => "invalid amount: " ++ reason

def u256FromDecimal (value : String) : Except Eip712Error (List UInt8) :=
  let trimmed := (trim value).toList
  if trimmed.isEmpty || !trimmed.all isAsciiDigit then
    .error (.invalidAmount "expected a base-10 integer")
  else match decimalInto 32 trimmed (List.replicate 32 0) with
    | none => .error (.invalidAmount "value does not fit in 256 bits")
    | some out => .ok out

/-- The number a text of digits spells. -/
def value (text : String) : Nat := Nat.ofDigitChars 10 text.toList 0

/-- A nonempty text of digits, whose number has 256 bits. -/
structure Fits (text : String) : Prop where
  nonempty : text ≠ ""
  digits : ∀ c ∈ text.toList, isAsciiDigit c = true
  small : value text < 2 ^ 256

theorem guard_iff {text : String} : (text.toList.isEmpty || !text.toList.all isAsciiDigit) = false ↔
    text ≠ "" ∧ ∀ c ∈ text.toList, isAsciiDigit c = true := by
  rw [Bool.or_eq_false_iff, Bool.not_eq_false', List.all_eq_true, List.isEmpty_eq_false_iff,
    ne_eq, String.toList_eq_nil_iff]

/-- The passes of either word, over a text of digits. -/
theorem decimalInto_value {w : Nat} (hw : 12 ≤ w) {text : String}
    (digits : ∀ c ∈ text.toList, isAsciiDigit c = true) :
    decimalInto w text.toList (List.replicate 32 0) =
      if value text < 2 ^ 256 then some (toBe 32 (value text)) else none := by
  have hzero : fromBe (List.replicate 32 0) = 0 := by decide
  have hsize : 256 ^ 32 = 2 ^ 256 := by norm_num
  rw [decimalInto_eq hw digits, hzero, List.length_replicate, hsize]
  rfl

/-- Both readers, behind their guard: the 32 bytes of the number that fits. -/
theorem decimalInto_fits {w : Nat} (hw : 12 ≤ w) {text : String} {bytes : List UInt8} :
    (text.toList.isEmpty || !text.toList.all isAsciiDigit) = false ∧
        decimalInto w text.toList (List.replicate 32 0) = some bytes ↔
      Fits text ∧ bytes = toBe 32 (value text) := by
  rw [guard_iff]
  constructor
  · rintro ⟨⟨hnonempty, hdigits⟩, h⟩
    rw [decimalInto_value hw hdigits] at h
    split_ifs at h with hsmall
    exact ⟨⟨hnonempty, hdigits, hsmall⟩, (Option.some.inj h).symm⟩
  · rintro ⟨⟨hnonempty, hdigits, hsmall⟩, hbytes⟩
    rw [decimalInto_value hw hdigits, if_pos hsmall, hbytes]
    exact ⟨⟨hnonempty, hdigits⟩, rfl⟩

theorem u256FromDecimal_iff {text : String} {bytes : List UInt8} :
    u256FromDecimal text = .ok bytes ↔ Fits (trim text) ∧ bytes = toBe 32 (value (trim text)) := by
  rw [← decimalInto_fits (show 12 ≤ 32 by decide), u256FromDecimal]
  cases (trim text).toList.isEmpty || !(trim text).toList.all isAsciiDigit with
  | true => simp
  | false => cases decimalInto 32 (trim text).toList (List.replicate 32 0) <;> simp

theorem Fits.trim {text : String} (h : Fits text) : trim text = text := by
  have hspace : ∀ c ∈ text.toList, isWhiteSpace c = false := by
    intro c hc
    exact isWhiteSpace_of_digit (h.digits c hc)
  rw [RustText.trim, trimChars_of_no_space hspace, String.ofList_toList]

def transferSelector : List UInt8 := [0xa9, 0x05, 0x9c, 0xbb]

inductive AbiError where
  | invalidRecipient (reason : String)
  | invalidAmount (reason : String)
deriving DecidableEq, Repr

def AbiError.text : AbiError → String
  | .invalidRecipient reason => "invalid recipient: " ++ reason
  | .invalidAmount reason => "invalid amount: " ++ reason

/-- `decode_evm_address`: so many two-byte slices of the text, each a byte. -/
def addressPairs : Nat → List Char → Except AbiError (List UInt8)
  | 0, _ => .ok []
  | _ + 1, [] => .error (.invalidRecipient "address is shorter than 20 bytes")
  | count + 1, a :: rest =>
    if a.utf8Size = 2 then .error (.invalidRecipient "address is not hex")
    else if a.utf8Size ≠ 1 then .error (.invalidRecipient "address is shorter than 20 bytes")
    else match rest with
      | [] => .error (.invalidRecipient "address is shorter than 20 bytes")
      | b :: rest =>
        if b.utf8Size ≠ 1 then .error (.invalidRecipient "address is shorter than 20 bytes")
        else match hexPair a b with
          | none => .error (.invalidRecipient "address is not hex")
          | some byte => (addressPairs count rest).map (byte :: ·)

def decodeEvmAddress (address : String) : Except AbiError (List UInt8) :=
  addressPairs 20 ((strip "0x" address).getD address).toList

def leftPadAddress (address : List UInt8) : List UInt8 := List.replicate 12 0 ++ address

def encodeErc20Transfer (toAddr amount : String) : Except AbiError String := do
  let recipient ← (Address.Evm.validate toAddr).mapError fun e => .invalidRecipient e.text
  let bytes ← decodeEvmAddress recipient
  let number ← (u256FromDecimal amount).mapError fun e => .invalidAmount e.text
  .ok ("0x" ++ hexLower transferSelector ++ hexLower (leftPadAddress bytes) ++ hexLower number)

theorem addressPairs_of_hex {cs : List Char} {bytes : List UInt8} (h : hexDecode cs = some bytes) :
    addressPairs bytes.length cs = .ok bytes := by
  induction bytes generalizing cs with
  | nil => rfl
  | cons byte bytes ih =>
    match cs with
    | [] => cases h
    | [_] => cases h
    | a :: b :: rest =>
      obtain ⟨hi, lo, tail, ha, hb, hrest, heq⟩ := hexDecode_cons_iff.mp h
      obtain ⟨rfl, rfl⟩ := List.cons.inj heq
      have hone := ascii_of_hexValue ha
      have htwo := ascii_of_hexValue hb
      simp [addressPairs, hone, htwo, TxEvm.hexPair_of_digits ha hb, ih hrest, Except.map]

theorem decodeEvmAddress_of_valid {valid : String} {bytes : List UInt8}
    (h : hexDecode (Address.Evm.stripAddress valid).toList = some bytes)
    (hlength : bytes.length = 20) : decodeEvmAddress valid = .ok bytes := by
  rw [decodeEvmAddress, ← hlength]
  exact addressPairs_of_hex h

theorem fits_toString {n : Nat} (h : n < 2 ^ 256) : Fits (toString n) ∧ value (toString n) = n := by
  have hvalue : value (toString n) = n := by
    rw [value, toList_toString, Nat.ofDigitChars_ten_toDigits]
  refine ⟨⟨?_, ?_, ?_⟩, hvalue⟩
  · intro hempty
    have hlist := congrArg String.toList hempty
    rw [toList_toString] at hlist
    exact Nat.toDigits_ne_nil hlist
  · intro c hc
    rw [toList_toString] at hc
    exact toDigits_digit hc
  · rwa [hvalue]

theorem u256FromDecimal_toString {n : Nat} (h : n < 2 ^ 256) :
    u256FromDecimal (toString n) = .ok (toBe 32 n) := by
  obtain ⟨hfits, hvalue⟩ := fits_toString h
  rw [u256FromDecimal_iff, trim_toString, hvalue]
  exact ⟨hfits, rfl⟩

/-- The call that pays the amount to the address. -/
def transferCall (address : List UInt8) (amount : Nat) : List UInt8 :=
  transferSelector ++ List.replicate 12 0 ++ address ++ toBe 32 amount

theorem units_of_fits {text : String} (h : Fits text) : units text = some (value text) := by
  apply units_of_digits
  rw [allDigits, Bool.and_eq_true, List.all_eq_true, Bool.not_eq_true', List.isEmpty_eq_false_iff,
    ne_eq, String.toList_eq_nil_iff]
  exact ⟨h.nonempty, h.digits⟩

theorem fromBe_value {text : String} (h : Fits text) :
    fromBe (toBe 32 (value text)) = value text := by
  rw [fromBe_toBe]
  exact Nat.mod_eq_of_lt (lt_of_lt_of_eq h.small (by norm_num))

/-- What is encoded, and when. -/
theorem encodeErc20Transfer_ok_iff {toAddr amount calldata : String} :
    encodeErc20Transfer toAddr amount = .ok calldata ↔
      ∃ valid address, Address.Evm.validate toAddr = .ok valid ∧
        hexDecode (Address.Evm.stripAddress valid).toList = some address ∧
        address.length = 20 ∧ Fits (trim amount) ∧
        calldata = "0x" ++ hexLower (transferCall address (value (trim amount))) := by
  have hcall : ∀ address number, "0x" ++ hexLower transferSelector ++
      hexLower (leftPadAddress address) ++ hexLower number =
        "0x" ++ hexLower (transferSelector ++ List.replicate 12 0 ++ address ++ number) := by
    intro address number
    rw [leftPadAddress]
    simp only [hexLower_append, String.append_assoc]
  constructor
  · intro h
    obtain ⟨valid, hvalid, h⟩ := bind_ok_iff.mp h
    obtain ⟨address, haddress, h⟩ := bind_ok_iff.mp h
    obtain ⟨number, hnumber, h⟩ := bind_ok_iff.mp h
    have hvalid := mapError_ok hvalid
    obtain ⟨bytes, hhex, hlength, -⟩ := TxEvm.decodeHex_of_valid hvalid
    obtain rfl : bytes = address :=
      Except.ok.inj ((decodeEvmAddress_of_valid hhex hlength).symm.trans haddress)
    obtain ⟨hfits, hbytes⟩ := u256FromDecimal_iff.mp (mapError_ok hnumber)
    refine ⟨valid, bytes, hvalid, hhex, hlength, hfits, ?_⟩
    rw [← Except.ok.inj h, hcall, hbytes, transferCall]
  · rintro ⟨valid, address, hvalid, hhex, hlength, hfits, rfl⟩
    have hnumber := u256FromDecimal_iff.mpr ⟨hfits, rfl⟩
    rw [encodeErc20Transfer, hvalid, hnumber]
    simp only [Except.mapError, bind, Except.bind, decodeEvmAddress_of_valid hhex hlength, hcall,
      transferCall]

end Erc20

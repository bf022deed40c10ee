import TinyWallet.Tx.Calldata
import TinyWallet.Module.Construction
import TinyWallet.Intent.Native

/-!
# Decimal amounts and token calldata

Three places read a decimal amount into 256 bits or write the call of an ERC-20
transfer: the payment client, the transaction builder and the intent check. The
two readers take the same texts to the same number, and calldata has one
meaning for all three.
-/

namespace Erc20

open RustText Numerals Rlp Intent NativeIntent

/-- Both readers take exactly the texts of digits whose number has 256 bits, to
that number, and so agree on every text of digits. -/
theorem decimals_read_exactly :
    (∀ text bytes, u256FromDecimal text = .ok bytes ↔
      Fits (trim text) ∧ bytes = toBe 32 (value (trim text))) ∧
    (∀ text word, decimalU256Word text = some word ↔
      Fits text ∧ word = hexLower (toBe 32 (value text))) ∧
    (∀ text, value text < 2 ^ 256 → (toBe 32 (value text)).length = 32 ∧
      fromBe (toBe 32 (value text)) = value text) ∧
    ∀ text, (∀ c ∈ text.toList, isAsciiDigit c = true) →
      decimalU256Word text = (u256FromDecimal text).toOption.map hexLower := by
  refine ⟨fun _ _ => u256FromDecimal_iff, fun _ _ => decimalU256Word_iff, ?_, ?_⟩
  · intro text hsmall
    refine ⟨length_toBe 32 _, ?_⟩
    rw [fromBe_toBe]
    exact Nat.mod_eq_of_lt (lt_of_lt_of_eq hsmall (by norm_num))
  · intro text hdigits
    have htrim : trim text = text := by
      rw [trim, trimChars_of_no_space fun c hc => isWhiteSpace_of_digit (hdigits c hc),
        String.ofList_toList]
    by_cases hfits : Fits text
    · have hbytes : u256FromDecimal text = .ok (toBe 32 (value text)) :=
        u256FromDecimal_iff.mpr (by rw [htrim]; exact ⟨hfits, rfl⟩)
      rw [decimalU256Word_iff.mpr ⟨hfits, rfl⟩, hbytes]
      rfl
    · have hnone : decimalU256Word text = none :=
        Option.eq_none_iff_forall_ne_some.mpr fun word h => hfits (decimalU256Word_iff.mp h).1
      rw [hnone]
      cases hread : u256FromDecimal text with
      | error e => rfl
      | ok bytes =>
        have hfits' := (u256FromDecimal_iff.mp hread).1
        rw [htrim] at hfits'
        exact absurd hfits' hfits

def largestDecimal : String :=
  "115792089237316195423570985008687907853269984665640564039457584007913129639935"

/-- The largest number of 256 bits is read, and with one more digit refused. -/
theorem largest_decimal_read :
    (∃ bytes, u256FromDecimal largestDecimal = .ok bytes ∧ fromBe bytes = 2 ^ 256 - 1) ∧
      decimalU256Word (largestDecimal ++ "0") = none := by
  obtain ⟨hbytes, hword, hvalue, -⟩ := decimals_read_exactly
  have hnumber : value largestDecimal = 2 ^ 256 - 1 := by decide +kernel
  have hfits : Fits largestDecimal := by
    have hguard := guard_iff.mp (show (largestDecimal.toList.isEmpty || !_) = false by
      decide +kernel)
    exact ⟨hguard.1, hguard.2, by rw [hnumber]; norm_num⟩
  have htrim := hfits.trim
  constructor
  · refine ⟨_, (hbytes _ _).mpr ⟨?_, rfl⟩, ?_⟩
    · rwa [htrim]
    · rw [htrim, (hvalue _ hfits.small).2, hnumber]
  · refine Option.eq_none_iff_forall_ne_some.mpr fun word h => ?_
    have hsmall := ((hword _ _).mp h).1.small
    have hlong : 2 ^ 256 ≤ value (largestDecimal ++ "0") := by decide +kernel
    omega

/-- The transaction builder's encoder, for an amount of 128 bits. -/
def transferData (toAddr : String) (amount : BitVec 128) : TxEvm.Outcome (List UInt8) := do
  let validated ← TxEvm.addressOutcome (Address.Evm.validate toAddr)
  let decoded ← TxEvm.decodeHex ((strip "0x" validated).getD validated)
  let address ← TxEvm.requireHex decoded toAddr
  .ok (transferSelector ++ List.replicate 12 0 ++ address ++ List.replicate 16 0 ++
    toBe 16 amount.toNat)

/-- Both encoders write the same call for an address that is valid. -/
theorem encoders_agree {toAddr valid : String} (hvalid : Address.Evm.validate toAddr = .ok valid)
    (amount : BitVec 128) :
    ∃ bytes, transferData toAddr amount = .ok bytes ∧
      encodeErc20Transfer toAddr (toString amount.toNat) = .ok ("0x" ++ hexLower bytes) := by
  obtain ⟨address, hhex, hlength, hdecode⟩ := TxEvm.decodeHex_of_valid hvalid
  have hamount := amount.isLt
  refine ⟨transferSelector ++ List.replicate 12 0 ++ address ++ List.replicate 16 0 ++
    toBe 16 amount.toNat, ?_, ?_⟩
  · rw [Address.Evm.stripAddress] at hdecode
    rw [transferData, hvalid]
    simp only [TxEvm.addressOutcome, bind, Except.bind, hdecode, TxEvm.requireHex]
  · have hnumber := u256FromDecimal_toString (show amount.toNat < 2 ^ 256 by omega)
    have hpad : toBe 32 amount.toNat = List.replicate 16 0 ++ toBe 16 amount.toNat :=
      toBe_pad 16 16 (lt_of_lt_of_eq hamount (by norm_num))
    rw [encodeErc20Transfer, hvalid, hnumber]
    simp only [Except.mapError, bind, Except.bind,
      decodeEvmAddress_of_valid hhex hlength]
    rw [leftPadAddress, hpad]
    simp only [hexLower_append, String.append_assoc, List.append_assoc]

/-- A recipient and calldata match exactly if the data is the recipient's and
amount's transfer call. -/
theorem evmTransferDataMatches_iff (data recipient amount : String) :
    evmTransferDataMatches data recipient amount = true ↔
      ∃ body address, stripHexPrefix recipient = some body ∧
        hexDecode body.toList = some address ∧ address.length = 20 ∧ Fits amount ∧
        hexDecode ((stripHexPrefix data).getD data).toList =
          some (transferCall address (value amount)) := by
  rw [evmTransferDataMatches]
  cases hstrip : stripHexPrefix recipient with
  | none => simp
  | some body =>
    constructor
    · intro h
      dsimp only at h
      split_ifs at h with hbody
      simp only [Bool.or_eq_true, decide_eq_true_eq, not_or, not_not, Bool.not_eq_false] at hbody
      obtain ⟨address, haddress, hlength⟩ := hexDecode_address hbody.1 hbody.2
      cases hword : decimalU256Word amount with
      | none =>
        rw [hword] at h
        cases h
      | some word =>
        rw [hword] at h
        obtain ⟨hfits, hword⟩ := decimalU256Word_iff.mp hword
        dsimp only at h
        rw [hword, expected_calldata haddress hlength, eqIgnoreAsciiCase,
          beq_iff_eq] at h
        refine ⟨body, address, rfl, haddress, hlength, hfits, ?_⟩
        rw [← hexDecode_toLower, h, hexDecode_toLower, hexDecode_hexLower]
        rfl
    · rintro ⟨body', address, hsame, haddress, hlength, hfits, hdata⟩
      obtain rfl := Option.some.inj hsame
      have hdigits := digits_of_hexDecode haddress
      have hsize : byteLen body.toList = 40 := by
        rw [byteLen_of_hex hdigits, hexDecode_length haddress, hlength]
      have hactual := hexLower_hexDecode hdata
      dsimp only
      rw [if_neg (by simp [hsize, hdigits]), decimalU256Word_iff.mpr ⟨hfits, rfl⟩]
      dsimp only
      rw [expected_calldata haddress hlength, eqIgnoreAsciiCase, beq_iff_eq, ← hactual,
        ← hexLower_hexDecode (hexDecode_hexLower _)]
      rfl

/-- ERC-20 calldata has one meaning: both encoders write it, and the check
matches it, whatever the case of the letters and the prefix of the data. -/
theorem calldata_has_one_meaning :
    (∀ toAddr valid (amount : BitVec 128), Address.Evm.validate toAddr = .ok valid →
      ∃ bytes, transferData toAddr amount = .ok bytes ∧
        encodeErc20Transfer toAddr (toString amount.toNat) = .ok ("0x" ++ hexLower bytes)) ∧
    ∀ data recipient amount, evmTransferDataMatches data recipient amount = true ↔
      ∃ body address, stripHexPrefix recipient = some body ∧
        hexDecode body.toList = some address ∧ address.length = 20 ∧ Fits amount ∧
        hexDecode ((stripHexPrefix data).getD data).toList =
          some (transferCall address (value amount)) := by
  constructor
  · intro toAddr valid amount hvalid
    exact encoders_agree hvalid amount
  · intro data recipient amount
    exact evmTransferDataMatches_iff data recipient amount

theorem sample_calldata :
    (∃ bytes, transferData "0xABCDEFabcdef0123456789ABCDEFabcdef012345" 1000000 = .ok bytes ∧
      encodeErc20Transfer "0xABCDEFabcdef0123456789ABCDEFabcdef012345" "1000000" =
        .ok ("0x" ++ hexLower bytes)) := by
  exact calldata_has_one_meaning.1 "0xABCDEFabcdef0123456789ABCDEFabcdef012345"
    "0xABCDEFabcdef0123456789ABCDEFabcdef012345" 1000000 (by decide +kernel)

end Erc20

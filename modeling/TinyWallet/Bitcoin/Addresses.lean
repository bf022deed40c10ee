import TinyWallet.Address
import TinyWallet.Library.Numerals
import TinyWallet.Library.Base58
import TinyWallet.Library.Bech32

/-!
# Bitcoin addresses

An address is taken for segwit or for base58check by its shape alone, and then
read by one parser. The shape is the right one for every mainnet address. The
network is told by the human-readable part as the text spells it, so that an
address in capital letters, which is the same address, is refused.
-/

namespace BitcoinAddresses

open RustText Address Address.Btc

/-- The two crates decode what their formats define. -/
structure Correct (ext : Crates) : Prop where
  segwit : ∀ text hrp version program, ext.segwitDecode text = .ok (hrp, version, program) ↔
    Bech32.segwit text.toList = some (hrp.toList, version, program)
  base58Check : ∀ text bytes, ext.base58CheckDecode none text = .ok bytes ↔
    Base58.decodeCheck ext.sha256 text.toList = some bytes

/-- A segwit address of the main network, in either letter case. -/
inductive Segwit (text : String) (version : Nat) (program : List UInt8) : Prop
  | lower (h : Bech32.segwit text.toList = some (['b', 'c'], version, program))
  | upper (h : Bech32.segwit text.toList = some (['B', 'C'], version, program))

/-- A key or script hash of the main network. -/
def Base58Form (sha256 : List UInt8 → List UInt8) (text : String) : Prop :=
  ∃ version hash, (version = 0x00 ∨ version = 0x05) ∧ hash.length = 20 ∧
    Base58.decodeCheck sha256 text.toList = some (version :: hash)

def Mainnet (sha256 : List UInt8 → List UInt8) (text : String) : Prop :=
  (∃ version program, Segwit text version program) ∨ Base58Form sha256 text

/-- The address pays to the hash of one key. -/
def Spendable (text : String) : Prop := ∃ program, Segwit text 0 program ∧ program.length = 20

/-- A segwit address in capital letters. -/
def Capital (text : String) : Prop :=
  ∃ version program, Bech32.segwit text.toList = some (['B', 'C'], version, program)

/-- The test of `parse` that sends a text to the segwit parser. -/
def bech32Shaped (address : String) : Bool :=
  match humanReadablePart (address.toList.map Char.toLower) with
  | some hrp => hrp ≠ [] && hrp.all fun c => 'a' ≤ c && c ≤ 'z'
  | none => false

theorem parse_eq (ext : Crates) (address : String) :
    parse ext address = if bech32Shaped address then parseBech32 ext address
      else parseBase58 ext address := by
  rw [parse, bech32Shaped]
  cases humanReadablePart (address.toList.map Char.toLower) with
  | none => rfl
  | some hrp => simp

theorem humanReadablePart_separated {hrp data : List Char} (h : '1' ∉ data) :
    humanReadablePart (hrp ++ '1' :: data) = some hrp := by
  have hall : ∀ c ∈ data.reverse, decide (c ≠ '1') = true := by
    intro c hc
    rw [decide_eq_true_eq]
    rintro rfl
    exact h (List.mem_reverse.mp hc)
  rw [humanReadablePart, List.reverse_append, List.reverse_cons, List.append_assoc,
    List.dropWhile_append_of_pos hall]
  simp

theorem toLower_one {c : Char} (h : c.toLower = '1') : c = '1' := by
  have hcode := Numerals.toNat_toLower c
  rw [h, show '1'.toNat = 49 from rfl] at hcode
  apply Char.toNat_inj.mp
  show c.toNat = 49
  split_ifs at hcode with hcapital
  · omega
  · exact hcode.symm

theorem lower_separated {hrp data : List Char} (h : '1' ∉ data) :
    (hrp ++ '1' :: data).map Char.toLower = hrp.map Char.toLower ++ '1' :: data.map Char.toLower ∧
      '1' ∉ data.map Char.toLower := by
  constructor
  · rw [List.map_append, List.map_cons]
    rfl
  · intro hmem
    obtain ⟨c, hc, hone⟩ := List.mem_map.mp hmem
    rw [toLower_one hone] at hc
    exact h hc

/-- A segwit address has the shape. -/
theorem shaped_of_segwit {text : String} {version : Nat} {program : List UInt8}
    (h : Segwit text version program) : bech32Shaped text = true := by
  have hshape : ∀ hrp : List Char, hrp.map Char.toLower = ['b', 'c'] →
      Bech32.segwit text.toList = some (hrp, version, program) → bech32Shaped text = true := by
    intro hrp hlower hsegwit
    obtain ⟨data, htext, hdata⟩ := (Bech32.shape_of_segwit hsegwit).separated
    obtain ⟨hmap, hnone⟩ := @lower_separated hrp data hdata
    rw [bech32Shaped, htext, hmap, humanReadablePart_separated hnone, hlower]
    decide
  cases h with
  | lower h => exact hshape _ (by decide) h
  | upper h => exact hshape _ (by decide) h

/-- A number of 25 bytes that begins with five has the digit `3` in front. -/
theorem head_of_script {text : List Char} {rest : List UInt8} (hlength : rest.length = 24)
    (h : Base58.decode text = some (5 :: rest)) : text.head? = some '3' := by
  obtain ⟨d, more, hd, hlt, hhead, hlow, hhigh⟩ := Base58.head_of_nonzero (by decide) h
  have hrest := Rlp.fromBe_lt rest
  rw [Rlp.fromBe_cons, hlength, show (5 : UInt8).toNat = 5 from rfl] at hlow hhigh
  rw [hlength] at hrest
  have hmore : more = 33 := by
    rcases Nat.lt_trichotomy more 33 with hless | heq | hgreater
    · have hpow : 58 ^ more ≤ 58 ^ 32 := Nat.pow_le_pow_right (by decide) (by omega)
      have hmul := Nat.mul_le_mul (show d + 1 ≤ 58 by omega) hpow
      have hbound : 58 * 58 ^ 32 < 256 ^ 24 * 5 := by norm_num
      omega
    · exact heq
    · have hpow : 58 ^ 34 ≤ 58 ^ more := Nat.pow_le_pow_right (by decide) hgreater
      have hmul := Nat.mul_le_mul (show 1 ≤ d by omega) hpow
      have hbound : 256 ^ 24 * 5 + 256 ^ 24 < 1 * 58 ^ 34 := by norm_num
      omega
  rw [hmore] at hlow hhigh
  have htwo : d = 2 := by
    norm_num at hlow hhigh hrest
    omega
  rw [hhead, htwo]
  rfl

theorem humanReadablePart_prefix {text hrp : List Char} (h : humanReadablePart text = some hrp) :
    hrp <+: text := by
  have hsplit := @List.takeWhile_append_dropWhile _ (fun c => decide (c ≠ '1')) text.reverse
  rw [humanReadablePart] at h
  cases hdrop : text.reverse.dropWhile (· ≠ '1') with
  | nil =>
    rw [hdrop] at h
    cases h
  | cons c before =>
    rw [hdrop] at h hsplit
    obtain rfl := Option.some.inj h
    generalize text.reverse.takeWhile (· ≠ '1') = back at hsplit
    refine ⟨c :: back.reverse, ?_⟩
    rw [← List.reverse_reverse text, ← hsplit]
    simp

/-- A text with a digit in front does not have the shape. -/
theorem not_shaped_of_digit {text : String} {c : Char} (hhead : text.toList.head? = some c)
    (hdigit : c = '1' ∨ c = '3') : bech32Shaped text = false := by
  rw [bech32Shaped]
  cases hpart : humanReadablePart (text.toList.map Char.toLower) with
  | none => rfl
  | some hrp =>
    cases hrp with
    | nil => rfl
    | cons first rest =>
      obtain ⟨more, hmore⟩ := humanReadablePart_prefix hpart
      have hfirst : first = c.toLower := by
        have hheads := congrArg List.head? hmore
        rw [List.head?_map, hhead] at hheads
        exact Option.some.inj hheads
      rw [hfirst]
      rcases hdigit with rfl | rfl
      · rfl
      · rfl

/-- A base58check address does not have the shape. -/
theorem not_shaped_of_base58 {sha256 : List UInt8 → List UInt8} {text : String}
    (h : Base58Form sha256 text) : bech32Shaped text = false := by
  obtain ⟨version, hash, hversion, hlength, hcheck⟩ := h
  obtain ⟨checksum, hsize, hdecode⟩ := Base58.decode_of_check hcheck
  rcases hversion with rfl | rfl
  · exact not_shaped_of_digit (Base58.head_of_zero hdecode) (.inl rfl)
  · refine not_shaped_of_digit (head_of_script ?_ hdecode) (.inr rfl)
    show (hash ++ checksum).length = 24
    rw [List.length_append, hlength, hsize]

section parsers

variable {ext : Crates} (correct : Correct ext)
include correct

theorem parseBech32_ok {text : String} {kind : Kind} :
    parseBech32 ext text = .ok kind ↔ ∃ version program,
      Bech32.segwit text.toList = some (['b', 'c'], version, program) ∧
      kind = if version ≠ 0 then .otherWitness else if program.length = 20 then .p2wpkh
        else .p2wsh := by
  rw [parseBech32]
  constructor
  · intro h
    split at h
    · cases h
    · next hrp version program hdecode =>
      have hsegwit := (correct.segwit _ _ _ _).mp hdecode
      split_ifs at h with hhrp hversion hkey hscript
      · cases h
        rw [not_not.mp hhrp] at hsegwit
        exact ⟨version, program, hsegwit, by rw [if_pos hversion]⟩
      · cases h
        rw [not_not.mp hhrp] at hsegwit
        exact ⟨version, program, hsegwit, by rw [if_neg hversion, if_pos hkey]⟩
      · cases h
        rw [not_not.mp hhrp] at hsegwit
        exact ⟨version, program, hsegwit, by rw [if_neg hversion, if_neg hkey]⟩
  · rintro ⟨version, program, hsegwit, rfl⟩
    have hdecode : ext.segwitDecode text = .ok (mainnetHrp, version, program) :=
      (correct.segwit text mainnetHrp version program).mpr hsegwit
    have hlength := (Bech32.shape_of_segwit hsegwit).length
    rw [hdecode]
    dsimp only
    rw [if_neg (not_not.mpr rfl)]
    by_cases hversion : version ≠ 0
    · rw [if_pos hversion, if_pos hversion]
    · rw [if_neg hversion, if_neg hversion]
      by_cases hkey : program.length = 20
      · rw [if_pos hkey, if_pos hkey]
      · have hscript : program.length = 32 := by
          rw [Bech32.programLengthOk] at hlength
          simp [not_not.mp hversion, hkey] at hlength
          exact hlength.2
        rw [if_neg hkey, if_neg hkey, if_pos hscript]

theorem parseBase58_ok {text : String} :
    (∃ kind, parseBase58 ext text = .ok kind) ↔ Base58Form ext.sha256 text := by
  rw [parseBase58]
  constructor
  · rintro ⟨kind, h⟩
    split at h
    · cases h
    · cases h
    · next version payload hdecode =>
      have hcheck := (correct.base58Check _ _).mp hdecode
      split_ifs at h with htest hlength hkey hscript
      · exact ⟨version, payload, .inl hkey, not_not.mp hlength, hcheck⟩
      · exact ⟨version, payload, .inr hscript, not_not.mp hlength, hcheck⟩
  · rintro ⟨version, hash, hversion, hlength, hcheck⟩
    rw [(correct.base58Check text _).mpr hcheck]
    dsimp only
    rcases hversion with rfl | rfl
    · exact ⟨.p2pkh, by rw [if_neg (by decide), if_neg (not_not.mpr hlength), if_pos rfl]⟩
    · exact ⟨.p2sh, by rw [if_neg (by decide), if_neg (not_not.mpr hlength), if_neg (by decide),
        if_pos rfl]⟩

theorem parse_ok {text : String} : (∃ kind, parse ext text = .ok kind) ↔
    (∃ version program, Bech32.segwit text.toList = some (['b', 'c'], version, program)) ∨
      Base58Form ext.sha256 text := by
  rw [parse_eq]
  constructor
  · rintro ⟨kind, h⟩
    split_ifs at h
    · obtain ⟨version, program, hsegwit, -⟩ := (parseBech32_ok correct).mp h
      exact .inl ⟨version, program, hsegwit⟩
    · exact .inr ((parseBase58_ok correct).mp ⟨kind, h⟩)
  · rintro (⟨version, program, hsegwit⟩ | hbase)
    · rw [if_pos (shaped_of_segwit (.lower hsegwit))]
      exact ⟨_, (parseBech32_ok correct).mpr ⟨version, program, hsegwit, rfl⟩⟩
    · rw [not_shaped_of_base58 hbase, if_neg Bool.false_ne_true]
      exact (parseBase58_ok correct).mpr hbase

theorem parse_key {text : String} : parse ext text = .ok .p2wpkh ↔
    ∃ program, Bech32.segwit text.toList = some (['b', 'c'], 0, program) ∧
      program.length = 20 := by
  rw [parse_eq]
  constructor
  · intro h
    split_ifs at h
    · obtain ⟨version, program, hsegwit, hkind⟩ := (parseBech32_ok correct).mp h
      split_ifs at hkind with hversion hkey
      rw [not_not.mp hversion] at hsegwit
      exact ⟨program, hsegwit, hkey⟩
    · rw [parseBase58] at h
      split at h
      · cases h
      · cases h
      · split_ifs at h <;> cases h
  · rintro ⟨program, hsegwit, hlength⟩
    rw [if_pos (shaped_of_segwit (.lower hsegwit)), parseBech32_ok correct]
    exact ⟨0, program, hsegwit, by rw [if_neg (not_not.mpr rfl), if_pos hlength]⟩

theorem parse_empty {kind : Kind} (h : parse ext "" = .ok kind) : False := by
  rcases (parse_ok correct).mp ⟨kind, h⟩ with ⟨version, program, hsegwit⟩ | hbase
  · cases hsegwit
  · obtain ⟨version, hash, -, -, hcheck⟩ := hbase
    obtain ⟨bytes, hbytes, hcheck⟩ := Option.bind_eq_some_iff.mp hcheck
    cases hbytes
    cases hcheck

theorem validate_ok {address : String} : (∃ out, Btc.validate ext address = .ok out) ↔
    (∃ version program, Bech32.segwit (trim address).toList =
      some (['b', 'c'], version, program)) ∨ Base58Form ext.sha256 (trim address) := by
  rw [← parse_ok correct, Btc.validate, trimmedNonEmpty]
  by_cases hempty : trim address = ""
  · rw [if_pos hempty, hempty]
    constructor
    · rintro ⟨out, h⟩
      cases h
    · rintro ⟨kind, h⟩
      exact (parse_empty correct h).elim
  · rw [if_neg hempty]
    constructor
    · rintro ⟨out, h⟩
      obtain ⟨trimmed, htrimmed, h⟩ := bind_ok_iff.mp h
      obtain rfl := Except.ok.inj htrimmed
      obtain ⟨kind, hkind, -⟩ := bind_ok_iff.mp h
      exact ⟨kind, hkind⟩
    · rintro ⟨kind, hkind⟩
      exact ⟨_, bind_ok_iff.mpr ⟨_, rfl, bind_ok_iff.mpr ⟨kind, hkind, rfl⟩⟩⟩

theorem validateSender_ok {address : String} : (∃ out, validateSender ext address = .ok out) ↔
    ∃ program, Bech32.segwit (trim address).toList = some (['b', 'c'], 0, program) ∧
      program.length = 20 := by
  rw [← parse_key correct, validateSender, trimmedNonEmpty]
  by_cases hempty : trim address = ""
  · rw [if_pos hempty, hempty]
    constructor
    · rintro ⟨out, h⟩
      cases h
    · intro h
      exact (parse_empty correct h).elim
  · rw [if_neg hempty]
    constructor
    · rintro ⟨out, h⟩
      obtain ⟨trimmed, htrimmed, h⟩ := bind_ok_iff.mp h
      obtain rfl := Except.ok.inj htrimmed
      obtain ⟨kind, hkind, h⟩ := bind_ok_iff.mp h
      split_ifs at h with hkey
      rw [hkind, not_not.mp hkey]
    · intro hkind
      exact ⟨_, bind_ok_iff.mpr ⟨_, rfl, bind_ok_iff.mpr ⟨_, hkind, rfl⟩⟩⟩

end parsers

/-- The validators take exactly the mainnet forms, each through its own parser. -/
structure Accepts (ext : Crates) (address : String) : Prop where
  valid : (∃ out, Btc.validate ext address = .ok out) ↔ Mainnet ext.sha256 (trim address)
  sender : (∃ out, validateSender ext address = .ok out) ↔ Spendable (trim address)

/-- A text of one form goes to that form's parser. -/
theorem dispatch_right (ext : Crates) (text : String) :
    ((∃ version program, Segwit text version program) → parse ext text = parseBech32 ext text) ∧
      (Base58Form ext.sha256 text → parse ext text = parseBase58 ext text) := by
  constructor
  · rintro ⟨version, program, h⟩
    rw [parse_eq, if_pos (shaped_of_segwit h)]
  · intro h
    rw [parse_eq, not_shaped_of_base58 h, if_neg Bool.false_ne_true]

theorem accepts_iff {ext : Crates} (correct : Correct ext) (address : String) :
    Accepts ext address ↔ ¬Capital (trim address) := by
  constructor
  · rintro ⟨hvalid, -⟩ ⟨version, program, hcapital⟩
    have hmainnet : Mainnet ext.sha256 (trim address) := .inl ⟨version, program, .upper hcapital⟩
    rcases (validate_ok correct).mp (hvalid.mpr hmainnet) with ⟨version', program', hlower⟩ | hbase
    · rw [hcapital] at hlower
      cases hlower
    · have hshaped := shaped_of_segwit (.upper hcapital)
      rw [not_shaped_of_base58 hbase] at hshaped
      cases hshaped
  · intro hplain
    constructor
    · rw [validate_ok correct]
      constructor
      · rintro (⟨version, program, hlower⟩ | hbase)
        · exact .inl ⟨version, program, .lower hlower⟩
        · exact .inr hbase
      · rintro (⟨version, program, hsegwit⟩ | hbase)
        · cases hsegwit with
          | lower h => exact .inl ⟨version, program, h⟩
          | upper h => exact absurd ⟨version, program, h⟩ hplain
        · exact .inr hbase
    · rw [validateSender_ok correct]
      constructor
      · rintro ⟨program, hlower, hlength⟩
        exact ⟨program, .lower hlower, hlength⟩
      · rintro ⟨program, hsegwit, hlength⟩
        cases hsegwit with
        | lower h => exact ⟨program, h, hlength⟩
        | upper h => exact absurd ⟨0, program, h⟩ hplain

/-- Acceptance is the mainnet forms but for capital letters; the dispatch sends
no text to the wrong parser. -/
theorem mainnet_accepted_iff {ext : Crates} (correct : Correct ext) :
    (∀ address, Accepts ext address ↔ ¬Capital (trim address)) ∧
    ∀ text, ((∃ version program, Segwit text version program) →
        parse ext text = parseBech32 ext text) ∧
      (Base58Form ext.sha256 text → parse ext text = parseBase58 ext text) :=
  ⟨accepts_iff correct, dispatch_right ext⟩

/-- Crates that decode by the definitions; no digest is asked for below. -/
def sampleCrates : Crates where
  sha256 := fun _ => []
  base58Decode := fun _ => .error "not used"
  base58CheckDecode := fun _ text =>
    match Base58.decodeCheck (fun _ => []) text.toList with
    | some bytes => .ok bytes
    | none => .error "not base58check"
  base58Encode := fun _ => ""
  segwitDecode := fun text =>
    match Bech32.segwit text.toList with
    | some (hrp, version, program) => .ok (String.ofList hrp, version, program)
    | none => .error "not segwit"
  onCurve := fun _ => false

theorem sampleCrates_correct : Correct sampleCrates where
  segwit text hrp version program := by
    simp only [sampleCrates]
    cases Bech32.segwit text.toList with
    | none => simp
    | some found =>
      obtain ⟨hrp', version', program'⟩ := found
      simp only [Except.ok.injEq, Prod.mk.injEq, Option.some.injEq]
      rw [← String.toList_inj, String.toList_ofList]
  base58Check text bytes := by
    simp only [sampleCrates]
    cases Base58.decodeCheck (fun _ => []) text.toList <;> simp

theorem sample_sender_accepted :
    ∃ out,
      validateSender sampleCrates " bc1qw508d6qejxtdg4y5r3zarvary0c5xw7kv8f3t4 " = .ok out := by
  have htrim : trim " bc1qw508d6qejxtdg4y5r3zarvary0c5xw7kv8f3t4 " =
      "bc1qw508d6qejxtdg4y5r3zarvary0c5xw7kv8f3t4" := by
    decide +kernel
  have hsegwit : (Bech32.segwit "bc1qw508d6qejxtdg4y5r3zarvary0c5xw7kv8f3t4".toList).map
      (fun out => (out.1, out.2.1, out.2.2.length)) = some (['b', 'c'], 0, 20) := by
    decide +kernel
  obtain ⟨⟨hrp, version, program⟩, hread, hparts⟩ := Option.map_eq_some_iff.mp hsegwit
  obtain ⟨rfl, rfl, hlength⟩ : hrp = ['b', 'c'] ∧ version = 0 ∧ program.length = 20 := by
    simpa using hparts
  have haccepts := ((mainnet_accepted_iff sampleCrates_correct).1
    " bc1qw508d6qejxtdg4y5r3zarvary0c5xw7kv8f3t4 ").mpr (by
      rintro ⟨version, program', hcapital⟩
      rw [htrim, hread] at hcapital
      cases hcapital)
  refine haccepts.sender.mpr ?_
  rw [htrim]
  exact ⟨program, .lower hread, hlength⟩

/-- The same address in capital letters is a mainnet address, and refused. -/
theorem capital_refused :
    Spendable "BC1QW508D6QEJXTDG4Y5R3ZARVARY0C5XW7KV8F3T4" ∧
      trim "BC1QW508D6QEJXTDG4Y5R3ZARVARY0C5XW7KV8F3T4" =
        "BC1QW508D6QEJXTDG4Y5R3ZARVARY0C5XW7KV8F3T4" ∧
      Btc.validate sampleCrates "BC1QW508D6QEJXTDG4Y5R3ZARVARY0C5XW7KV8F3T4" =
        .error (wrongNetwork "BC1QW508D6QEJXTDG4Y5R3ZARVARY0C5XW7KV8F3T4"
          "a non-mainnet human-readable part") ∧
      ∀ out,
        validateSender sampleCrates "BC1QW508D6QEJXTDG4Y5R3ZARVARY0C5XW7KV8F3T4" ≠ .ok out := by
  have hsegwit : (Bech32.segwit "BC1QW508D6QEJXTDG4Y5R3ZARVARY0C5XW7KV8F3T4".toList).map
      (fun out => (out.1, out.2.1, out.2.2.length)) = some (['B', 'C'], 0, 20) := by
    decide +kernel
  have htrim : trim "BC1QW508D6QEJXTDG4Y5R3ZARVARY0C5XW7KV8F3T4" =
      "BC1QW508D6QEJXTDG4Y5R3ZARVARY0C5XW7KV8F3T4" := by
    decide +kernel
  obtain ⟨⟨hrp, version, program⟩, hread, hparts⟩ := Option.map_eq_some_iff.mp hsegwit
  obtain ⟨rfl, rfl, hlength⟩ : hrp = ['B', 'C'] ∧ version = 0 ∧ program.length = 20 := by
    simpa using hparts
  refine ⟨⟨program, .upper hread, hlength⟩, htrim, by decide +kernel, ?_⟩
  intro out h
  obtain ⟨program', hlower, -⟩ := (validateSender_ok sampleCrates_correct).mp ⟨out, h⟩
  rw [htrim, hread] at hlower
  cases hlower

end BitcoinAddresses

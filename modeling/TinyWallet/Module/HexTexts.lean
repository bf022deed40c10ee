import TinyWallet.Module.Construction
import TinyWallet.Tron.Panics

/-!
# The decoders of hex text

Four decoders cut a text into pairs and give each pair to the radix parser of
the standard library. That parser takes a plus sign for an optional sign, so a
pair may be a sign and one digit: `+f` reads as `0f`. Apart from such texts the
decoders read hex and nothing else.
-/

namespace HexTexts

open RustText Numerals UnsignedTransactions

/-- The four decoders. -/
inductive Decoder where
  | decodeHex
  | fixedHex (width : Nat) (what : String)
  | tronDecodeHex
  | hexToBytes
deriving DecidableEq, Repr

namespace Decoder

/-- The bytes, where the decoder returns any. -/
def decode : Decoder → String → Option (List UInt8)
  | decodeHex, text => (UnsignedTransactions.decodeData text).toOption
  | fixedHex width what, text => (EvmConstruction.fixedHex width text what).toOption
  | tronDecodeHex, text => (TronVerify.decodeHex text).toOption
  | hexToBytes, text => (Solana.hexToBytes text).toOption

/-- What is left of a text after its prefix and the trimming. -/
def remaining : Decoder → String → List Char
  | decodeHex, text => (trim ((strip "0x" text).getD text)).toList
  | fixedHex .., text => ((strip "0x" text).getD text).toList
  | tronDecodeHex, text => (trim text).toList
  | hexToBytes, text => text.toList

/-- The length that the decoder asks for. -/
def Sized : Decoder → List Char → Prop
  | fixedHex width _, cs => cs.length = 2 * width
  | _, _ => True

end Decoder

/-- An even number of hex digits. -/
def IsHex (cs : List Char) : Prop := cs.length % 2 = 0 ∧ ∀ c ∈ cs, isAsciiHexDigit c = true

def lower (cs : List Char) : List Char := cs.map Char.toLower

/-- A plus sign at the front of a pair, as a zero. -/
def plusAsZero : List Char → List Char
  | a :: b :: rest => (if a = '+' then '0' else a) :: b :: plusAsZero rest
  | cs => cs

/-- Pairs of hex digits, of which at least one has a plus sign for its first. -/
def HasSigns (cs : List Char) : Prop := plusAsZero cs ≠ cs ∧ IsHex (plusAsZero cs)

theorem isHex_iff {cs : List Char} : IsHex cs ↔ ∃ bytes, hexDecode cs = some bytes := by
  constructor
  · rintro ⟨heven, hdigits⟩
    exact hexDecode_of_digits heven (List.all_eq_true.mpr hdigits)
  · rintro ⟨bytes, h⟩
    have hlength := hexDecode_length h
    exact ⟨by omega, List.all_eq_true.mp (digits_of_hexDecode h)⟩

/-- The radix parser reads a signed digit as that digit. -/
theorem dataPairs_eq : ∀ cs : List Char, dataPairs cs = hexDecode (plusAsZero cs)
  | [] => rfl
  | [_] => rfl
  | a :: b :: rest => by
    have hrest := dataPairs_eq rest
    rw [dataPairs, hrest, plusAsZero, hexDecode, hexPair]
    by_cases hplus : a = '+'
    · have hzero : hexValue '0' = some 0 := rfl
      rw [if_pos hplus, if_pos hplus, hzero]
      cases hexValue b with
      | none => rfl
      | some lo => cases hexDecode (plusAsZero rest) <;> simp
    · rw [if_neg hplus, if_neg hplus]
      cases hexValue a with
      | none => rfl
      | some hi =>
        cases hexValue b with
        | none => rfl
        | some lo => cases hexDecode (plusAsZero rest) <;> rfl

theorem plusAsZero_of_isHex {cs : List Char} (h : IsHex cs) : plusAsZero cs = cs := by
  induction cs using plusAsZero.induct with
  | case1 a b rest ih =>
    obtain ⟨heven, hdigits⟩ := h
    have hplus : a ≠ '+' := by
      rintro rfl
      exact absurd (hdigits '+' List.mem_cons_self) (by decide)
    have htail : IsHex rest := by
      simp only [List.length_cons] at heven
      exact ⟨by omega, fun c hc => hdigits c (List.mem_cons_of_mem a (List.mem_cons_of_mem b hc))⟩
    rw [plusAsZero, if_neg hplus, ih htail]
  | case2 cs hshort => rw [plusAsZero.eq_def]; split <;> simp_all

theorem dataPairs_length : ∀ {cs : List Char} {bytes : List UInt8},
    dataPairs cs = some bytes → byteLen cs = 2 * bytes.length ∧ cs.length = 2 * bytes.length
  | [], _, h => by
    cases h
    exact ⟨rfl, rfl⟩
  | [_], _, h => by cases h
  | a :: b :: rest, bytes, h => by
    rw [dataPairs] at h
    cases hpair : hexPair a b with
    | none =>
      rw [hpair] at h
      cases h
    | some byte =>
      rw [hpair] at h
      obtain ⟨tail, htail, rfl⟩ := Option.map_eq_some_iff.mp h
      obtain ⟨ha, hb⟩ := TronPanics.ascii_of_hexPair hpair
      obtain ⟨hbytes, hchars⟩ := dataPairs_length htail
      simp only [TronPanics.byteLen_cons, List.length_cons, ha, hb]
      omega

/-- The walk over the slices of a text, as each decoder has it with errors of its own. -/
structure ReadsPairs {ε : Type} (walk : List Char → Except ε (List UInt8)) : Prop where
  done : walk [] = .ok []
  cut (a : Char) (bytes : List UInt8) : walk [a] ≠ .ok bytes
  pair (a b : Char) (rest : List Char) (byte : UInt8) (hpair : hexPair a b = some byte) :
    walk (a :: b :: rest) = (walk rest).map (byte :: ·)
  bad (a b : Char) (rest : List Char) (bytes : List UInt8) (hpair : hexPair a b = none) :
    walk (a :: b :: rest) ≠ .ok bytes

theorem ReadsPairs.ok_iff {ε : Type} {walk : List Char → Except ε (List UInt8)}
    (reads : ReadsPairs walk) : ∀ {cs : List Char} {bytes : List UInt8},
    walk cs = .ok bytes ↔ dataPairs cs = some bytes
  | [], bytes => by rw [reads.done, dataPairs, Except.ok.injEq, Option.some.injEq]
  | [a], bytes => by
    have hcut := reads.cut a bytes
    simp [dataPairs, hcut]
  | a :: b :: rest, bytes => by
    have hrest := fun tail => @ReadsPairs.ok_iff _ _ reads rest tail
    rw [dataPairs]
    cases hpair : hexPair a b with
    | none =>
      have hbad := reads.bad a b rest bytes hpair
      simp [hbad]
    | some byte =>
      rw [reads.pair a b rest byte hpair]
      dsimp only
      rw [Option.map_eq_some_iff]
      simp only [← hrest]
      cases walk rest <;> simp [Except.map]

theorem decodePairs_reads : ReadsPairs TronVerify.decodePairs where
  done := rfl
  cut a bytes h := by
    rw [TronVerify.decodePairs] at h
    split_ifs at h
    cases h
  pair a b rest byte hpair := by
    obtain ⟨ha, hb⟩ := TronPanics.ascii_of_hexPair hpair
    rw [TronVerify.decodePairs, if_neg (by omega), if_neg (by omega),
      if_neg (by omega), hpair]
    cases TronVerify.decodePairs rest <;> rfl
  bad a b rest bytes hpair h := by
    rw [TronVerify.decodePairs, hpair] at h
    split_ifs at h <;> cases h

theorem fixedPairs_reads (what : String) : ReadsPairs (EvmConstruction.fixedPairs what) where
  done := rfl
  cut a bytes h := by
    rw [EvmConstruction.fixedPairs] at h
    split_ifs at h <;> cases h
  pair a b rest byte hpair := by
    obtain ⟨ha, hb⟩ := TronPanics.ascii_of_hexPair hpair
    rw [EvmConstruction.fixedPairs, if_neg (by omega), if_neg (by omega),
      if_neg (by omega), hpair]
    cases EvmConstruction.fixedPairs what rest <;> rfl
  bad a b rest bytes hpair h := by
    rw [EvmConstruction.fixedPairs, hpair] at h
    split_ifs at h <;> cases h

theorem hexToBytes_reads : ReadsPairs Solana.hexToBytes.pairs where
  done := rfl
  cut a bytes h := by
    rw [Solana.hexToBytes.pairs] at h
    split_ifs at h
  pair a b rest byte hpair := by
    obtain ⟨ha, hb⟩ := TronPanics.ascii_of_hexPair hpair
    rw [Solana.hexToBytes.pairs, if_neg (by omega), if_neg (by omega),
      if_neg (by omega), hpair]
  bad a b rest bytes hpair h := by
    rw [Solana.hexToBytes.pairs, hpair] at h
    split_ifs at h

theorem toOption_eq_some {ε α : Type} {x : Except ε α} {a : α} :
    x.toOption = some a ↔ x = .ok a := by
  cases x <;> simp [Except.toOption]

/-- Each decoder reads what is left of its text in pairs. -/
theorem Decoder.decode_eq_some {d : Decoder} {text : String} {bytes : List UInt8} :
    d.decode text = some bytes ↔
      hexDecode (plusAsZero (d.remaining text)) = some bytes ∧ d.Sized (d.remaining text) := by
  rw [← dataPairs_eq]
  cases d with
  | decodeHex =>
    rw [decode, remaining, toOption_eq_some, decodeData]
    simp only [Sized, and_true]
    generalize (trim ((strip "0x" text).getD text)).toList = body
    constructor
    · intro h
      split_ifs at h with hempty
      · cases h
        rw [hempty, dataPairs]
      · cases h
      · cases hpairs : dataPairs body with
        | none =>
          rw [hpairs] at h
          cases h
        | some read =>
          rw [hpairs] at h
          rw [Except.ok.inj h]
    · intro h
      have hlength := (dataPairs_length h).1
      by_cases hempty : body = []
      · rw [hempty] at h ⊢
        cases h
        rfl
      · rw [if_neg hempty, if_neg (by omega), h]
  | fixedHex width what =>
    rw [decode, remaining, toOption_eq_some, EvmConstruction.fixedHex]
    simp only [Sized]
    generalize ((strip "0x" text).getD text).toList = body
    constructor
    · intro h
      split_ifs at h with hsize
      · cases h
      · have hpairs := (fixedPairs_reads what).ok_iff.mp h
        have hlength := dataPairs_length hpairs
        exact ⟨hpairs, by omega⟩
    · rintro ⟨hpairs, hsize⟩
      have hlength := dataPairs_length hpairs
      rw [if_neg (by omega)]
      exact (fixedPairs_reads what).ok_iff.mpr hpairs
  | tronDecodeHex =>
    rw [decode, remaining, toOption_eq_some, TronVerify.decodeHex]
    simp only [Sized, and_true]
    generalize (trim text).toList = body
    constructor
    · intro h
      split_ifs at h
      · cases h
      · exact decodePairs_reads.ok_iff.mp h
    · intro h
      have hlength := (dataPairs_length h).1
      rw [if_neg (by omega)]
      exact decodePairs_reads.ok_iff.mpr h
  | hexToBytes =>
    rw [decode, remaining, toOption_eq_some, Solana.hexToBytes]
    simp only [Sized, and_true]
    generalize text.toList = body
    constructor
    · intro h
      split_ifs at h
      exact hexToBytes_reads.ok_iff.mp h
    · intro h
      have hlength := (dataPairs_length h).1
      rw [if_neg (by omega)]
      exact hexToBytes_reads.ok_iff.mpr h

/-- The decoder returns bytes exactly for hex, and they are the text's. -/
structure Exact (d : Decoder) (text : String) : Prop where
  reads : (∃ bytes, d.decode text = some bytes) ↔
    IsHex (d.remaining text) ∧ d.Sized (d.remaining text)
  printed : ∀ bytes, d.decode text = some bytes →
    (hexLower bytes).toList = lower (d.remaining text)

/-- A text of the decoder's length with a plus sign in it. -/
def Signed (d : Decoder) (text : String) : Prop :=
  d.Sized (d.remaining text) ∧ HasSigns (d.remaining text)

/-- Two texts that are read alike, yet differ in more than letter case. -/
structure Confused (d : Decoder) (s t : String) : Prop where
  sized : d.Sized (d.remaining s) ∧ d.Sized (d.remaining t)
  hex : IsHex (plusAsZero (d.remaining s))
  alike : lower (plusAsZero (d.remaining s)) = lower (plusAsZero (d.remaining t))
  different : lower (d.remaining s) ≠ lower (d.remaining t)

theorem hexDecode_lower (cs : List Char) : hexDecode (lower cs) = hexDecode cs :=
  hexDecode_toLower cs

theorem exact_iff (d : Decoder) (text : String) : Exact d text ↔ ¬Signed d text := by
  constructor
  · rintro ⟨hreads, -⟩ ⟨hsized, hsigns, hhex⟩
    obtain ⟨bytes, hbytes⟩ := isHex_iff.mp hhex
    have hplain := (hreads.mp ⟨bytes, Decoder.decode_eq_some.mpr ⟨hbytes, hsized⟩⟩).1
    exact hsigns (plusAsZero_of_isHex hplain)
  · intro hunsigned
    have hplain : ∀ bytes, d.decode text = some bytes →
        hexDecode (d.remaining text) = some bytes ∧ d.Sized (d.remaining text) := by
      intro bytes h
      obtain ⟨hbytes, hsized⟩ := Decoder.decode_eq_some.mp h
      have hsame : plusAsZero (d.remaining text) = d.remaining text := by
        by_contra hsigns
        exact hunsigned ⟨hsized, hsigns, isHex_iff.mpr ⟨bytes, hbytes⟩⟩
      rw [hsame] at hbytes
      exact ⟨hbytes, hsized⟩
    constructor
    · constructor
      · rintro ⟨bytes, h⟩
        obtain ⟨hbytes, hsized⟩ := hplain bytes h
        exact ⟨isHex_iff.mpr ⟨bytes, hbytes⟩, hsized⟩
      · rintro ⟨hhex, hsized⟩
        obtain ⟨bytes, hbytes⟩ := isHex_iff.mp hhex
        refine ⟨bytes, Decoder.decode_eq_some.mpr ⟨?_, hsized⟩⟩
        rwa [plusAsZero_of_isHex hhex]
    · intro bytes h
      exact hexLower_hexDecode (hplain bytes h).1

/-- Two texts give the same bytes only where they differ in letter case alone,
or in a plus sign for a zero. -/
theorem same_bytes_iff (d : Decoder) (s t : String) :
    (∀ bytes, d.decode s = some bytes → d.decode t = some bytes →
      lower (d.remaining s) = lower (d.remaining t)) ↔ ¬Confused d s t := by
  constructor
  · rintro hsame ⟨⟨hs, ht⟩, hhex, halike, hdifferent⟩
    obtain ⟨bytes, hbytes⟩ := isHex_iff.mp hhex
    apply hdifferent
    apply hsame bytes (Decoder.decode_eq_some.mpr ⟨hbytes, hs⟩)
    refine Decoder.decode_eq_some.mpr ⟨?_, ht⟩
    rw [← hexDecode_lower, ← halike, hexDecode_lower, hbytes]
  · intro hclear bytes hs ht
    obtain ⟨hsBytes, hsSized⟩ := Decoder.decode_eq_some.mp hs
    obtain ⟨htBytes, htSized⟩ := Decoder.decode_eq_some.mp ht
    by_contra hdifferent
    apply hclear
    refine ⟨⟨hsSized, htSized⟩, isHex_iff.mpr ⟨bytes, hsBytes⟩, ?_, hdifferent⟩
    exact (hexLower_hexDecode hsBytes).symm.trans (hexLower_hexDecode htBytes)

theorem Decoder.remaining_hexLower (d : Decoder) (bytes : List UInt8) :
    d.remaining (hexLower bytes) = (hexLower bytes).toList := by
  have htrim := trim_hexLower bytes
  have hstrip := strip_hexLower bytes
  cases d with
  | decodeHex => rw [remaining, hstrip, Option.getD_none, htrim]
  | fixedHex => rw [remaining, hstrip, Option.getD_none]
  | tronDecodeHex => rw [remaining, htrim]
  | hexToBytes => rfl

/-- Printed bytes are read back. -/
theorem decode_hexLower (d : Decoder) (bytes : List UInt8)
    (hsized : d.Sized (hexLower bytes).toList) : d.decode (hexLower bytes) = some bytes := by
  have hbytes := hexDecode_hexLower bytes
  have hhex := isHex_iff.mpr ⟨bytes, hbytes⟩
  rw [Decoder.decode_eq_some, d.remaining_hexLower, plusAsZero_of_isHex hhex]
  exact ⟨hbytes, hsized⟩

/-- The decoders read exactly hex but for texts with a plus sign at the front of
a pair; two texts are confused only over such a sign. -/
theorem decoders_exact_iff (d : Decoder) :
    (∀ text, Exact d text ↔ ¬Signed d text) ∧
    (∀ s t, (∀ bytes, d.decode s = some bytes → d.decode t = some bytes →
      lower (d.remaining s) = lower (d.remaining t)) ↔ ¬Confused d s t) ∧
    ∀ bytes, d.Sized (hexLower bytes).toList → d.decode (hexLower bytes) = some bytes := by
  refine ⟨exact_iff d, same_bytes_iff d, ?_⟩
  intro bytes hsized
  exact decode_hexLower d bytes hsized

theorem sample_key_read :
    (Decoder.fixedHex 4 "key").decode (hexLower [0xde, 0xad, 0xbe, 0xef]) =
      some [0xde, 0xad, 0xbe, 0xef] :=
  (decoders_exact_iff (.fixedHex 4 "key")).2.2 [0xde, 0xad, 0xbe, 0xef] (by
    show (hexLower [0xde, 0xad, 0xbe, 0xef]).toList.length = 8
    decide)

/-- `+f` is the byte fifteen for each of the decoders, as `0f` is. -/
theorem plus_sign_read :
    (∀ d ∈ [Decoder.decodeHex, .fixedHex 1 "key", .tronDecodeHex, .hexToBytes],
      d.decode "+f" = some [15] ∧ d.decode "0f" = some [15] ∧ d.remaining "+f" = ['+', 'f']) ∧
    ¬IsHex ['+', 'f'] ∧ lower ['+', 'f'] ≠ lower ['0', 'f'] := by
  refine ⟨by decide +kernel, ?_, by decide⟩
  rintro ⟨-, hdigits⟩
  exact absurd (hdigits '+' List.mem_cons_self) (by decide)

end HexTexts

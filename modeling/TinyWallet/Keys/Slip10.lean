import TinyWallet.Library.Numerals
import TinyWallet.Library.Rlp

/-!
# Hardened derivation paths

A Solana key is derived along a path of hardened indices, and its text is all
that tells two accounts apart. The index parser reads more spellings of a number
than one: with a plus sign, and with leading zeros. Two texts name the same
indices exactly if they differ in these alone.
-/

namespace Slip10

open RustText Numerals Rlp

inductive Error where
  | invalidPath (path reason : String)
  | unhardenedSolanaPath (path : String)
deriving DecidableEq, Repr

def Error.text : Error → String
  | .invalidPath path reason => "invalid derivation path '" ++ path ++ "': " ++ reason
  | .unhardenedSolanaPath path => "Solana path '" ++ path ++
      "' has a non-hardened segment; ed25519 (SLIP-0010) " ++
      "supports hardened derivation only, so every segment needs a trailing '"

/-- The mark of a hardened index. -/
def apostrophe : Char := Char.ofNat 39

/-- `segment.strip_suffix('\'')`. -/
def stripApostrophe (segment : List Char) : Option (List Char) :=
  if segment.getLast? = some apostrophe then some segment.dropLast else none

def parseSegment (path : String) (segment : List Char) : Except Error Nat :=
  match stripApostrophe segment with
  | none => .error (.unhardenedSolanaPath path)
  | some index =>
    match parseRadix 10 (2 ^ 32) (String.ofList index) with
    | .error e =>
      .error (.invalidPath path ("segment '" ++ String.ofList segment ++ "': " ++ e))
    | .ok index =>
      if 0x80000000 ≤ index then
        .error (.invalidPath path
          ("segment '" ++ String.ofList segment ++ "' exceeds the maximum raw index"))
      else .ok index

def parseSegments (path : String) : List (List Char) → Except Error (List Nat)
  | [] => .ok []
  | segment :: rest => do
    let index ← parseSegment path segment
    let out ← parseSegments path rest
    .ok (index :: out)

def parsePath (path : String) : Except Error (List Nat) :=
  match (trim path).toList.splitOn '/' with
  | ['m'] :: segments => do
    let out ← parseSegments path segments
    if out.isEmpty then .error (.invalidPath path "has no segments") else .ok out
  | _ => .error (.invalidPath path "must start with 'm'")

/-- One turn of the derivation: the key and the chain code of a child. -/
def deriveChild (hmacSha512 : List UInt8 → List UInt8 → List UInt8)
    (parent : List UInt8 × List UInt8)
    (index : Nat) : List UInt8 × List UInt8 :=
  let digest := hmacSha512 parent.2 (0 :: parent.1 ++ toBe 4 (index ||| 0x80000000))
  (digest.take 32, (digest.drop 32).take 32)

/-- The secret key along a path. A hash key of any length is taken. -/
def derive (hmacSha512 : List UInt8 → List UInt8 → List UInt8) (seed : List UInt8) (path : String) :
    Except Error (List UInt8) := do
  let indices ← parsePath path
  let digest := hmacSha512 (utf8Bytes "ed25519 seed") seed
  .ok (indices.foldl (deriveChild hmacSha512) (digest.take 32, (digest.drop 32).take 32)).1

/-- A segment as the parser reads it. -/
structure Segment where
  plus : Bool
  digits : List Char
  nonempty : digits ≠ []
  decimal : ∀ c ∈ digits, isAsciiDigit c = true
  small : Nat.ofDigitChars 10 digits 0 < 2 ^ 31

namespace Segment

def spelled (s : Segment) : List Char :=
  (if s.plus then ['+'] else []) ++ s.digits ++ [apostrophe]

def index (s : Segment) : Nat := Nat.ofDigitChars 10 s.digits 0

/-- The digits from the first one on that is not zero. -/
def bare (s : Segment) : List Char := s.digits.dropWhile (· = '0')

end Segment

/-- The trimmed path is `m` and the segments, each behind a slash. -/
structure Spells (path : String) (segments : List Segment) : Prop where
  nonempty : segments ≠ []
  whole : (trim path).toList = ['/'].intercalate (['m'] :: segments.map Segment.spelled)

theorem stripApostrophe_eq_some {segment body : List Char} :
    stripApostrophe segment = some body ↔ segment = body ++ [apostrophe] := by
  rw [stripApostrophe]
  constructor
  · intro h
    split_ifs at h with hlast
    obtain rfl := Option.some.inj h
    exact (List.dropLast_append_getLast? _ hlast).symm
  · rintro rfl
    rw [List.getLast?_concat, if_pos rfl, List.dropLast_concat]

theorem sign_and_body (body : List Char) :
    body = (if body.head? = some '+' then ['+'] else []) ++ unsignedBody body := by
  cases body with
  | nil => rfl
  | cons c cs =>
    by_cases hplus : c = '+'
    · rw [hplus]
      rfl
    · rw [if_neg (by simpa using hplus), List.nil_append, unsignedBody.eq_def]
      split
      · next heq => exact absurd (List.cons.inj heq).1 hplus
      · rfl

theorem unsignedBody_digits {digits : List Char} (decimal : ∀ c ∈ digits, isAsciiDigit c = true) :
    unsignedBody digits = digits := by
  rw [unsignedBody.eq_def]
  split
  · exact absurd (decimal '+' List.mem_cons_self) (by decide)
  · rfl

namespace Segment

theorem spelled_last (s : Segment) : stripApostrophe s.spelled =
    some ((if s.plus then ['+'] else []) ++ s.digits) :=
  stripApostrophe_eq_some.mpr rfl

theorem unsigned (s : Segment) :
    unsignedBody ((if s.plus then ['+'] else []) ++ s.digits) = s.digits := by
  cases s.plus with
  | true => rfl
  | false => exact unsignedBody_digits s.decimal

/-- The number of a segment is its digits without the leading zeros. -/
theorem index_eq_iff (s t : Segment) : s.index = t.index ↔ s.bare = t.bare :=
  ofDigitChars_inj_iff s.decimal t.decimal

theorem spelled_ascii {s : Segment} : '/' ∉ s.spelled := by
  rw [spelled, List.mem_append, List.mem_append]
  rintro ((hplus | hdigit) | hlast)
  · split_ifs at hplus
    · exact absurd hplus (by decide)
    · cases hplus
  · exact absurd (s.decimal _ hdigit) (by decide)
  · exact absurd hlast (by decide)

/-- The text of a segment tells its sign. -/
theorem plus_of_spelled {s t : Segment} (h : s.spelled = t.spelled) : s.plus = t.plus := by
  have hbody : (if s.plus then ['+'] else []) ++ s.digits =
      (if t.plus then ['+'] else []) ++ t.digits := by
    have hstrip := congrArg stripApostrophe h
    rw [spelled_last, spelled_last] at hstrip
    exact Option.some.inj hstrip
  have hsign : ∀ u : Segment,
      ((if u.plus then ['+'] else []) ++ u.digits).head? = some '+' ↔ u.plus = true := by
    intro u
    cases hplus : u.plus with
    | true => simp
    | false =>
      simp only [Bool.false_eq_true, if_false, List.nil_append, iff_false]
      intro hhead
      exact absurd (u.decimal '+' (List.mem_of_head? hhead)) (by decide)
  rw [Bool.eq_iff_iff, ← hsign s, ← hsign t, hbody]

end Segment

theorem parseSegment_ok {path : String} {segment : List Char} {index : Nat} :
    parseSegment path segment = .ok index ↔
      ∃ s : Segment, segment = s.spelled ∧ index = s.index := by
  rw [parseSegment]
  constructor
  · intro h
    cases hstrip : stripApostrophe segment with
    | none =>
      rw [hstrip] at h
      cases h
    | some body =>
      rw [hstrip] at h
      dsimp only at h
      cases hparse : parseRadix 10 (2 ^ 32) (String.ofList body) with
      | error e =>
        rw [hparse] at h
        cases h
      | ok number =>
        rw [hparse] at h
        dsimp only at h
        split_ifs at h with hlarge
        obtain rfl := Except.ok.inj h
        obtain ⟨hnonempty, hdigits⟩ := parseRadix_ok_iff.mp hparse
        rw [String.toList_ofList] at hnonempty hdigits
        obtain ⟨hall, hvalue⟩ := parseDigits_ok hdigits
        refine ⟨⟨decide (body.head? = some '+'), unsignedBody body, hnonempty,
          List.all_eq_true.mp hall, ?_⟩, ?_, hvalue⟩
        · rw [← hvalue]
          omega
        · rw [Segment.spelled, stripApostrophe_eq_some.mp hstrip]
          simp only [decide_eq_true_eq]
          rw [← sign_and_body body]
  · rintro ⟨s, rfl, rfl⟩
    have hsmall := s.small
    have hparse : parseRadix 10 (2 ^ 32)
        (String.ofList ((if s.plus then ['+'] else []) ++ s.digits)) = .ok s.index := by
      rw [parseRadix_ok_iff, String.toList_ofList, s.unsigned]
      exact ⟨s.nonempty, parseDigits_of_digits (List.all_eq_true.mpr s.decimal) (by omega)⟩
    rw [s.spelled_last]
    dsimp only
    rw [hparse]
    dsimp only
    rw [if_neg]
    rw [Segment.index]
    omega

theorem parseSegments_ok {path : String} {texts : List (List Char)} {indices : List Nat} :
    parseSegments path texts = .ok indices ↔ ∃ segments : List Segment,
      texts = segments.map Segment.spelled ∧ indices = segments.map Segment.index := by
  induction texts generalizing indices with
  | nil =>
    rw [parseSegments, Except.ok.injEq]
    constructor
    · rintro rfl
      exact ⟨[], rfl, rfl⟩
    · rintro ⟨segments, htexts, rfl⟩
      obtain rfl := List.map_eq_nil_iff.mp htexts.symm
      rfl
  | cons text texts ih =>
    rw [parseSegments]
    constructor
    · intro h
      obtain ⟨index, hindex, h⟩ := bind_ok_iff.mp h
      obtain ⟨rest, hrest, h⟩ := bind_ok_iff.mp h
      obtain ⟨s, rfl, rfl⟩ := parseSegment_ok.mp hindex
      obtain ⟨segments, rfl, rfl⟩ := ih.mp hrest
      exact ⟨s :: segments, rfl, (Except.ok.inj h).symm⟩
    · rintro ⟨segments, htexts, rfl⟩
      cases segments with
      | nil => cases htexts
      | cons s segments =>
        obtain ⟨rfl, rfl⟩ := List.cons.inj htexts
        exact bind_ok_iff.mpr ⟨s.index, parseSegment_ok.mpr ⟨s, rfl, rfl⟩,
          bind_ok_iff.mpr ⟨_, ih.mpr ⟨segments, rfl, rfl⟩, rfl⟩⟩

theorem splitOn_spelled (segments : List Segment) :
    (['/'].intercalate (['m'] :: segments.map Segment.spelled)).splitOn '/' =
      ['m'] :: segments.map Segment.spelled := by
  apply List.splitOn_intercalate
  · intro text htext
    rcases List.mem_cons.mp htext with rfl | hmem
    · decide
    · obtain ⟨s, -, rfl⟩ := List.mem_map.mp hmem
      exact Segment.spelled_ascii
  · exact List.cons_ne_nil _ _

/-- The parser reads exactly the spelled paths. -/
theorem parsePath_ok {path : String} {indices : List Nat} :
    parsePath path = .ok indices ↔
      ∃ segments, Spells path segments ∧ indices = segments.map Segment.index := by
  rw [parsePath]
  constructor
  · intro h
    split at h
    · next texts hsplit =>
      obtain ⟨out, hout, h⟩ := bind_ok_iff.mp h
      obtain ⟨segments, rfl, rfl⟩ := parseSegments_ok.mp hout
      split_ifs at h with hempty
      obtain rfl := Except.ok.inj h
      refine ⟨segments, ⟨?_, ?_⟩, rfl⟩
      · rintro rfl
        exact hempty rfl
      · rw [← hsplit, List.intercalate_splitOn]
    · cases h
  · rintro ⟨segments, ⟨hnonempty, hwhole⟩, rfl⟩
    rw [hwhole, splitOn_spelled]
    refine bind_ok_iff.mpr ⟨_, parseSegments_ok.mpr ⟨segments, rfl, rfl⟩, ?_⟩
    rw [if_neg]
    simpa using hnonempty

/-- Every segment is a decimal index and an apostrophe. -/
def Decimal (path : String) : Prop :=
  ∃ segments, Spells path segments ∧ ∀ s ∈ segments, s.plus = false

/-- A segment has a plus sign before its index. -/
def Signed (path : String) : Prop :=
  ∃ segments, Spells path segments ∧ ∃ s ∈ segments, s.plus = true

/-- Two paths whose texts differ, though only in plus signs and leading zeros. -/
structure Confused (path other : String) : Prop where
  differ : trim path ≠ trim other
  alike : ∃ segments segments', Spells path segments ∧ Spells other segments' ∧
    segments.map Segment.bare = segments'.map Segment.bare

theorem indices_eq_iff (segments segments' : List Segment) :
    segments.map Segment.index = segments'.map Segment.index ↔
      segments.map Segment.bare = segments'.map Segment.bare := by
  induction segments generalizing segments' with
  | nil => cases segments' <;> simp
  | cons s segments ih =>
    cases segments' with
    | nil => simp
    | cons s' segments' => simp only [List.map_cons, List.cons.injEq, s.index_eq_iff, ih]

/-- One text does not spell its segments with two signs. -/
theorem Spells.signs {path : String} {segments segments' : List Segment} (h : Spells path segments)
    (h' : Spells path segments') : segments.map Segment.plus = segments'.map Segment.plus := by
  have htexts : segments.map Segment.spelled = segments'.map Segment.spelled := by
    have hsplit := congrArg (List.splitOn '/') (h.whole.symm.trans h'.whole)
    rw [splitOn_spelled, splitOn_spelled] at hsplit
    exact (List.cons.inj hsplit).2
  clear h h'
  induction segments generalizing segments' with
  | nil =>
    cases segments' with
    | nil => rfl
    | cons s' segments' => cases htexts
  | cons s segments ih =>
    cases segments' with
    | nil => cases htexts
    | cons s' segments' =>
      obtain ⟨hhead, htail⟩ := List.cons.inj htexts
      rw [List.map_cons, List.map_cons, Segment.plus_of_spelled hhead, ih htail]

theorem told_apart_iff (path other : String) :
    (∀ indices, parsePath path = .ok indices → parsePath other = .ok indices →
      trim path = trim other) ↔ ¬Confused path other := by
  constructor
  · rintro hsame ⟨hdiffer, segments, segments', hspells, hspells', halike⟩
    apply hdiffer
    apply hsame (segments.map Segment.index)
    · exact parsePath_ok.mpr ⟨segments, hspells, rfl⟩
    · exact parsePath_ok.mpr ⟨segments', hspells', (indices_eq_iff segments segments').mpr halike⟩
  · intro hclear indices hpath hother
    obtain ⟨segments, hspells, rfl⟩ := parsePath_ok.mp hpath
    obtain ⟨segments', hspells', heq⟩ := parsePath_ok.mp hother
    by_contra hdiffer
    exact hclear ⟨hdiffer, segments, segments', hspells, hspells',
      (indices_eq_iff segments segments').mp heq⟩

theorem decimal_iff (path : String) :
    (∀ indices, parsePath path = .ok indices → Decimal path) ↔ ¬Signed path := by
  constructor
  · rintro hdecimal ⟨segments, hspells, s, hs, hplus⟩
    obtain ⟨segments', hspells', hplain⟩ :=
      hdecimal _ (parsePath_ok.mpr ⟨segments, hspells, rfl⟩)
    have hsigns : s.plus ∈ segments'.map Segment.plus := by
      rw [hspells'.signs hspells]
      exact List.mem_map_of_mem hs
    obtain ⟨s', hs', heq⟩ := List.mem_map.mp hsigns
    rw [hplain s' hs', hplus] at heq
    cases heq
  · intro hunsigned indices h
    obtain ⟨segments, hspells, -⟩ := parsePath_ok.mp h
    refine ⟨segments, hspells, fun s hs => ?_⟩
    by_contra hplus
    exact hunsigned ⟨segments, hspells, s, hs, by simpa using hplus⟩

/-- The indices leave the hardening bit clear. -/
theorem parsePath_indices {path : String} {indices : List Nat} (h : parsePath path = .ok indices) :
    indices ≠ [] ∧ ∀ index ∈ indices, index < 2 ^ 31 := by
  obtain ⟨segments, hspells, rfl⟩ := parsePath_ok.mp h
  constructor
  · intro hempty
    exact hspells.nonempty (List.map_eq_nil_iff.mp hempty)
  · intro index hindex
    obtain ⟨s, -, rfl⟩ := List.mem_map.mp hindex
    exact s.small

/-- Paths that are confused give one key, whatever the seed. -/
theorem derive_confused {path other : String} (h : Confused path other)
    (hmacSha512 : List UInt8 → List UInt8 → List UInt8) (seed : List UInt8) :
    derive hmacSha512 seed path = derive hmacSha512 seed other := by
  obtain ⟨-, segments, segments', hspells, hspells', halike⟩ := h
  have hpath := parsePath_ok.mpr ⟨segments, hspells, rfl⟩
  have hother :=
    parsePath_ok.mpr ⟨segments', hspells', (indices_eq_iff segments segments').mpr halike⟩
  rw [derive, derive, hpath, hother]

/-- Paths name different indices unless they differ in plus signs and leading
zeros alone, and their segments are decimal unless one has a plus sign. -/
theorem paths_told_apart_iff (path other : String) :
    ((∀ indices, parsePath path = .ok indices → parsePath other = .ok indices →
      trim path = trim other) ↔ ¬Confused path other) ∧
    ((∀ indices, parsePath path = .ok indices → Decimal path) ↔ ¬Signed path) ∧
    (∀ indices, parsePath path = .ok indices →
      indices ≠ [] ∧ ∀ index ∈ indices, index < 2 ^ 31) ∧
    (Confused path other → ∀ hmacSha512 seed,
      derive hmacSha512 seed path = derive hmacSha512 seed other) := by
  refine ⟨told_apart_iff path other, decimal_iff path, ?_, ?_⟩
  · intro indices h
    exact parsePath_indices h
  · intro h hmacSha512 seed
    exact derive_confused h hmacSha512 seed

theorem sample_paths :
    (∃ indices, parsePath " m/44'/501'/0'/0'" = .ok indices ∧ ∀ index ∈ indices, index < 2 ^ 31) ∧
      derive (fun key message => key ++ message) [7] "m/44'" =
        derive (fun key message => key ++ message) [7] "m/044'" := by
  constructor
  · have hparse : parsePath " m/44'/501'/0'/0'" = .ok [44, 501, 0, 0] := by decide +kernel
    exact ⟨_, hparse, ((paths_told_apart_iff _ "").2.2.1 _ hparse).2⟩
  · obtain ⟨hapart, -, -, hderive⟩ := paths_told_apart_iff "m/44'" "m/044'"
    have hconfused : Confused "m/44'" "m/044'" := by
      by_contra hclear
      have hsame := hapart.mpr hclear [44] (by decide +kernel) (by decide +kernel)
      exact absurd hsame (by decide +kernel)
    exact hderive hconfused _ _

/-- Two paths that look different derive one key. -/
theorem zero_and_sign_ignored :
    parsePath "m/44'/501'/0'" = .ok [44, 501, 0] ∧ parsePath "m/044'/501'/0'" = .ok [44, 501, 0] ∧
      parsePath "m/+44'/501'/0'" = .ok [44, 501, 0] ∧
      trim "m/44'/501'/0'" ≠ trim "m/044'/501'/0'" ∧
      trim "m/44'/501'/0'" ≠ trim "m/+44'/501'/0'" := by
  decide +kernel

end Slip10

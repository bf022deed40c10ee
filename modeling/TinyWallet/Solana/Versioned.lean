import TinyWallet.Solana.Messages

/-!
# Signing a transaction that was built elsewhere

The blob is parsed just far enough to find the signer keys, the message is
signed, and the signature is copied into the slot of the wallet's own key. Here
every index and slice of the code is one that may panic, and none does.

A count may be spelled with a zero group behind it; the code reads such a blob,
and the runtime it is sent to does not.
-/

namespace SolanaVersioned

open RustText Numerals Readers Programs Wire Engine Solana SolanaMessages

abbrev Outcome (α : Type) := Except (Failure String) α

def orError {α : Type} (x : Except String α) : Outcome α := x.mapError .error

/-- `bytes[at]`. -/
def index (bytes : List UInt8) (pos : Nat) : Outcome UInt8 :=
  match bytes[pos]? with
  | some b => .ok b
  | none => .error .panic

/-- `&bytes[start..]`. -/
def sliceFrom (bytes : List UInt8) (start : Nat) : Outcome (List UInt8) :=
  if start ≤ bytes.length then .ok (bytes.drop start) else .error .panic

/-- `&bytes[start..stop]`. -/
def slice (bytes : List UInt8) (start stop : Nat) : Outcome (List UInt8) :=
  if start ≤ stop ∧ stop ≤ bytes.length then .ok ((bytes.drop start).take (stop - start))
  else .error .panic

def isVersioned (first : UInt8) : Bool := first.toNat &&& 0x80 ≠ 0

def parseLayout (wire : List UInt8) : Outcome Layout := do
  let (numSignatures, sigsStart) ← orError (decodeShortvec wire)
  let messageStart := sigsStart + numSignatures * 64
  if wire.length < messageStart then
    .error (.error "Solana tx blob truncated before message")
  else
    let message ← sliceFrom wire messageStart
    match message with
    | [] => .error (.error "Solana tx blob has empty message")
    | first :: _ =>
      let headerOff := if isVersioned first then 1 else 0
      if message.length < headerOff + 3 then
        .error (.error "Solana message header truncated")
      else
        let numRequired ← index message headerOff
        if numRequired.toNat = 0 then
          .error (.error "Solana message declares zero required signatures")
        else
          let keysOff := headerOff + 3
          let counted ← sliceFrom message keysOff
          let (accountCount, countLen) ← orError (decodeShortvec counted)
          let keysStart := keysOff + countLen
          let signerKeys := min numRequired.toNat accountCount
          if message.length < keysStart + signerKeys * 32 then
            .error (.error "Solana account keys region truncated")
          else .ok ⟨sigsStart, numSignatures, messageStart, keysStart, signerKeys⟩

/-- The first of some indices whose key is the wallet's. -/
def findKey (message ourPubkey : List UInt8) (keysStart : Nat) : List Nat → Outcome (Option Nat)
  | [] => .ok none
  | i :: rest => do
    let off := keysStart + i * 32
    let key ← slice message off (off + 32)
    if key = ourPubkey then .ok (some i) else findKey message ourPubkey keysStart rest

def ownSlot (host : Host) (layout : Layout) (message ourPubkey : List UInt8) : Outcome Nat := do
  match ← findKey message ourPubkey layout.keysStart (List.range layout.signerKeys) with
  | none => .error (.error ("wallet Solana address " ++ pubkeyToB58 host ourPubkey ++
      " is not a required signer of this transaction"))
  | some ourIndex =>
    if layout.numSignatures ≤ ourIndex then
      .error (.error "Solana signer index exceeds signature slot count")
    else .ok ourIndex

/-- `wire[slot..slot + 64].copy_from_slice(signature)`. -/
def copySignature (wire signature : List UInt8) (slot : Nat) : Outcome (List UInt8) :=
  if slot + 64 ≤ wire.length ∧ signature.length = 64 then
    .ok (wire.take slot ++ signature ++ wire.drop (slot + 64))
  else .error .panic

/-- The message that is signed and the bytes that are broadcast. -/
def signBlob (host : Host) (wire ourPubkey signature : List UInt8) :
    Outcome (List UInt8 × List UInt8) := do
  let layout ← parseLayout wire
  let message ← sliceFrom wire layout.messageStart
  let ourIndex ← ownSlot host layout message ourPubkey
  let output ← copySignature wire signature (layout.sigsStart + ourIndex * 64)
  .ok (message, output)

/-- The number's last group is zero, though another stands before it. -/
def Padded (bytes : List UInt8) : Prop :=
  (∃ c rest, bytes = c :: 0 :: rest ∧ 128 ≤ c.toNat) ∨
    ∃ c d rest, bytes = c :: d :: 0 :: rest ∧ 128 ≤ c.toNat ∧ 128 ≤ d.toNat

/-- The three spellings that `decode_shortvec` reads. -/
inductive SpellsCount : List UInt8 → Nat → Nat → Prop
  | one (c : UInt8) (rest : List UInt8) (last : c.toNat < 128) :
      SpellsCount (c :: rest) c.toNat 1
  | two (c d : UInt8) (rest : List UInt8) (more : 128 ≤ c.toNat) (last : d.toNat < 128) :
      SpellsCount (c :: d :: rest) (c.toNat - 128 + 128 * d.toNat) 2
  | three (c d e : UInt8) (rest : List UInt8) (more : 128 ≤ c.toNat) (more' : 128 ≤ d.toNat)
      (last : e.toNat < 128)
      (fits : c.toNat - 128 + 128 * (d.toNat - 128) + 16384 * e.toNat < 2 ^ 16) :
      SpellsCount (c :: d :: e :: rest)
        (c.toNat - 128 + 128 * (d.toNat - 128) + 16384 * e.toNat) 3

/-- One group of a count, above the bits that are there already. -/
theorem decodeShortvecAt_cons {index value : Nat} (hindex : index < 3)
    (hvalue : value < 2 ^ (7 * index)) (b : UInt8) (rest : List UInt8) :
    decodeShortvecAt index value (b :: rest) =
      if b.toNat < 128 then
        if value + 2 ^ (7 * index) * b.toNat < 2 ^ 16 then
          .ok (value + 2 ^ (7 * index) * b.toNat, index + 1)
        else .error "shortvec exceeds u16 range"
      else decodeShortvecAt (index + 1) (value + 2 ^ (7 * index) * (b.toNat - 128)) rest := by
  obtain ⟨hhigh, hlow⟩ := bits_of_byte b
  have hor : ∀ group, value ||| group <<< (7 * index) = value + 2 ^ (7 * index) * group := by
    intro group
    rw [Nat.or_comm, ← Nat.shiftLeft_add_eq_or_of_lt hvalue, Nat.shiftLeft_eq]
    ring
  rw [decodeShortvecAt, if_neg (by omega), hlow, hor]
  by_cases hlast : b.toNat < 128
  · simp only [if_pos hlast, if_pos (hhigh.mpr hlast)]
  · simp only [if_neg hlast, if_neg fun h => hlast (hhigh.mp h)]

theorem decodeShortvec_ok_iff {bytes : List UInt8} {n len : Nat} :
    decodeShortvec bytes = .ok (n, len) ↔ SpellsCount bytes n len := by
  rw [decodeShortvec]
  constructor
  · intro h
    match bytes with
    | [] => cases h
    | c :: rest =>
      have hcmax := c.toNat_lt
      rw [decodeShortvecAt_cons (by decide) (by decide)] at h
      split_ifs at h with hc hfits
      · cases h
        simpa using SpellsCount.one c rest hc
      match rest with
      | [] => cases h
      | d :: rest =>
        have hdmax := d.toNat_lt
        rw [decodeShortvecAt_cons (by decide) (by omega)] at h
        split_ifs at h with hd hfits
        · cases h
          simpa using SpellsCount.two c d rest (not_lt.mp hc) hd
        match rest with
        | [] => cases h
        | e :: rest =>
          rw [decodeShortvecAt_cons (by decide) (by omega)] at h
          split_ifs at h with he hfits
          · cases h
            have hspells := SpellsCount.three c d e rest (not_lt.mp hc) (not_lt.mp hd) he
              (by omega)
            simpa using hspells
          match rest with
          | [] => cases h
          | f :: rest => cases h
  · rintro (⟨c, rest, hc⟩ | ⟨c, d, rest, hc, hd⟩ | ⟨c, d, e, rest, hc, hd, he, hfits⟩)
    · rw [decodeShortvecAt_cons (by decide) (by decide), if_pos hc, if_pos (by omega)]
      simp
    · have hcmax := c.toNat_lt
      rw [decodeShortvecAt_cons (by decide) (by decide), if_neg (by omega),
        decodeShortvecAt_cons (by decide) (by omega), if_pos hd, if_pos (by omega)]
      simp
    · have hcmax := c.toNat_lt
      have hdmax := d.toNat_lt
      rw [decodeShortvecAt_cons (by decide) (by decide), if_neg (by omega),
        decodeShortvecAt_cons (by decide) (by omega), if_neg (by omega),
        decodeShortvecAt_cons (by decide) (by omega), if_pos he, if_pos (by omega)]
      simp

theorem decodeShortvec_length {bytes : List UInt8} {n len : Nat}
    (h : decodeShortvec bytes = .ok (n, len)) : len ≤ bytes.length ∧ n < 2 ^ 16 := by
  rcases decodeShortvec_ok_iff.mp h with
    hc | ⟨c, d, rest, hc, hd⟩ | ⟨c, d, e, rest, hc, hd, he, hfits⟩
  · simp
    omega
  · have hcmax := c.toNat_lt
    simp
    omega
  · simp
    omega

/-- A count is in its shortest spelling unless a zero group ends it. -/
theorem shortest_iff {bytes : List UInt8} {n len : Nat} (h : decodeShortvec bytes = .ok (n, len)) :
    bytes.take len = encodeShortvec n ↔ ¬Padded bytes := by
  have hgroups : encodeShortvec n = groups n := encodeShortvec_eq (decodeShortvec_length h).2
  have hback : ∀ b : UInt8, UInt8.ofNat b.toNat = b := fun b => UInt8.ofNat_toNat
  rw [hgroups]
  rcases decodeShortvec_ok_iff.mp h with
    ⟨c, rest, hc⟩ | ⟨c, d, rest, hc, hd⟩ | ⟨c, d, e, rest, hc, hd, he, hfits⟩
  · rw [groups_small hc, hback]
    simp only [List.take_succ_cons, List.take_zero, true_iff]
    rintro (⟨c', rest', heq, hlarge⟩ | ⟨c', d', rest', heq, hlarge, -⟩)
    · cases heq
      omega
    · cases heq
      omega
  · have hcmax := c.toNat_lt
    by_cases hzero : d = 0
    · subst hzero
      have hpadded : Padded (c :: 0 :: rest) := .inl ⟨c, rest, rfl, hc⟩
      have hsmall : c.toNat - 128 + 128 * (0 : UInt8).toNat < 128 := by
        simp
        omega
      rw [groups_small hsmall]
      simp [hpadded]
    · have hpositive : d.toNat ≠ 0 := fun h => hzero (UInt8.toNat_inj.mp h)
      have hfirst : (c.toNat - 128 + 128 * d.toNat) % 128 + 128 = c.toNat := by omega
      have hsecond : (c.toNat - 128 + 128 * d.toNat) / 128 = d.toNat := by omega
      rw [groups_large (by omega), hfirst, hsecond, groups_small hd, hback, hback]
      simp only [List.take_succ_cons, List.take_zero, true_iff]
      rintro (⟨c', rest', heq, -⟩ | ⟨c', d', rest', heq, -, hlarge⟩)
      · cases heq
        exact hzero rfl
      · cases heq
        omega
  · have hcmax := c.toNat_lt
    have hdmax := d.toNat_lt
    by_cases hzero : e = 0
    · subst hzero
      have hpadded : Padded (c :: d :: 0 :: rest) := .inr ⟨c, d, rest, rfl, hc, hd⟩
      have hnext : (c.toNat - 128 + 128 * (d.toNat - 128) + 16384 * (0 : UInt8).toNat) / 128 <
          128 := by
        simp
        omega
      simp only [List.take_succ_cons, List.take_zero, hpadded, not_true, iff_false]
      intro heq
      by_cases hsmall : c.toNat - 128 + 128 * (d.toNat - 128) + 16384 * (0 : UInt8).toNat < 128
      · rw [groups_small hsmall] at heq
        simp at heq
      · rw [groups_large (by omega), groups_small hnext] at heq
        simp at heq
    · have hpositive : e.toNat ≠ 0 := fun h => hzero (UInt8.toNat_inj.mp h)
      generalize htotal : c.toNat - 128 + 128 * (d.toNat - 128) + 16384 * e.toNat = total
      have hfirst : total % 128 + 128 = c.toNat := by omega
      have hsecond : total / 128 % 128 + 128 = d.toNat := by omega
      have hthird : total / 128 / 128 = e.toNat := by omega
      rw [groups_large (by omega), hfirst, groups_large (by omega), hsecond, hthird,
        groups_small he, hback, hback, hback]
      simp only [List.take_succ_cons, List.take_zero, true_iff]
      rintro (⟨c', rest', heq, -⟩ | ⟨c', d', rest', heq, -, -⟩)
      · cases heq
        exact absurd hd (by decide)
      · cases heq
        exact hzero rfl

/-- A transaction as its wire format divides it. `keys` begins with the account
keys and goes on to the end. -/
structure Blob where
  signatureCount : Nat
  countBytes : List UInt8
  slots : List UInt8
  /-- The version byte, if there is one, and the three bytes of the header. -/
  front : List UInt8
  accountCount : Nat
  accountBytes : List UInt8
  keys : List UInt8

namespace Blob

def message (b : Blob) : List UInt8 := b.front ++ (b.accountBytes ++ b.keys)

def bytes (b : Blob) : List UInt8 := b.countBytes ++ (b.slots ++ b.message)

def key (b : Blob) (i : Nat) : List UInt8 := (b.keys.drop (i * 32)).take 32

/-- How many signatures the header requires. -/
def required (b : Blob) : Nat := (b.front.getD (b.front.length - 3) 0).toNat

structure Divides (b : Blob) (wire : List UInt8) : Prop where
  whole : wire = b.bytes
  count : decodeShortvec wire = .ok (b.signatureCount, b.countBytes.length)
  slots : b.slots.length = b.signatureCount * 64
  front : b.front.length = if isVersioned (b.front.headD 0) then 4 else 3
  accounts : decodeShortvec (b.accountBytes ++ b.keys) = .ok (b.accountCount, b.accountBytes.length)
  keys : min b.required b.accountCount * 32 ≤ b.keys.length

def layout (b : Blob) : Layout where
  sigsStart := b.countBytes.length
  numSignatures := b.signatureCount
  messageStart := b.countBytes.length + b.signatureCount * 64
  keysStart := b.front.length + b.accountBytes.length
  signerKeys := min b.required b.accountCount

/-- Both counts are in the compact form that the runtime reads. -/
def Canonical (b : Blob) : Prop :=
  b.countBytes = encodeShortvec b.signatureCount ∧ b.accountBytes = encodeShortvec b.accountCount

/-- The signature stands in slot `i`, the first required signer's with the
wallet's key, and the rest is as it was. -/
structure Signed (b : Blob) (i : Nat) (ourPubkey signature message output : List UInt8) : Prop where
  message : message = b.message
  required : i < b.required ∧ i < b.accountCount
  own : b.key i = ourPubkey
  first : ∀ j < i, b.key j ≠ ourPubkey
  inside : i < b.signatureCount
  spliced : output = b.countBytes ++
    ((b.slots.take (i * 64) ++ signature ++ b.slots.drop (i * 64 + 64)) ++ b.message)
  length : output.length = b.bytes.length

end Blob

/-- Where the account count of a blob begins. -/
def fromAccountCount (wire : List UInt8) : List UInt8 :=
  match decodeShortvec wire with
  | .ok (numSignatures, sigsStart) =>
    let message := wire.drop (sigsStart + numSignatures * 64)
    message.drop (if isVersioned (message.headD 0) then 4 else 3)
  | .error _ => []

/-- Neither count is padded with a zero group. -/
def MinimalCounts (wire : List UInt8) : Prop := ¬Padded wire ∧ ¬Padded (fromAccountCount wire)

theorem Blob.Divides.canonical_iff {b : Blob} {wire : List UInt8} (h : b.Divides wire) :
    b.Canonical ↔ MinimalCounts wire := by
  have hstart : wire.take b.countBytes.length = b.countBytes := by
    rw [h.whole, Blob.bytes, List.take_left]
  have hcount := shortest_iff h.count
  have haccounts := shortest_iff h.accounts
  have hfrom : fromAccountCount wire = b.accountBytes ++ b.keys := by
    have hmessage : wire.drop (b.countBytes.length + b.signatureCount * 64) = b.message := by
      rw [← h.slots, ← List.length_append, h.whole, Blob.bytes, ← List.append_assoc, List.drop_left]
    have hhead : b.message.headD 0 = b.front.headD 0 := by
      have hfront := h.front
      rw [Blob.message]
      cases hcases : b.front with
      | nil =>
        rw [hcases] at hfront
        split_ifs at hfront
      | cons first rest => rfl
    simp only [fromAccountCount, h.count, hmessage, hhead, ← h.front]
    rw [Blob.message, List.drop_left]
  rw [hstart] at hcount
  rw [List.take_left] at haccounts
  rw [Blob.Canonical, MinimalCounts, hfrom, hcount, haccounts]

theorem sliceFrom_ok {bytes : List UInt8} {start : Nat} (h : start ≤ bytes.length) :
    sliceFrom bytes start = .ok (bytes.drop start) := by
  rw [sliceFrom, if_pos h]

theorem slice_ok {bytes : List UInt8} {start : Nat} (h : start + 32 ≤ bytes.length) :
    slice bytes start (start + 32) = .ok ((bytes.drop start).take 32) := by
  rw [slice, if_pos ⟨by omega, h⟩, Nat.add_sub_cancel_left]

theorem index_ok {bytes : List UInt8} {pos : Nat} (h : pos < bytes.length) :
    index bytes pos = .ok (bytes.getD pos 0) := by
  rw [index, List.getElem?_eq_getElem h, List.getD_eq_getElem?_getD, List.getElem?_eq_getElem h]
  rfl

/-- The parser is the one with every slice in range. -/
theorem parseLayout_eq (wire : List UInt8) :
    parseLayout wire = orError (Solana.parseLayout wire) := by
  rw [parseLayout, Solana.parseLayout]
  cases hcount : decodeShortvec wire with
  | error e => rfl
  | ok counted =>
    obtain ⟨numSignatures, sigsStart⟩ := counted
    simp only [orError, Except.mapError, bind, Except.bind]
    by_cases hlong : wire.length < sigsStart + numSignatures * 64
    · rw [if_pos hlong, if_pos hlong]
    rw [if_neg hlong, if_neg hlong, sliceFrom_ok (not_lt.mp hlong)]
    dsimp only
    cases hmessage : wire.drop (sigsStart + numSignatures * 64) with
    | nil => rfl
    | cons first rest =>
      have hversion : (if first.toNat &&& 0x80 ≠ 0 then 1 else 0) =
          if isVersioned first then 1 else 0 := by
        simp [isVersioned]
      simp only [hversion]
      generalize (if isVersioned first then 1 else 0) = headerOff
      by_cases hshort : (first :: rest).length < headerOff + 3
      · rw [if_pos hshort, if_pos hshort]
      rw [if_neg hshort, if_neg hshort, index_ok (by omega), sliceFrom_ok (by omega)]
      dsimp only
      by_cases hzero : ((first :: rest).getD headerOff 0).toNat = 0
      · rw [if_pos hzero, if_pos hzero]
      rw [if_neg hzero, if_neg hzero]
      cases haccounts : decodeShortvec ((first :: rest).drop (headerOff + 3)) with
      | error e => rfl
      | ok counted =>
        dsimp only
        split_ifs <;> rfl

/-- What the layout says about the blob. -/
theorem divides_of_parseLayout {wire : List UInt8} {layout : Layout}
    (h : Solana.parseLayout wire = .ok layout) :
    ∃ b : Blob, b.Divides wire ∧ layout = b.layout := by
  rw [Solana.parseLayout] at h
  obtain ⟨⟨numSignatures, sigsStart⟩, hcount, h⟩ := bind_ok_iff.mp h
  dsimp only at h
  by_cases hlong : wire.length < sigsStart + numSignatures * 64
  · rw [if_pos hlong] at h
    cases h
  rw [if_neg hlong] at h
  cases hmessage : wire.drop (sigsStart + numSignatures * 64) with
  | nil =>
    rw [hmessage] at h
    cases h
  | cons first rest =>
    rw [hmessage] at h
    dsimp only at h
    have hversion : (if first.toNat &&& 0x80 ≠ 0 then 1 else 0) =
        if isVersioned first then 1 else 0 := by
      simp [isVersioned]
    simp only [hversion] at h
    generalize hoff : (if isVersioned first then 1 else 0) = headerOff at h
    by_cases hshort : (first :: rest).length < headerOff + 3
    · rw [if_pos hshort] at h
      cases h
    rw [if_neg hshort] at h
    by_cases hzero : ((first :: rest).getD headerOff 0).toNat = 0
    · rw [if_pos hzero] at h
      cases h
    rw [if_neg hzero] at h
    obtain ⟨⟨accountCount, countLen⟩, haccounts, h⟩ := bind_ok_iff.mp h
    dsimp only at h
    split_ifs at h with hkeys
    obtain rfl := Except.ok.inj h
    -- the parts lie one behind the other
    have hsigs := (decodeShortvec_length hcount).1
    have hlen := (decodeShortvec_length haccounts).1
    rw [List.length_drop] at hlen
    have hfront : ((first :: rest).take (headerOff + 3)).length = headerOff + 3 := by
      rw [List.length_take]
      omega
    have hcounted : (((first :: rest).drop (headerOff + 3)).take countLen).length = countLen := by
      rw [List.length_take, List.length_drop]
      omega
    have hslots : ((wire.drop sigsStart).take (numSignatures * 64)).length =
        numSignatures * 64 := by
      rw [List.length_take, List.length_drop]
      omega
    have hstart : (wire.take sigsStart).length = sigsStart := by
      rw [List.length_take]
      omega
    have hfirst : (((first :: rest).take (headerOff + 3)).getD headerOff 0) =
        (first :: rest).getD headerOff 0 := by
      simp only [List.getD_eq_getElem?_getD, List.getElem?_take]
      rw [if_pos (by omega)]
    let b : Blob :=
      { signatureCount := numSignatures
        countBytes := wire.take sigsStart
        slots := (wire.drop sigsStart).take (numSignatures * 64)
        front := (first :: rest).take (headerOff + 3)
        accountCount := accountCount
        accountBytes := ((first :: rest).drop (headerOff + 3)).take countLen
        keys := ((first :: rest).drop (headerOff + 3)).drop countLen }
    have hrequired : b.required = ((first :: rest).getD headerOff 0).toNat := by
      rw [Blob.required, hfront, Nat.add_sub_cancel, hfirst]
    have hmessageOf : b.message = first :: rest := by
      rw [Blob.message, List.take_append_drop, List.take_append_drop]
    refine ⟨b, ⟨?_, ?_, hslots, ?_, ?_, ?_⟩, ?_⟩
    · rw [Blob.bytes, hmessageOf, ← hmessage, ← List.drop_drop, List.take_append_drop,
        List.take_append_drop]
    · rw [hcount, hstart]
    · rw [hfront, ← hoff]
      show (if isVersioned first then 1 else 0) + 3 = if isVersioned first then 4 else 3
      split_ifs <;> rfl
    · rw [hcounted, List.take_append_drop, haccounts]
    · show min b.required accountCount * 32 ≤
        (((first :: rest).drop (headerOff + 3)).drop countLen).length
      rw [hrequired, List.length_drop, List.length_drop]
      omega
    · rw [Blob.layout, hrequired, hstart, hfront, hcounted]

/-- Slices that lie in the message find the first key that is the wallet's. -/
theorem findKey_eq {message ourPubkey : List UInt8} {keysStart : Nat} {indices : List Nat}
    (h : ∀ i ∈ indices, keysStart + i * 32 + 32 ≤ message.length) :
    findKey message ourPubkey keysStart indices = .ok (indices.find? fun i =>
      (message.drop (keysStart + i * 32)).take 32 = ourPubkey) := by
  induction indices with
  | nil => rfl
  | cons i rest ih =>
    rw [findKey, slice_ok (h i List.mem_cons_self), List.find?_cons]
    simp only [bind, Except.bind]
    by_cases hkey : (message.drop (keysStart + i * 32)).take 32 = ourPubkey
    · simp [hkey]
    · simp only [hkey, if_false, decide_false]
      exact ih fun j hj => h j (List.mem_cons_of_mem _ hj)

theorem ownSlot_eq (host : Host) {layout : Layout} {wire : List UInt8} (ourPubkey : List UInt8)
    (h : layout.keysStart + layout.signerKeys * 32 ≤ (wire.drop layout.messageStart).length) :
    ownSlot host layout (wire.drop layout.messageStart) ourPubkey =
      orError (Solana.ownSlot host layout wire ourPubkey) := by
  have hall : ∀ i ∈ List.range layout.signerKeys,
      layout.keysStart + i * 32 + 32 ≤ (wire.drop layout.messageStart).length := by
    intro i hi
    have hlt := List.mem_range.mp hi
    omega
  rw [ownSlot, findKey_eq hall, Solana.ownSlot]
  simp only [bind, Except.bind]
  cases (List.range layout.signerKeys).find? fun i =>
      ((wire.drop layout.messageStart).drop (layout.keysStart + i * 32)).take 32 = ourPubkey with
  | none => rfl
  | some i =>
    dsimp only
    split_ifs <;> rfl

section parts

variable {b : Blob} {wire : List UInt8} (h : b.Divides wire)
include h

theorem Blob.Divides.length :
    wire.length = b.countBytes.length + (b.signatureCount * 64 + b.message.length) := by
  rw [h.whole, Blob.bytes, List.length_append, List.length_append, h.slots]

theorem Blob.Divides.drop_message : wire.drop b.layout.messageStart = b.message := by
  rw [Blob.layout, ← h.slots, ← List.length_append, h.whole, Blob.bytes, ← List.append_assoc,
    List.drop_left]

theorem Blob.Divides.keys_fit :
    b.layout.keysStart + b.layout.signerKeys * 32 ≤ (wire.drop b.layout.messageStart).length := by
  have hkeys := h.keys
  rw [h.drop_message, Blob.message, List.length_append, List.length_append, Blob.layout]
  dsimp only
  omega

/-- The wallet's slot is the first required signer's with its key. -/
theorem Blob.Divides.slot_of_ownSlot {host : Host} {ourPubkey : List UInt8} {i : Nat}
    (found : Solana.ownSlot host b.layout wire ourPubkey = .ok i) :
    (i < b.required ∧ i < b.accountCount) ∧ b.key i = ourPubkey ∧
      (∀ j < i, b.key j ≠ ourPubkey) ∧ i < b.signatureCount := by
  have hkey : ∀ i, (b.message.drop (b.layout.keysStart + i * 32)).take 32 = b.key i := by
    intro i
    rw [Blob.key, Blob.message, Blob.layout, ← List.append_assoc, ← List.drop_drop,
      ← List.length_append, List.drop_left]
  simp only [Solana.ownSlot, h.drop_message, hkey] at found
  cases hfind : (List.range b.layout.signerKeys).find? fun i => b.key i = ourPubkey with
  | none =>
    rw [hfind] at found
    cases found
  | some j =>
    rw [hfind] at found
    dsimp only at found
    split_ifs at found with hinside
    obtain rfl := Except.ok.inj found
    have hrange := List.mem_range.mp (List.mem_of_find?_eq_some hfind)
    have hbefore := List.find?_range_eq_some.mp hfind
    refine ⟨?_, by simpa using List.find?_some hfind, ?_, not_le.mp hinside⟩
    · rw [Blob.layout] at hrange
      exact lt_min_iff.mp hrange
    · intro k hk
      simpa using hbefore.2.2 k hk

/-- A signature that is copied into a slot of the blob. -/
theorem Blob.Divides.copy {signature : List UInt8} (hsignature : signature.length = 64) {i : Nat}
    (inside : i < b.signatureCount) :
    copySignature wire signature (b.layout.sigsStart + i * 64) =
        .ok (splice wire signature (b.layout.sigsStart + i * 64)) ∧
      splice wire signature (b.layout.sigsStart + i * 64) = b.countBytes ++
        ((b.slots.take (i * 64) ++ signature ++ b.slots.drop (i * 64 + 64)) ++ b.message) := by
  have hslots := h.slots
  have hlength := h.length
  have htake : wire.take (b.countBytes.length + i * 64) =
      b.countBytes ++ b.slots.take (i * 64) := by
    rw [h.whole, Blob.bytes, List.take_length_add_append,
      List.take_append_of_le_length (by omega)]
  have hdrop : wire.drop (b.countBytes.length + i * 64 + 64) =
      b.slots.drop (i * 64 + 64) ++ b.message := by
    rw [h.whole, Blob.bytes, Nat.add_assoc, List.drop_length_add_append,
      List.drop_append_of_le_length (by omega)]
  simp only [Blob.layout]
  constructor
  · rw [copySignature, if_pos ⟨by omega, hsignature⟩, splice, hsignature]
  · rw [splice, hsignature, htake, hdrop]
    simp only [List.append_assoc]

end parts

/-- The code is the one with every slice in range. -/
theorem signBlob_eq (host : Host) (wire ourPubkey : List UInt8) {signature : List UInt8}
    (hsignature : signature.length = 64) :
    signBlob host wire ourPubkey signature = orError (do
      let layout ← Solana.parseLayout wire
      let ourIndex ← Solana.ownSlot host layout wire ourPubkey
      .ok (wire.drop layout.messageStart,
        splice wire signature (layout.sigsStart + ourIndex * 64))) := by
  rw [signBlob, parseLayout_eq]
  cases hlayout : Solana.parseLayout wire with
  | error e => rfl
  | ok layout =>
    obtain ⟨b, hdivides, rfl⟩ := divides_of_parseLayout hlayout
    have hmessage : sliceFrom wire b.layout.messageStart =
        .ok (wire.drop b.layout.messageStart) := by
      have hlength := hdivides.length
      refine sliceFrom_ok ?_
      rw [Blob.layout]
      dsimp only
      omega
    have hown := ownSlot_eq host ourPubkey hdivides.keys_fit
    simp only [orError, Except.mapError, bind, Except.bind, hmessage, hown]
    cases hslot : Solana.ownSlot host b.layout wire ourPubkey with
    | error e => rfl
    | ok i =>
      have hinside := (hdivides.slot_of_ownSlot hslot).2.2.2
      simp only [(hdivides.copy hsignature hinside).1]

theorem signBlob_ne_panic (host : Host) (wire ourPubkey : List UInt8) {signature : List UInt8}
    (hsignature : signature.length = 64) :
    signBlob host wire ourPubkey signature ≠ .error .panic := by
  rw [signBlob_eq host wire ourPubkey hsignature]
  generalize (do
    let layout ← Solana.parseLayout wire
    let ourIndex ← Solana.ownSlot host layout wire ourPubkey
    .ok (wire.drop layout.messageStart, splice wire signature (layout.sigsStart + ourIndex * 64)) :
      Except String (List UInt8 × List UInt8)) = result
  cases result with
  | error e => nofun
  | ok out => nofun

/-- A signed blob: its parts, and the slot of the wallet's key. -/
theorem signed_of_signBlob {host : Host} {wire ourPubkey signature message output : List UInt8}
    (hsignature : signature.length = 64)
    (h : signBlob host wire ourPubkey signature = .ok (message, output)) :
    ∃ b i, Blob.Divides b wire ∧ Blob.Signed b i ourPubkey signature message output := by
  rw [signBlob_eq host wire ourPubkey hsignature] at h
  obtain ⟨layout, hlayout, h⟩ := bind_ok_iff.mp (mapError_ok h)
  obtain ⟨i, hslot, h⟩ := bind_ok_iff.mp h
  cases h
  obtain ⟨b, hdivides, rfl⟩ := divides_of_parseLayout hlayout
  obtain ⟨hrequired, hown, hfirst, hinside⟩ := hdivides.slot_of_ownSlot hslot
  have hspliced := (hdivides.copy hsignature hinside).2
  have hslots := hdivides.slots
  refine ⟨b, i, hdivides, hdivides.drop_message, hrequired, hown, hfirst, hinside, hspliced, ?_⟩
  rw [hspliced, Blob.bytes]
  simp only [List.length_append, List.length_take, List.length_drop]
  omega

theorem blobBytes_hexLower (host : Host) (bytes : List UInt8) :
    blobBytes host (hexLower bytes) = .ok bytes := by
  delta blobBytes
  simp only [trim_hexLower, strip_hexLower, Option.getD_none, hexDecode_hexLower]

theorem check_run {α : Type} {x : Except String α} {a : α}
    {history : List (Event Request Request.Answer)}
    (run : Trace (check id x : Op α) history (.pure a)) : history = [] ∧ x = .ok a := by
  obtain ⟨rfl, h⟩ := trace_lift run
  exact ⟨rfl, mapError_ok h⟩

theorem signerPubkey_run {host : Host} {ourPubkey : List UInt8}
    {history : List (Event Request Request.Answer)}
    (run : Trace (signerPubkey host) history (.pure ourPubkey)) :
    ∃ account : DerivedAccount, history = [⟨.derive .solana, .ok account⟩] ∧
      b58ToPubkey host account.address = .ok ourPubkey := by
  obtain ⟨account, _, _, rfl, asked, decoded⟩ := trace_bind run
  obtain ⟨answer, rfl, hanswer⟩ := trace_ask asked
  obtain ⟨rfl, hpubkey⟩ := check_run decoded
  obtain rfl := mapError_ok hanswer
  exact ⟨account, rfl, hpubkey⟩

theorem solanaSign_run {message signature : List UInt8}
    {history : List (Event Request Request.Answer)}
    (run : Trace (solanaSign message) history (.pure signature)) :
    ∃ signatureHex, history =
        [⟨.signMessage .solana message .ed25519, .ok (.ed25519 signatureHex)⟩] ∧
      hexToBytes signatureHex = .ok signature ∧ signature.length = 64 := by
  obtain ⟨signed, _, _, rfl, asked, decoded⟩ := trace_bind run
  obtain ⟨answer, rfl, hanswer⟩ := trace_ask asked
  obtain rfl := mapError_ok hanswer
  cases signed with
  | secp256k1 => cases decoded
  | ed25519 signatureHex =>
    obtain ⟨bytes, _, _, rfl, checked, finished⟩ := trace_bind decoded
    obtain ⟨rfl, hbytes⟩ := check_run checked
    split_ifs at finished with hlength
    · obtain ⟨rfl, rfl⟩ := trace_pure finished
      exact ⟨signatureHex, rfl, hbytes, hlength⟩
    · cases finished

theorem broadcastSolana_run {host : Host} {signed : List UInt8} {txSig : String}
    {history : List (Event Request Request.Answer)}
    (run : Trace (broadcastSolana host signed) history (.pure txSig)) :
    ∃ params value, params.head? = some (.string (host.base64Encode signed)) ∧
      history = [⟨.jsonRpc (networkId .solana none) "sendTransaction" (.array params),
        .ok value⟩] := by
  obtain ⟨answer, rfl, hanswer⟩ := trace_ask run
  cases answer with
  | error e => cases hanswer
  | ok value => exact ⟨_, value, rfl, rfl⟩

/-- A run that ends has signed the blob's message, and has broadcast the blob
with the signature in it. -/
theorem finished_run {host : Host} {txBlobHex : String} {result : Evm.RawBroadcastResult}
    {history : List (Event Request Request.Answer)}
    (run : Trace (signAndBroadcastVersioned host txBlobHex) history (.pure result)) :
    ∃ wire account ourPubkey signatureHex signature message output params value,
      blobBytes host txBlobHex = .ok wire ∧
      b58ToPubkey host account.address = .ok ourPubkey ∧
      hexToBytes signatureHex = .ok signature ∧ signature.length = 64 ∧
      signBlob host wire ourPubkey signature = .ok (message, output) ∧
      params.head? = some (.string (host.base64Encode output)) ∧
      history =
        [⟨.derive .solana, .ok account⟩,
          ⟨.signMessage .solana message .ed25519, .ok (.ed25519 signatureHex)⟩,
          ⟨.jsonRpc (networkId .solana none) "sendTransaction" (.array params), .ok value⟩] := by
  obtain ⟨wire, _, _, rfl, checked, unread⟩ := trace_bind run
  obtain ⟨rfl, hwire⟩ := check_run checked
  obtain ⟨layout, _, _, rfl, parsed, unowned⟩ := trace_bind unread
  obtain ⟨rfl, hlayout⟩ := check_run parsed
  obtain ⟨ourPubkey, _, _, rfl, derived, unplaced⟩ := trace_bind unowned
  obtain ⟨account, rfl, hpubkey⟩ := signerPubkey_run derived
  obtain ⟨i, _, _, rfl, found, unsigned⟩ := trace_bind unplaced
  obtain ⟨rfl, hslot⟩ := check_run found
  obtain ⟨signature, _, _, rfl, signed, unsent⟩ := trace_bind unsigned
  obtain ⟨signatureHex, rfl, hsignature, hlength⟩ := solanaSign_run signed
  obtain ⟨txSig, _, _, rfl, sent, finished⟩ := trace_bind unsent
  obtain ⟨params, value, hparams, rfl⟩ := broadcastSolana_run sent
  obtain ⟨rfl, -⟩ := trace_pure finished
  refine ⟨wire, account, ourPubkey, signatureHex, signature, wire.drop layout.messageStart,
    splice wire signature (layout.sigsStart + i * 64), params, value, hwire, hpubkey, hsignature,
    hlength, ?_, hparams, rfl⟩
  rw [signBlob_eq host wire ourPubkey hlength]
  simp only [bind, Except.bind, hlayout, hslot]
  rfl

/-- Signing a blob touches the wallet's own slot and nothing else, and no slice
panics; the counts are in compact form exactly if the blob's counts are. -/
theorem signs_own_slot_only_iff (host : Host) :
    (∀ wire ourPubkey signature : List UInt8, signature.length = 64 →
      signBlob host wire ourPubkey signature ≠ .error .panic ∧
        ∀ message output, signBlob host wire ourPubkey signature = .ok (message, output) →
          (∃ b i, Blob.Divides b wire ∧ Blob.Signed b i ourPubkey signature message output) ∧
          ((∃ b i, Blob.Divides b wire ∧ Blob.Signed b i ourPubkey signature message output ∧
            b.Canonical) ↔ MinimalCounts wire)) ∧
    ∀ txBlobHex result history,
      Trace (signAndBroadcastVersioned host txBlobHex) history (.pure result) →
        ∃ wire account ourPubkey signatureHex signature message output params value,
          blobBytes host txBlobHex = .ok wire ∧
          b58ToPubkey host account.address = .ok ourPubkey ∧
          hexToBytes signatureHex = .ok signature ∧ signature.length = 64 ∧
          signBlob host wire ourPubkey signature = .ok (message, output) ∧
          params.head? = some (.string (host.base64Encode output)) ∧
          history =
            [⟨.derive .solana, .ok account⟩,
              ⟨.signMessage .solana message .ed25519, .ok (.ed25519 signatureHex)⟩,
              ⟨.jsonRpc (networkId .solana none) "sendTransaction" (.array params),
                .ok value⟩] := by
  constructor
  · intro wire ourPubkey signature hsignature
    refine ⟨signBlob_ne_panic host wire ourPubkey hsignature, fun message output hsigned => ?_⟩
    obtain ⟨b, i, hdivides, hown⟩ := signed_of_signBlob hsignature hsigned
    refine ⟨⟨b, i, hdivides, hown⟩, ?_⟩
    constructor
    · rintro ⟨b', i', hdivides', -, hcanonical⟩
      exact hdivides'.canonical_iff.mp hcanonical
    · intro hminimal
      exact ⟨b, i, hdivides, hown, hdivides.canonical_iff.mpr hminimal⟩
  · intro txBlobHex result history run
    exact finished_run run

/-- A blob with one signature and one account key, its signature count spelled
as `count` does. -/
def sampleBlob (count : List UInt8) : List UInt8 :=
  count ++ (List.replicate 64 0 ++ ([1, 0, 0] ++ ([1] ++ List.replicate 32 1)))

def sampleAccount : DerivedAccount where
  address := "4vJ9JU1bJJE96FWSJKvHsmmFADCg4gpZQff4P3bkLKi"
  publicKey := ""

def sampleSignature : String := String.ofList (List.replicate 128 '7')

/-- The host answers with the sample's account, signature and transaction id. -/
def sampleAnswer : (e : Request) → Option e.Answer
  | .derive _ => some (.ok sampleAccount)
  | .signMessage .. => some (.ok (.ed25519 sampleSignature))
  | .jsonRpc .. => some (.ok (.string "sent"))
  | _ => none

theorem sample_not_padded : MinimalCounts (sampleBlob [1]) := by
  constructor
  · rintro (⟨c, rest, heq, hlarge⟩ | ⟨c, d, rest, heq, hlarge, -⟩)
    · cases heq
      exact absurd hlarge (by decide)
    · cases heq
      exact absurd hlarge (by decide)
  · have hfrom : fromAccountCount (sampleBlob [1]) = 1 :: List.replicate 32 1 := by
      rfl
    rw [hfrom]
    rintro (⟨c, rest, heq, hlarge⟩ | ⟨c, d, rest, heq, hlarge, -⟩)
    · cases heq
    · cases heq

theorem ok_of_isOk {α : Type} {x : Outcome α} (h : x.isOk = true) : ∃ a, x = .ok a := by
  cases x with
  | error e => cases h
  | ok a => exact ⟨a, rfl⟩

theorem sample_blob_signed :
    (∃ message output b i,
      signBlob SolanaMessages.sampleHost (sampleBlob [1]) (List.replicate 32 1)
        (List.replicate 64 7) = .ok (message, output) ∧
      Blob.Divides b (sampleBlob [1]) ∧
      Blob.Signed b i (List.replicate 32 1) (List.replicate 64 7) message output ∧
      b.Canonical) ∧
    ∃ history result, Trace (signAndBroadcastVersioned SolanaMessages.sampleHost
        (hexLower (sampleBlob [1]))) history (.pure result) ∧ history.length = 3 := by
  constructor
  · obtain ⟨⟨message, output⟩, hsigned⟩ := ok_of_isOk (show (signBlob SolanaMessages.sampleHost
      (sampleBlob [1]) (List.replicate 32 1) (List.replicate 64 7)).isOk = true by decide +kernel)
    obtain ⟨b, i, hdivides, hown, hcanonical⟩ :=
      (((signs_own_slot_only_iff SolanaMessages.sampleHost).1 (sampleBlob [1])
        (List.replicate 32 1) (List.replicate 64 7) (by decide)).2 message output
          hsigned).2.mpr sample_not_padded
    exact ⟨message, output, b, i, hsigned, hdivides, hown, hcanonical⟩
  · have hends : (outcome sampleAnswer 3 (signAndBroadcastVersioned SolanaMessages.sampleHost
        (hexLower (sampleBlob [1])))).isSome = true := by
      simp only [signAndBroadcastVersioned, blobBytes_hexLower]
      decide +kernel
    obtain ⟨⟨history, result⟩, hran⟩ := Option.isSome_iff_exists.mp hends
    have run := outcome_trace hran
    obtain ⟨-, account, -, signatureHex, -, message, -, params, value, -, -, -, -, -, -, heq⟩ :=
      (signs_own_slot_only_iff SolanaMessages.sampleHost).2 _ result history run
    exact ⟨history, result, run, heq ▸ rfl⟩

/-- `81 00` is read as one signature, and signed. -/
theorem padded_blob_signed :
    ∃ message output,
      signBlob SolanaMessages.sampleHost (sampleBlob [0x81, 0]) (List.replicate 32 1)
        (List.replicate 64 7) = .ok (message, output) ∧
      decodeShortvec (sampleBlob [0x81, 0]) = .ok (1, 2) ∧
      (sampleBlob [0x81, 0]).take 2 ≠ encodeShortvec 1 ∧
      ¬∃ b i, Blob.Divides b (sampleBlob [0x81, 0]) ∧
        Blob.Signed b i (List.replicate 32 1) (List.replicate 64 7) message output ∧
        b.Canonical := by
  obtain ⟨⟨message, output⟩, hsigned⟩ := ok_of_isOk (show (signBlob SolanaMessages.sampleHost
    (sampleBlob [0x81, 0]) (List.replicate 32 1) (List.replicate 64 7)).isOk = true by
      decide +kernel)
  refine ⟨message, output, hsigned, by rfl, by decide +kernel, ?_⟩
  rintro ⟨b, i, hdivides, -, hcanonical⟩
  have hminimal := hdivides.canonical_iff.mp hcanonical
  exact hminimal.1 (.inl ⟨0x81, _, rfl, by decide⟩)

end SolanaVersioned

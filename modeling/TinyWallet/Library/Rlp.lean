import Mathlib

/-!
# Recursive length encoding

A reference reader for the format: a byte string, or a list of encoded items,
behind a header that gives its length. The reader is strict. A byte below 128
stands for itself and has no other form, a length of at most 55 has no long
header, and neither a long length nor an integer starts with a zero byte.
-/

namespace Rlp

/-- The low `width` bytes of a number, most significant first. -/
def toBe : Nat → Nat → List UInt8
  | 0, _ => []
  | width + 1, n => toBe width (n / 256) ++ [UInt8.ofNat n]

/-- The number that bytes spell, most significant first. -/
def fromBe (bytes : List UInt8) : Nat := Nat.ofDigits 256 (bytes.map UInt8.toNat).reverse

/-- The bytes from the first one on that is not zero. -/
def significant (bytes : List UInt8) : List UInt8 := bytes.dropWhile (· = 0)

@[simp] theorem length_toBe (width n : Nat) : (toBe width n).length = width := by
  induction width generalizing n with
  | zero => rfl
  | succ width ih => simp [toBe, ih]

theorem fromBe_append (xs ys : List UInt8) :
    fromBe (xs ++ ys) = 256 ^ ys.length * fromBe xs + fromBe ys := by
  simp only [fromBe, List.map_append, List.reverse_append, Nat.ofDigits_append,
    List.length_reverse, List.length_map]
  omega

theorem fromBe_cons (b : UInt8) (bytes : List UInt8) :
    fromBe (b :: bytes) = 256 ^ bytes.length * b.toNat + fromBe bytes := by
  have hsplit := fromBe_append [b] bytes
  have hone : fromBe [b] = b.toNat := by simp [fromBe]
  rw [hone] at hsplit
  exact hsplit

theorem fromBe_lt (bytes : List UInt8) : fromBe bytes < 256 ^ bytes.length := by
  have hdigits : ∀ d ∈ (bytes.map UInt8.toNat).reverse, d < 256 := by
    intro d hd
    obtain ⟨b, -, rfl⟩ := List.mem_map.mp (List.mem_reverse.mp hd)
    exact b.toNat_lt
  have hlt := Nat.ofDigits_lt_base_pow_length (by decide) hdigits
  rwa [List.length_reverse, List.length_map] at hlt

theorem fromBe_toBe (width n : Nat) : fromBe (toBe width n) = n % 256 ^ width := by
  induction width generalizing n with
  | zero => simp [toBe, fromBe, Nat.mod_one]
  | succ width ih =>
    have hlast : fromBe [UInt8.ofNat n] = n % 256 := by simp [fromBe]
    rw [toBe, fromBe_append, ih, hlast, List.length_singleton, pow_one, Nat.pow_succ,
      Nat.mul_comm (256 ^ width) 256, Nat.mod_mul]
    omega

theorem toBe_fromBe (bytes : List UInt8) : toBe bytes.length (fromBe bytes) = bytes := by
  induction bytes using List.reverseRecOn with
  | nil => rfl
  | append_singleton bytes b ih =>
    have hlast : fromBe [b] = b.toNat := by simp [fromBe]
    have hbound := b.toNat_lt
    have hhigh : (256 * fromBe bytes + b.toNat) / 256 = fromBe bytes := by omega
    have hlow : UInt8.ofNat (256 * fromBe bytes + b.toNat) = b := by
      apply UInt8.toNat_inj.mp
      rw [UInt8.toNat_ofNat']
      omega
    rw [List.length_append, List.length_singleton, fromBe_append, hlast, List.length_singleton,
      pow_one, toBe, hhigh, ih, hlow]

/-- A number that fits a shorter width is padded with zeros. -/
theorem toBe_pad (pad width : Nat) {n : Nat} (h : n < 256 ^ width) :
    toBe (pad + width) n = List.replicate pad 0 ++ toBe width n := by
  induction width generalizing n with
  | zero =>
    obtain rfl : n = 0 := by simpa using h
    have hzero : ∀ pad, toBe pad 0 = List.replicate pad 0 := by
      intro pad
      induction pad with
      | zero => rfl
      | succ pad ih => rw [toBe, Nat.zero_div, ih, List.replicate_succ']; rfl
    rw [Nat.add_zero, hzero, toBe, List.append_nil]
  | succ width ih =>
    have hhigh : n / 256 < 256 ^ width := by
      rw [Nat.pow_succ] at h
      exact Nat.div_lt_of_lt_mul (by omega)
    rw [← Nat.add_assoc, toBe, ih hhigh, toBe, List.append_assoc]

theorem fromBe_significant (bytes : List UInt8) : fromBe (significant bytes) = fromBe bytes := by
  induction bytes with
  | nil => rfl
  | cons b bytes ih =>
    rw [significant, List.dropWhile_cons]
    by_cases hzero : b = 0
    · subst hzero
      rw [if_pos (by simp), fromBe_cons]
      simpa [significant] using ih
    · rw [if_neg (by simpa using hzero)]

theorem significant_length_le (bytes : List UInt8) :
    (significant bytes).length ≤ bytes.length := List.length_dropWhile_le _ _

theorem head_significant_ne_zero (bytes : List UInt8) :
    (significant bytes).head? ≠ some 0 := by
  intro hzero
  have hnot := List.head?_dropWhile_not (fun b : UInt8 => decide (b = 0)) bytes
  rw [significant] at hzero
  rw [hzero] at hnot
  simp at hnot

/-- An integer, with no zero byte at its front. -/
def readUint (bytes : List UInt8) : Option Nat :=
  if bytes.head? = some 0 then none else some (fromBe bytes)

@[simp] theorem readUint_significant (bytes : List UInt8) :
    readUint (significant bytes) = some (fromBe bytes) := by
  rw [readUint, if_neg (head_significant_ne_zero bytes), fromBe_significant]

inductive Item where
  | text (bytes : List UInt8)
  | list (payload : List UInt8)
deriving DecidableEq, Repr

/-- The length a header announces, after its first byte. -/
def readLength (offset : Nat) (head : UInt8) (rest : List UInt8) : Option (Nat × List UInt8) :=
  if head.toNat ≤ offset + 55 then some (head.toNat - offset, rest)
  else
    let width := head.toNat - (offset + 55)
    if rest.length < width ∨ rest.head? = some 0 then none
    else if fromBe (rest.take width) ≤ 55 then none
    else some (fromBe (rest.take width), rest.drop width)

/-- Bytes that are their own encoding. -/
def isItself : List UInt8 → Bool
  | [b] => decide (b.toNat < 0x80)
  | _ => false

def readItem : List UInt8 → Option (Item × List UInt8)
  | [] => none
  | head :: rest =>
    if head.toNat < 0x80 then some (.text [head], rest)
    else if head.toNat < 0xc0 then
      match readLength 0x80 head rest with
      | none => none
      | some (length, rest) =>
        if rest.length < length ∨ isItself (rest.take length) = true then none
        else some (.text (rest.take length), rest.drop length)
    else
      match readLength 0xc0 head rest with
      | none => none
      | some (length, rest) =>
        if rest.length < length then none
        else some (.list (rest.take length), rest.drop length)

/-- Byte strings one after the other until nothing is left. An item takes at
least its header, so the number of bytes is fuel enough. -/
def readTextsFuel : Nat → List UInt8 → Option (List (List UInt8))
  | _, [] => some []
  | 0, _ :: _ => none
  | fuel + 1, byte :: bytes =>
    match readItem (byte :: bytes) with
    | some (.text text, rest) => (readTextsFuel fuel rest).map (text :: ·)
    | _ => none

/-- One list of byte strings, and nothing after it. -/
def readTexts (bytes : List UInt8) : Option (List (List UInt8)) :=
  match readItem bytes with
  | some (.list payload, []) => readTextsFuel payload.length payload
  | _ => none

/-- The two forms of a header, the short one for at most 55 bytes. -/
inductive Header (offset : UInt8) (length : Nat) : List UInt8 → Prop
  | short (fits : length ≤ 55) : Header offset length [offset + UInt8.ofNat length]
  | long {digits : List UInt8} (most : 55 < length) (spelled : fromBe digits = length)
      (tight : digits.head? ≠ some 0) (narrow : digits.length ≤ 8) :
      Header offset length ((offset + 55 + UInt8.ofNat digits.length) :: digits)

/-- A header is a byte in the range of its offset, and the length reads back. -/
theorem Header.reads {offset : UInt8} {length : Nat} {bytes : List UInt8}
    (header : Header offset length bytes) (room : offset.toNat ≤ 0xc0) :
    ∃ head tail, bytes = head :: tail ∧ offset.toNat ≤ head.toNat ∧
      head.toNat < offset.toNat + 64 ∧
      ∀ rest, readLength offset.toNat head (tail ++ rest) = some (length, rest) := by
  cases header with
  | short fits =>
    have hhead : (offset + UInt8.ofNat length).toNat = offset.toNat + length := by
      rw [UInt8.toNat_add, UInt8.toNat_ofNat']
      omega
    refine ⟨_, [], rfl, by omega, by omega, fun rest => ?_⟩
    rw [readLength, hhead, if_pos (by omega)]
    simp
  | @long digits most spelled tight narrow =>
    have hpos : 0 < digits.length := by
      rw [List.length_pos_iff]
      rintro rfl
      simp [fromBe] at spelled
      omega
    have hhead : (offset + 55 + UInt8.ofNat digits.length).toNat =
        offset.toNat + 55 + digits.length := by
      rw [UInt8.toNat_add, UInt8.toNat_add, UInt8.toNat_ofNat']
      have h55 : (55 : UInt8).toNat = 55 := rfl
      omega
    refine ⟨_, digits, rfl, by omega, by omega, fun rest => ?_⟩
    have hwidth : offset.toNat + 55 + digits.length - (offset.toNat + 55) = digits.length := by
      omega
    have hfirst : (digits ++ rest).head? = digits.head? := by
      cases digits with
      | nil => simp at hpos
      | cons d digits => rfl
    rw [readLength, hhead, if_neg (by omega)]
    simp only [hwidth, List.take_left, List.drop_left, spelled]
    rw [if_neg, if_neg (by omega)]
    rw [hfirst, List.length_append]
    rintro (hshort | hzero)
    · omega
    · exact tight hzero

theorem readItem_text {header bytes : List UInt8} (h : Header 0x80 bytes.length header)
    (other : isItself bytes = false) (rest : List UInt8) :
    readItem (header ++ bytes ++ rest) = some (.text bytes, rest) := by
  obtain ⟨head, tail, rfl, hlow, hhigh, hread⟩ := h.reads (by decide)
  have h80 : (0x80 : UInt8).toNat = 0x80 := rfl
  rw [h80] at hlow hhigh hread
  rw [List.append_assoc, List.cons_append, readItem, if_neg (by omega), if_pos (by omega), hread]
  simp [other]

theorem readItem_list {header payload : List UInt8} (h : Header 0xc0 payload.length header)
    (rest : List UInt8) :
    readItem (header ++ payload ++ rest) = some (.list payload, rest) := by
  obtain ⟨head, tail, rfl, hlow, hhigh, hread⟩ := h.reads (by decide)
  have hc0 : (0xc0 : UInt8).toNat = 0xc0 := rfl
  rw [hc0] at hlow hhigh hread
  rw [List.append_assoc, List.cons_append, readItem, if_neg (by omega), if_neg (by omega), hread]
  simp

theorem readItem_itself {bytes : List UInt8} (h : isItself bytes = true) (rest : List UInt8) :
    readItem (bytes ++ rest) = some (.text bytes, rest) := by
  match bytes with
  | [] => simp [isItself] at h
  | [b] =>
    have hsmall : b.toNat < 0x80 := by simpa [isItself] using h
    rw [List.cons_append, readItem, if_pos hsmall, List.nil_append]
  | _ :: _ :: _ => simp [isItself] at h

/-- Encodings that each read back as one string read back as all of them. -/
theorem readTextsFuel_flatten {encode : List UInt8 → List UInt8} {texts : List (List UInt8)}
    (reads : ∀ text ∈ texts, ∀ rest, readItem (encode text ++ rest) = some (.text text, rest)) :
    ∀ {fuel : Nat}, (texts.map encode).flatten.length ≤ fuel →
      readTextsFuel fuel (texts.map encode).flatten = some texts := by
  induction texts with
  | nil =>
    intro fuel _
    cases fuel <;> rfl
  | cons text texts ih =>
    intro fuel enough
    have hread := reads text List.mem_cons_self (texts.map encode).flatten
    have hrest := @ih fun text' hmem => reads text' (List.mem_cons_of_mem _ hmem)
    have hsome : encode text ≠ [] := by
      intro hnil
      have hempty := reads text List.mem_cons_self []
      rw [hnil] at hempty
      cases hempty
    have hpos := List.length_pos_iff.mpr hsome
    rw [List.map_cons, List.flatten_cons, List.length_append] at enough
    obtain ⟨fuel, rfl⟩ : ∃ n, fuel = n + 1 := ⟨fuel - 1, by omega⟩
    have hcons : ∃ b more, encode text ++ (texts.map encode).flatten = b :: more := by
      obtain ⟨b, more, hmore⟩ := List.exists_cons_of_ne_nil hsome
      exact ⟨b, more ++ (texts.map encode).flatten, by rw [hmore, List.cons_append]⟩
    obtain ⟨b, more, hmore⟩ := hcons
    rw [List.map_cons, List.flatten_cons, hmore, readTextsFuel, ← hmore, hread]
    dsimp only
    rw [hrest (by omega)]
    rfl

/-- Numbers without a zero byte at the front have one spelling. -/
theorem fromBe_injective {xs ys : List UInt8} (hx : xs.head? ≠ some 0) (hy : ys.head? ≠ some 0)
    (h : fromBe xs = fromBe ys) : xs = ys := by
  have hlow : ∀ {zs : List UInt8}, zs.head? ≠ some 0 → zs ≠ [] →
      256 ^ (zs.length - 1) ≤ fromBe zs := by
    intro zs hz hne
    obtain ⟨b, more, rfl⟩ := List.exists_cons_of_ne_nil hne
    have hb : 1 ≤ b.toNat := by
      rw [Nat.one_le_iff_ne_zero]
      intro hzero
      have hb : b = 0 := UInt8.toNat_inj.mp (by simpa using hzero)
      exact hz (by rw [List.head?_cons, hb])
    rw [fromBe_cons, List.length_cons, Nat.add_sub_cancel]
    calc 256 ^ more.length ≤ 256 ^ more.length * b.toNat := Nat.le_mul_of_pos_right _ hb
      _ ≤ _ := Nat.le_add_right _ _
  have hwidth : ∀ {us vs : List UInt8}, us.head? ≠ some 0 → fromBe us = fromBe vs →
      us.length ≤ vs.length := by
    intro us vs hu heq
    by_contra hlong
    have hne : us ≠ [] := by
      rintro rfl
      simp at hlong
    have hpow : 256 ^ vs.length ≤ 256 ^ (us.length - 1) :=
      Nat.pow_le_pow_right (by decide) (by omega)
    have hfrom := hlow hu hne
    have hbelow := fromBe_lt vs
    omega
  have hlength : xs.length = ys.length := le_antisymm (hwidth hx h) (hwidth hy h.symm)
  have hdigits : (xs.map UInt8.toNat).reverse = (ys.map UInt8.toNat).reverse := by
    apply Nat.ofDigits_inj_of_len_eq (by decide) (by simp [hlength]) _ _ h
    all_goals
      intro d hd
      obtain ⟨b, -, rfl⟩ := List.mem_map.mp (List.mem_reverse.mp hd)
      exact b.toNat_lt
  have hmap := List.reverse_injective hdigits
  exact List.map_injective_iff.mpr (fun _ _ heq => UInt8.toNat_inj.mp heq) hmap

/-- A length that reads was given by a header of its offset. -/
theorem header_of_readLength {offset head : UInt8} {rest rest' : List UInt8} {length : Nat}
    (low : offset.toNat ≤ head.toNat) (high : head.toNat < offset.toNat + 64)
    (h : readLength offset.toNat head rest = some (length, rest')) :
    ∃ header, Header offset length header ∧ head :: rest = header ++ rest' := by
  rw [readLength] at h
  split at h
  · next hshort =>
    obtain ⟨rfl, rfl⟩ := Prod.mk.inj (Option.some.inj h)
    have hhead : head = offset + UInt8.ofNat (head.toNat - offset.toNat) := by
      apply UInt8.toNat_inj.mp
      rw [UInt8.toNat_add, UInt8.toNat_ofNat']
      have := head.toNat_lt
      omega
    exact ⟨_, .short (by omega), by rw [← hhead]; rfl⟩
  · next hlong =>
    dsimp only at h
    split at h
    · cases h
    next htight =>
    split at h
    · cases h
    next hmost =>
    obtain ⟨rfl, rfl⟩ := Prod.mk.inj (Option.some.inj h)
    rw [not_or, not_lt] at htight
    have hwidth : (rest.take (head.toNat - (offset.toNat + 55))).length =
        head.toNat - (offset.toNat + 55) := by
      rw [List.length_take]
      omega
    have hhead : head = offset + 55 +
        UInt8.ofNat (rest.take (head.toNat - (offset.toNat + 55))).length := by
      apply UInt8.toNat_inj.mp
      rw [hwidth, UInt8.toNat_add, UInt8.toNat_add, UInt8.toNat_ofNat']
      have h55 : (55 : UInt8).toNat = 55 := rfl
      have := head.toNat_lt
      omega
    have hfirst : (rest.take (head.toNat - (offset.toNat + 55))).head? ≠ some 0 := by
      rw [List.head?_take, if_neg (by omega)]
      exact htight.2
    refine ⟨_, .long (not_le.mp hmost) rfl hfirst (by omega), ?_⟩
    rw [← hhead, List.cons_append, List.take_append_drop]

theorem Header.unique {offset : UInt8} {length : Nat} {bytes other : List UInt8}
    (h : Header offset length bytes) (h' : Header offset length other) : bytes = other := by
  cases h with
  | short fits =>
    cases h' with
    | short _ => rfl
    | long most _ _ _ => omega
  | long most spelled tight narrow =>
    cases h' with
    | short fits => omega
    | long _ spelled' tight' _ =>
      rw [fromBe_injective tight tight' (spelled.trans spelled'.symm)]

/-- What an item that was read looked like. -/
def Encodes (item : Item) (bytes : List UInt8) : Prop :=
  match item with
  | .text text =>
    if isItself text = true then bytes = text
    else ∃ header, Header 0x80 text.length header ∧ bytes = header ++ text
  | .list payload => ∃ header, Header 0xc0 payload.length header ∧ bytes = header ++ payload

theorem Encodes.unique {item : Item} {bytes other : List UInt8} (h : Encodes item bytes)
    (h' : Encodes item other) : bytes = other := by
  cases item with
  | text text =>
    simp only [Encodes] at h h'
    split at h
    · next hself =>
      rw [if_pos hself] at h'
      rw [h, h']
    · next hself =>
      rw [if_neg hself] at h'
      obtain ⟨header, hheader, rfl⟩ := h
      obtain ⟨header', hheader', rfl⟩ := h'
      rw [hheader.unique hheader']
  | list payload =>
    obtain ⟨header, hheader, rfl⟩ := h
    obtain ⟨header', hheader', rfl⟩ := h'
    rw [hheader.unique hheader']

theorem encodes_of_readItem {bytes rest : List UInt8} {item : Item}
    (h : readItem bytes = some (item, rest)) :
    ∃ encoded, Encodes item encoded ∧ bytes = encoded ++ rest := by
  cases bytes with
  | nil => cases h
  | cons head tail =>
    rw [readItem] at h
    split at h
    · next hself =>
      obtain ⟨rfl, rfl⟩ := Prod.mk.inj (Option.some.inj h)
      exact ⟨[head], by simp [Encodes, isItself, hself], rfl⟩
    next hlow =>
    have hbyte := head.toNat_lt
    split at h
    · next htext =>
      split at h
      · cases h
      next length body hlength =>
      split at h
      · cases h
      next hfits =>
      rw [not_or, not_lt] at hfits
      obtain ⟨rfl, rfl⟩ := Prod.mk.inj (Option.some.inj h)
      have h80 : (0x80 : UInt8).toNat = 0x80 := rfl
      obtain ⟨header, hheader, hsplit⟩ := @header_of_readLength 0x80 head tail body length
        (by omega) (by omega) hlength
      refine ⟨header ++ body.take length, ?_, ?_⟩
      · rw [Encodes, if_neg hfits.2]
        exact ⟨header, by rwa [List.length_take, Nat.min_eq_left hfits.1], rfl⟩
      · rw [List.append_assoc, List.take_append_drop, hsplit]
    next htext =>
    split at h
    · cases h
    next length body hlength =>
    split at h
    · cases h
    next hfits =>
    obtain ⟨rfl, rfl⟩ := Prod.mk.inj (Option.some.inj h)
    have hc0 : (0xc0 : UInt8).toNat = 0xc0 := rfl
    obtain ⟨header, hheader, hsplit⟩ := @header_of_readLength 0xc0 head tail body length
      (by omega) (by omega) hlength
    refine ⟨header ++ body.take length, ⟨header, ?_, rfl⟩, ?_⟩
    · rwa [List.length_take, Nat.min_eq_left (by omega)]
    · rw [List.append_assoc, List.take_append_drop, hsplit]

theorem readItem_injective {bytes other rest : List UInt8} {item : Item}
    (h : readItem bytes = some (item, rest)) (h' : readItem other = some (item, rest)) :
    bytes = other := by
  obtain ⟨encoded, hencoded, rfl⟩ := encodes_of_readItem h
  obtain ⟨encoded', hencoded', rfl⟩ := encodes_of_readItem h'
  rw [hencoded.unique hencoded']

theorem readTextsFuel_injective {texts : List (List UInt8)} :
    ∀ {fuel fuel' : Nat} {bytes other : List UInt8}, readTextsFuel fuel bytes = some texts →
      readTextsFuel fuel' other = some texts → bytes = other := by
  have hempty : ∀ {fuel : Nat} {bytes : List UInt8}, readTextsFuel fuel bytes = some [] →
      bytes = [] := by
    intro fuel bytes h
    cases bytes with
    | nil => rfl
    | cons b bytes =>
      cases fuel with
      | zero => cases h
      | succ fuel =>
        rw [readTextsFuel] at h
        split at h
        · obtain ⟨texts, -, h⟩ := Option.map_eq_some_iff.mp h
          cases h
        · cases h
  have hfirst : ∀ {fuel : Nat} {bytes text : List UInt8} {texts : List (List UInt8)},
      readTextsFuel fuel bytes = some (text :: texts) → ∃ fuel' rest,
        readItem bytes = some (.text text, rest) ∧ readTextsFuel fuel' rest = some texts := by
    intro fuel bytes text texts h
    cases bytes with
    | nil => cases fuel <;> cases h
    | cons b bytes =>
      cases fuel with
      | zero => cases h
      | succ fuel =>
        rw [readTextsFuel] at h
        split at h
        · next rest hread =>
          obtain ⟨texts', hrest, h⟩ := Option.map_eq_some_iff.mp h
          cases h
          exact ⟨fuel, rest, hread, hrest⟩
        · cases h
  induction texts with
  | nil =>
    intro fuel fuel' bytes other h h'
    rw [hempty h, hempty h']
  | cons text texts ih =>
    intro fuel fuel' bytes other h h'
    obtain ⟨_, rest, hread, hrest⟩ := hfirst h
    obtain ⟨_, rest', hread', hrest'⟩ := hfirst h'
    obtain rfl := ih hrest hrest'
    exact readItem_injective hread hread'

/-- Strictness: strings are read from one encoding only. -/
theorem readTexts_injective {bytes other : List UInt8} {texts : List (List UInt8)}
    (h : readTexts bytes = some texts) (h' : readTexts other = some texts) : bytes = other := by
  rw [readTexts] at h h'
  split at h
  · next payload hread =>
    split at h'
    · next payload' hread' =>
      obtain rfl := readTextsFuel_injective h h'
      exact readItem_injective hread hread'
    · cases h'
  · cases h

theorem readUint_injective {bytes other : List UInt8} {n : Nat} (h : readUint bytes = some n)
    (h' : readUint other = some n) : bytes = other := by
  rw [readUint] at h h'
  split at h
  · cases h
  next htight =>
  split at h'
  · cases h'
  next htight' =>
  exact fromBe_injective htight htight' ((Option.some.inj h).trans (Option.some.inj h').symm)

end Rlp

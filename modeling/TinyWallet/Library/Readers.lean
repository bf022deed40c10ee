import Mathlib

/-!
# Reading byte formats

A reader takes a value from the front of some bytes and leaves the rest. It
undoes an encoding when it takes exactly that encoding, whatever follows; the
rules below compose such readers, so that a format is read back field by field.

A compact length is a number in groups of seven bits, the lowest first, every
byte but the last with its high bit set. The shortest spelling is the only one.
-/

namespace Readers

abbrev Reader (α : Type) := StateT (List UInt8) Option α

variable {α β : Type}

/-- The reader takes the value from these bytes and leaves what follows them. -/
def Undoes (r : Reader α) (a : α) (bytes : List UInt8) : Prop :=
  ∀ rest, r (bytes ++ rest) = some (a, rest)

theorem undoes_pure (a : α) : Undoes (pure a) a [] := fun _ => rfl

theorem undoes_bind {r : Reader α} {f : α → Reader β} {a : α} {b : β} {front back : List UInt8}
    (h : Undoes r a front) (next : Undoes (f a) b back) : Undoes (r >>= f) b (front ++ back) := by
  intro rest
  have hfirst := h (back ++ rest)
  rw [List.append_assoc]
  show (r (front ++ (back ++ rest))).bind (fun out => f out.1 out.2) = some (b, rest)
  rw [hfirst]
  exact next rest

/-- The last field of a format. -/
theorem undoes_map {r : Reader α} {f : α → β} {a : α} {bytes : List UInt8} (h : Undoes r a bytes) :
    Undoes (r >>= fun a => pure (f a)) (f a) bytes := by
  have hbind := undoes_bind (f := fun a => pure (f a)) h (undoes_pure (f a))
  rwa [List.append_nil] at hbind

/-- A format that fills the bytes. -/
def whole (r : Reader α) (bytes : List UInt8) : Option α :=
  (r bytes).bind fun out => if out.2 = [] then some out.1 else none

theorem whole_undoes {r : Reader α} {a : α} {bytes : List UInt8} (h : Undoes r a bytes) :
    whole r bytes = some a := by
  have hall := h []
  rw [List.append_nil] at hall
  simp [whole, hall]

def byte : Reader UInt8
  | [] => none
  | b :: rest => some (b, rest)

def exactly (width : Nat) : Reader (List UInt8) := fun bytes =>
  if width ≤ bytes.length then some (bytes.take width, bytes.drop width) else none

def times (r : Reader α) : Nat → Reader (List α)
  | 0 => pure []
  | count + 1 => do
    let first ← r
    let others ← times r count
    pure (first :: others)

theorem undoes_byte (b : UInt8) : Undoes byte b [b] := fun _ => rfl

theorem undoes_exactly {bytes : List UInt8} {width : Nat} (h : bytes.length = width) :
    Undoes (exactly width) bytes bytes := by
  intro rest
  subst h
  simp [exactly]

theorem undoes_times {r : Reader α} {encode : α → List UInt8} {items : List α}
    (h : ∀ a ∈ items, Undoes r a (encode a)) :
    Undoes (times r items.length) items (items.map encode).flatten := by
  induction items with
  | nil => exact undoes_pure []
  | cons a items ih =>
    have hrest := ih fun b hb => h b (List.mem_cons_of_mem _ hb)
    rw [List.map_cons, List.flatten_cons]
    exact undoes_bind (h a List.mem_cons_self) (undoes_map hrest)

/-- A number in groups of seven bits. -/
def groups (n : Nat) : List UInt8 :=
  if n < 128 then [UInt8.ofNat n] else UInt8.ofNat (n % 128 + 128) :: groups (n / 128)

/-- At most so many groups. A last group of zero is refused where a shorter
spelling exists. -/
def readGroups : Nat → Reader Nat
  | 0, _ => none
  | _ + 1, [] => none
  | limit + 1, b :: rest =>
    if b.toNat < 128 then some (b.toNat, rest)
    else (readGroups limit rest).bind fun out =>
      if out.1 = 0 then none else some (b.toNat - 128 + 128 * out.1, out.2)

/-- A length below `2 ^ 16`. -/
def compactU16 : Reader Nat := fun bytes =>
  (readGroups 3 bytes).bind fun out => if out.1 < 2 ^ 16 then some out else none

theorem groups_small {n : Nat} (h : n < 128) : groups n = [UInt8.ofNat n] := by
  rw [groups, if_pos h]

theorem groups_large {n : Nat} (h : 128 ≤ n) :
    groups n = UInt8.ofNat (n % 128 + 128) :: groups (n / 128) := by
  rw [groups, if_neg (not_lt.mpr h)]

theorem undoes_readGroups (limit : Nat) {n : Nat} (h : n < 128 ^ (limit + 1)) :
    Undoes (readGroups (limit + 1)) n (groups n) := by
  induction limit generalizing n with
  | zero =>
    intro rest
    have hsmall : n < 128 := by simpa using h
    have hbyte : (UInt8.ofNat n).toNat = n := by
      rw [UInt8.toNat_ofNat']
      omega
    simp [groups_small hsmall, readGroups, hbyte, hsmall]
  | succ limit ih =>
    intro rest
    by_cases hsmall : n < 128
    · have hbyte : (UInt8.ofNat n).toNat = n := by
        rw [UInt8.toNat_ofNat']
        omega
      simp [groups_small hsmall, readGroups, hbyte, hsmall]
    · have hbyte : (UInt8.ofNat (n % 128 + 128)).toNat = n % 128 + 128 := by
        rw [UInt8.toNat_ofNat']
        omega
      have hnext : n / 128 < 128 ^ (limit + 1) := by
        rw [pow_succ] at h
        omega
      have hrest := ih hnext rest
      have hpositive : n / 128 ≠ 0 := by omega
      have hvalue : n % 128 + 128 * (n / 128) = n := Nat.mod_add_div n 128
      rw [groups_large (not_lt.mp hsmall), List.cons_append, readGroups, hbyte,
        if_neg (by omega), hrest]
      simp [hpositive, hvalue]

theorem undoes_compactU16 {n : Nat} (h : n < 2 ^ 16) : Undoes compactU16 n (groups n) := by
  intro rest
  have hread := undoes_readGroups 2 (n := n) (by omega) rest
  rw [compactU16, hread, Option.bind_some, if_pos h]

/-- The bytes spell the number in groups of seven bits; high groups may be zero. -/
inductive Spells : List UInt8 → Nat → Prop
  | last {b : UInt8} (low : b.toNat < 128) : Spells [b] b.toNat
  | more {b : UInt8} {bytes : List UInt8} {n : Nat} (high : 128 ≤ b.toNat)
      (rest : Spells bytes n) : Spells (b :: bytes) (b.toNat - 128 + 128 * n)

theorem spells_groups (n : Nat) : Spells (groups n) n := by
  induction n using Nat.strongRecOn with
  | ind n ih =>
    by_cases hsmall : n < 128
    · have hbyte : (UInt8.ofNat n).toNat = n := by
        rw [UInt8.toNat_ofNat']
        omega
      have hlast : Spells [UInt8.ofNat n] (UInt8.ofNat n).toNat := .last (by omega)
      rw [groups_small hsmall]
      rwa [hbyte] at hlast
    · have hbyte : (UInt8.ofNat (n % 128 + 128)).toNat = n % 128 + 128 := by
        rw [UInt8.toNat_ofNat']
        omega
      have hmore : Spells (UInt8.ofNat (n % 128 + 128) :: groups (n / 128))
          ((UInt8.ofNat (n % 128 + 128)).toNat - 128 + 128 * (n / 128)) :=
        .more (by omega) (ih (n / 128) (by omega))
      have hvalue : n % 128 + 128 - 128 + 128 * (n / 128) = n := by omega
      rw [groups_large (not_lt.mp hsmall)]
      rwa [hbyte, hvalue] at hmore

theorem groups_length (limit : Nat) {n : Nat} (h : n < 128 ^ (limit + 1)) :
    (groups n).length ≤ limit + 1 := by
  induction limit generalizing n with
  | zero =>
    have hsmall : n < 128 := by simpa using h
    simp [groups_small hsmall]
  | succ limit ih =>
    by_cases hsmall : n < 128
    · simp [groups_small hsmall]
    · have hnext : n / 128 < 128 ^ (limit + 1) := by
        rw [pow_succ] at h
        omega
      rw [groups_large (not_lt.mp hsmall), List.length_cons]
      exact Nat.succ_le_succ (ih hnext)

/-- The two parts of a byte of a spelling. -/
theorem bits_of_byte (b : UInt8) : (b.toNat &&& 0x80 = 0 ↔ b.toNat < 128) ∧
    b.toNat &&& 0x7f = if b.toNat < 128 then b.toNat else b.toNat - 128 := by
  have hall : ∀ n : Fin 256, (n.val &&& 0x80 = 0 ↔ n.val < 128) ∧
      n.val &&& 0x7f = if n.val < 128 then n.val else n.val - 128 := by
    decide +kernel
  exact hall ⟨b.toNat, b.toNat_lt⟩

end Readers

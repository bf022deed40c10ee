import TinyWallet.Library.Tables

/-!
# JSON values

The value type a Rust program reads answers into, with the accessors such
programs use. An object is the list of its members as written. Reading it as a
value keeps the last member of a name; reading it into a record refuses a name
that is written twice, ignores other names, and takes an array of the right
length as the fields in order. A floating-point number is kept as the text it
prints as.
-/

namespace JsonValue

open Tables

inductive Number where
  | posInt (n : Nat)
  | negInt (n : Int)
  | float (text : String)
deriving DecidableEq, Repr

def Number.print : Number → String
  | .posInt n => toString n
  | .negInt n => toString n
  | .float text => text

inductive Json where
  | null
  | bool (b : Bool)
  | number (n : Number)
  | string (s : String)
  | array (items : List Json)
  | object (members : List (String × Json))

namespace Json

def get (key : String) : Json → Option Json
  | .object members => (members.reverse.find? (·.1 = key)).map Prod.snd
  | _ => none

def asStr : Json → Option String
  | .string s => some s
  | _ => none

def asBool : Json → Option Bool
  | .bool b => some b
  | _ => none

def asU64 : Json → Option Nat
  | .number (.posInt n) => some n
  | _ => none

def asI64 : Json → Option Int
  | .number (.posInt n) => if n < 2 ^ 63 then some n else none
  | .number (.negInt n) => if n < 0 then some n else none
  | _ => none

def ofI64 (n : Int) : Json :=
  if 0 ≤ n then .number (.posInt n.toNat) else .number (.negInt n)

def isNull : Json → Bool
  | .null => true
  | _ => false

/-- `value.get(key).and_then(Value::as_str)`. -/
def getStr (key : String) (value : Json) : Option String := (value.get key).bind asStr

/-- The one member of a name. -/
def only (key : String) (members : List (String × Json)) : Option Json :=
  match members.filter (·.1 = key) with
  | [entry] => some entry.2
  | _ => none

/-- The fields of a record, in the record's order. -/
def structOf (names : List String) : Json → Option (List Json)
  | .object members => names.mapM fun name => only name members
  | .array items => if items.length = names.length then some items else none
  | _ => none

/-- A value that is read into a record of these fields. Fields that come last
may be left out of an array. -/
def isRecord (names : List String) : Json → Bool
  | .object _ => true
  | .array items => items.length ≤ names.length
  | _ => false

/-- A field of a record, by its name or by its place. -/
def field (names : List String) (name : String) : Json → Option Json
  | .object members => get name (.object members)
  | .array items => items[names.idxOf name]?
  | _ => none

/-- A field that may be absent or null. -/
def optional {α : Type} (decode : Json → Option α) : Option Json → Option (Option α)
  | none => some none
  | some .null => some none
  | some value => (decode value).map some

/-- The object of a record's fields, those without a value left out. -/
def written (fields : List (String × Option Json)) : Json :=
  .object (fields.filterMap fun f => f.2.map fun value => (f.1, value))

/-- The members of an object, one a name. -/
def members : Json → Option (Table String Json)
  | .object entries => some (entries.foldl (fun t e => t.insert e.1 e.2) ∅)
  | _ => none

def ofTable (t : Table String Json) : Json := .object (t.entries.map fun e => (e.1, e.2))

/-- `value[key] = member` on an object: replaced in place, or added. -/
def set (key : String) (member : Json) : Json → Json
  | .object members =>
    if members.any (·.1 = key) then
      .object (members.map fun entry => if entry.1 = key then (key, member) else entry)
    else .object (members ++ [(key, member)])
  | other => other

theorem asI64_ofI64 {n : Int} (h : n < 2 ^ 63) : asI64 (ofI64 n) = some n := by
  by_cases hsign : 0 ≤ n
  · have hlt : n.toNat < 2 ^ 63 := by omega
    simp only [ofI64, if_pos hsign, asI64, if_pos hlt, Int.toNat_of_nonneg hsign]
  · have hneg : n < 0 := by omega
    simp only [ofI64, if_neg hsign, asI64, if_pos hneg]

theorem asI64_lt {value : Json} {n : Int} (h : asI64 value = some n) : n < 2 ^ 63 := by
  cases value with
  | number number =>
    cases number with
    | posInt m =>
      simp only [asI64] at h
      split_ifs at h with hlt
      have hn := Option.some.inj h
      omega
    | negInt m =>
      simp only [asI64] at h
      split_ifs at h with hneg
      have hn := Option.some.inj h
      omega
    | float text => cases h
  | null | bool | string | array | object => cases h

theorem get_cons (key : String) (e : String × Json) (rest : List (String × Json)) :
    get key (.object (e :: rest)) =
      (get key (.object rest)).or (if e.1 = key then some e.2 else none) := by
  simp only [get, List.reverse_cons, List.find?_append]
  cases List.find? (fun x => decide (x.1 = key)) rest.reverse with
  | some found => rfl
  | none =>
    by_cases h : e.1 = key
    · simp [h]
    · simp [h]

theorem get_none {key : String} {entries : List (String × Json)}
    (h : key ∉ entries.map Prod.fst) : get key (.object entries) = none := by
  induction entries with
  | nil => rfl
  | cons e rest ih =>
    simp only [List.map_cons, List.mem_cons, not_or] at h
    rw [get_cons, ih h.2, if_neg (Ne.symm h.1)]
    rfl

theorem get_written {fields : List (String × Option Json)} (distinct : (fields.map Prod.fst).Nodup)
    {name : String} {value : Option Json} (h : (name, value) ∈ fields) :
    get name (written fields) = value := by
  induction fields with
  | nil => cases h
  | cons f rest ih =>
    simp only [List.map_cons, List.nodup_cons] at distinct
    have hnames : ∀ key, key ∉ rest.map Prod.fst → get key (written rest) = none := by
      intro key hkey
      refine get_none fun hmem => hkey ?_
      obtain ⟨e, he, rfl⟩ := List.mem_map.mp hmem
      obtain ⟨g, hg, heq⟩ := List.mem_filterMap.mp he
      obtain ⟨v, -, rfl⟩ := Option.map_eq_some_iff.mp heq
      exact List.mem_map_of_mem hg
    have hcons : get name (written (f :: rest)) =
        (get name (written rest)).or (if f.1 = name then f.2 else none) := by
      obtain ⟨key, found⟩ := f
      cases found with
      | none => simp [written]
      | some v =>
        exact get_cons name (key, v) _
    rw [hcons]
    rcases List.mem_cons.mp h with rfl | h
    · rw [hnames _ distinct.1, if_pos rfl]
      rfl
    · rw [ih distinct.2 h]
      have hne : f.1 ≠ name := by
        intro hsame
        rw [hsame] at distinct
        exact distinct.1 (List.mem_map.mpr ⟨_, h, rfl⟩)
      rw [if_neg hne, Option.or_none]

theorem lookup_members {value : Json} {t : Table String Json} (h : members value = some t)
    (key : String) : t.lookup key = get key value := by
  cases value with
  | object entries =>
    obtain rfl := Option.some.inj h
    induction entries using List.reverseRecOn with
    | nil => rfl
    | append_singleton entries e ih =>
      have hrest := ih rfl
      rw [List.foldl_append, List.foldl_cons, List.foldl_nil]
      by_cases hkey : e.1 = key
      · subst hkey
        rw [AList.lookup_insert]
        simp [get]
      · rw [AList.lookup_insert_ne (Ne.symm hkey), hrest]
        simp [get, hkey]
  | null | bool | number | string | array => cases h

theorem get_ofTable (t : Table String Json) (key : String) :
    get key (ofTable t) = t.lookup key := by
  have hentries : ∀ entries : List (Sigma fun _ : String => Json), entries.NodupKeys →
      get key (.object (entries.map fun e => (e.1, e.2))) = entries.dlookup key := by
    intro entries hnodup
    induction entries with
    | nil => rfl
    | cons e rest ih =>
      obtain ⟨hfresh, hrest⟩ := List.nodupKeys_cons.mp hnodup
      rw [List.map_cons, get_cons, ih hrest]
      by_cases hkey : e.1 = key
      · subst hkey
        rw [List.dlookup_eq_none.mpr hfresh, if_pos rfl, List.dlookup_cons_eq]
        rfl
      · rw [if_neg hkey, Option.or_none, List.dlookup_cons_ne _ _ (Ne.symm hkey)]
  exact hentries t.entries t.nodupKeys

end Json

/-- The decoder and printer of a JSON library, with the text of a decoding
error. `mismatch` is the text for a value of the wrong shape. -/
structure Codec where
  parse : String → Except String Json
  print : Json → String
  mismatch : Json → String

end JsonValue

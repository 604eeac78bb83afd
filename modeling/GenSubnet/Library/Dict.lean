import Mathlib.Data.List.Nodup
import Mathlib.Data.List.Lemmas
import Mathlib.Data.List.Induction

/-!
# Insertion-ordered dictionaries

The association lists behind a dictionary: keys are pairwise distinct, an assignment to a present
key keeps its place and an assignment to a new key goes to the end.
-/

namespace GenSubnet.Library

variable {κ α β : Type*} [DecidableEq κ]

def lookupIn (key : κ) : List (κ × α) → Option α
  | [] => none
  | (k, a) :: rest => if k = key then some a else lookupIn key rest

def upsert (key : κ) (value : α) : List (κ × α) → List (κ × α)
  | [] => [(key, value)]
  | (k, a) :: rest => if k = key then (key, value) :: rest else (k, a) :: upsert key value rest

theorem upsert_keys (key : κ) (value : α) (items : List (κ × α)) :
    (upsert key value items).map Prod.fst =
      if key ∈ items.map Prod.fst then items.map Prod.fst else items.map Prod.fst ++ [key] := by
  induction items with
  | nil => simp [upsert]
  | cons item rest ih =>
      obtain ⟨k, a⟩ := item
      by_cases same : k = key
      · simp [upsert, same]
      · simp only [upsert, if_neg same, List.map_cons, ih, List.mem_cons, Ne.symm same, false_or]
        split <;> simp

theorem upsert_of_not_mem {key : κ} {items : List (κ × α)} (absent : key ∉ items.map Prod.fst)
    (value : α) : upsert key value items = items ++ [(key, value)] := by
  induction items with
  | nil => rfl
  | cons item rest ih =>
      simp only [List.map_cons, List.mem_cons, not_or] at absent
      rw [upsert, if_neg (Ne.symm absent.1), ih absent.2]
      rfl

theorem upsert_of_lookup {key : κ} {value : α} {items : List (κ × α)}
    (present : lookupIn key items = some value) : upsert key value items = items := by
  induction items with
  | nil => cases present
  | cons item rest ih =>
      obtain ⟨k, a⟩ := item
      by_cases same : k = key
      · rw [lookupIn, if_pos same] at present
        rw [upsert, if_pos same, same, Option.some.inj present]
      · rw [lookupIn, if_neg same] at present
        rw [upsert, if_neg same, ih present]

theorem lookupIn_upsert (key other : κ) (value : α) (items : List (κ × α)) :
    lookupIn other (upsert key value items) =
      if other = key then some value else lookupIn other items := by
  induction items with
  | nil => simp [upsert, lookupIn, eq_comm]
  | cons item rest ih =>
      obtain ⟨k, a⟩ := item
      by_cases same : k = key
      · subst same
        by_cases h : k = other <;> simp [upsert, lookupIn, h, eq_comm]
        intro g
        exact absurd g.symm h
      · by_cases h : k = other
        · subst h
          simp [upsert, same, lookupIn]
        · simp [upsert, same, lookupIn, h, ih]

theorem lookupIn_eq_some_iff {key : κ} {value : α} {items : List (κ × α)}
    (nodup : (items.map Prod.fst).Nodup) :
    lookupIn key items = some value ↔ (key, value) ∈ items := by
  induction items with
  | nil => simp [lookupIn]
  | cons item rest ih =>
      obtain ⟨k, a⟩ := item
      simp only [List.map_cons, List.nodup_cons] at nodup
      by_cases same : k = key
      · subst same
        have absent : (k, value) ∉ rest := fun h => nodup.1 (List.mem_map.mpr ⟨_, h, rfl⟩)
        simp [lookupIn, absent, eq_comm]
      · simp [lookupIn, same, ih nodup.2, Ne.symm same]

theorem lookupIn_isSome_iff {key : κ} {items : List (κ × α)} :
    (lookupIn key items).isSome ↔ key ∈ items.map Prod.fst := by
  induction items with
  | nil => simp [lookupIn]
  | cons item rest ih =>
      obtain ⟨k, a⟩ := item
      by_cases same : k = key
      · simp [lookupIn, same]
      · simp [lookupIn, same, ih, Ne.symm same]

/-- A dictionary: its items in insertion order, no key twice. -/
structure Dict (κ α : Type*) where
  items : List (κ × α)
  nodup : (items.map Prod.fst).Nodup

namespace Dict

instance [DecidableEq α] : DecidableEq (Dict κ α) := fun d e =>
  decidable_of_iff (d.items = e.items) ⟨fun h => by cases d; cases e; simp_all, fun h => h ▸ rfl⟩

omit [DecidableEq κ] in
@[ext] theorem ext {d e : Dict κ α} (h : d.items = e.items) : d = e := by
  cases d; cases e; simp_all

def empty : Dict κ α := ⟨[], List.nodup_nil⟩

def keys (d : Dict κ α) : List κ := d.items.map Prod.fst

def get (d : Dict κ α) (key : κ) : Option α := lookupIn key d.items

def contains (d : Dict κ α) (key : κ) : Bool := (d.get key).isSome

def size (d : Dict κ α) : Nat := d.items.length

def set (d : Dict κ α) (key : κ) (value : α) : Dict κ α :=
  ⟨upsert key value d.items, by
    rw [upsert_keys]
    split
    · exact d.nodup
    · rename_i absent
      exact d.nodup.append (List.nodup_singleton _) (by simpa using absent)⟩

/-- `pop(key, None)`. -/
def erase (d : Dict κ α) (key : κ) : Dict κ α :=
  ⟨d.items.filter fun item => item.1 ≠ key, d.nodup.sublist (List.filter_sublist.map _)⟩

/-- The items that meet a condition, `{key: value for key, value in d.items() if …}`. -/
def filter (d : Dict κ α) (keep : κ → α → Bool) : Dict κ α :=
  ⟨d.items.filter fun item => keep item.1 item.2, d.nodup.sublist (List.filter_sublist.map _)⟩

/-- Change every value in its place. -/
def mapValues (d : Dict κ α) (f : α → β) : Dict κ β :=
  ⟨d.items.map fun item => (item.1, f item.2), by
    rw [List.map_map]
    exact d.nodup⟩

/-- `setdefault(key, value)`, as a change of the dictionary. -/
def setDefault (d : Dict κ α) (key : κ) (value : α) : Dict κ α :=
  if d.contains key then d else d.set key value

/-- `popitem(last=False)`. -/
def dropFirst (d : Dict κ α) : Dict κ α :=
  ⟨d.items.tail, d.nodup.sublist ((List.tail_sublist _).map _)⟩

/-- Assign the pairs of a list one after the other. -/
def update (d : Dict κ α) (pairs : List (κ × α)) : Dict κ α :=
  pairs.foldl (fun d pair => d.set pair.1 pair.2) d

/-- The items of another dictionary take precedence. -/
def merge (d e : Dict κ α) : Dict κ α := d.update e.items

def ofList (pairs : List (κ × α)) : Dict κ α := empty.update pairs

@[simp] theorem get_empty (key : κ) : (empty : Dict κ α).get key = none := rfl

@[simp] theorem contains_empty (key : κ) : (empty : Dict κ α).contains key = false := rfl

theorem get_set (d : Dict κ α) (key other : κ) (value : α) :
    (d.set key value).get other = if other = key then some value else d.get other :=
  lookupIn_upsert key other value d.items

@[simp] theorem get_set_self (d : Dict κ α) (key : κ) (value : α) :
    (d.set key value).get key = some value := by
  rw [get_set, if_pos rfl]

theorem get_set_of_ne (d : Dict κ α) {key other : κ} (value : α) (ne : other ≠ key) :
    (d.set key value).get other = d.get other := by
  rw [get_set, if_neg ne]

theorem set_of_get {d : Dict κ α} {key : κ} {value : α} (present : d.get key = some value) :
    d.set key value = d :=
  Dict.ext (upsert_of_lookup present)

theorem contains_set (d : Dict κ α) (key other : κ) (value : α) :
    (d.set key value).contains other = (decide (other = key) || d.contains other) := by
  by_cases h : other = key <;> simp [contains, get_set, h]

theorem get_eq_some_iff {d : Dict κ α} {key : κ} {value : α} :
    d.get key = some value ↔ (key, value) ∈ d.items :=
  lookupIn_eq_some_iff d.nodup

theorem contains_iff {d : Dict κ α} {key : κ} : d.contains key = true ↔ key ∈ d.keys :=
  lookupIn_isSome_iff

theorem contains_of_get {d : Dict κ α} {key : κ} {value : α} (present : d.get key = some value) :
    d.contains key = true := by
  rw [contains, present]
  rfl

theorem get_eq_none_iff {d : Dict κ α} {key : κ} : d.get key = none ↔ key ∉ d.keys := by
  rw [← contains_iff, contains, Bool.not_eq_true, Option.isSome_eq_false_iff, Option.isNone_iff_eq_none]

theorem mem_items_set {d : Dict κ α} {key : κ} {value : α} {item : κ × α}
    (member : item ∈ (d.set key value).items) : item = (key, value) ∨ item ∈ d.items := by
  obtain ⟨other, a⟩ := item
  rw [← get_eq_some_iff, get_set] at member
  split at member
  · rename_i same
    exact Or.inl (by rw [same, Option.some.inj member])
  · exact Or.inr (get_eq_some_iff.mp member)

omit [DecidableEq κ] in
theorem mem_items_filter {d : Dict κ α} {keep : κ → α → Bool} {item : κ × α} :
    item ∈ (d.filter keep).items ↔ item ∈ d.items ∧ keep item.1 item.2 = true :=
  List.mem_filter

omit [DecidableEq κ] in
theorem filter_keys_nodup (d : Dict κ α) (keep : κ × α → Bool) :
    ((d.items.filter keep).map Prod.fst).Nodup :=
  d.nodup.sublist (List.filter_sublist.map _)

theorem get_erase (d : Dict κ α) (key other : κ) :
    (d.erase key).get other = if other = key then none else d.get other := by
  by_cases h : other = key
  · rw [if_pos h, get_eq_none_iff]
    simp [keys, erase, h]
  · rw [if_neg h]
    apply Option.ext
    intro value
    rw [get_eq_some_iff, get_eq_some_iff]
    simp [erase, h]

omit [DecidableEq κ] in
theorem mem_items_mapValues {d : Dict κ α} {f : α → β} {key : κ} {value : β} :
    (key, value) ∈ (d.mapValues f).items ↔ ∃ old, (key, old) ∈ d.items ∧ f old = value := by
  simp [mapValues]

theorem get_mapValues (d : Dict κ α) (f : α → β) (key : κ) :
    (d.mapValues f).get key = (d.get key).map f := by
  apply Option.ext
  intro value
  rw [get_eq_some_iff, mem_items_mapValues, Option.map_eq_some_iff]
  simp only [get_eq_some_iff]

theorem get_setDefault (d : Dict κ α) (key other : κ) (value : α) :
    (d.setDefault key value).get other =
      if other = key then some ((d.get key).getD value) else d.get other := by
  unfold setDefault contains
  split
  · rename_i present
    obtain ⟨old, is⟩ := Option.isSome_iff_exists.mp present
    split
    · rename_i same
      rw [same, is, Option.getD_some]
    · rfl
  · rename_i absent
    rw [Bool.not_eq_true, Option.isSome_eq_false_iff, Option.isNone_iff_eq_none] at absent
    rw [get_set, absent, Option.getD_none]

theorem get_filter (d : Dict κ α) (keep : κ → α → Bool) (key : κ) :
    (d.filter keep).get key = (d.get key).filter (keep key) := by
  apply Option.ext
  intro value
  rw [get_eq_some_iff, mem_items_filter, ← get_eq_some_iff, Option.filter_eq_some_iff]

theorem get_update (d : Dict κ α) (pairs : List (κ × α)) (nodup : (pairs.map Prod.fst).Nodup)
    (key : κ) : (d.update pairs).get key = (lookupIn key pairs).or (d.get key) := by
  induction pairs generalizing d with
  | nil => rfl
  | cons pair rest ih =>
      obtain ⟨k, a⟩ := pair
      simp only [List.map_cons, List.nodup_cons] at nodup
      have step : d.update ((k, a) :: rest) = (d.set k a).update rest := rfl
      rw [step, ih _ nodup.2, get_set]
      by_cases same : k = key
      · subst same
        have absent : lookupIn k rest = none := by
          rw [← Option.isNone_iff_eq_none, ← Option.isSome_eq_false_iff, Bool.eq_false_iff]
          exact fun present => nodup.1 (lookupIn_isSome_iff.mp present)
        simp [lookupIn, absent]
      · simp [lookupIn, same, Ne.symm same]

theorem get_merge (d e : Dict κ α) (key : κ) : (d.merge e).get key = (e.get key).or (d.get key) :=
  get_update d e.items e.nodup key

theorem items_set_of_not_mem {d : Dict κ α} {key : κ} (absent : key ∉ d.keys) (value : α) :
    (d.set key value).items = d.items ++ [(key, value)] :=
  upsert_of_not_mem absent value

theorem items_ofList {pairs : List (κ × α)} (nodup : (pairs.map Prod.fst).Nodup) :
    (ofList pairs).items = pairs := by
  induction pairs using List.reverseRecOn with
  | nil => rfl
  | append_singleton before pair ih =>
      rw [List.map_append, List.nodup_append] at nodup
      have step : ofList (before ++ [pair]) = (ofList before).set pair.1 pair.2 := by
        simp [ofList, update]
      have absent : pair.1 ∉ (ofList before).keys := by
        rw [keys, ih nodup.1]
        exact fun member => nodup.2.2 _ member _ (by simp) rfl
      rw [step, items_set_of_not_mem absent, ih nodup.1]

theorem keys_set (d : Dict κ α) (key : κ) (value : α) :
    (d.set key value).keys = if key ∈ d.keys then d.keys else d.keys ++ [key] :=
  upsert_keys key value d.items

theorem mem_keys_set {d : Dict κ α} {key other : κ} {value : α} :
    other ∈ (d.set key value).keys ↔ other = key ∨ other ∈ d.keys := by
  rw [keys_set]
  split
  · rename_i present
    constructor
    · exact Or.inr
    · rintro (rfl | h)
      · exact present
      · exact h
  · simp [or_comm]

end Dict

end GenSubnet.Library

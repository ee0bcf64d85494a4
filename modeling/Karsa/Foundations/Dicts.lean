import Mathlib.Algebra.BigOperators.Group.List.Basic
import Mathlib.Data.List.Basic
import Mathlib.Data.Set.Function

/-!
# Foundations - Dictionaries in insertion order

A Python dictionary keeps its keys in the order of their first assignment; a later
assignment replaces the value in place.  Loops that index a list by a computed key
build such a dictionary, and two items under one key leave only the later one.

Main results:

- Theorem `get_set_self`, `get_set_of_ne`: what an assignment does to lookups.
- Theorem `total_set`: what an assignment does to the sum of the values' weights.
- Theorem `mem_keys_index`: the keys of an index are the keys of its items.
- Theorem `get_index`: an index holds under each key the value of its last item.
- Theorem `mem_of_mem_index`: every value of an index is one of the items under its key.
- Theorem `get_foldl_insertNew`: the first item inserted under a key stays.
- Theorem `restrict_set`, `restrict_pop`: assignments and removals seen in a part of the keys.
- Theorem `nodup_keys_group`: grouping items by a key lists every key once.
- Theorem `mem_group`: a group lists the items of its key in order.
-/

namespace Karsa

universe u v

/-- A dictionary as the list of its items. -/
abbrev Dict (κ : Type u) (ν : Type v) := List (κ × ν)

namespace Dict

variable {κ : Type u} {ν : Type v}

/-- `d.keys()`. -/
def keys (d : Dict κ ν) : List κ :=
  d.map Prod.fst

/-- `d.values()`. -/
def values (d : Dict κ ν) : List ν :=
  d.map Prod.snd

@[simp] theorem keys_nil : keys ([] : Dict κ ν) = [] := rfl

variable [DecidableEq κ]

/-- `d[key] = value`. -/
def set (key : κ) (value : ν) : Dict κ ν → Dict κ ν
  | [] => [(key, value)]
  | item :: rest =>
      if item.1 = key then (key, value) :: rest else item :: set key value rest

/-- `d.get(key)`. -/
def get (key : κ) : Dict κ ν → Option ν
  | [] => none
  | item :: rest => if item.1 = key then some item.2 else get key rest

/-- `d.pop(key, None)`. -/
def pop (key : κ) (d : Dict κ ν) : Dict κ ν :=
  d.filter fun item => decide (item.1 ≠ key)

@[simp] theorem get_nil (key : κ) : get key ([] : Dict κ ν) = none := rfl

/-- An assigned value is the one read back. -/
@[simp] theorem get_set_self (d : Dict κ ν) (key : κ) (value : ν) :
    (d.set key value).get key = some value := by
  induction d with
  | nil => simp [set, get]
  | cons item rest ih =>
      by_cases hkey : item.1 = key
      · simp [set, get, hkey]
      · simp [set, get, hkey, ih]

/-- An assignment leaves the other keys. -/
theorem get_set_of_ne {k key : κ} (hne : k ≠ key) (d : Dict κ ν) (value : ν) :
    (d.set key value).get k = d.get k := by
  induction d with
  | nil => simp [set, get, hne.symm]
  | cons item rest ih =>
      by_cases hkey : item.1 = key
      · simp [set, get, hkey, hne.symm]
      · simp [set, get, hkey, ih]

/-- What the values of a dictionary add up to. -/
def total {M : Type*} [AddCommMonoid M] (weight : ν → M) (d : Dict κ ν) : M :=
  (d.map fun item => weight item.2).sum

/-- An assignment replaces the weight of the value it overwrites. -/
theorem total_set {M : Type*} [AddCommMonoid M] (weight : ν → M) (d : Dict κ ν) (key : κ)
    (value : ν) :
    (d.set key value).total weight + ((d.get key).map weight).getD 0 =
      d.total weight + weight value := by
  unfold total
  induction d with
  | nil => simp [set, get]
  | cons item rest ih =>
      by_cases hkey : item.1 = key
      · simp [set, get, hkey, add_comm, add_left_comm]
      · simp only [set, get, hkey, if_false, List.map_cons, List.sum_cons]
        rw [add_assoc, ih, add_assoc]

/-- A popped key is gone. -/
@[simp] theorem get_pop_self (d : Dict κ ν) (key : κ) : (d.pop key).get key = none := by
  induction d with
  | nil => rfl
  | cons item rest ih =>
      by_cases hkey : item.1 = key
      · simpa [pop, hkey] using ih
      · simpa [pop, get, hkey] using ih

/-- Popping leaves the other keys. -/
theorem get_pop_of_ne {k key : κ} (hne : k ≠ key) (d : Dict κ ν) :
    (d.pop key).get k = d.get k := by
  induction d with
  | nil => rfl
  | cons item rest ih =>
      by_cases hkey : item.1 = key
      · have hk : ¬ key = k := fun h => hne h.symm
        simpa [pop, get, hkey, hk] using ih
      · by_cases hk : item.1 = k
        · simp [pop, get, hk, hne]
        · simpa [pop, get, hkey, hk] using ih

/-- A key that is read has an item. -/
theorem mem_keys_of_get {d : Dict κ ν} {key : κ} {value : ν} (h : d.get key = some value) :
    key ∈ d.keys := by
  induction d with
  | nil => cases h
  | cons item rest ih =>
      by_cases hkey : item.1 = key
      · simp [keys, hkey]
      · have hrest : key ∈ keys rest := ih (by simpa [get, hkey] using h)
        exact List.mem_cons_of_mem item.1 hrest

/-- A value that is read is an item under its key. -/
theorem mem_of_get {d : Dict κ ν} {key : κ} {value : ν} (h : d.get key = some value) :
    (key, value) ∈ d := by
  induction d with
  | nil => cases h
  | cons item rest ih =>
      rw [get] at h
      split_ifs at h with hkey
      · have hvalue : item.2 = value := Option.some.inj h
        rw [← hkey, ← hvalue]
        exact List.mem_cons_self
      · exact List.mem_cons_of_mem item (ih h)

/-- A key with an item is read. -/
theorem exists_get_of_mem_keys {d : Dict κ ν} {key : κ} (h : key ∈ d.keys) :
    ∃ value, d.get key = some value := by
  induction d with
  | nil => cases h
  | cons item rest ih =>
      rw [get]
      split_ifs with hkey
      · exact ⟨item.2, rfl⟩
      · rcases List.mem_cons.mp h with heq | hrest
        · exact absurd heq.symm hkey
        · exact ih hrest

/-- Assign the items of a list one after the other. -/
def index (items : List (κ × ν)) : Dict κ ν :=
  items.foldl (fun d item => d.set item.1 item.2) []

/-- An assignment adds its key and keeps the others. -/
@[simp] theorem mem_keys_set {d : Dict κ ν} {key k : κ} {value : ν} :
    k ∈ (d.set key value).keys ↔ k = key ∨ k ∈ d.keys := by
  induction d with
  | nil => simp [set, keys]
  | cons item rest ih =>
      simp only [keys] at ih
      by_cases hkey : item.1 = key
      · simp [set, keys, hkey]
      · simp only [set, hkey, if_false, keys, List.map_cons, List.mem_cons, ih]
        exact or_left_comm

/-- An item after an assignment is the assigned one or an old one. -/
theorem mem_set {d : Dict κ ν} {key : κ} {value : ν} {item : κ × ν}
    (h : item ∈ d.set key value) : item = (key, value) ∨ item ∈ d := by
  induction d with
  | nil => simpa [set] using h
  | cons first rest ih =>
      by_cases hkey : first.1 = key
      · simp only [set, hkey, if_true, List.mem_cons] at h
        rcases h with h | h
        · exact Or.inl h
        · exact Or.inr (List.mem_cons_of_mem first h)
      · simp only [set, hkey, if_false, List.mem_cons] at h
        rcases h with h | h
        · exact Or.inr (h ▸ List.mem_cons_self)
        · rcases ih h with hnew | hold
          · exact Or.inl hnew
          · exact Or.inr (List.mem_cons_of_mem first hold)

theorem mem_keys_foldl {items : List (κ × ν)} {d : Dict κ ν} {k : κ} :
    k ∈ (items.foldl (fun d item => d.set item.1 item.2) d).keys ↔
      k ∈ items.map Prod.fst ∨ k ∈ d.keys := by
  induction items generalizing d with
  | nil => simp
  | cons item rest ih =>
      rw [List.foldl_cons, ih, mem_keys_set, List.map_cons, List.mem_cons, or_left_comm,
        or_assoc]

theorem mem_of_mem_foldl {items : List (κ × ν)} {d : Dict κ ν} {item : κ × ν}
    (h : item ∈ items.foldl (fun d item => d.set item.1 item.2) d) :
    item ∈ items ∨ item ∈ d := by
  induction items generalizing d with
  | nil => exact Or.inr h
  | cons first rest ih =>
      rcases ih h with hrest | hset
      · exact Or.inl (List.mem_cons_of_mem first hrest)
      · rcases mem_set hset with hnew | hold
        · exact Or.inl (hnew ▸ List.mem_cons_self)
        · exact Or.inr hold

/-- The keys of an index are the keys of its items. -/
@[simp] theorem mem_keys_index {items : List (κ × ν)} {k : κ} :
    k ∈ (index items).keys ↔ k ∈ items.map Prod.fst := by
  rw [index, mem_keys_foldl, keys_nil]
  simp

/-- Every entry of an index is one of the items. -/
theorem mem_of_mem_index {items : List (κ × ν)} {item : κ × ν} (h : item ∈ index items) :
    item ∈ items := by
  rcases mem_of_mem_foldl h with hitem | hnil
  · exact hitem
  · cases hnil

/-- Every item has an entry under its key. -/
theorem exists_mem_index {items : List (κ × ν)} {item : κ × ν} (h : item ∈ items) :
    ∃ value, (item.1, value) ∈ index items := by
  have hkey : item.1 ∈ (index items).keys :=
    mem_keys_index.mpr (List.mem_map_of_mem h)
  rcases List.mem_map.mp hkey with ⟨entry, hentry, hfst⟩
  exact ⟨entry.2, by rw [← hfst]; exact hentry⟩

/-- An index is empty exactly when it has no items. -/
@[simp] theorem index_eq_nil {items : List (κ × ν)} : index items = [] ↔ items = [] := by
  constructor
  · intro h
    apply List.eq_nil_iff_forall_not_mem.mpr
    intro item hitem
    rcases exists_mem_index hitem with ⟨value, hvalue⟩
    rw [h] at hvalue
    cases hvalue
  · rintro rfl
    rfl

/-- A run of assignments leaves under each key the last value assigned to it. -/
theorem get_foldl_set (items : List (κ × ν)) (d : Dict κ ν) (key : κ) :
    (items.foldl (fun d item => d.set item.1 item.2) d).get key =
      ((items.filter fun item => decide (item.1 = key)).getLast?.map Prod.snd).or (d.get key) := by
  induction items generalizing d with
  | nil => simp
  | cons item rest ih =>
      rw [List.foldl_cons, ih]
      by_cases hkey : item.1 = key
      · rw [List.filter_cons_of_pos (by simpa using hkey), ← hkey, get_set_self,
          List.getLast?_cons]
        cases (rest.filter fun other => decide (other.1 = item.1)).getLast? <;> simp
      · rw [List.filter_cons_of_neg (by simpa using hkey),
          get_set_of_ne (fun h => hkey h.symm)]

/-- An index holds under each key the last item's value. -/
theorem get_index (items : List (κ × ν)) (key : κ) :
    (index items).get key =
      (items.filter fun item => decide (item.1 = key)).getLast?.map Prod.snd := by
  rw [index, get_foldl_set, get_nil, Option.or_none]

/-- An assignment lists no key twice. -/
theorem nodup_keys_set {d : Dict κ ν} (hd : d.keys.Nodup) (key : κ) (value : ν) :
    (d.set key value).keys.Nodup := by
  induction d with
  | nil => simp [set, keys]
  | cons item rest ih =>
      rw [keys, List.map_cons, List.nodup_cons] at hd
      rcases hd with ⟨hfirst, hrest⟩
      rw [set]
      split_ifs with hkey
      · rw [keys, List.map_cons, List.nodup_cons, ← hkey]
        exact ⟨hfirst, hrest⟩
      · rw [keys, List.map_cons, List.nodup_cons]
        refine ⟨fun hmem => ?_, ih hrest⟩
        rcases mem_keys_set.mp hmem with heq | hold
        · exact hkey heq
        · exact hfirst hold

omit [DecidableEq κ] in
/-- A loop whose steps list no key twice ends with such a dictionary. -/
theorem nodup_keys_foldl {α : Type*} {step : Dict κ ν → α → Dict κ ν}
    (hstep : ∀ d a, d.keys.Nodup → (step d a).keys.Nodup) (items : List α) {d : Dict κ ν}
    (hd : d.keys.Nodup) : (items.foldl step d).keys.Nodup := by
  induction items generalizing d with
  | nil => exact hd
  | cons item rest ih => exact ih (hstep d item hd)

/-- An index lists every key once. -/
theorem nodup_keys_index (items : List (κ × ν)) : (index items).keys.Nodup :=
  nodup_keys_foldl (fun _ item hd => nodup_keys_set hd item.1 item.2) items List.nodup_nil

/-- `d.update(other)`: the other dictionary's values come first. -/
theorem get_foldl_of_nodup {other : Dict κ ν} (hnodup : other.keys.Nodup) (d : Dict κ ν)
    (key : κ) :
    (other.foldl (fun d item => d.set item.1 item.2) d).get key =
      (other.get key).or (d.get key) := by
  induction other generalizing d with
  | nil => simp
  | cons item rest ih =>
      rw [keys, List.map_cons, List.nodup_cons] at hnodup
      rw [List.foldl_cons, ih hnodup.2, get]
      split_ifs with hkey
      · have hnone : get key rest = none := by
          cases h : get key rest with
          | none => rfl
          | some value => exact absurd (hkey ▸ mem_keys_of_get h) hnodup.1
        rw [hnone, ← hkey, get_set_self]
        rfl
      · rw [get_set_of_ne (fun h => hkey h.symm)]

/-- An assignment to a new key goes to the end. -/
theorem set_of_not_mem {d : Dict κ ν} {key : κ} (hkey : key ∉ d.keys) (value : ν) :
    d.set key value = d ++ [(key, value)] := by
  induction d with
  | nil => rfl
  | cons item rest ih =>
      rw [keys, List.map_cons, List.mem_cons, not_or] at hkey
      have hne : item.1 ≠ key := fun h => hkey.1 h.symm
      rw [set, if_neg hne, ih hkey.2, List.cons_append]

/-- Items under different keys make up their index. -/
theorem index_of_nodup {items : List (κ × ν)} (hnodup : (keys items).Nodup) :
    index items = items := by
  have hfold : ∀ d : Dict κ ν, (∀ k ∈ keys items, k ∉ d.keys) →
      items.foldl (fun d item => d.set item.1 item.2) d = d ++ items := by
    induction items with
    | nil => simp
    | cons item rest ih =>
        intro d hd
        rw [keys, List.map_cons, List.nodup_cons] at hnodup
        have hnew : item.1 ∉ d.keys := hd item.1 (by simp [keys])
        rw [List.foldl_cons, set_of_not_mem hnew, ih hnodup.2, List.append_assoc]
        · rfl
        · intro k hk hmem
          rw [keys, List.map_append, List.mem_append] at hmem
          rcases hmem with hold | hlast
          · exact hd k (List.mem_cons_of_mem item.1 hk) hold
          · have heq : k = item.1 := by simpa using hlast
            exact hnodup.1 (heq ▸ hk)
  exact hfold [] (by simp)

/-! ## Insertions that keep what is there -/

/-- `INSERT ... ON CONFLICT DO NOTHING`. -/
def insertNew (key : κ) (value : ν) (d : Dict κ ν) : Dict κ ν :=
  if key ∈ d.keys then d else d.set key value

/-- An insertion shows under a new key only. -/
theorem get_insertNew (key k : κ) (value : ν) (d : Dict κ ν) :
    (d.insertNew key value).get k = (d.get k).or (if key = k then some value else none) := by
  unfold insertNew
  split_ifs with hmem hkey hkey
  · rcases exists_get_of_mem_keys hmem with ⟨old, hold⟩
    rw [← hkey, hold]
    rfl
  · rw [Option.or_none]
  · have hnone : d.get k = none := by
      cases hget : d.get k with
      | none => rfl
      | some old => exact absurd (hkey ▸ mem_keys_of_get hget) hmem
    rw [← hkey, get_set_self, hkey, hnone]
    rfl
  · rw [get_set_of_ne (fun h => hkey h.symm), Option.or_none]

/-- Of the items inserted under a key the first one stays, unless the key was there before. -/
theorem get_foldl_insertNew (items : List (κ × ν)) (d : Dict κ ν) (k : κ) :
    (items.foldl (fun d item => d.insertNew item.1 item.2) d).get k =
      (d.get k).or (get k items) := by
  induction items generalizing d with
  | nil => rw [List.foldl_nil, get_nil, Option.or_none]
  | cons item rest ih =>
      rw [List.foldl_cons, ih, get_insertNew, Option.or_assoc, get]
      split_ifs <;> rfl

/-! ## Groups -/

/-- `d.setdefault(key, []).append(value)`. -/
def push (key : κ) (value : ν) : Dict κ (List ν) → Dict κ (List ν)
  | [] => [(key, [value])]
  | item :: rest =>
      if item.1 = key then (key, item.2 ++ [value]) :: rest else item :: push key value rest

/-- Append the items of a list one after the other to the groups of their keys. -/
def group (items : List (κ × ν)) : Dict κ (List ν) :=
  items.foldl (fun d item => d.push item.1 item.2) []

/-- Appending to a group assigns the longer group to its key. -/
theorem push_eq_set (key : κ) (value : ν) (d : Dict κ (List ν)) :
    d.push key value = d.set key ((d.get key).getD [] ++ [value]) := by
  induction d with
  | nil => rfl
  | cons item rest ih =>
      rw [push, set, get, ih]
      split_ifs <;> rfl

/-- Every key has one group. -/
theorem nodup_keys_group (items : List (κ × ν)) : (group items).keys.Nodup := by
  refine nodup_keys_foldl (fun d item hd => ?_) items List.nodup_nil
  rw [push_eq_set]
  exact nodup_keys_set hd item.1 _

/-- An item of a dictionary is what its key reads. -/
theorem get_of_mem {d : Dict κ ν} (hd : d.keys.Nodup) {key : κ} {value : ν}
    (h : (key, value) ∈ d) : d.get key = some value := by
  induction d with
  | nil => cases h
  | cons item rest ih =>
      rw [keys, List.map_cons, List.nodup_cons] at hd
      rcases List.mem_cons.mp h with heq | hrest
      · rw [← heq, get, if_pos rfl]
      · have hne : ¬ item.1 = key := by
          rintro rfl
          have hmem := List.mem_map_of_mem (f := Prod.fst) hrest
          exact hd.1 hmem
        rw [get, if_neg hne, ih hd.2 hrest]

/-- Appending items one after the other extends the group of each key by the key's items. -/
theorem get_foldl_push (items : List (κ × ν)) (d : Dict κ (List ν)) (key : κ) :
    (items.foldl (fun d item => d.push item.1 item.2) d).get key =
      if (items.filter fun item => decide (item.1 = key)) = [] then d.get key
      else some ((d.get key).getD [] ++
        (items.filter fun item => decide (item.1 = key)).map Prod.snd) := by
  induction items generalizing d with
  | nil => rfl
  | cons item rest ih =>
      rw [List.foldl_cons, ih, push_eq_set]
      by_cases hkey : item.1 = key
      · rw [List.filter_cons_of_pos (by simpa using hkey), if_neg (List.cons_ne_nil _ _),
          ← hkey, get_set_self]
        split_ifs with hrest
        · simp [hrest]
        · simp
      · rw [List.filter_cons_of_neg (by simpa using hkey),
          get_set_of_ne (fun h => hkey h.symm)]

/-- A group lists the items of its key in order, and every key with an item has one. -/
theorem mem_group {items : List (κ × ν)} {key : κ} {values : List ν} :
    (key, values) ∈ group items ↔
      values = (items.filter fun item => decide (item.1 = key)).map Prod.snd ∧ values ≠ [] := by
  have hget := get_foldl_push items [] key
  rw [get_nil, Option.getD_none, List.nil_append] at hget
  constructor
  · intro hmem
    have hvalues := get_of_mem (nodup_keys_group items) hmem
    rw [group, hget] at hvalues
    split_ifs at hvalues with hnil
    obtain rfl := Option.some.inj hvalues
    exact ⟨rfl, by simpa using hnil⟩
  · rintro ⟨rfl, hne⟩
    rw [if_neg (by simpa using hne)] at hget
    exact mem_of_get hget

section Rename

variable {κ' : Type*} [DecidableEq κ'] {rename : κ → κ'}

omit [DecidableEq κ] [DecidableEq κ'] in
/-- Give every key another name. -/
def mapKeys (rename : κ → κ') (d : Dict κ ν) : Dict κ' ν :=
  d.map fun entry => (rename entry.1, entry.2)

omit [DecidableEq κ] [DecidableEq κ'] in
theorem mapKeys_cons (item : κ × ν) (d : Dict κ ν) :
    mapKeys rename (item :: d) = (rename item.1, item.2) :: mapKeys rename d := rfl

/-- Appending under a renamed key, where no other key gets its name. -/
theorem push_mapKeys {d : Dict κ (List ν)} {key : κ}
    (hd : ∀ k ∈ d.keys, rename k = rename key → k = key) (value : ν) :
    push (rename key) value (mapKeys rename d) = mapKeys rename (d.push key value) := by
  induction d with
  | nil => rfl
  | cons entry rest ih =>
      have hrest := ih fun k hk => hd k (List.mem_cons_of_mem entry.1 hk)
      rw [mapKeys] at hrest
      by_cases hkey : entry.1 = key
      · simp [mapKeys, push, hkey]
      · have hne : ¬ rename entry.1 = rename key := fun h =>
          hkey (hd entry.1 List.mem_cons_self h)
        simpa [mapKeys, push, hkey, hne] using hrest

theorem foldl_push_mapKeys {items : List (κ × ν)} {d : Dict κ (List ν)}
    (hinj : ∀ k ∈ items.map Prod.fst, ∀ k', k' ∈ items.map Prod.fst ∨ k' ∈ d.keys →
      rename k' = rename k → k' = k) :
    (mapKeys rename items).foldl (fun d item => d.push item.1 item.2) (mapKeys rename d) =
      mapKeys rename (items.foldl (fun d item => d.push item.1 item.2) d) := by
  induction items generalizing d with
  | nil => rfl
  | cons item rest ih =>
      have hfirst : item.1 ∈ (item :: rest).map Prod.fst := List.mem_cons_self
      rw [mapKeys_cons, List.foldl_cons, List.foldl_cons,
        push_mapKeys fun k hk => hinj item.1 hfirst k (Or.inr hk)]
      refine ih fun k hk k' hk' => hinj k (List.mem_cons_of_mem item.1 hk) k' ?_
      rcases hk' with hk' | hk'
      · exact Or.inl (List.mem_cons_of_mem item.1 hk')
      · rw [push_eq_set] at hk'
        rcases mem_keys_set.mp hk' with heq | hold
        · exact Or.inl (heq ▸ hfirst)
        · exact Or.inr hold

/-- The keys may be renamed before or after the grouping if no two of them become one. -/
theorem group_mapKeys {items : List (κ × ν)}
    (hinj : Set.InjOn rename {k | k ∈ items.map Prod.fst}) :
    group (mapKeys rename items) = mapKeys rename (group items) := by
  refine foldl_push_mapKeys (d := []) fun k hk k' hk' hname => ?_
  rcases hk' with hk' | hk'
  · exact hinj hk' hk hname
  · cases hk'

end Rename

/-! ## Parts -/

/-- The items whose keys have a property. -/
def restrict (p : κ → Bool) (d : Dict κ ν) : Dict κ ν :=
  d.filter fun item => p item.1

omit [DecidableEq κ] in
/-- The keys of a part. -/
theorem keys_restrict (p : κ → Bool) (d : Dict κ ν) :
    (d.restrict p).keys = d.keys.filter p := by
  rw [keys, keys, List.filter_map]
  rfl

/-- A part holds what the whole holds under its keys. -/
theorem get_restrict {p : κ → Bool} {key : κ} (hkey : p key = true) (d : Dict κ ν) :
    (d.restrict p).get key = d.get key := by
  induction d with
  | nil => rfl
  | cons item rest ih =>
      rw [restrict] at ih
      by_cases hitem : item.1 = key
      · simp [restrict, get, hitem, hkey]
      · by_cases hp : p item.1 = true
        · simpa [restrict, get, hitem, hp] using ih
        · simpa [restrict, get, hitem, hp] using ih

/-- An assignment shows in the part if its key belongs there. -/
theorem restrict_set (p : κ → Bool) (key : κ) (d : Dict κ ν) (value : ν) :
    (d.set key value).restrict p =
      if p key = true then (d.restrict p).set key value else d.restrict p := by
  induction d with
  | nil => by_cases hkey : p key = true <;> simp [set, restrict, hkey]
  | cons item rest ih =>
      rw [restrict, restrict] at ih
      by_cases hitem : item.1 = key
      · by_cases hkey : p key = true <;> simp [set, restrict, hitem, hkey]
      · by_cases hp : p item.1 = true <;> by_cases hkey : p key = true <;>
          simpa [set, restrict, hitem, hp, hkey] using ih

/-- Popping a key and taking a part commute. -/
theorem restrict_pop (p : κ → Bool) (key : κ) (d : Dict κ ν) :
    (d.pop key).restrict p = (d.restrict p).pop key := by
  rw [pop, restrict, pop, restrict, List.filter_filter, List.filter_filter]
  congr 1
  funext item
  exact Bool.and_comm _ _

/-- Popping a key outside the part. -/
theorem restrict_pop_of_not {p : κ → Bool} {key : κ} (hkey : p key = false) (d : Dict κ ν) :
    (d.pop key).restrict p = d.restrict p := by
  rw [restrict_pop, pop, List.filter_eq_self]
  intro item hitem
  have hp : p item.1 = true := by simpa using (List.mem_filter.mp hitem).2
  have hne : item.1 ≠ key := by
    rintro rfl
    rw [hp] at hkey
    cases hkey
  exact decide_eq_true hne

end Dict
end Karsa

import Autoflow.Table.Assoc

/-!
# Maps in insertion order

`OrderedMap κ ν` is a finite map that remembers the order in which its keys came in. Its
list of pairs holds every key once. Storing under a key that is present keeps its place;
taking a key out leaves the order of the others alone.
-/

namespace Autoflow

/-- A finite map listed in insertion order. -/
structure OrderedMap (κ ν : Type) where
  /-- The pairs, in insertion order. -/
  toList : List (κ × ν)
  /-- No key occurs twice. -/
  nodup : (Assoc.keys toList).Nodup

namespace OrderedMap

variable {κ ν : Type}

@[ext] theorem ext {m n : OrderedMap κ ν} (h : m.toList = n.toList) : m = n := by
  cases m; cases n; cases h; rfl

instance [DecidableEq κ] [DecidableEq ν] : DecidableEq (OrderedMap κ ν) := fun m n =>
  decidable_of_iff (m.toList = n.toList) ⟨ext, fun h => h ▸ rfl⟩

/-- The map without keys. -/
def empty : OrderedMap κ ν := ⟨[], List.nodup_nil⟩

instance : EmptyCollection (OrderedMap κ ν) := ⟨empty⟩

instance : Inhabited (OrderedMap κ ν) := ⟨empty⟩

/-- The map with a single key. -/
def single (k : κ) (v : ν) : OrderedMap κ ν := ⟨[(k, v)], by simp⟩

/-- The keys, in insertion order. -/
def keys (m : OrderedMap κ ν) : List κ := Assoc.keys m.toList

/-- The values, in the order of their keys. -/
def values (m : OrderedMap κ ν) : List ν := m.toList.map Prod.snd

/-- The number of keys. -/
def size (m : OrderedMap κ ν) : Nat := m.toList.length

/-- Whether there is no key. -/
def isEmpty (m : OrderedMap κ ν) : Bool := m.toList.isEmpty

@[simp] theorem toList_empty : (empty : OrderedMap κ ν).toList = [] := rfl

variable [DecidableEq κ]

/-- The value stored under a key. -/
def get? (m : OrderedMap κ ν) (k : κ) : Option ν := Assoc.find? k m.toList

/-- Whether a key is present. -/
def contains (m : OrderedMap κ ν) (k : κ) : Bool := (m.get? k).isSome

/-- Stores a value, in the place of the key if it is present and at the end otherwise. -/
def insert (m : OrderedMap κ ν) (k : κ) (v : ν) : OrderedMap κ ν :=
  ⟨Assoc.put k v m.toList, Assoc.nodup_keys_put m.nodup⟩

/-- Takes a key out. -/
def erase (m : OrderedMap κ ν) (k : κ) : OrderedMap κ ν :=
  ⟨Assoc.drop k m.toList, by rw [Assoc.keys_drop]; exact m.nodup.erase k⟩

/-- Changes the value of a key that is present. -/
def modify (m : OrderedMap κ ν) (k : κ) (f : ν → ν) : OrderedMap κ ν :=
  ⟨Assoc.change k f m.toList, by rw [Assoc.keys_change]; exact m.nodup⟩

/-- Stores a value under a new key right behind `anchor`, first in the map if no anchor is
given and last if the anchor is missing. A key that is present keeps its value. -/
def insertAfter (m : OrderedMap κ ν) (anchor : Option κ) (k : κ) (v : ν) : OrderedMap κ ν :=
  if h : k ∈ Assoc.keys m.toList then m
  else
    match anchor with
    | none => ⟨(k, v) :: m.toList, List.nodup_cons.2 ⟨h, m.nodup⟩⟩
    | some a => ⟨Assoc.putAfter a k v m.toList, Assoc.nodup_keys_putAfter m.nodup h⟩

/-- The map read from a list of pairs: a repeated key keeps its first place and takes its
last value. -/
def ofList (l : List (κ × ν)) : OrderedMap κ ν := l.foldl (fun m p => m.insert p.1 p.2) empty

@[simp] theorem get?_empty (k : κ) : (empty : OrderedMap κ ν).get? k = none := rfl

theorem get?_insert (m : OrderedMap κ ν) (k k' : κ) (v : ν) :
    (m.insert k v).get? k' = if k = k' then some v else m.get? k' :=
  Assoc.find?_put k k' v m.toList

/-- A change is applied under its own key alone, if that is there. -/
theorem get?_modify (m : OrderedMap κ ν) (k k' : κ) (f : ν → ν) :
    (m.modify k f).get? k' = if k = k' then (m.get? k').map f else m.get? k' :=
  Assoc.find?_change k k' f m.toList

theorem get?_erase (m : OrderedMap κ ν) (k k' : κ) :
    (m.erase k).get? k' = if k = k' then none else m.get? k' :=
  Assoc.find?_drop m.nodup k k'

/-- A key put behind another one keeps its value if it is there already. -/
theorem get?_insertAfter (m : OrderedMap κ ν) (anchor : Option κ) (k k' : κ) (v : ν) :
    (m.insertAfter anchor k v).get? k' =
      if k = k' then some ((m.get? k).getD v) else m.get? k' := by
  unfold insertAfter
  split
  · next h =>
    by_cases e : k = k'
    · subst e
      obtain ⟨w, hw⟩ := Option.isSome_iff_exists.1 (Assoc.find?_isSome_iff.2 h)
      simp [get?, hw]
    · simp [e]
  · next h =>
    have none_at : m.get? k = none := Assoc.find?_eq_none_iff.2 h
    rw [none_at]
    cases anchor with
    | none => rfl
    | some a => exact Assoc.find?_putAfter h k'

@[simp] theorem get?_single (k k' : κ) (v : ν) :
    (single k v).get? k' = if k = k' then some v else none := by
  simp [single, get?, Assoc.find?]

@[simp] theorem keys_modify (m : OrderedMap κ ν) (k : κ) (f : ν → ν) :
    (m.modify k f).keys = m.keys :=
  Assoc.keys_change k f m.toList

@[simp] theorem keys_erase (m : OrderedMap κ ν) (k : κ) : (m.erase k).keys = m.keys.erase k :=
  Assoc.keys_drop k m.toList

theorem contains_iff {m : OrderedMap κ ν} {k : κ} : m.contains k = true ↔ k ∈ m.keys :=
  Assoc.find?_isSome_iff

theorem mem_keys_iff {m : OrderedMap κ ν} {k : κ} : k ∈ m.keys ↔ ∃ v, m.get? k = some v := by
  rw [← contains_iff, contains, Option.isSome_iff_exists]

theorem get?_eq_none_iff {m : OrderedMap κ ν} {k : κ} : m.get? k = none ↔ k ∉ m.keys :=
  Assoc.find?_eq_none_iff

/-- The entries of a map are what look-ups find. -/
theorem mem_toList_iff {m : OrderedMap κ ν} {k : κ} {v : ν} :
    (k, v) ∈ m.toList ↔ m.get? k = some v :=
  Assoc.mem_iff_find? m.nodup

theorem mem_of_get? {m : OrderedMap κ ν} {k : κ} {v : ν} (h : m.get? k = some v) :
    (k, v) ∈ m.toList :=
  Assoc.mem_of_find? h

/-- The keys after an insertion are those before and the new one. -/
theorem mem_keys_insert {m : OrderedMap κ ν} {k k' : κ} {v : ν} :
    k' ∈ (m.insert k v).keys ↔ k' = k ∨ k' ∈ m.keys := by
  rw [mem_keys_iff, mem_keys_iff]
  by_cases same : k = k'
  · simp [get?_insert, same]
  · simp [get?_insert, same, Ne.symm same]

/-- What a map holds that was read from a list comes from that list. -/
theorem mem_of_get?_ofList {l : List (κ × ν)} {k : κ} {v : ν} (h : (ofList l).get? k = some v) :
    (k, v) ∈ l := by
  have fold : ∀ (l : List (κ × ν)) (m : OrderedMap κ ν),
      (l.foldl (fun m p => m.insert p.1 p.2) m).get? k = some v →
        m.get? k = some v ∨ (k, v) ∈ l := by
    intro l
    induction l with
    | nil => exact fun m h => Or.inl h
    | cons p l ih =>
      intro m h
      rcases ih _ h with held | mem
      · rw [get?_insert] at held
        split at held
        · next same =>
          cases held
          exact Or.inr (List.mem_cons.2 (Or.inl (Prod.ext same.symm rfl)))
        · exact Or.inl held
      · exact Or.inr (List.mem_cons_of_mem p mem)
  rcases fold l empty h with held | mem
  · cases held
  · exact mem

end OrderedMap

end Autoflow

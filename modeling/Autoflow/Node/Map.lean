import Autoflow.Node.Id
import Autoflow.Table.Assoc

/-!
# Maps from nodes, listed by id

`NodeMap ν` is a finite map from node ids. Its list of pairs is strictly increasing in the
id, so that two maps with the same look-ups have the same list.
-/

namespace Autoflow

namespace NodeMap

variable {ν : Type}

/-- Stores a value at its place in a list that increases in the id. -/
def put (k : NodeId) (v : ν) : List (NodeId × ν) → List (NodeId × ν)
  | [] => [(k, v)]
  | p :: rest =>
    if p.1 < k then p :: put k v rest
    else if p.1 = k then (k, v) :: rest
    else (k, v) :: p :: rest

/-- The pairs increase strictly in the id. -/
abbrev Sorted (l : List (NodeId × ν)) : Prop := l.Pairwise fun a b => a.1 < b.1

theorem fst_of_mem_put {k : NodeId} {v : ν} {l : List (NodeId × ν)} {p : NodeId × ν}
    (h : p ∈ put k v l) : p.1 = k ∨ p ∈ l := by
  induction l with
  | nil => simp_all [put]
  | cons q l ih =>
    unfold put at h
    split at h
    · rcases List.mem_cons.1 h with h | h
      · exact Or.inr (h ▸ List.mem_cons_self)
      · exact (ih h).imp id (List.mem_cons_of_mem _)
    · split at h
      · rcases List.mem_cons.1 h with h | h
        · exact Or.inl (h ▸ rfl)
        · exact Or.inr (List.mem_cons_of_mem _ h)
      · rcases List.mem_cons.1 h with h | h
        · exact Or.inl (h ▸ rfl)
        · exact Or.inr h

/-- Adding a key keeps the order. -/
theorem sorted_put {k : NodeId} {v : ν} {l : List (NodeId × ν)} (h : Sorted l) :
    Sorted (put k v l) := by
  induction l with
  | nil => simp [put]
  | cons q l ih =>
    have ⟨hq, hl⟩ := List.pairwise_cons.1 h
    unfold put
    split
    · next hlt =>
      refine List.pairwise_cons.2 ⟨fun p hp => ?_, ih hl⟩
      rcases fst_of_mem_put hp with e | m
      · exact e ▸ hlt
      · exact hq p m
    · split
      · next e => exact List.pairwise_cons.2 ⟨fun p hp => e ▸ hq p hp, hl⟩
      · next hn he =>
        have hlt : k < q.1 := by
          rcases NodeId.lt_or_eq_or_gt q.1 k with h | h | h
          · exact absurd h hn
          · exact absurd h he
          · exact h
        refine List.pairwise_cons.2 ⟨fun p hp => ?_, h⟩
        rcases List.mem_cons.1 hp with e | m
        · exact e ▸ hlt
        · exact NodeId.lt_trans hlt (hq p m)

theorem nodup_keys {l : List (NodeId × ν)} (h : Sorted l) : (Assoc.keys l).Nodup := by
  refine List.pairwise_map.2 (h.imp fun {a b} lt e => ?_)
  rw [e] at lt
  exact NodeId.lt_irrefl _ lt

/-- Lists in order are equal if all look-ups are. -/
theorem eq_of_find?_eq {l m : List (NodeId × ν)} (hl : Sorted l) (hm : Sorted m)
    (h : ∀ k, Assoc.find? k l = Assoc.find? k m) : l = m := by
  have nodup : ∀ {l : List (NodeId × ν)}, Sorted l → l.Nodup := fun s =>
    s.imp fun {a b} lt e => by
      rw [e] at lt
      exact NodeId.lt_irrefl _ lt
  have perm : l.Perm m := (List.perm_ext_iff_of_nodup (nodup hl) (nodup hm)).2 fun p => by
    obtain ⟨k, v⟩ := p
    rw [Assoc.mem_iff_find? (nodup_keys hl), Assoc.mem_iff_find? (nodup_keys hm), h]
  refine perm.eq_of_pairwise (fun a b _ _ lt gt => ?_) hl hm
  exact absurd (NodeId.lt_trans lt gt) (NodeId.lt_irrefl _)

theorem find?_put (k k' : NodeId) (v : ν) (l : List (NodeId × ν)) :
    Assoc.find? k' (put k v l) = if k = k' then some v else Assoc.find? k' l := by
  induction l with
  | nil => simp [put, Assoc.find?]
  | cons q l ih =>
    unfold put
    split
    · next hlt =>
      by_cases h : q.1 = k'
      · have : ¬ k = k' := by
          rintro rfl
          exact NodeId.lt_irrefl _ (h ▸ hlt)
        simp [Assoc.find?, h, this]
      · simp [Assoc.find?, h, ih]
    · split
      · next e => by_cases h : k = k' <;> simp [Assoc.find?, e, h]
      · simp [Assoc.find?]

/-- Dropping a key leaves the other ones in their order. -/
theorem sublist_drop (k : NodeId) (l : List (NodeId × ν)) : (Assoc.drop k l).Sublist l := by
  induction l with
  | nil => exact List.Sublist.refl _
  | cons q l ih =>
    by_cases h : q.1 = k
    · simp [Assoc.drop, h]
    · simp [Assoc.drop, h, ih]

end NodeMap

/-- A finite map from node ids, listed by id. -/
structure NodeMap (ν : Type) where
  /-- The pairs, by increasing id. -/
  toList : List (NodeId × ν)
  /-- Ids increase strictly. -/
  sorted : NodeMap.Sorted toList

namespace NodeMap

variable {ν : Type}

@[ext] theorem ext {m n : NodeMap ν} (h : m.toList = n.toList) : m = n := by
  cases m; cases n; cases h; rfl

instance [DecidableEq ν] : DecidableEq (NodeMap ν) := fun m n =>
  decidable_of_iff (m.toList = n.toList) ⟨ext, fun h => h ▸ rfl⟩

/-- The map without ids. -/
def empty : NodeMap ν := ⟨[], List.Pairwise.nil⟩

instance : EmptyCollection (NodeMap ν) := ⟨empty⟩

instance : Inhabited (NodeMap ν) := ⟨empty⟩

/-- The ids, in increasing order. -/
def ids (m : NodeMap ν) : List NodeId := Assoc.keys m.toList

/-- The values, by increasing id. -/
def values (m : NodeMap ν) : List ν := m.toList.map Prod.snd

/-- The number of ids. -/
def size (m : NodeMap ν) : Nat := m.toList.length

/-- The value stored under an id. -/
def get? (m : NodeMap ν) (k : NodeId) : Option ν := Assoc.find? k m.toList

/-- Whether an id is present. -/
def contains (m : NodeMap ν) (k : NodeId) : Bool := (m.get? k).isSome

/-- Stores a value, over the one that was there. -/
def insert (m : NodeMap ν) (k : NodeId) (v : ν) : NodeMap ν :=
  ⟨put k v m.toList, sorted_put m.sorted⟩

/-- Takes an id out. -/
def erase (m : NodeMap ν) (k : NodeId) : NodeMap ν :=
  ⟨Assoc.drop k m.toList, m.sorted.sublist (sublist_drop k m.toList)⟩

@[simp] theorem get?_empty (k : NodeId) : (empty : NodeMap ν).get? k = none := rfl

/-- Under the key that was added there is the value, and under all others what was there. -/
theorem get?_insert (m : NodeMap ν) (k k' : NodeId) (v : ν) :
    (m.insert k v).get? k' = if k = k' then some v else m.get? k' :=
  find?_put k k' v m.toList

theorem get?_erase (m : NodeMap ν) (k k' : NodeId) :
    (m.erase k).get? k' = if k = k' then none else m.get? k' :=
  Assoc.find?_drop (nodup_keys m.sorted) k k'

/-- A map is known by its look-ups, since its keys are kept in order. -/
theorem ext_get? {m n : NodeMap ν} (h : ∀ k, m.get? k = n.get? k) : m = n :=
  ext (eq_of_find?_eq m.sorted n.sorted h)

@[simp] theorem ids_erase (m : NodeMap ν) (k : NodeId) : (m.erase k).ids = m.ids.erase k :=
  Assoc.keys_drop k m.toList

theorem contains_iff {m : NodeMap ν} {k : NodeId} : m.contains k = true ↔ k ∈ m.ids :=
  Assoc.find?_isSome_iff

theorem get?_eq_none_iff {m : NodeMap ν} {k : NodeId} : m.get? k = none ↔ k ∉ m.ids :=
  Assoc.find?_eq_none_iff

theorem mem_ids_iff {m : NodeMap ν} {k : NodeId} : k ∈ m.ids ↔ ∃ v, m.get? k = some v := by
  rw [← contains_iff, contains, Option.isSome_iff_exists]

theorem mem_ids_of_get? {m : NodeMap ν} {k : NodeId} {v : ν} (h : m.get? k = some v) : k ∈ m.ids :=
  mem_ids_iff.2 ⟨v, h⟩

/-- The ids of a map that has one more look-up than another one. -/
theorem mem_ids_of_insert {m m' : NodeMap ν} {n : NodeId} {v : ν}
    (h : ∀ k, m'.get? k = if n = k then some v else m.get? k) (k : NodeId) :
    k ∈ m'.ids ↔ k = n ∨ k ∈ m.ids := by
  rw [mem_ids_iff, mem_ids_iff, h k]
  by_cases e : n = k
  · simp [e]
  · simp [e, Ne.symm e]

/-- The ids of a map that has one look-up less than another one. -/
theorem mem_ids_of_erase {m m' : NodeMap ν} {n : NodeId}
    (h : ∀ k, m'.get? k = if n = k then none else m.get? k) (k : NodeId) :
    k ∈ m'.ids ↔ k ≠ n ∧ k ∈ m.ids := by
  rw [mem_ids_iff, mem_ids_iff, h k]
  by_cases e : n = k
  · simp [e]
  · simp [e, Ne.symm e]

theorem mem_ids_insert {m : NodeMap ν} {n k : NodeId} {v : ν} :
    k ∈ (m.insert n v).ids ↔ k = n ∨ k ∈ m.ids :=
  mem_ids_of_insert (fun k => m.get?_insert n k v) k

/-- A value is listed if it is kept under some id. -/
theorem mem_values_iff {m : NodeMap ν} {v : ν} : v ∈ m.values ↔ ∃ k, m.get? k = some v := by
  simp only [values, List.mem_map, Prod.exists, exists_eq_right]
  exact exists_congr fun k => Assoc.mem_iff_find? (nodup_keys m.sorted)

end NodeMap

end Autoflow

import Autoflow.Proofs.Graph.Descent
import Autoflow.Proofs.Graph.Images

/-!
# Edits of an image

If the nodes of a graph are permuted, everything that is done to the image goes as it does to the
graph: a node stands in the slot of the same name (`position_image`), and each edit that succeeds
on the graph succeeds on the image with the image of its result (`insert_image` and its siblings).
The order of entries and outputs is that of the graph, so all of these are equations on lists.
-/

namespace Autoflow

namespace Assoc

variable {κ κ' ν ν' : Type} [DecidableEq κ] [DecidableEq κ'] {f : κ → κ'} (inj : f.Injective)
  (v : ν → ν')

include inj

/-- The keys are renamed without two of them becoming one, so each change of a list of entries can
be made before or after the renaming. Here a key is put. -/
theorem put_map (k : κ) (x : ν) (l : List (κ × ν)) :
    put (f k) (v x) (l.map fun p => (f p.1, v p.2)) = (put k x l).map fun p => (f p.1, v p.2) := by
  induction l with
  | nil => rfl
  | cons p l ih => by_cases same : p.1 = k <;> simp [put, inj.eq_iff, same, ih]

theorem drop_map (k : κ) (l : List (κ × ν)) :
    drop (f k) (l.map fun p => (f p.1, v p.2)) = (drop k l).map fun p => (f p.1, v p.2) := by
  induction l with
  | nil => rfl
  | cons p l ih => by_cases same : p.1 = k <;> simp [drop, inj.eq_iff, same, ih]

theorem change_map {h : ν → ν} {h' : ν' → ν'} (commutes : ∀ x, h' (v x) = v (h x)) (k : κ)
    (l : List (κ × ν)) :
    change (f k) h' (l.map fun p => (f p.1, v p.2)) =
      (change k h l).map fun p => (f p.1, v p.2) := by
  induction l with
  | nil => rfl
  | cons p l ih => by_cases same : p.1 = k <;> simp [change, inj.eq_iff, same, ih, commutes]

theorem putAfter_map (anchor k : κ) (x : ν) (l : List (κ × ν)) :
    putAfter (f anchor) (f k) (v x) (l.map fun p => (f p.1, v p.2)) =
      (putAfter anchor k x l).map fun p => (f p.1, v p.2) := by
  induction l with
  | nil => rfl
  | cons p l ih => by_cases same : p.1 = anchor <;> simp [putAfter, inj.eq_iff, same, ih]

end Assoc

namespace OrderedMap

variable {κ κ' ν ν' : Type} [DecidableEq κ'] {f : κ → κ'} (inj : f.Injective) (v : ν → ν')
  (m : OrderedMap κ ν)

theorem image_empty (f : κ → κ') (v : ν → ν') : (empty : OrderedMap κ ν).image f v = empty := rfl

theorem image_single (f : κ → κ') (k : κ) (x : ν) :
    (single k x).image f v = single (f k) (v x) := rfl

include inj in
theorem keys_image : (m.image f v).keys = m.keys.map f := by
  simp [keys, Assoc.keys, toList_image inj]

include inj in
theorem isEmpty_image : (m.image f v).isEmpty = m.isEmpty := by
  simp [isEmpty, toList_image inj]

variable {m v} in
/-- Only the names of keys that are there matter, and only the values that are. -/
theorem image_congr {f f' : κ → κ'} {v' : ν → ν'}
    (same : ∀ p ∈ m.toList, f p.1 = f' p.1 ∧ v p.2 = v' p.2) : m.image f v = m.image f' v' :=
  congrArg ofList (List.map_congr_left fun p mem => Prod.ext (same p mem).1 (same p mem).2)

theorem image_id {κ : Type} [DecidableEq κ] (m : OrderedMap κ ν) : m.image id id = m :=
  ext ((toList_image Function.injective_id id m).trans (List.map_id m.toList))

include inj in
/-- To rename twice is to rename by the composition. -/
theorem image_image {κ'' ν'' : Type} [DecidableEq κ''] {f' : κ' → κ''} (inj' : f'.Injective)
    (v' : ν' → ν'') : (m.image f v).image f' v' = m.image (f' ∘ f) (v' ∘ v) := by
  refine ext ?_
  rw [toList_image inj', toList_image inj, toList_image (inj'.comp inj), List.map_map]
  rfl

variable [DecidableEq κ]

theorem map_toList : m.toList.map (Prod.map id some) = m.keys.map fun k => (k, m.get? k) := by
  rw [keys, Assoc.keys, List.map_map]
  exact List.map_congr_left fun p mem => Prod.ext rfl (mem_toList_iff.1 mem).symm

/-- Two maps with the same keys in the same order and the same values under them are the same. -/
theorem ext_get? {m n : OrderedMap κ ν} (keys : m.keys = n.keys)
    (values : ∀ k, m.get? k = n.get? k) : m = n := by
  have inj : (Prod.map id some : κ × ν → κ × Option ν).Injective :=
    Function.injective_id.prodMap (Option.some_injective ν)
  refine ext (List.map_injective_iff.2 inj ?_)
  rw [map_toList, map_toList, keys, funext values]

/-- A key is put in front or right behind its anchor unless it is there already. -/
theorem toList_insertAfter (anchor : Option κ) (k : κ) (x : ν) :
    (m.insertAfter anchor k x).toList = if k ∈ m.keys then m.toList else
      match anchor with
      | none => (k, x) :: m.toList
      | some a => Assoc.putAfter a k x m.toList := by
  unfold insertAfter
  split
  · next there => exact (if_pos there).symm
  · next new => cases anchor <;> exact (if_neg new).symm

include inj

/-- An insertion that succeeds does so in the image and leaves the image of what it left. -/
theorem insert_image (k : κ) (x : ν) :
    (m.insert k x).image f v = (m.image f v).insert (f k) (v x) :=
  ext (by simp only [insert, toList_image inj, Assoc.put_map inj])

theorem erase_image (k : κ) : (m.erase k).image f v = (m.image f v).erase (f k) :=
  ext (by simp only [erase, toList_image inj, Assoc.drop_map inj])

/-- A change of values can be made before or after the renaming if it commutes with that of the
values. -/
theorem modify_image {h : ν → ν} {h' : ν' → ν'} (commutes : ∀ x, h' (v x) = v (h x)) (k : κ) :
    (m.modify k h).image f v = (m.image f v).modify (f k) h' :=
  ext (by simp only [modify, toList_image inj, Assoc.change_map inj v commutes])

theorem insertAfter_image (anchor : Option κ) (k : κ) (x : ν) :
    (m.insertAfter anchor k x).image f v =
      (m.image f v).insertAfter (anchor.map f) (f k) (v x) := by
  have known : f k ∈ (m.image f v).keys ↔ k ∈ m.keys := by
    rw [keys_image inj, List.mem_map_of_injective inj]
  refine ext ?_
  rw [toList_image inj, toList_insertAfter, toList_insertAfter, toList_image inj]
  by_cases there : k ∈ m.keys
  · rw [if_pos there, if_pos (known.2 there)]
  · rw [if_neg there, if_neg (mt known.1 there)]
    cases anchor with
    | none => rfl
    | some a => exact (Assoc.putAfter_map inj v a k x m.toList).symm

end OrderedMap

/-- A position with another name for its reference. -/
def Position.relabel (f : NodeId → NodeId) (p : Position) : Position :=
  { p with reference := p.reference.map f }

namespace Entry

variable {f : NodeId → NodeId} (e : Entry) (placement : Placement) (o : String)

/-- The slots of an entry have names of their own, which stay. -/
theorem image_setSlot (f : NodeId → NodeId) (ids : List NodeId) :
    (e.setSlot placement o ids).image f id = (e.image f id).setSlot placement o (ids.map f) := by
  cases placement with
  | south =>
    cases next : e.next <;>
      simp [setSlot, image, next, Outputs.image, OrderedMap.image_empty,
        OrderedMap.insert_image Function.injective_id]
  | child => rfl

theorem image_dropSlot (f : NodeId → NodeId) :
    (e.dropSlot placement o).image f id = (e.image f id).dropSlot placement o := by
  cases placement with
  | south =>
    have rest : ∀ outputs : Outputs, (Outputs.image f id outputs).erase o =
        Outputs.image f id (outputs.erase o) := fun outputs =>
      (OrderedMap.erase_image Function.injective_id (List.map f) outputs o).symm
    have bare : ∀ outputs : Outputs, (Outputs.image f id outputs).isEmpty = outputs.isEmpty :=
      OrderedMap.isEmpty_image Function.injective_id (List.map f)
    have split : ∀ outputs : Outputs,
        (if outputs.isEmpty then none else some outputs).map (Outputs.image f id) =
          if (Outputs.image f id outputs).isEmpty then none
          else some (Outputs.image f id outputs) := by
      intro outputs
      rw [bare]
      cases outputs.isEmpty <;> rfl
    cases next : e.next with
    | none => simp [dropSlot, image, next, OrderedMap.erase, Assoc.drop, OrderedMap.isEmpty]
    | some outputs => simp [dropSlot, image, next, rest, split]
  | child => rfl

theorem nextIds_image (f : NodeId → NodeId) : (e.image f id).nextIds = e.nextIds.map f := by
  cases next : e.next with
  | none => simp [nextIds, image, next]
  | some outputs =>
    simp [nextIds, image, next, Outputs.allIds, Outputs.image, List.map_flatMap, List.flatMap_map,
      OrderedMap.toList_image Function.injective_id]

theorem childIds_image (f : NodeId → NodeId) : (e.image f id).childIds = e.childIds.map f := by
  cases children : e.children <;> simp [childIds, image, children]

theorem successors_image (f : NodeId → NodeId) :
    (e.image f id).successors = e.successors.map f := by
  rw [successors, nextIds_image, childIds_image, ← List.map_append, successors]

theorem image_image (f f' : NodeId → NodeId) :
    (e.image f id).image f' id = e.image (f' ∘ f) id := by
  have each : Outputs.image f' id ∘ Outputs.image f id = Outputs.image (f' ∘ f) id := by
    funext outputs
    simp only [Function.comp_apply, Outputs.image,
      OrderedMap.image_image Function.injective_id _ _ Function.injective_id]
    rw [List.map_comp_map]
    rfl
  simp [image, Option.map_map, each]

/-- An entry has the same outputs under every renaming of its nodes. -/
theorem keys_image (f : NodeId → NodeId) :
    (e.image f id).next.map OrderedMap.keys = e.next.map OrderedMap.keys := by
  cases next : e.next with
  | none => simp [image, next]
  | some outputs => simp [image, next, Outputs.image, OrderedMap.keys_image Function.injective_id]

/-- Two entries with the same outputs in the same order and the same nodes in each slot are the
same. -/
theorem ext_slot? {e e' : Entry}
    (outputs : e.next.map OrderedMap.keys = e'.next.map OrderedMap.keys)
    (slots : ∀ placement o, e.slot? placement o = e'.slot? placement o) : e = e' := by
  obtain ⟨next, children⟩ := e
  obtain ⟨next', children'⟩ := e'
  have inside : children = children' := slots .child ""
  have behind : next = next' := by
    cases next with
    | none => exact (Option.map_eq_none_iff.1 outputs.symm).symm
    | some m =>
      obtain ⟨m', rfl, keys⟩ := Option.map_eq_some_iff.1 outputs.symm
      exact congrArg some (OrderedMap.ext_get? keys.symm (slots .south))
  rw [inside, behind]

variable {e} in
/-- Only the names of what is below an entry matter. -/
theorem image_congr {f' : NodeId → NodeId} (same : ∀ n ∈ e.successors, f n = f' n) :
    e.image f id = e.image f' id := by
  refine ext_slot? (by rw [keys_image, keys_image]) fun placement o => ?_
  rw [Graph.slot?_image, Graph.slot?_image]
  refine Option.map_congr fun l held => List.map_congr_left fun n mem => same n ?_
  rw [mem_successors_iff]
  cases placement with
  | south => exact Or.inl ⟨o, by rwa [nextOn_eq, held]⟩
  | child => exact Or.inr (by rwa [childIds_eq e o, held])

theorem image_id : e.image id id = e := by
  refine ext_slot? (keys_image e id) fun placement o => ?_
  rw [Graph.slot?_image, List.map_id_fun, Option.map_id_fun, id]

/-- An entry is its own image if all that it lists stays. -/
theorem image_eq_self (same : ∀ n ∈ e.successors, f n = n) : e.image f id = e :=
  (image_congr same).trans e.image_id

/-- A node is in a list exactly if it is in the renamed one under its other name. -/
theorem contains_map (inj : f.Injective) (n : NodeId) (l : List NodeId) :
    (l.map f).contains (f n) = l.contains n := by
  rw [Bool.eq_iff_iff, List.contains_iff_mem, List.contains_iff_mem,
    List.mem_map_of_injective inj]

/-- A node is found on the same output under its other name. -/
theorem outputTo?_image (inj : f.Injective) (n : NodeId) :
    (e.image f id).outputTo? (f n) = e.outputTo? n := by
  cases next : e.next with
  | none => simp [outputTo?, image, next]
  | some outputs =>
    simp only [outputTo?, image, next, Outputs.image, List.find?_map, Function.comp_def,
      OrderedMap.toList_image Function.injective_id, Option.map_some, Option.bind_some,
      contains_map inj, Option.map_map, id_eq]

/-- The position that an entry gives for a node is renamed along with the node and its owner. -/
theorem positionOf?_image (inj : f.Injective) (owner n : NodeId) :
    (e.image f id).positionOf? (f owner) (f n) =
      (e.positionOf? owner n).map (Position.relabel f) := by
  unfold positionOf?
  rw [outputTo?_image e inj, childIds_image, contains_map inj]
  cases e.outputTo? n with
  | some o => rfl
  | none => cases e.childIds.contains n <;> rfl

end Entry

/-- A graph with other names for the nodes. -/
abbrev Graph.relabel (f : NodeId → NodeId) (g : Graph) : Graph := g.image f id

namespace Graph

variable {g g' : Graph} (σ : Equiv.Perm NodeId) {n m : NodeId} {p : Position}

/-- To splice a list into another one in place of an item commutes with a renaming. -/
theorem splice_map {f : NodeId → NodeId} (inj : f.Injective) (item : NodeId)
    (replacement l : List NodeId) :
    splice (f item) (replacement.map f) (l.map f) = (splice item replacement l).map f := by
  induction l with
  | nil => rfl
  | cons x l ih => by_cases same : x = item <;> simp [splice, inj.eq_iff, same, ih]

theorem image_spliceSlot {f : NodeId → NodeId} (inj : f.Injective) (e : Entry)
    (placement : Placement) (o : String) (n : NodeId) (l : List NodeId) :
    (spliceSlot e placement o n l).image f id =
      spliceSlot (e.image f id) placement o (f n) (l.map f) := by
  unfold spliceSlot
  rw [slot?_image]
  cases e.slot? placement o with
  | none => rfl
  | some ids =>
    simp only [Option.map_some, splice_map inj, List.isEmpty_map]
    split
    · exact e.image_dropSlot placement o f
    · exact e.image_setSlot placement o f _

/-- The entry of a node stands under the new name of the node. -/
theorem find?_image_apply (g : Graph) (n : NodeId) :
    (g.image σ id).find? (σ n) = (g.find? n).map (Entry.image σ id) := by
  rw [find?_image, Equiv.symm_apply_apply]

theorem contains_image (g : Graph) (n : NodeId) :
    (g.image σ id).contains (σ n) = g.contains n := by
  unfold contains OrderedMap.contains
  have look := find?_image_apply σ g n
  unfold find? at look
  rw [look, Option.isSome_map]

theorem ids_image (g : Graph) : (g.image σ id).ids = g.ids.map σ :=
  OrderedMap.keys_image σ.injective (Entry.image σ id) g.entries

/-- The ids that occur in a graph. -/
def mentions (g : Graph) : List NodeId :=
  g.root.toList ++ g.ids ++ g.entries.values.flatMap Entry.successors

/-- An orderly graph mentions only nodes that have an entry. -/
theorem Orderly.mem_mentions (h : g.Orderly) (mem : n ∈ g.mentions) : n ∈ g.ids := by
  rcases List.mem_append.1 mem with before | held
  · rcases List.mem_append.1 before with root | entry
    · exact h.mem (s := .root) root
    · exact entry
  · obtain ⟨e, mem, held⟩ := List.mem_flatMap.1 held
    obtain ⟨⟨r, e⟩, entry, rfl⟩ := List.mem_map.1 mem
    have he : g.find? r = some e := OrderedMap.mem_toList_iff.1 entry
    rcases Entry.mem_successors_iff.1 held with ⟨o, south⟩ | child
    · exact h.mem (s := .south r o) (occupants_south he o ▸ south)
    · exact h.mem (s := .child r) (occupants_child he ▸ child)

/-- To rename a graph twice is to rename it by the composition. -/
theorem image_image {f f' : NodeId → NodeId} (inj : f.Injective) (inj' : f'.Injective)
    (g : Graph) : (g.image f id).image f' id = g.image (f' ∘ f) id := by
  have each : Entry.image f' id ∘ Entry.image f id = Entry.image (f' ∘ f) id :=
    funext fun e => e.image_image f f'
  simp [image, Option.map_map, OrderedMap.image_image inj _ _ inj', each]

/-- Only the names of the nodes that a graph mentions matter. -/
theorem image_congr {f f' : NodeId → NodeId} (same : ∀ n ∈ g.mentions, f n = f' n) :
    g.image f id = g.image f' id := by
  have root : g.root.map f = g.root.map f' := by
    refine Option.map_congr fun r top => same r ?_
    simp [mentions, top]
  have entries : g.entries.image f (Entry.image f id) = g.entries.image f' (Entry.image f' id) := by
    refine OrderedMap.image_congr fun p mem =>
      ⟨same _ ?_, Entry.image_congr fun n held => same n ?_⟩
    · exact List.mem_append_left _ (List.mem_append_right _ (List.mem_map_of_mem mem))
    · exact List.mem_append_right _ (List.mem_flatMap.2 ⟨p.2, List.mem_map_of_mem mem, held⟩)
  rw [image, image, root, entries]

theorem image_id (g : Graph) : g.image id id = g := by
  rw [image, Option.map_id_fun, funext Entry.image_id]
  exact congrArg (Graph.mk g.root) (OrderedMap.image_id g.entries)

/-- A graph is its own image if all ids that occur in it stay. -/
theorem image_eq_self {f : NodeId → NodeId} (same : ∀ n ∈ g.mentions, f n = n) :
    g.image f id = g :=
  (image_congr same).trans g.image_id

/-- The inverse of a permutation takes the image back to the graph. -/
theorem image_image_symm (g : Graph) : (g.image σ id).image σ.symm id = g := by
  rw [image_image σ.injective σ.symm.injective]
  exact image_eq_self fun n _ => σ.symm_apply_apply n

/-- A change of one entry can be made before or after the ids are exchanged. -/
theorem image_modifyEntry (g : Graph) (n : NodeId) {h k : Entry → Entry}
    (commutes : ∀ e, k (e.image σ id) = (h e).image σ id) :
    (g.modifyEntry n h).image σ id = (g.image σ id).modifyEntry (σ n) k := by
  simp only [modifyEntry, image, OrderedMap.modify_image σ.injective _ _ commutes]

/-- A new entry comes to stand behind the image of the one it is put behind. -/
theorem image_ensureEntry (g : Graph) (n : NodeId) (anchor : Option NodeId) :
    (g.ensureEntry n anchor).image σ id = (g.image σ id).ensureEntry (σ n) (anchor.map σ) := by
  simp only [ensureEntry, image, OrderedMap.insertAfter_image σ.injective]
  rfl

theorem image_behind (f : NodeId → NodeId) (l : List NodeId) :
    (behind l).map (Outputs.image f id) = behind (l.map f) := by
  unfold behind
  rw [List.isEmpty_map]
  split
  · rfl
  · simp [Outputs.image, OrderedMap.image_single]

/-- A node that took a slot has the image of its new successors. -/
theorem image_modifyNext (g : Graph) (n : NodeId) (l : List NodeId) :
    (g.modifyEntry n fun e => { e with next := behind l }).image σ id =
      (g.image σ id).modifyEntry (σ n) fun e => { e with next := behind (l.map σ) } :=
  image_modifyEntry σ g n fun e => by simp [Entry.image, image_behind]

/-- What was at the root is behind the image of the new root. -/
theorem image_placeAtRoot (g : Graph) (n : NodeId) :
    (g.placeAtRoot n).image σ id = (g.image σ id).placeAtRoot (σ n) := by
  have placed : (({ g with root := some n } : Graph).ensureEntry n none).image σ id =
      ({ g.image σ id with root := some (σ n) } : Graph).ensureEntry (σ n) none :=
    image_ensureEntry σ { g with root := some n } n none
  unfold placeAtRoot
  cases root : g.root with
  | none => simpa [image, root] using placed
  | some previous =>
    have root' : (g.image σ id).root = some (σ previous) := by simp [image, root]
    by_cases same : previous = n
    · simp only [root', same, if_true, placed]
    · simp only [root', same, if_false, σ.injective.eq_iff]
      rw [image_modifyNext, placed]
      rfl

/-- What stood in a slot is behind the image of the node that is placed there. -/
theorem image_placeAt (g : Graph) (n r : NodeId) (placement : Placement) (o : String) :
    (g.placeAt n r placement o).image σ id =
      (g.image σ id).placeAt (σ n) (σ r) placement o := by
  have displaced : (((g.image σ id).find? (σ r)).bind (·.slot? placement o)).getD [] =
      (((g.find? r).bind (·.slot? placement o)).getD []).map σ := by
    rw [find?_image_apply]
    cases g.find? r with
    | none => rfl
    | some e =>
      simp only [Option.map_some, Option.bind_some, slot?_image]
      exact Option.getD_map (List.map σ) [] (e.slot? placement o)
  unfold placeAt
  rw [displaced, image_modifyNext, image_ensureEntry,
    image_modifyEntry (k := fun e => e.setSlot placement o [σ n]) σ g r fun e =>
      (e.image_setSlot placement o σ [n]).symm]
  rfl

/-- The image of a node is left out in the image of the slot. -/
theorem image_bypass (g : Graph) (n : NodeId) (p : Position) (l : List NodeId) :
    (g.bypass n p l).image σ id = (g.image σ id).bypass (σ n) (p.relabel σ) (l.map σ) := by
  unfold bypass Position.relabel
  cases p.reference with
  | none => simp [image]
  | some r =>
    exact image_modifyEntry σ g r fun e => (image_spliceSlot σ.injective e _ _ n l).symm

/-- The entry of one node is handed to another one under their other names. -/
theorem image_handOver (g : Graph) (n m : NodeId) (e : Entry) :
    (g.handOver n m e).image σ id = (g.image σ id).handOver (σ n) (σ m) (e.image σ id) := by
  simp only [handOver, image, OrderedMap.insert_image σ.injective,
    OrderedMap.erase_image σ.injective]

/-! ## Queries -/

/-- A position is found by looking through the entries in order, which the image keeps. -/
theorem position_image (at_p : g.position n = .ok p) :
    (g.image σ id).position (σ n) = .ok (p.relabel σ) := by
  have top : (g.image σ id).root = some (σ n) ↔ g.root = some n := by
    cases root : g.root <;> simp [image, root]
  have each : ∀ q : NodeId × Entry,
      (if σ q.1 = σ n then none else (q.2.image σ id).positionOf? (σ q.1) (σ n)) =
        (if q.1 = n then none else q.2.positionOf? q.1 n).map (Position.relabel σ) := by
    intro q
    rw [Entry.positionOf?_image q.2 σ.injective]
    by_cases own : q.1 = n <;> simp [own, σ.injective.eq_iff]
  have found : ((g.image σ id).entries.toList.findSome? fun q =>
        if q.1 = σ n then none else q.2.positionOf? q.1 (σ n)) =
      (g.entries.toList.findSome? fun q =>
        if q.1 = n then none else q.2.positionOf? q.1 n).map (Position.relabel σ) := by
    simp only [image, OrderedMap.toList_image σ.injective, List.findSome?_map, Function.comp_def,
      each, List.map_findSome?]
  unfold position at at_p ⊢
  by_cases root : g.root = some n
  · rw [if_pos root] at at_p
    rw [if_pos (top.2 root)]
    cases at_p
    rfl
  · rw [if_neg root] at at_p
    rw [if_neg (mt top.1 root)]
    simp only [found] at at_p ⊢
    split at at_p
    · next q held =>
      cases at_p
      rw [held]
      rfl
    · cases at_p

/-- The walk below a node goes the same way in the image, with the same things found in the same
order. -/
theorem reach_image (g : Graph) (origin : NodeId) (found stack : List NodeId) :
    (g.image σ id).reach (σ origin) (found.map σ) (stack.map σ) =
      (g.reach origin found stack).map σ := by
  have met : ∀ (n : NodeId) (found : List NodeId),
      (σ n = σ origin ∨ σ n ∈ found.map σ) ↔ (n = origin ∨ n ∈ found) := fun n found => by
    rw [σ.injective.eq_iff, List.mem_map_of_injective σ.injective]
  fun_induction reach g origin found stack with
  | case1 found => rw [List.map_nil, reach]
  | case2 found n stack skip ih =>
    rw [List.map_cons, reach, dif_pos ((met n found).2 skip)]
    exact ih
  | case3 found n stack new he ih =>
    rw [List.map_cons, reach, dif_neg (mt (met n found).1 new)]
    split
    · exact ih
    · next e there =>
      rw [find?_image_apply, he] at there
      cases there
  | case4 found n stack new e he ih =>
    rw [List.map_cons, reach, dif_neg (mt (met n found).1 new)]
    split
    · next missing =>
      rw [find?_image_apply, he] at missing
      cases missing
    · next e' there =>
      rw [find?_image_apply, he] at there
      cases there
      rwa [Entry.successors_image, ← List.map_reverse, ← List.map_append]

/-! ## Edits -/

theorem insert_image (run : insert n p g = .ok () g') :
    insert (σ n) (p.relabel σ) (g.relabel σ) = .ok () (g'.relabel σ) := by
  unfold insert Position.relabel at *
  cases ref : p.reference with
  | none =>
    simp only [ref] at run
    cases run
    simp only [Option.map_none, image_placeAtRoot]
  | some r =>
    simp only [ref] at run
    split at run
    · next there =>
      cases run
      simp only [Option.map_some, contains_image, there, if_true, image_placeAt]
    · cases run

/-- So does a removal. -/
theorem remove_image {keepInfo : Bool} (run : remove n keepInfo g = .ok () g') :
    remove (σ n) keepInfo (g.relabel σ) = .ok () (g'.relabel σ) := by
  rw [remove_eq] at run ⊢
  rw [find?_image_apply]
  cases he : g.find? n with
  | none =>
    rw [he] at run
    cases run
    rfl
  | some e =>
    rw [he] at run
    cases at_p : g.position n with
    | error fault =>
      simp only [at_p] at run
      cases run
    | ok p =>
      simp only [at_p] at run
      cases run
      simp only [Option.map_some, position_image σ at_p, Entry.nextIds_image,
        Entry.successors_image]
      cases keepInfo with
      | true => simp [image_bypass]
      | false =>
        have left := image_bypass σ g n p e.successors
        simp only [Bool.false_eq_true, if_false, ← left]
        simp only [image, OrderedMap.erase_image σ.injective]

/-- So does a replacement. -/
theorem replace_image (run : replace n m g = .ok () g') :
    replace (σ n) (σ m) (g.relabel σ) = .ok () (g'.relabel σ) := by
  obtain ⟨p, e, at_p, he, rfl⟩ := replace_eq_ok run
  rw [replace_eq]
  simp only [position_image σ at_p, find?_image_apply, he, Option.map_some]
  rw [← image_handOver]
  unfold Position.relabel
  cases p.reference with
  | none => rfl
  | some r =>
    refine congrArg (EStateM.Result.ok ()) (image_modifyEntry σ _ r fun e => ?_).symm
    rw [slot?_image]
    cases e.slot? p.placement p.output with
    | none => rfl
    | some ids =>
      simp only [Option.map_some, Entry.image_setSlot]
      exact congrArg _ (splice_map σ.injective n [m] ids)

/-- A move takes a node out and puts it back, so it succeeds on the image if both do. -/
theorem move_image {q : Position} (held : ∀ r, p.reference = some r → r ∈ g.ids)
    (at_q : g.position n = .ok q) (run : move n p g = .ok () g') :
    move (σ n) (p.relabel σ) (g.relabel σ) = .ok () (g'.relabel σ) := by
  obtain ⟨g₁, left, put⟩ := move_eq_ok run
  have held' : ∀ r, (p.relabel σ).reference = some r → r ∈ (g.relabel σ).ids := by
    intro r ref
    obtain ⟨r', ref', rfl⟩ := Option.map_eq_some_iff.1 ref
    rw [ids_image]
    exact List.mem_map_of_mem (held r' ref')
  obtain ⟨h, run'⟩ := move_run held' (position_image σ at_q)
  obtain ⟨h₁, left', put'⟩ := move_eq_ok run'
  rw [remove_image σ left] at left'
  cases left'
  rw [insert_image σ put] at put'
  cases put'
  exact run'

end Graph

/-! ## Renaming -/

section

variable {f : NodeId → NodeId} {names names' : Renaming}
  (nodes : ∀ n m, names.node n = .ok m → ∃ m', names'.node (f n) = .ok m')
  (outputs : ∀ o p, names.output o = .ok p → ∃ p', names'.output o = .ok p')

include nodes outputs

/-- If all nodes have names under one renaming, outputs that can be renamed by it can be renamed by
the other. -/
theorem Renaming.exists_outputsOf_image {o p : Outputs} (h : names.outputsOf o = .ok p) :
    ∃ p', names'.outputsOf (o.image f id) = .ok p' := by
  refine Except.exists_foldlM (fun q mem acc => ?_) _
  rw [Outputs.image, OrderedMap.toList_image Function.injective_id] at mem
  obtain ⟨⟨output, ids⟩, held, rfl⟩ := List.mem_map.1 mem
  obtain ⟨_, _, step⟩ := Except.step_of_foldlM h _ held
  obtain ⟨_, renamed, step⟩ := Except.bind_eq_ok.1 step
  obtain ⟨_, named, _⟩ := Except.bind_eq_ok.1 step
  obtain ⟨ids', renamed'⟩ := Except.exists_mapM_map nodes renamed
  obtain ⟨output', named'⟩ := outputs _ _ named
  exact ⟨acc.insert output' ids', by simp only [id, renamed', named']; rfl⟩

theorem Renaming.exists_entry_image {e e' : Entry} (h : names.entry e = .ok e') :
    ∃ e', names'.entry (e.image f id) = .ok e' := by
  obtain ⟨_, next, h⟩ := Except.bind_eq_ok.1 h
  obtain ⟨_, children, _⟩ := Except.bind_eq_ok.1 h
  obtain ⟨next', renamed⟩ := Except.exists_mapM_option_map
    (fun _ _ => exists_outputsOf_image nodes outputs) next
  obtain ⟨children', renamed'⟩ := Except.exists_mapM_option_map
    (fun _ _ => Except.exists_mapM_map nodes) children
  exact ⟨{ next := next', children := children' }, by
    unfold Renaming.entry Entry.image; rw [renamed, renamed']; rfl⟩

/-- If a graph can be renamed, so can its image by a renaming that knows the images. -/
theorem Graph.exists_rename_image (inj : f.Injective) {g g' : Graph} (h : g.rename names = .ok g') :
    ∃ g', (g.relabel f).rename names' = .ok g' := by
  obtain ⟨_, root, h⟩ := Except.bind_eq_ok.1 h
  obtain ⟨_, entries, _⟩ := Except.bind_eq_ok.1 h
  obtain ⟨root', top⟩ := Except.exists_mapM_option_map nodes root
  obtain ⟨entries', rest⟩ := Except.exists_foldlM (l := (g.relabel f).entries.toList)
    (f := fun (acc : OrderedMap NodeId Entry) p => do
      let e ← names'.entry p.2
      return acc.insert (← names'.node p.1) e)
    (fun q mem acc => by
      have mem' : q ∈ g.entries.toList.map fun p => (f p.1, p.2.image f id) := by
        rwa [← OrderedMap.toList_image inj]
      obtain ⟨p, held, rfl⟩ := List.mem_map.1 mem'
      obtain ⟨_, _, step⟩ := Except.step_of_foldlM entries p held
      obtain ⟨_, renamed, step⟩ := Except.bind_eq_ok.1 step
      obtain ⟨_, named, _⟩ := Except.bind_eq_ok.1 step
      obtain ⟨e, renamed'⟩ := Renaming.exists_entry_image nodes outputs renamed
      obtain ⟨m, named'⟩ := nodes _ _ named
      exact ⟨acc.insert m e, by simp only [renamed', named']; rfl⟩) .empty
  refine ⟨⟨root', entries'⟩, ?_⟩
  unfold rename
  rw [show (g.relabel f).root = g.root.map f from rfl, top, rest]
  rfl

end

end Autoflow

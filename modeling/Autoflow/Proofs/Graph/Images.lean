import Autoflow.Graph.Rename
import Autoflow.Proofs.Graph.Upkeep
import Mathlib.Data.Fintype.Sum

/-!
# Images of a graph

A graph that was renamed is an image of the one it was: every id and every output has its new
name, and the order is the same (`eq_image_of_rename`). If the outputs keep their names and the
nodes are permuted, the image has the layout with the nodes renamed (`occupants_image`), so it is
orderly and pruned if the graph is. Names that are all different are part of a permutation
(`Renaming.exists_perm`).
-/

namespace Autoflow

/-- An injective change of keys finds the changed values under the changed keys. -/
theorem Assoc.find?_map {κ κ' ν ν' : Type} [DecidableEq κ] [DecidableEq κ'] {f : κ → κ'}
    (inj : f.Injective) (v : ν → ν') (k : κ) (l : List (κ × ν)) :
    find? (f k) (l.map fun p => (f p.1, v p.2)) = (find? k l).map v := by
  induction l with
  | nil => rfl
  | cons p l ih => by_cases same : p.1 = k <;> simp [find?, inj.eq_iff, same, ih]

namespace OrderedMap

variable {κ κ' ν ν' : Type} [DecidableEq κ']

/-- A list without repeated keys is read as it is. -/
theorem toList_ofList {l : List (κ' × ν)} (nodup : (Assoc.keys l).Nodup) :
    (ofList l).toList = l := by
  have fold : ∀ (l : List (κ' × ν)) (m : OrderedMap κ' ν), (Assoc.keys (m.toList ++ l)).Nodup →
      (l.foldl (fun m p => m.insert p.1 p.2) m).toList = m.toList ++ l := by
    intro l
    induction l with
    | nil => simp
    | cons p l ih =>
      intro m nodup
      have new : p.1 ∉ Assoc.keys m.toList := by
        rw [Assoc.keys, List.map_append] at nodup
        exact fun mem => (List.nodup_append.1 nodup).2.2 _ mem _ List.mem_cons_self rfl
      have put : (m.insert p.1 p.2).toList = m.toList ++ [p] := Assoc.put_of_not_mem new
      rw [List.append_cons, ← put] at nodup
      rw [List.foldl_cons, ih _ nodup, put, ← List.append_cons]
  exact fold l empty nodup

/-- The map with other keys and values in the same order. -/
def image (f : κ → κ') (v : ν → ν') (m : OrderedMap κ ν) : OrderedMap κ' ν' :=
  ofList (m.toList.map fun p => (f p.1, v p.2))

/-- The pairs keep their order. -/
theorem toList_image {f : κ → κ'} (inj : f.Injective) (v : ν → ν') (m : OrderedMap κ ν) :
    (m.image f v).toList = m.toList.map fun p => (f p.1, v p.2) := by
  have keys : Assoc.keys (m.toList.map fun p => (f p.1, v p.2)) = m.keys.map f := by
    simp [OrderedMap.keys, Assoc.keys]
  exact toList_ofList (keys ▸ m.nodup.map inj)

/-- Under a changed key there is what was under the key, changed. -/
theorem get?_image [DecidableEq κ] {f : κ → κ'} (inj : f.Injective) (v : ν → ν')
    (m : OrderedMap κ ν) (k : κ) : (m.image f v).get? (f k) = (m.get? k).map v := by
  rw [get?, toList_image inj]
  exact Assoc.find?_map inj v k m.toList

end OrderedMap

/-- Successor lists with other names for the outputs and the nodes. -/
def Outputs.image (f : NodeId → NodeId) (u : String → String) (o : Outputs) : Outputs :=
  OrderedMap.image u (List.map f) o

/-- An entry with other names for the outputs and the nodes. -/
def Entry.image (f : NodeId → NodeId) (u : String → String) (e : Entry) : Entry where
  next := e.next.map (Outputs.image f u)
  children := e.children.map (List.map f)

/-- A graph with other names for the outputs and the nodes. -/
def Graph.image (f : NodeId → NodeId) (u : String → String) (g : Graph) : Graph where
  root := g.root.map f
  entries := g.entries.image f (Entry.image f u)

/-- What takes different ids to different ones is part of a permutation of all ids. -/
theorem NodeId.exists_perm {f : NodeId → NodeId} {known : Set NodeId} (inj : known.InjOn f) :
    ∃ σ : Equiv.Perm NodeId, ∀ n ∈ known, σ n = f n := by
  classical
  have finite : Finite NodeId :=
    Finite.of_injective (fun n : NodeId => (⟨n.toNat, n.toNat_lt⟩ : Fin UInt64.size))
      fun _ _ e => NodeId.toNat_inj.1 (Fin.mk.inj e)
  let _ : Fintype NodeId := Fintype.ofFinite NodeId
  have into : known.MapsTo f (Finset.univ : Finset NodeId) := fun k _ =>
    Finset.mem_coe.2 (Finset.mem_univ (f k))
  obtain ⟨σ, extends_f⟩ := into.exists_equiv_extend_of_card_eq Finset.card_univ.symm inj
  exact ⟨σ.trans (Equiv.subtypeUnivEquiv Finset.mem_univ), extends_f⟩

/-! ## Renaming -/

namespace Renaming

variable {names : Renaming} {f : NodeId → NodeId} {u : String → String}

/-- A node has a new name if the renaming has one for it. -/
theorem node_eq_ok {r : Renaming} {n m : NodeId} : r.node n = .ok m ↔ r.nodes.get? n = some m := by
  unfold node
  cases r.nodes.get? n <;> simp

/-- The default output keeps its name; any other needs a new one. -/
theorem output_eq_ok {r : Renaming} {o o' : String} :
    r.output o = .ok o' ↔ o = "" ∧ "" = o' ∨ o ≠ "" ∧ r.outputs.get? o = some o' := by
  unfold output
  by_cases default : o = ""
  · simp [default]
  · cases r.outputs.get? o <;> simp [default]

/-- Names that are all different are given by a permutation. -/
theorem exists_perm (distinct : ∀ k k' m, names.node k = .ok m → names.node k' = .ok m → k = k') :
    ∃ σ : Equiv.Perm NodeId, ∀ k m, names.node k = .ok m → m = σ k := by
  let f : NodeId → NodeId := fun k => (names.node k).toOption.getD k
  have name : ∀ {k m}, names.node k = .ok m → f k = m := fun h => by
    simp only [f, h, Except.toOption, Option.getD_some]
  have inj : Set.InjOn f {k | ∃ m, names.node k = .ok m} := by
    rintro k ⟨m, hk⟩ k' ⟨m', hk'⟩ same
    rw [name hk, name hk'] at same
    exact distinct k k' m hk (same ▸ hk')
  obtain ⟨σ, extends_f⟩ := NodeId.exists_perm inj
  exact ⟨σ, fun k m h => (name h).symm.trans (extends_f k ⟨m, h⟩).symm⟩

/-- Where new names are given by functions, the renamed outputs are the image, -/
theorem outputsOf_eq_image (nodes : ∀ k m, names.node k = .ok m → m = f k)
    (outputs : ∀ o o', names.output o = .ok o' → o' = u o) {o o' : Outputs}
    (h : names.outputsOf o = .ok o') : o' = o.image f u := by
  refine (Except.eq_foldl_of_foldlM (fun acc p acc' step => ?_) h).trans List.foldl_map.symm
  obtain ⟨ids, renamed, step⟩ := Except.bind_eq_ok.1 step
  obtain ⟨o', named, step⟩ := Except.bind_eq_ok.1 step
  cases step
  rw [Except.eq_map_of_mapM nodes renamed, outputs _ _ named]

/-- and so is a renamed entry. -/
theorem entry_eq_image (nodes : ∀ k m, names.node k = .ok m → m = f k)
    (outputs : ∀ o o', names.output o = .ok o' → o' = u o) {e e' : Entry}
    (h : names.entry e = .ok e') : e' = e.image f u := by
  obtain ⟨next, renamed, h⟩ := Except.bind_eq_ok.1 h
  obtain ⟨children, renamed', h⟩ := Except.bind_eq_ok.1 h
  cases h
  rw [Except.eq_map_of_mapM_option (fun _ _ => outputsOf_eq_image nodes outputs) renamed,
    Except.eq_map_of_mapM_option (fun _ _ => Except.eq_map_of_mapM nodes) renamed']
  rfl

end Renaming

namespace Graph

variable {g g' : Graph} {names : Renaming} {f : NodeId → NodeId} {u : String → String}
  {σ : Equiv.Perm NodeId} {n : NodeId}

/-- A graph that was renamed is its image under the new names. -/
theorem eq_image_of_rename (nodes : ∀ k m, names.node k = .ok m → m = f k)
    (outputs : ∀ o o', names.output o = .ok o' → o' = u o) (h : g.rename names = .ok g') :
    g' = g.image f u := by
  obtain ⟨root, top, h⟩ := Except.bind_eq_ok.1 h
  obtain ⟨entries, rest, h⟩ := Except.bind_eq_ok.1 h
  cases h
  have same : entries = g.entries.image f (Entry.image f u) := by
    refine (Except.eq_foldl_of_foldlM (fun acc p acc' step => ?_) rest).trans List.foldl_map.symm
    obtain ⟨e, renamed, step⟩ := Except.bind_eq_ok.1 step
    obtain ⟨m, named, step⟩ := Except.bind_eq_ok.1 step
    cases step
    rw [Renaming.entry_eq_image nodes outputs renamed, nodes _ _ named]
  rw [same, Except.eq_map_of_mapM_option nodes top]
  rfl

/-- The entry of a node in the image is that of the node it comes from, renamed. -/
theorem find?_image (g : Graph) (σ : Equiv.Perm NodeId) (u : String → String) (n : NodeId) :
    (g.image σ u).find? n = (g.find? (σ.symm n)).map (Entry.image σ u) := by
  have look := OrderedMap.get?_image σ.injective (Entry.image σ u) g.entries (σ.symm n)
  rwa [Equiv.apply_symm_apply] at look

theorem mem_ids_image : n ∈ (g.image σ u).ids ↔ σ.symm n ∈ g.ids := by
  rw [mem_ids_iff, mem_ids_iff, find?_image]
  simp

/-- A slot of an entry holds the new names, in the same order. -/
theorem slot?_image (f : NodeId → NodeId) (e : Entry) (placement : Placement) (o : String) :
    (e.image f id).slot? placement o = (e.slot? placement o).map (List.map f) := by
  cases placement with
  | south =>
    cases next : e.next with
    | none => simp [Entry.image, Entry.slot?, next]
    | some outputs =>
      have look := OrderedMap.get?_image Function.injective_id (List.map f) outputs o
      simpa [Entry.image, Entry.slot?, next, Outputs.image] using look
  | child => rfl

/-- The layout of an image is the layout with the nodes renamed. -/
theorem occupants_image (g : Graph) (σ : Equiv.Perm NodeId) :
    (g.image σ id).occupants = g.occupants.relabel σ := by
  funext t
  cases t with
  | root => cases root : g.root <;> simp [occupants, image, Layout.relabel, Slot.rename, root]
  | south n o | child n =>
    simp only [occupants, Layout.relabel, Slot.rename, find?_image]
    cases g.find? (σ.symm n) with
    | none => rfl
    | some e =>
      simp only [Option.map_some, Option.bind_some, slot?_image]
      exact Option.getD_map (List.map σ) [] (e.slot? _ _)

/-- A permutation of the nodes keeps a graph orderly, -/
theorem Orderly.image (h : g.Orderly) (σ : Equiv.Perm NodeId) : (g.image σ id).Orderly := by
  unfold Orderly
  rw [occupants_image, show {m | m ∈ (g.image σ id).ids} = {m | σ.symm m ∈ g.ids} from
    Set.ext fun _ => mem_ids_image]
  exact Layout.Orderly.relabel h σ

/-- keeps it a tree -/
theorem IsTree.image (h : g.IsTree) (σ : Equiv.Perm NodeId) : (g.image σ id).IsTree := by
  unfold IsTree
  rw [occupants_image, show {m | m ∈ (g.image σ id).ids} = {m | σ.symm m ∈ g.ids} from
    Set.ext fun _ => mem_ids_image]
  exact Layout.IsTree.relabel h σ

/-- and puts no empty list into it. -/
theorem Pruned.image (h : g.Pruned) (σ : Equiv.Perm NodeId) : (g.image σ id).Pruned := by
  intro n e' he'
  rw [find?_image] at he'
  obtain ⟨e, he, rfl⟩ := Option.map_eq_some_iff.1 he'
  have full := h _ e he
  refine ⟨fun placement o => ?_, fun outputs next => ?_⟩
  · rw [slot?_image]
    cases held : e.slot? placement o with
    | none => exact nofun
    | some ids =>
      have some_left : ids ≠ [] := fun empty => full.slots placement o (empty ▸ held)
      simpa using some_left
  · obtain ⟨outputs', next', rfl⟩ := Option.map_eq_some_iff.1 next
    have some_left := full.outputs outputs' next'
    rw [Outputs.image, OrderedMap.toList_image Function.injective_id]
    simpa using some_left

end Graph

end Autoflow

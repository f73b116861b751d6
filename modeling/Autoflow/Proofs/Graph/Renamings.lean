import Autoflow.Proofs.Graph.Blobs
import Autoflow.Proofs.Graph.Order
import Autoflow.Proofs.Graph.Relabeling
import Autoflow.Proofs.Graph.Verdicts
import Autoflow.Proofs.Pairing

/-!
# What a renaming keeps

A renaming succeeds exactly if it covers what a graph mentions (`exists_rename_iff_covers`). It
writes the outputs of every node and the table of entries anew, key by key, so two keys with the
same new name would be merged. If the new names are all different, none are, and the result matches
the graph place by place (`matches_of_rename`). Matching graphs hang from their roots alike
(`HangsFrom.of_matches`), and a match can be read backwards, which is how the inverse renaming
takes a graph back (`rename_faithful`).
-/

namespace Autoflow

namespace OrderedMap

variable {ε α κ ν : Type} [DecidableEq κ]

/-- A fold that stores a pair for each item, if there is one, reads the map from these pairs. -/
theorem foldlM_insert_eq_ok {f : OrderedMap κ ν → α → Except ε (OrderedMap κ ν)}
    {R : α → κ × ν → Prop}
    (step : ∀ m a m', f m a = .ok m' ↔ ∃ q, R a q ∧ m' = m.insert q.1 q.2)
    {l : List α} {m' : OrderedMap κ ν} :
    l.foldlM f .empty = .ok m' ↔ ∃ qs, List.Forall₂ R l qs ∧ m' = ofList qs := by
  suffices any : ∀ m, l.foldlM f m = .ok m' ↔
      ∃ qs, List.Forall₂ R l qs ∧ m' = qs.foldl (fun m q => m.insert q.1 q.2) m from any .empty
  induction l with
  | nil =>
    intro m
    simp [pure, Except.pure, eq_comm]
  | cons a l ih =>
    intro m
    rw [List.foldlM_cons]
    constructor
    · intro h
      obtain ⟨next, first, rest⟩ := Except.bind_eq_ok.1 h
      obtain ⟨q, here, rfl⟩ := (step m a next).1 first
      obtain ⟨qs, all, rfl⟩ := (ih _).1 rest
      exact ⟨q :: qs, .cons here all, rfl⟩
    · rintro ⟨_, _ | ⟨here, all⟩, rfl⟩
      rw [(step m a _).2 ⟨_, here, rfl⟩]
      exact (ih _).2 ⟨_, all, rfl⟩

/-- No two pairs are merged if no two keys have the same new one. -/
theorem toList_ofList_of_forall₂ {κ' ν' : Type} {m : OrderedMap κ' ν'} {qs : List (κ × ν)}
    {K : κ' → κ → Prop} (keys : List.Forall₂ (fun p q => K p.1 q.1) m.toList qs)
    (apart : ∀ k ∈ m.keys, ∀ k' ∈ m.keys, ∀ v, K k v → K k' v → k = k') :
    (ofList qs).toList = qs :=
  toList_ofList ((List.forall₂_map_left_iff.2 (List.forall₂_map_right_iff.2 keys)).nodup apart
    m.nodup)

/-- The map from the values of some of the keys to these keys. -/
def invert [DecidableEq ν] (keep : κ → Bool) (m : OrderedMap κ ν) : OrderedMap ν κ :=
  ofList ((m.toList.filter fun p => keep p.1).map Prod.swap)

/-- An inverted map takes the values of these keys back to them, if these values are different. -/
theorem get?_invert [DecidableEq ν] {keep : κ → Bool} {m : OrderedMap κ ν}
    (apart : ∀ k k' v, keep k → keep k' → m.get? k = some v → m.get? k' = some v → k = k')
    {k : κ} {v : ν} (kept : keep k) (held : m.get? k = some v) :
    (m.invert keep).get? v = some k := by
  have nodup : (Assoc.keys ((m.toList.filter fun p => keep p.1).map Prod.swap)).Nodup := by
    have pairs : (m.toList.filter fun p => keep p.1).Nodup := (List.Nodup.of_map _ m.nodup).filter _
    rw [Assoc.keys, List.map_map]
    refine pairs.map_on fun p mem q mem' same => ?_
    obtain ⟨mem, kept⟩ := List.mem_filter.1 mem
    obtain ⟨mem', kept'⟩ := List.mem_filter.1 mem'
    have value : q.2 = p.2 := same.symm
    exact Prod.ext (apart p.1 q.1 p.2 kept kept' (mem_toList_iff.1 mem)
      (value ▸ mem_toList_iff.1 mem')) same
  rw [← mem_toList_iff, invert, toList_ofList nodup]
  exact List.mem_map.2 ⟨(k, v), List.mem_filter.2 ⟨mem_of_get? held, kept⟩, rfl⟩

end OrderedMap

/-! ## Matching graphs -/

/-- The outputs at the same places correspond, and so do the nodes behind them. -/
def Outputs.Matches (nodes : NodeId → NodeId → Prop) (outputs : String → String → Prop)
    (o o' : Outputs) : Prop :=
  List.Forall₂ (fun p q => outputs p.1 q.1 ∧ List.Forall₂ nodes p.2 q.2) o.toList o'.toList

/-- The same lists are there, and what stands at the same places corresponds. -/
structure Entry.Matches (nodes : NodeId → NodeId → Prop) (outputs : String → String → Prop)
    (e e' : Entry) : Prop where
  next : Option.Rel (Outputs.Matches nodes outputs) e.next e'.next
  children : Option.Rel (List.Forall₂ nodes) e.children e'.children

/-- Both graphs have a root or none, and the entries at the same places match. -/
structure Graph.Matches (nodes : NodeId → NodeId → Prop) (outputs : String → String → Prop)
    (g g' : Graph) : Prop where
  root : Option.Rel nodes g.root g'.root
  entries : List.Forall₂ (fun p q => nodes p.1 q.1 ∧ p.2.Matches nodes outputs q.2)
    g.entries.toList g'.entries.toList

/-- The outputs under which an entry lists successors. -/
def Entry.outputNames (e : Entry) : List String := e.next.elim [] OrderedMap.keys

/-- The outputs under which the entries of a graph list successors. -/
def Graph.outputNames (g : Graph) : List String := g.entries.values.flatMap Entry.outputNames

/-- What all mentioned nodes have in common is said of the root and of each entry. -/
theorem Graph.forall_mentions {g : Graph} {P : NodeId → Prop} : (∀ n ∈ g.mentions, P n) ↔
    (∀ n ∈ g.root, P n) ∧ ∀ p ∈ g.entries.toList, P p.1 ∧ ∀ n ∈ p.2.successors, P n := by
  simp only [mentions, List.forall_mem_append, Option.mem_toList, Option.mem_def, ids,
    OrderedMap.keys, Assoc.keys, OrderedMap.values, List.flatMap_map, List.forall_mem_map,
    List.forall_mem_flatMap, and_assoc, forall_and]

theorem Graph.forall_outputNames {g : Graph} {P : String → Prop} : (∀ u ∈ g.outputNames, P u) ↔
    ∀ p ∈ g.entries.toList, ∀ u ∈ p.2.outputNames, P u := by
  simp only [outputNames, OrderedMap.values, List.flatMap_map, List.forall_mem_flatMap]

section Matching

variable {N N' : NodeId → NodeId → Prop} {U U' : String → String → Prop}

/-- Matching is symmetric, -/
theorem Outputs.Matches.flip {o o' : Outputs} (h : o.Matches N U o') :
    o'.Matches (fun m n => N n m) (fun u' u => U u u') o := by
  refine List.Forall₂.flip (h.imp fun p q both => ?_)
  exact ⟨both.1, List.Forall₂.flip both.2⟩

/-- and it only depends on what the left side mentions. -/
theorem Outputs.Matches.imp_mem {o o' : Outputs} (h : o.Matches N U o')
    (nodes : ∀ n ∈ o.allIds, ∀ m, N n m → N' n m)
    (outputs : ∀ u ∈ o.keys, ∀ u', U u u' → U' u u') : o.Matches N' U' o' := by
  refine List.Forall₂.imp_mem h fun p mem q both => ⟨?_, ?_⟩
  · exact outputs p.1 (List.mem_map_of_mem mem) q.1 both.1
  · exact List.Forall₂.imp_mem both.2 fun n held => nodes n (List.mem_flatMap.2 ⟨p, mem, held⟩)

/-- The successors correspond one by one, whatever their outputs. -/
theorem Outputs.Matches.allIds {o o' : Outputs} (h : o.Matches N U o') :
    List.Forall₂ N o.allIds o'.allIds :=
  List.rel_flatMap h fun _ _ both => both.2

namespace Entry.Matches

variable {e e' : Entry}

theorem flip (h : e.Matches N U e') : e'.Matches (fun m n => N n m) (fun u' u => U u u') e where
  next := h.next.flip.imp_mem fun _ _ _ same => Outputs.Matches.flip same
  children := h.children.flip.imp_mem fun _ _ _ same => List.Forall₂.flip same

theorem imp_mem (h : e.Matches N U e') (nodes : ∀ n ∈ e.successors, ∀ m, N n m → N' n m)
    (outputs : ∀ u ∈ e.outputNames, ∀ u', U u u' → U' u u') : e.Matches N' U' e' where
  next := by
    refine h.next.imp_mem fun o next o' same => same.imp_mem (fun n mem => nodes n ?_) fun u mem =>
      outputs u ?_
    · exact List.mem_append_left _ (by rwa [nextIds, Option.mem_def.1 next])
    · rwa [outputNames, Option.mem_def.1 next]
  children := by
    refine h.children.imp_mem fun l inside l' same => same.imp_mem fun n mem => nodes n ?_
    exact List.mem_append_right _ (by rwa [childIds, Option.mem_def.1 inside])

theorem successors (h : e.Matches N U e') : List.Forall₂ N e.successors e'.successors := by
  have next : List.Forall₂ N e.nextIds e'.nextIds :=
    h.next.elim .nil fun _ _ same => Outputs.Matches.allIds same
  exact List.rel_append next (h.children.getD .nil)

end Entry.Matches

namespace Graph.Matches

variable {g g' : Graph}

theorem flip (h : g.Matches N U g') : g'.Matches (fun m n => N n m) (fun u' u => U u u') g where
  root := h.root.flip
  entries := List.Forall₂.flip (h.entries.imp fun _ _ both => ⟨both.1, both.2.flip⟩)

theorem imp_mem (h : g.Matches N U g') (nodes : ∀ n ∈ g.mentions, ∀ m, N n m → N' n m)
    (outputs : ∀ u ∈ g.outputNames, ∀ u', U u u' → U' u u') : g.Matches N' U' g' := by
  obtain ⟨top, each⟩ := forall_mentions.1 nodes
  rw [forall_outputNames] at outputs
  refine ⟨h.root.imp_mem top, h.entries.imp_mem fun p mem q both => ?_⟩
  obtain ⟨key, held⟩ := each p mem
  exact ⟨key q.1 both.1, both.2.imp_mem held (outputs p mem)⟩

theorem ids (h : g.Matches N U g') : List.Forall₂ N g.ids g'.ids :=
  List.forall₂_map_left_iff.2 (List.forall₂_map_right_iff.2 (h.entries.imp fun _ _ both => both.1))

theorem references (h : g.Matches N U g') : List.Forall₂ N g.references g'.references :=
  List.rel_append h.root.toList (List.rel_flatMap h.entries fun _ _ both => both.2.successors)

end Graph.Matches

end Matching

/-! ## The shape of matching graphs -/

namespace Assoc

variable {κ κ' ν ν' : Type} [DecidableEq κ] [DecidableEq κ'] {f : κ → κ'} {R : ν → ν' → Prop}
  {l : List (κ × ν)} {l' : List (κ' × ν')}

theorem find?_forall₂ (inj : f.Injective)
    (all : List.Forall₂ (fun p q => q.1 = f p.1 ∧ R p.2 q.2) l l') (k : κ) :
    Option.Rel R (find? k l) (find? (f k) l') := by
  induction all with
  | nil => exact .none
  | @cons p q l l' first _ ih =>
    obtain ⟨key, value⟩ := first
    by_cases same : p.1 = k
    · simp only [find?, key, same, if_true]
      exact .some value
    · simp only [find?, key, same, inj.eq_iff, if_false]
      exact ih

end Assoc

namespace Graph

variable {g g' : Graph} {σ : Equiv.Perm NodeId} {U : String → String → Prop} {r : NodeId}

/-- In a matching graph a node has the images of its successors. -/
theorem Matches.successors (h : g.Matches (fun n m => m = σ n) U g') (n : NodeId) :
    g'.successors (σ n) = (g.successors n).map σ := by
  have entry := Assoc.find?_forall₂ σ.injective h.entries n
  have same : List.Forall₂ (fun n m => m = σ n) (g.successors n) (g'.successors (σ n)) :=
    entry.elim .nil fun _ _ same => same.successors
  exact same.eq_map

/-- A graph whose nodes were permuted hangs from the new root as it did from the old one. -/
theorem HangsFrom.of_matches (hangs : g.HangsFrom r) (h : g.Matches (fun n m => m = σ n) U g') :
    g'.HangsFrom (σ r) where
  reached := by
    intro x there
    rw [h.ids.eq_map] at there
    obtain ⟨n, old, rfl⟩ := List.mem_map.1 there
    refine (hangs.reached n old).lift σ fun a b edge => ?_
    show σ b ∈ g'.successors (σ a)
    rw [h.successors]
    exact List.mem_map_of_mem edge
  closed := by
    rw [h.references.eq_map, h.ids.eq_map]
    rintro x mem
    obtain ⟨n, old, rfl⟩ := List.mem_map.1 mem
    exact List.mem_map_of_mem (hangs.closed n old)
  distinct := by
    rw [h.references.eq_map]
    exact hangs.distinct.map σ.injective

/-- Up to a permutation of the nodes, a graph that matches a valid one is valid. -/
theorem validate_of_matches (h : g.Matches (fun n m => m = σ n) U g')
    (valid : g.validate = .ok ()) : g'.validate = .ok () := by
  cases root : g.root with
  | none =>
    rw [validate_of_rootless root] at valid
    rw [validate_of_rootless (h.root.eq_none root), h.ids.eq_map, valid, List.map_nil]
  | some r =>
    obtain ⟨_, root', rfl⟩ := h.root.eq_some root
    rw [validate_eq_ok_iff, isTree_iff_hangsFrom root] at valid
    rw [validate_eq_ok_iff, isTree_iff_hangsFrom root']
    exact valid.of_matches h

/-- A graph whose nodes were permuted is valid exactly if it was before. -/
theorem validate_iff_of_matches (h : g.Matches (fun n m => m = σ n) U g') :
    g'.validate = .ok () ↔ g.validate = .ok () := by
  have back : g'.Matches (fun m n => n = σ.symm m) (fun u' u => U u u') g :=
    h.flip.imp_mem (fun m _ n same => by rw [same, Equiv.symm_apply_apply]) fun _ _ _ same => same
  exact ⟨validate_of_matches back, validate_of_matches h⟩

end Graph

/-! ## Renaming, equation by equation -/

namespace Renaming

variable {names : Renaming} {n : NodeId} {o : String}

/-- A node can be renamed if there is a name for it. -/
theorem exists_node_iff : (∃ m, names.node n = .ok m) ↔ n ∈ names.nodes.keys := by
  simp only [node_eq_ok, OrderedMap.mem_keys_iff]

/-- An output can be renamed if there is a name for it; the default output keeps its own. -/
theorem exists_output_iff :
    (∃ o', names.output o = .ok o') ↔ (o ≠ "" → o ∈ names.outputs.keys) := by
  simp only [output_eq_ok, OrderedMap.mem_keys_iff]
  by_cases default : o = ""
  · simp [default]
  · simp [default]

/-- Renamed outputs are read from renamed pairs, of which two may be merged. -/
theorem outputsOf_eq_ok_iff {outputs outputs' : Outputs} :
    names.outputsOf outputs = .ok outputs' ↔ ∃ qs, List.Forall₂ (fun p q =>
      names.output p.1 = .ok q.1 ∧ List.Forall₂ (names.node · = .ok ·) p.2 q.2)
        outputs.toList qs ∧ outputs' = .ofList qs := by
  refine OrderedMap.foldlM_insert_eq_ok fun acc p acc' => ?_
  constructor
  · intro step
    obtain ⟨ids, renamed, step⟩ := Except.bind_eq_ok.1 step
    obtain ⟨o', named, step⟩ := Except.bind_eq_ok.1 step
    cases step
    exact ⟨(o', ids), ⟨named, Except.mapM_eq_ok_iff.1 renamed⟩, rfl⟩
  · rintro ⟨q, ⟨named, renamed⟩, rfl⟩
    rw [Except.mapM_eq_ok_iff.2 renamed, named]
    rfl

/-- An entry is renamed list by list. -/
theorem entry_eq_ok_iff {e e' : Entry} : names.entry e = .ok e' ↔
    Option.Rel (names.outputsOf · = .ok ·) e.next e'.next ∧
      Option.Rel (List.Forall₂ (names.node · = .ok ·)) e.children e'.children := by
  have list : ∀ l l' : List NodeId, l.mapM names.node = .ok l' ↔
      List.Forall₂ (names.node · = .ok ·) l l' := fun _ _ => Except.mapM_eq_ok_iff
  have inside : ∀ c, e.children.mapM (·.mapM names.node) = .ok c ↔
      Option.Rel (List.Forall₂ (names.node · = .ok ·)) e.children c := fun c => by
    simp only [Except.mapM_option_eq_ok_iff, list]
  constructor
  · intro h
    obtain ⟨next, renamed, h⟩ := Except.bind_eq_ok.1 h
    obtain ⟨children, renamed', h⟩ := Except.bind_eq_ok.1 h
    cases h
    exact ⟨Except.mapM_option_eq_ok_iff.1 renamed, (inside _).1 renamed'⟩
  · rintro ⟨next, children⟩
    unfold entry
    rw [Except.mapM_option_eq_ok_iff.2 next, (inside _).2 children]
    rfl

end Renaming

namespace Graph

variable {g g' : Graph} {names : Renaming}

/-- A graph is renamed entry by entry, and two entries with the same new name are merged. -/
theorem rename_eq_ok_iff : g.rename names = .ok g' ↔
    Option.Rel (names.node · = .ok ·) g.root g'.root ∧
      ∃ qs, List.Forall₂ (fun p q => names.node p.1 = .ok q.1 ∧ names.entry p.2 = .ok q.2)
        g.entries.toList qs ∧ g'.entries = .ofList qs := by
  have fold : ∀ m, g.entries.toList.foldlM (fun (acc : OrderedMap NodeId Entry) p => do
      let e ← names.entry p.2
      return acc.insert (← names.node p.1) e) .empty = .ok m ↔
        ∃ qs, List.Forall₂ (fun p q => names.node p.1 = .ok q.1 ∧ names.entry p.2 = .ok q.2)
          g.entries.toList qs ∧ m = .ofList qs := by
    refine fun m => OrderedMap.foldlM_insert_eq_ok fun acc p acc' => ?_
    constructor
    · intro step
      obtain ⟨e, renamed, step⟩ := Except.bind_eq_ok.1 step
      obtain ⟨k, named, step⟩ := Except.bind_eq_ok.1 step
      cases step
      exact ⟨(k, e), ⟨named, renamed⟩, rfl⟩
    · rintro ⟨q, ⟨named, renamed⟩, rfl⟩
      rw [renamed, named]
      rfl
  constructor
  · intro h
    obtain ⟨root, top, h⟩ := Except.bind_eq_ok.1 h
    obtain ⟨entries, rest, h⟩ := Except.bind_eq_ok.1 h
    cases h
    exact ⟨Except.mapM_option_eq_ok_iff.1 top, (fold _).1 rest⟩
  · rintro ⟨top, rest⟩
    unfold rename
    rw [Except.mapM_option_eq_ok_iff.2 top, (fold _).2 rest]
    rfl

end Graph

/-! ## What a renaming covers -/

/-- All that a graph mentions has a new name, the default output apart. -/
structure Renaming.Covers (names : Renaming) (g : Graph) : Prop where
  nodes : ∀ n ∈ g.mentions, n ∈ names.nodes.keys
  outputs : ∀ o ∈ g.outputNames, o ≠ "" → o ∈ names.outputs.keys

/-- Outputs can be renamed if all that they mention has a name. -/
theorem Renaming.exists_outputsOf_iff {names : Renaming} {o : Outputs} :
    (∃ o', names.outputsOf o = .ok o') ↔
      (∀ n ∈ o.allIds, n ∈ names.nodes.keys) ∧
        ∀ u ∈ o.keys, u ≠ "" → u ∈ names.outputs.keys := by
  have pairs : (∃ o', names.outputsOf o = .ok o') ↔
      ∃ qs : List (String × List NodeId), List.Forall₂ (fun p q =>
        names.output p.1 = .ok q.1 ∧ List.Forall₂ (names.node · = .ok ·) p.2 q.2) o.toList qs := by
    simp only [outputsOf_eq_ok_iff]
    exact ⟨fun ⟨_, qs, all, _⟩ => ⟨qs, all⟩, fun ⟨qs, all⟩ => ⟨_, qs, all, rfl⟩⟩
  rw [pairs, List.Forall₂.exists_iff]
  constructor
  · intro each
    constructor
    · intro n mem
      obtain ⟨p, mem, held⟩ := List.mem_flatMap.1 mem
      obtain ⟨q, _, renamed⟩ := each p mem
      exact exists_node_iff.1 (List.Forall₂.exists_iff.1 ⟨_, renamed⟩ n held)
    · intro u used
      obtain ⟨p, mem, rfl⟩ := List.mem_map.1 used
      obtain ⟨q, named, _⟩ := each p mem
      exact exists_output_iff.1 ⟨_, named⟩
  · rintro ⟨nodes, outputs⟩ p mem
    obtain ⟨u, named⟩ := exists_output_iff.2 (outputs p.1 (List.mem_map_of_mem mem))
    obtain ⟨ids, renamed⟩ := List.Forall₂.exists_iff.2 fun n held =>
      exists_node_iff.2 (nodes n (List.mem_flatMap.2 ⟨p, mem, held⟩))
    exact ⟨(u, ids), named, renamed⟩

/-- The same goes for an entry. -/
theorem Renaming.exists_entry_iff {names : Renaming} {e : Entry} :
    (∃ e', names.entry e = .ok e') ↔
      (∀ n ∈ e.successors, n ∈ names.nodes.keys) ∧
        ∀ u ∈ e.outputNames, u ≠ "" → u ∈ names.outputs.keys := by
  have parts : (∃ e', names.entry e = .ok e') ↔
      (∀ o ∈ e.next, ∃ o', names.outputsOf o = .ok o') ∧
        ∀ l ∈ e.children, ∃ l', List.Forall₂ (names.node · = .ok ·) l l' := by
    rw [← Option.Rel.exists_iff, ← Option.Rel.exists_iff]
    simp only [entry_eq_ok_iff]
    exact ⟨fun ⟨e', next, children⟩ => ⟨⟨e'.next, next⟩, ⟨e'.children, children⟩⟩,
      fun ⟨⟨next, here⟩, ⟨children, inside⟩⟩ => ⟨{ next, children }, here, inside⟩⟩
  simp only [parts, exists_outputsOf_iff, List.Forall₂.exists_iff, exists_node_iff,
    Entry.successors, Entry.nextIds, Entry.childIds, Entry.outputNames, List.forall_mem_append]
  cases e.next <;> cases e.children <;> simp [and_right_comm, and_assoc]

/-- A renaming succeeds exactly if all that the graph mentions has a new name. -/
theorem Graph.exists_rename_iff_covers {g : Graph} {names : Renaming} :
    (∃ g', g.rename names = .ok g') ↔ names.Covers g := by
  have parts : (∃ g', g.rename names = .ok g') ↔ (∀ n ∈ g.root, n ∈ names.nodes.keys) ∧
      ∀ p ∈ g.entries.toList, p.1 ∈ names.nodes.keys ∧ ∃ e', names.entry p.2 = .ok e' := by
    simp only [rename_eq_ok_iff, ← Renaming.exists_node_iff, ← Option.Rel.exists_iff]
    have both : (∀ p ∈ g.entries.toList, (∃ m, names.node p.1 = .ok m) ∧
        ∃ e', names.entry p.2 = .ok e') ↔ ∃ qs : List (NodeId × Entry), List.Forall₂ (fun p q =>
          names.node p.1 = .ok q.1 ∧ names.entry p.2 = .ok q.2) g.entries.toList qs := by
      rw [List.Forall₂.exists_iff]
      exact forall₂_congr fun p _ => ⟨fun ⟨⟨m, named⟩, e', renamed⟩ => ⟨(m, e'), named, renamed⟩,
        fun ⟨q, named, renamed⟩ => ⟨⟨q.1, named⟩, q.2, renamed⟩⟩
    rw [both]
    exact ⟨fun ⟨g', top, qs, all, _⟩ => ⟨⟨g'.root, top⟩, qs, all⟩,
      fun ⟨⟨root, top⟩, qs, all⟩ => ⟨{ root, entries := .ofList qs }, top, qs, all, rfl⟩⟩
  have covers : names.Covers g ↔ (∀ n ∈ g.mentions, n ∈ names.nodes.keys) ∧
      ∀ u ∈ g.outputNames, u ≠ "" → u ∈ names.outputs.keys :=
    ⟨fun h => ⟨h.nodes, h.outputs⟩, fun h => ⟨h.1, h.2⟩⟩
  rw [parts, covers, forall_mentions, forall_outputNames, and_assoc, ← forall₂_and]
  simp only [Renaming.exists_entry_iff, and_assoc]

namespace Graph

variable {g g' : Graph} {names : Renaming} {n : NodeId} {o : String}

/-- The outputs of a graph are those in use at any of its nodes. -/
theorem mem_outputNames : o ∈ g.outputNames ↔ ∃ n, o ∈ g.outputsInUse n := by
  constructor
  · intro used
    obtain ⟨e, mem, used⟩ := List.mem_flatMap.1 used
    obtain ⟨⟨n, e⟩, entry, rfl⟩ := List.mem_map.1 mem
    have he : g.find? n = some e := OrderedMap.mem_toList_iff.1 entry
    exact ⟨n, by rwa [outputsInUse, he]⟩
  · rintro ⟨n, used⟩
    obtain ⟨e, he⟩ := mem_ids_iff.1 (mem_ids_of_outputsInUse used)
    rw [outputsInUse, he] at used
    exact forall_outputNames.1 (fun _ => id) (n, e) (OrderedMap.mem_of_get? he) o used

/-- An orderly graph can be renamed if its nodes and the outputs in use have names. -/
theorem Orderly.exists_rename (h : g.Orderly) (nodes : ∀ n ∈ g.ids, ∃ m, names.node n = .ok m)
    (outputs : ∀ n, ∀ o ∈ g.outputsInUse n, ∃ o', names.output o = .ok o') :
    ∃ g', g.rename names = .ok g' := by
  refine exists_rename_iff_covers.2 ⟨fun n mem => ?_, fun o used => ?_⟩
  · exact Renaming.exists_node_iff.1 (nodes n (h.mem_mentions mem))
  · obtain ⟨n, used⟩ := mem_outputNames.1 used
    exact Renaming.exists_output_iff.1 (outputs n o used)

/-- A graph was renamed only if the outputs in use have names. -/
theorem output_of_rename (h : g.rename names = .ok g') :
    ∀ n, ∀ o ∈ g.outputsInUse n, ∃ o', names.output o = .ok o' := by
  intro n o used
  have covers := exists_rename_iff_covers.1 ⟨g', h⟩
  exact Renaming.exists_output_iff.2 (covers.outputs o (mem_outputNames.2 ⟨n, used⟩))

end Graph

/-! ## Names that are all different -/

/-- No two ids that a graph mentions have the same new name, no two of its outputs do, and none of
them becomes the default output. -/
structure Renaming.KeepsApart (names : Renaming) (g : Graph) : Prop where
  nodes : ∀ n ∈ g.mentions, ∀ n' ∈ g.mentions, names.nodes.get? n = names.nodes.get? n' → n = n'
  outputs : ∀ u ∈ g.outputNames, u ≠ "" → ∀ u' ∈ g.outputNames, u' ≠ "" →
    names.outputs.get? u = names.outputs.get? u' → u = u'
  default : ∀ u ∈ g.outputNames, u ≠ "" → names.outputs.get? u ≠ some ""

/-- A renaming takes the new names that another one gives in a graph back. -/
structure Renaming.Undoes (back names : Renaming) (g : Graph) : Prop where
  nodes : ∀ n ∈ g.mentions, ∀ m, names.nodes.get? n = some m → back.nodes.get? m = some n
  outputs : ∀ u ∈ g.outputNames, u ≠ "" → ∀ v,
    names.outputs.get? u = some v → back.outputs.get? v = some u

/-- The renaming from the new names in a graph to the old ones. -/
def Renaming.inverseOn (names : Renaming) (g : Graph) : Renaming where
  nodes := names.nodes.invert (· ∈ g.mentions)
  outputs := names.outputs.invert fun u => u ∈ g.outputNames ∧ u ≠ ""

namespace Renaming

variable {names back : Renaming} {g : Graph}

/-- Two outputs of the graph, the default one included, have different new names. -/
theorem KeepsApart.output (h : names.KeepsApart g) : ∀ u ∈ g.outputNames, ∀ u' ∈ g.outputNames,
    ∀ v, names.output u = .ok v → names.output u' = .ok v → u = u' := by
  intro u mem u' mem' v named named'
  rcases output_eq_ok.1 named with ⟨rfl, rfl⟩ | ⟨other, named⟩ <;>
    rcases output_eq_ok.1 named' with ⟨rfl, same⟩ | ⟨other', named'⟩
  · rfl
  · exact absurd named' (h.default u' mem' other')
  · exact absurd (same ▸ named) (h.default u mem other)
  · exact h.outputs u mem other u' mem' other' (named.trans named'.symm)

/-- If names are kept apart, there is a renaming that takes them back. -/
theorem KeepsApart.undoes_inverseOn (h : names.KeepsApart g) : (names.inverseOn g).Undoes names g
    where
  nodes n mem m named := by
    refine OrderedMap.get?_invert (fun k k' v kept kept' held held' => ?_)
      (decide_eq_true mem) named
    exact h.nodes k (of_decide_eq_true kept) k' (of_decide_eq_true kept') (held.trans held'.symm)
  outputs u mem other v named := by
    refine OrderedMap.get?_invert (fun k k' w kept kept' held held' => ?_)
      (decide_eq_true ⟨mem, other⟩) named
    obtain ⟨mem, other⟩ := of_decide_eq_true kept
    obtain ⟨mem', other'⟩ := of_decide_eq_true kept'
    exact h.outputs k mem other k' mem' other' (held.trans held'.symm)

/-- What undoes a renaming takes the new name of a node back, -/
theorem Undoes.node (h : back.Undoes names g) : ∀ n ∈ g.mentions, ∀ m,
    names.node n = .ok m → back.node m = .ok n :=
  fun n mem m named => node_eq_ok.2 (h.nodes n mem m (node_eq_ok.1 named))

/-- and that of an output as well, as none has become the default one. -/
theorem Undoes.output (h : back.Undoes names g) (apart : names.KeepsApart g) :
    ∀ u ∈ g.outputNames, ∀ v, names.output u = .ok v → back.output v = .ok u := by
  intro u mem v named
  rcases output_eq_ok.1 named with ⟨rfl, rfl⟩ | ⟨other, named⟩
  · rfl
  · have kept : v ≠ "" := fun default => apart.default u mem other (default ▸ named)
    exact output_eq_ok.2 (Or.inr ⟨kept, h.outputs u mem other v named⟩)

/-! ## Renamed graphs match -/

/-- What matches by new names is what a renaming gives. -/
theorem outputsOf_of_matches {o o' : Outputs}
    (h : o.Matches (names.node · = .ok ·) (names.output · = .ok ·) o') :
    names.outputsOf o = .ok o' :=
  outputsOf_eq_ok_iff.2 ⟨o'.toList, h, o'.ofList_toList.symm⟩

/-- Conversely, what it gives matches if the new names of the outputs are different. -/
theorem matches_of_outputsOf {o o' : Outputs} (run : names.outputsOf o = .ok o')
    (apart : ∀ u ∈ o.keys, ∀ u' ∈ o.keys, ∀ v,
      names.output u = .ok v → names.output u' = .ok v → u = u') :
    o.Matches (names.node · = .ok ·) (names.output · = .ok ·) o' := by
  obtain ⟨qs, all, rfl⟩ := outputsOf_eq_ok_iff.1 run
  have kept : (OrderedMap.ofList qs).toList = qs :=
    OrderedMap.toList_ofList_of_forall₂ (all.imp fun _ _ both => both.1) apart
  unfold Outputs.Matches
  rwa [kept]

theorem entry_of_matches {e e' : Entry}
    (h : e.Matches (names.node · = .ok ·) (names.output · = .ok ·) e') : names.entry e = .ok e' :=
  entry_eq_ok_iff.2 ⟨h.next.imp_mem fun _ _ _ same => outputsOf_of_matches same, h.children⟩

theorem matches_of_entry {e e' : Entry} (run : names.entry e = .ok e')
    (apart : ∀ u ∈ e.outputNames, ∀ u' ∈ e.outputNames, ∀ v,
      names.output u = .ok v → names.output u' = .ok v → u = u') :
    e.Matches (names.node · = .ok ·) (names.output · = .ok ·) e' := by
  obtain ⟨next, children⟩ := entry_eq_ok_iff.1 run
  refine ⟨next.imp_mem fun o here o' run => matches_of_outputsOf run ?_, children⟩
  rwa [Entry.outputNames, Option.mem_def.1 here] at apart

end Renaming

namespace Graph

variable {g g' : Graph} {names back : Renaming}

/-- A graph that matches by new names is the renamed one. -/
theorem rename_of_matches (h : g.Matches (names.node · = .ok ·) (names.output · = .ok ·) g') :
    g.rename names = .ok g' :=
  rename_eq_ok_iff.2 ⟨h.root, g'.entries.toList,
    h.entries.imp fun _ _ both => ⟨both.1, Renaming.entry_of_matches both.2⟩,
    g'.entries.ofList_toList.symm⟩

/-- If the new names are all different, everything is where it was. -/
theorem matches_of_rename (apart : names.KeepsApart g) (run : g.rename names = .ok g') :
    g.Matches (names.node · = .ok ·) (names.output · = .ok ·) g' := by
  obtain ⟨top, qs, all, entries⟩ := rename_eq_ok_iff.1 run
  have kept : g'.entries.toList = qs := by
    rw [entries]
    refine OrderedMap.toList_ofList_of_forall₂ (K := (names.node · = .ok ·))
      (all.imp fun _ _ both => both.1) fun k mem k' mem' v named named' => ?_
    have mentioned : ∀ {n}, n ∈ g.ids → n ∈ g.mentions := fun mem =>
      List.mem_append_left _ (List.mem_append_right _ mem)
    exact apart.nodes k (mentioned mem) k' (mentioned mem')
      ((Renaming.node_eq_ok.1 named).trans (Renaming.node_eq_ok.1 named').symm)
  refine ⟨top, kept ▸ all.imp_mem fun p mem q both => ⟨both.1, ?_⟩⟩
  have used : ∀ u ∈ p.2.outputNames, u ∈ g.outputNames := forall_outputNames.1 (fun _ => id) p mem
  exact Renaming.matches_of_entry both.2 fun u mem u' mem' =>
    apart.output u (used u mem) u' (used u' mem')

/-- A graph whose nodes have names that are all different is valid exactly if it was before. -/
theorem validate_of_rename (apart : names.KeepsApart g) (run : g.rename names = .ok g') :
    g'.validate = .ok () ↔ g.validate = .ok () := by
  have covers := exists_rename_iff_covers.1 ⟨g', run⟩
  let f : NodeId → NodeId := fun n => (names.nodes.get? n).getD n
  have name : ∀ {n m}, names.nodes.get? n = some m → f n = m := fun h => by
    rw [show f _ = (names.nodes.get? _).getD _ from rfl, h, Option.getD_some]
  have inj : Set.InjOn f {n | n ∈ g.mentions} := by
    intro n mem n' mem' same
    obtain ⟨m, named⟩ := OrderedMap.mem_keys_iff.1 (covers.nodes n mem)
    obtain ⟨m', named'⟩ := OrderedMap.mem_keys_iff.1 (covers.nodes n' mem')
    rw [name named, name named'] at same
    exact apart.nodes n mem n' mem' (named.trans (same ▸ named'.symm))
  obtain ⟨σ, extends_f⟩ := NodeId.exists_perm inj
  have permuted : g.Matches (fun n m => m = σ n) (names.output · = .ok ·) g' := by
    refine (matches_of_rename apart run).imp_mem (fun n mem m named => ?_) fun _ _ _ same => same
    rw [extends_f n mem, name (Renaming.node_eq_ok.1 named)]
  exact validate_iff_of_matches permuted

/-- A renaming succeeds exactly if it covers what the graph mentions. If its names for that are all
different, the result matches the graph place by place and is valid exactly if the graph is, and
whatever renaming takes the names back takes the graph back, as the inverse one does. -/
theorem rename_faithful (g : Graph) (names : Renaming) :
    ((∃ g', g.rename names = .ok g') ↔ names.Covers g) ∧
    (names.Covers g → names.KeepsApart g → ∃ g', g.rename names = .ok g' ∧
      g.Matches (names.node · = .ok ·) (names.output · = .ok ·) g' ∧
      (g'.validate = .ok () ↔ g.validate = .ok ()) ∧
      g'.rename (names.inverseOn g) = .ok g ∧
      ∀ back : Renaming, back.Undoes names g → g'.rename back = .ok g) := by
  refine ⟨exists_rename_iff_covers, fun covers apart => ?_⟩
  obtain ⟨g', run⟩ := exists_rename_iff_covers.2 covers
  have same := matches_of_rename apart run
  have returns : ∀ back : Renaming, back.Undoes names g → g'.rename back = .ok g :=
    fun back undoes => rename_of_matches (same.imp_mem undoes.node (undoes.output apart)).flip
  exact ⟨g', run, same, validate_of_rename apart run, returns _ apart.undoes_inverseOn, returns⟩

/-- New names for the nodes and the output of `grove`. -/
def groveNames : Renaming where
  nodes := .ofList [(1, 41), (2, 42), (3, 43), (4, 44), (5, 45), (6, 46), (7, 47)]
  outputs := .single "x" "y"

/-- The nodes on a named output and those in a container have names that are all different. -/
theorem rename_faithful_grove : groveNames.Covers grove ∧ groveNames.KeepsApart grove ∧
    ∃ g', grove.rename groveNames = .ok g' ∧ g'.validate = .ok () ∧
      g'.rename (groveNames.inverseOn grove) = .ok grove := by
  have covers : groveNames.Covers grove := ⟨by decide, by decide⟩
  have apart : groveNames.KeepsApart grove := ⟨by decide +kernel, by decide, by decide⟩
  obtain ⟨g', run, _, valid, returns, _⟩ := (rename_faithful grove groveNames).2 covers apart
  exact ⟨covers, apart, g', run, valid.2 (by decide +kernel), returns⟩

end Graph

end Autoflow

import Autoflow.Proofs.Editing.Sessions

/-!
# Where nodes go

Between the live nodes and the trash a node is only handed over: an edit that succeeds may throw
one live node away and make one node live, a new one, one of the trash or another version of one
that is live already (`Exchange`). There is one lemma for each edit and one for all that can be
asked for (`Operation.exchange`).

They need the nodes to be filed: under its own id each, and those that are live in the graph as
well. Edits that succeed keep them filed (`Exchange.filed`).
-/

namespace Autoflow

/-- The live nodes of a workflow are kept under their ids. -/
def Workflow.Keyed (w : Workflow) : Prop := ∀ n node, w.nodes.get? n = some node → node.id = n

/-- The live nodes of a workflow are kept under their ids, and they stand in the graph. -/
structure Workflow.Filed (w : Workflow) : Prop where
  id : ∀ {n node}, w.nodes.get? n = some node → node.id = n
  ids : ∀ n, n ∈ w.graph.ids ↔ n ∈ w.nodes.ids

/-- A filed workflow keeps its nodes under their ids. -/
theorem Workflow.Filed.keyed {w : Workflow} (filed : w.Filed) : w.Keyed := fun _ _ => filed.id

/-- The ids of the nodes, in order, are those under which they are kept. -/
theorem Workflow.Keyed.map_id_values {w : Workflow} (keyed : w.Keyed) :
    w.nodes.values.map (·.id) = w.nodes.ids := by
  unfold NodeMap.values NodeMap.ids Assoc.keys
  rw [List.map_map]
  refine List.map_congr_left fun p mem => ?_
  exact keyed p.1 p.2 ((Assoc.mem_iff_find? (NodeMap.nodup_keys w.nodes.sorted)).1 mem)

/-- Nodes kept under their ids are different ones. -/
theorem Workflow.Keyed.nodup_values {w : Workflow} (keyed : w.Keyed) :
    (w.nodes.values.map (·.id)).Nodup := by
  rw [keyed.map_id_values]
  exact NodeMap.nodup_keys w.nodes.sorted

namespace Desk

/-- The nodes of the workflow and of the trash are kept under their ids. -/
structure Filed (d : Desk) : Prop where
  workflow : d.workflow.Filed
  trash : ∀ {n node}, d.editor.trash.node? n = some node → node.id = n

/-- What an edit makes live, what it takes out of the trash for that, and the next id after it:
nothing, a new node, another version of a live one or a node out of the trash. -/
inductive Arrival (d : Desk) (out : Option NodeId) :
    Option Node → Option NodeId → NodeId → Prop where
  | nothing : Arrival d out none none d.editor.nextId
  | fresh (node : Node) (id : node.id = d.editor.nextId) :
    Arrival d out (some node) none d.editor.nextId.next
  | version (node : Node) (live : node.id ∈ d.workflow.nodes.ids) (stays : out = none) :
    Arrival d out (some node) none d.editor.nextId
  | back (node : Node) (trashed : d.editor.trash.node? node.id = some node) :
    Arrival d out (some node) (some node.id) d.editor.nextId

/-- An edit made `into` live, which it took out of the trash if it is `back`, and threw `out`
away. -/
structure Exchange (d d' : Desk) (out : Option NodeId) (into : Option Node)
    (back : Option NodeId) : Prop where
  arrival : Arrival d out into back d'.editor.nextId
  leaves : ∀ {n}, out = some n → n ∈ d.workflow.nodes.ids ∧ d.editor.trash.get? n = none
  nodes : ∀ k, d'.workflow.nodes.get? k =
    if into.map (·.id) = some k then into
    else if out = some k then none else d.workflow.nodes.get? k
  entries : ∀ k, k ∈ d'.workflow.graph.ids ↔
    into.map (·.id) = some k ∨ out ≠ some k ∧ k ∈ d.workflow.graph.ids
  trash : ∀ k, d'.editor.trash.node? k =
    if back = some k then none
    else if out = some k then d.workflow.nodes.get? k else d.editor.trash.node? k

variable {d d' : Desk} {out back : Option NodeId} {into : Option Node} {n : NodeId} {node : Node}

/-- Only the node that is made live comes out of the trash for it. -/
theorem Arrival.into_of_back {k next : NodeId} (h : d.Arrival out into back next)
    (e : back = some k) : into.map (·.id) = some k := by
  cases h with
  | nothing | fresh _ _ | version _ _ _ => cases e
  | back node _ => exact e

/-- An edit draws an id or none. -/
theorem Arrival.next {next : NodeId} (h : d.Arrival out into back next) :
    next = d.editor.nextId ∨ next = d.editor.nextId.next := by
  cases h with
  | nothing | version _ _ _ | back _ _ => exact Or.inl rfl
  | fresh _ _ => exact Or.inr rfl

/-- The live nodes are those that were, without the one thrown away and with the one made live. -/
theorem Exchange.mem_nodes (h : Exchange d d' out into back) (k : NodeId) :
    k ∈ d'.workflow.nodes.ids ↔
      into.map (·.id) = some k ∨ out ≠ some k ∧ k ∈ d.workflow.nodes.ids := by
  rw [NodeMap.mem_ids_iff, NodeMap.mem_ids_iff, h.nodes k]
  by_cases new : into.map (·.id) = some k
  · rw [if_pos new]
    obtain ⟨node, rfl, _⟩ := Option.map_eq_some_iff.1 new
    simp [new]
  · by_cases gone : out = some k <;> simp [new, gone]

/-- Nodes that are filed stay so. -/
theorem Exchange.filed (h : Exchange d d' out into back) (filed : d.Filed) : d'.Filed where
  workflow.id := by
    intro n node hn
    rw [h.nodes n] at hn
    split at hn
    · next new =>
      rw [hn] at new
      exact Option.some.inj new
    · split at hn
      · cases hn
      · exact filed.workflow.id hn
  workflow.ids n := by
    rw [h.entries n, h.mem_nodes n, filed.workflow.ids n]
  trash := by
    intro n node hn
    rw [h.trash n] at hn
    split at hn
    · cases hn
    · split at hn
      · exact filed.workflow.id hn
      · exact filed.trash hn

/-- A node was put into the graph and the table of nodes. -/
theorem exchange_planted {g : Graph} {p : Position}
    (workflow : d'.workflow = { d.workflow with graph := g }.addNode node)
    (graph : Graph.insert node.id p d.workflow.graph = .ok () g)
    (arrival : Arrival d none (some node) back d'.editor.nextId)
    (trash : ∀ k, d'.editor.trash.node? k =
      if back = some k then none else d.editor.trash.node? k) :
    Exchange d d' none (some node) back where
  arrival := arrival
  leaves := nofun
  nodes k := by
    rw [workflow]
    refine (Workflow.get?_addNode rfl _ k).trans ?_
    simp
  entries k := by
    rw [workflow]
    refine (Graph.mem_ids_insert graph).trans ?_
    simp [eq_comm]
  trash k := by
    rw [trash k]
    simp

/-- A node gave way to another one. -/
theorem exchange_swapped {g : Graph} {e : TrashEntry} (filed : d.Filed)
    (live : d.workflow.nodes.get? n = some e.node) (off : d.editor.trash.get? e.node.id = none)
    (workflow : d'.workflow = ({ d.workflow with graph := g }.takeNode n).addNode node)
    (graph : Graph.replace n node.id d.workflow.graph = .ok () g)
    (arrival : Arrival d (some n) (some node) back d'.editor.nextId)
    (trash : ∀ k, d'.editor.trash.node? k =
      if back = some k then none
      else if n = k then some e.node else d.editor.trash.node? k) :
    Exchange d d' (some n) (some node) back where
  arrival := arrival
  leaves := by
    rintro k ⟨⟩
    exact ⟨NodeMap.mem_ids_of_get? live, filed.workflow.id live ▸ off⟩
  nodes k := by
    rw [workflow]
    refine (Workflow.get?_addNode rfl _ k).trans ?_
    simp only [Option.map_some, Option.some.injEq]
    exact if_congr Iff.rfl rfl (Workflow.get?_takeNode _ n k)
  entries k := by
    rw [workflow]
    refine (Graph.mem_ids_replace graph).trans ?_
    simp [eq_comm]
  trash k := by
    rw [trash k]
    by_cases same : n = k
    · subst same
      simp [live]
    · simp [same]

end Desk

namespace Edit

open Desk

variable {env : Setup} (accepting : env.Accepting) {d d' : Desk} {n : NodeId} {node : Node}
  {p : Position}

/-! ## One lemma for each edit -/

include accepting in
/-- Of the edits, each is an exchange: a creation makes a new node live. -/
theorem create_exchange {typeName : String} {values : NodeValues}
    (h : create env typeName values p d = .ok node d') : Exchange d d' none (some node) none := by
  obtain ⟨type, reference, service, g, _, _, _, _, _, hg, rfl, rfl⟩ :=
    (create_eq_ok accepting).1 h
  refine exchange_planted (g := g) rfl hg ?_ fun k => ?_
  · rw [nextId_saved, nextId_counted]
    exact .fresh _ rfl
  · rw [trash_saved, trash_counted]
    rfl

/-- An update makes another version of a live node live. -/
theorem update_exchange {values : NodeValues} {u : UpdatedNode} (filed : d.Filed)
    (h : update env n values d = .ok u d') : ∃ node, Exchange d d' none (some node) none := by
  obtain ⟨node, type, service, hn, _, _, _, rfl⟩ := update_eq_ok.1 h
  have id : (updatedNode node values service).id = n := (filed.workflow.id hn : node.id = n)
  have live : n ∈ d.workflow.nodes.ids := NodeMap.mem_ids_of_get? hn
  refine ⟨updatedNode node values service, .version _ (id ▸ live) rfl, nofun, fun k => ?_,
    fun k => ?_, fun k => ?_⟩
  · refine (Workflow.get?_addNode id _ k).trans ?_
    simp [id]
  · have entry : n ∈ d.workflow.graph.ids := (filed.workflow.ids n).2 live
    have same : k ∈ d.workflow.graph.ids ↔ n = k ∨ k ∈ d.workflow.graph.ids :=
      (or_iff_right_of_imp fun e => e ▸ entry).symm
    refine same.trans ?_
    simp [id]
  · simp

include accepting in
/-- A deletion throws a node away. -/
theorem delete_exchange {actor : Option String} (filed : d.Filed)
    (h : delete env n actor d = .ok node d') : Exchange d d' (some n) none none := by
  obtain ⟨type, p, g, hn, _, _, _, hg, new, rfl⟩ := (delete_eq_ok accepting).1 h
  have id := filed.workflow.id hn
  refine ⟨.nothing, ?_, fun k => ?_, fun k => ?_, fun k => ?_⟩
  · rintro k ⟨⟩
    exact ⟨NodeMap.mem_ids_of_get? hn, id ▸ new⟩
  · refine (Workflow.get?_takeNode _ n k).trans ?_
    simp [thrownAway]
  · refine (Graph.mem_ids_remove hg).trans ?_
    simp [eq_comm]
  · have trash := get?_thrownAway (e := deletion d node actor p) id d k
    refine (congrArg (Option.map TrashEntry.node) trash).trans ?_
    by_cases same : n = k
    · subst same
      simp [hn, deletion]
    · simp [same, Trash.node?]

include accepting in
/-- A restoration makes the node live that it takes out of the trash. -/
theorem restore_exchange (filed : d.Filed) (h : restore env n d = .ok node d') :
    Exchange d d' none (some node) (some node.id) := by
  obtain ⟨entry, p, g, he, _, _, hg, rfl, rfl⟩ := (restore_eq_ok accepting).1 h
  have trashed : d.editor.trash.node? n = some entry.node := congrArg (Option.map _) he
  have id : entry.node.id = n := filed.trash trashed
  refine exchange_planted (g := g) rfl (id.symm ▸ hg) (.back _ (id.symm ▸ trashed)) fun k => ?_
  refine (congrArg (Option.map TrashEntry.node) (get?_takenBack d n k)).trans ?_
  by_cases same : n = k <;> simp [id, same, Trash.node?]

include accepting in
/-- A duplicate is a new node as well. -/
theorem duplicate_exchange (h : duplicate env n d = .ok node d') :
    Exchange d d' none (some node) none := by
  obtain ⟨source, type, service, g, _, _, _, _, hg, rfl, rfl⟩ := (duplicate_eq_ok accepting).1 h
  refine exchange_planted (g := g) rfl hg (.fresh _ rfl) fun k => ?_
  simp [Trash.node?, planted]

include accepting in
/-- A replacement makes a new node live and throws the old one away. -/
theorem replace_exchange {typeName : String} {actor : Option String} {r : ReplacedNode}
    (filed : d.Filed) (h : replace env n typeName none actor d = .ok r d') :
    Exchange d d' (some n) (some r.node) none := by
  obtain ⟨old, oldType, type, service, p, g, hn, _, _, _, _, _, hg, new, rfl, rfl⟩ :=
    (replace_eq_ok accepting).1 h
  have id := filed.workflow.id hn
  refine exchange_swapped (g := g) (e := retirement d old actor p) filed hn new rfl hg ?_
    fun k => ?_
  · rw [nextId_saved, nextId_counted]
    exact .fresh _ rfl
  · rw [trash_saved, trash_counted]
    refine (congrArg (Option.map TrashEntry.node)
      (get?_thrownAway (e := retirement d old actor p) id d.drawn k)).trans ?_
    by_cases same : n = k <;> simp [same, Trash.node?]

include accepting in
/-- A node that was replaced comes out of the trash while the other one is thrown away. -/
theorem restoreReplaced_exchange {trashed : NodeId} {r : ReplacedNode} (filed : d.Filed)
    (h : restoreReplaced env n trashed d = .ok r d') :
    Exchange d d' (some n) (some r.node) (some r.node.id) := by
  obtain ⟨entry, old, p, g, he, _, hn, _, hg, new, rfl, rfl⟩ :=
    (restoreReplaced_eq_ok accepting).1 h
  have there : d.editor.trash.node? trashed = some entry.node := congrArg (Option.map _) he
  have id : entry.node.id = trashed := filed.trash there
  refine exchange_swapped (g := g) (e := retirement d old none p) filed hn new rfl hg ?_
    fun k => ?_
  · exact .back _ (id.symm ▸ there)
  · have trash := get?_thrownAway (e := retirement d old none p) (filed.workflow.id hn) d k
    refine (congrArg (Option.map TrashEntry.node) ((get?_takenBack _ trashed k).trans
      (if_congr Iff.rfl rfl trash))).trans ?_
    by_cases same : trashed = k
    · simp [id, same]
    · by_cases old : n = k <;> simp [id, same, old, Trash.node?, retirement]

/-- An edit of the graph and the marker exchanges nothing. -/
theorem exchange_nothing {g : Graph} {m : Option NodeId}
    (workflow : d'.workflow = { d.workflow with graph := g, simulateUntil := m })
    (trash : d'.editor.trash = d.editor.trash) (next : d'.editor.nextId = d.editor.nextId)
    (ids : ∀ k, k ∈ g.ids ↔ k ∈ d.workflow.graph.ids) : Exchange d d' none none none where
  arrival := by
    rw [next]
    exact .nothing
  leaves := nofun
  nodes k := by simp [workflow]
  entries k := by simp [workflow, ids]
  trash k := by simp [trash]

include accepting in
/-- So it is with a move -/
theorem move_exchange {m : MovedNode} (filed : d.Filed) (h : move env n p d = .ok m d') :
    Exchange d d' none none none := by
  obtain ⟨node, type, reference, origin, g, hn, _, _, _, _, _, _, hg, rfl, rfl⟩ :=
    (move_eq_ok accepting).1 h
  have there := (filed.workflow.ids n).2 (NodeMap.mem_ids_of_get? hn)
  exact exchange_nothing (g := g) (m := d.workflow.simulateUntil) rfl rfl rfl fun k =>
    Graph.mem_ids_move hg there

/-- and with a simulation. -/
theorem simulate_exchange {m : Option NodeId} {u : Unit} (h : simulate m d = .ok u d') :
    Exchange d d' none none none := by
  obtain ⟨_, rfl⟩ := simulate_eq_ok.1 h
  exact exchange_nothing (g := d.workflow.graph) (m := m) rfl rfl rfl fun _ => Iff.rfl

end Edit

/-- Every operation that succeeds exchanges nodes only. -/
theorem Operation.exchange (o : Operation) {env : Setup} (accepting : env.Accepting) {d d' : Desk}
    (filed : d.Filed) {made : Option NodeId} (h : o.perform env d = .ok made d') :
    ∃ out into back, d.Exchange d' out into back := by
  refine Operation.induct (P := fun {α} _ x => ∀ (a : α) d', x env d = .ok a d' →
    ∃ out into back, d.Exchange d' out into back) ?_ ?_ ?_ ?_ ?_ ?_ ?_ ?_ ?_ ?_ ?_ o made d' h
  · intro α a _ d' h
    obtain ⟨_, rfl⟩ := Edit.pure_eq_ok.1 h
    exact ⟨_, _, _, Edit.exchange_nothing (g := d.workflow.graph) (m := d.workflow.simulateUntil)
      rfl rfl rfl fun _ => Iff.rfl⟩
  · intro α β left x g ih b d' h
    obtain ⟨a, run, _⟩ := Edit.map_eq_ok.1 h
    exact ih a _ run
  · exact fun _ _ _ _ _ h => ⟨_, _, _, Edit.create_exchange accepting h⟩
  · intro _ _ _ _ h
    obtain ⟨_, exchange⟩ := Edit.update_exchange filed h
    exact ⟨_, _, _, exchange⟩
  · exact fun _ _ _ _ h => ⟨_, _, _, Edit.delete_exchange accepting filed h⟩
  · exact fun _ _ _ h => ⟨_, _, _, Edit.restore_exchange accepting filed h⟩
  · exact fun _ _ _ h => ⟨_, _, _, Edit.duplicate_exchange accepting h⟩
  · exact fun _ _ _ _ _ h => ⟨_, _, _, Edit.replace_exchange accepting filed h⟩
  · exact fun _ _ _ _ h => ⟨_, _, _, Edit.restoreReplaced_exchange accepting filed h⟩
  · exact fun _ _ _ _ h => ⟨_, _, _, Edit.move_exchange accepting filed h⟩
  · exact fun _ _ _ h => ⟨_, _, _, Edit.simulate_exchange h⟩

/-- The node that an operation made is live after it. -/
theorem Operation.mem_of_made {o : Operation} {env : Setup} (accepting : env.Accepting)
    {d d' : Desk} (filed : d.Filed) {k : NodeId} (h : o.perform env d = .ok (some k) d') :
    k ∈ d'.workflow.nodes.ids := by
  cases o with
  | restore _ | restoreReplaced _ _ | simulate _ | undo _ | redo _ =>
    obtain ⟨_, _, _, none_made⟩ := Edit.bind_eq_ok.1 h
    cases none_made
  | request r =>
    obtain ⟨done, run, made⟩ := Edit.map_eq_ok.1 h
    cases r with
    | update _ _ | delete _ _ | move _ _ =>
      obtain ⟨_, _, _, shown⟩ := Edit.bind_eq_ok.1 run
      cases shown
      cases made
    | create typeName values p =>
      obtain ⟨node, _, run, shown⟩ := Edit.bind_eq_ok.1 run
      cases shown
      cases made
      exact ((Edit.create_exchange accepting run).mem_nodes _).2 (Or.inl rfl)
    | duplicate n =>
      obtain ⟨node, _, run, shown⟩ := Edit.bind_eq_ok.1 run
      cases shown
      cases made
      exact ((Edit.duplicate_exchange accepting run).mem_nodes _).2 (Or.inl rfl)
    | replace n typeName actor =>
      obtain ⟨node, _, run, shown⟩ := Edit.bind_eq_ok.1 run
      cases shown
      cases made
      exact ((Edit.replace_exchange accepting filed run).mem_nodes _).2 (Or.inl rfl)

end Autoflow

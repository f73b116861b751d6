import Autoflow.Proofs.Editing.Copies

/-!
# What edits do about listings and the store

An edit that changes the graph saves it, as its last change of the workflow, and forgets the listing
of the workflow first, so the listing is gone even if the save is refused (`Committed`). An update
changes a node and forgets the listing. Whatever else an edit does happens beside the workflow. So
there are three ways in which an edit can end (`Ending`), and one lemma for each edit says so.
-/

namespace Autoflow

namespace Workflow

variable {w : Workflow}

/-- A node is added under its own id. -/
theorem Keyed.addNode (keyed : w.Keyed) (node : Node) : (w.addNode node).Keyed := by
  intro n other h
  rw [get?_addNode rfl] at h
  split at h
  · next same =>
    cases h
    exact same
  · exact keyed n other h

theorem Keyed.setGraph (keyed : w.Keyed) (g : Graph) : ({ w with graph := g } : Workflow).Keyed :=
  keyed

theorem Keyed.takeNode (keyed : w.Keyed) (n : NodeId) : (w.takeNode n).Keyed := by
  intro m node h
  rw [get?_takeNode] at h
  split at h
  · cases h
  · exact keyed m node h

/-- Nodes that are kept under their ids are listed by increasing id. -/
theorem Keyed.sorted_values (keyed : w.Keyed) :
    (w.nodes.values.map (·.id)).Pairwise (· < ·) := by
  rw [keyed.map_id_values]
  exact List.pairwise_map.2 w.nodes.sorted

/-- A node that is listed is found under its own id. -/
theorem Keyed.mem_values_iff (keyed : w.Keyed) {node : Node} :
    node ∈ w.nodes.values ↔ w.nodes.get? node.id = some node := by
  rw [NodeMap.mem_values_iff]
  constructor
  · rintro ⟨n, h⟩
    rwa [keyed n node h]
  · exact fun h => ⟨_, h⟩

end Workflow

namespace Desk

/-- The listing of the workflow was forgotten, and its graph was saved after the last change to it,
unless the save was refused. -/
structure Committed (env : Setup) (d d' : Desk) : Prop where
  id : d'.workflow.id = d.workflow.id
  keyed : d.workflow.Keyed → d'.workflow.Keyed
  listings : d'.editor.listings =
    d.editor.listings.invalidate (Editor.listingKey d.workflow.id)
  store : (env.saveFault (d.editor.store.attempts + 1) = none ∧
      d'.editor.store = d.editor.store.save d.workflow.id d'.workflow.graph.toBlob) ∨
    (env.saveFault (d.editor.store.attempts + 1) ≠ none ∧
      d'.editor.store = d.editor.store.refuse)

/-- How an edit can end, by what it changed of the workflow: nothing but the marker, nodes only, or
the graph as well. -/
inductive Ending (env : Setup) (d d' : Desk) : Prop where
  | beside (id : d'.workflow.id = d.workflow.id) (nodes : d'.workflow.nodes = d.workflow.nodes)
    (graph : d'.workflow.graph = d.workflow.graph)
    (listings : d'.editor.listings = d.editor.listings)
    (store : d'.editor.store = d.editor.store)
  | revised (id : d'.workflow.id = d.workflow.id) (keyed : d.workflow.Keyed → d'.workflow.Keyed)
    (graph : d'.workflow.graph = d.workflow.graph)
    (listings : d'.editor.listings =
      d.editor.listings.invalidate (Editor.listingKey d.workflow.id))
    (store : d'.editor.store = d.editor.store)
  | committed (h : d.Committed env d')

variable {env : Setup} {d d' d'' : Desk}

/-- An edit that leaves workflow, listings and store alone is one that ends before it changes
anything. -/
theorem Aside.ending (h : d.Aside d') : d.Ending env d' :=
  .beside (by rw [h.workflow]) (by rw [h.workflow]) (by rw [h.workflow]) h.listings h.store

theorem Idle.aside (h : d.Idle d') : d.Aside d' := by
  rcases h with rfl | rfl
  · exact .refl d
  · exact ⟨rfl, rfl, rfl⟩

theorem Drew.aside (h : d.Drew d') : d.Aside d' := by
  obtain ⟨k, rfl⟩ := h
  induction k with
  | zero => exact .refl d
  | succ k ih =>
    rw [Function.iterate_succ_apply']
    exact ih.trans ⟨rfl, rfl, rfl⟩

/-- Steps that only change the trash and the counters may come before a commit. -/
theorem Aside.committed (h : d.Aside d') (h' : d'.Committed env d'') : d.Committed env d'' := by
  obtain ⟨id, keyed, listings, store⟩ := h'
  rw [h.workflow] at id keyed listings store
  rw [h.listings] at listings
  rw [h.store] at store
  exact ⟨id, keyed, listings, store⟩

/-- They may also come behind it. -/
theorem Committed.aside (h : d.Committed env d') (h' : d'.Aside d'') : d.Committed env d'' where
  id := by rw [h'.workflow, h.id]
  keyed := by
    rw [h'.workflow]
    exact h.keyed
  listings := h'.listings.trans h.listings
  store := by
    rw [h'.store, h'.workflow]
    exact h.store

theorem Aside.ending_trans (h : d.Aside d') (h' : d'.Ending env d'') : d.Ending env d'' := by
  cases h' with
  | beside id nodes graph listings store =>
    rw [h.workflow] at id nodes graph
    exact .beside id nodes graph (listings.trans h.listings) (store.trans h.store)
  | revised id keyed graph listings store =>
    rw [h.workflow] at id keyed graph listings
    rw [h.listings] at listings
    exact .revised id keyed graph listings (store.trans h.store)
  | committed h' => exact .committed (h.committed h')

/-- So an edit may end with such steps, whichever way it has ended. -/
theorem Ending.aside (h : d.Ending env d') (h' : d'.Aside d'') : d.Ending env d'' := by
  cases h with
  | beside id nodes graph listings store =>
    rw [← h'.workflow] at id nodes graph
    exact .beside id nodes graph (h'.listings.trans listings) (h'.store.trans store)
  | revised id keyed graph listings store =>
    rw [← h'.workflow] at id keyed graph
    exact .revised id keyed graph (h'.listings.trans listings) (h'.store.trans store)
  | committed h => exact .committed (h.aside h')

end Desk

namespace Edit

open Desk

variable {α β : Type} {env : Setup} {x : Edit α} {k : α → Edit β} {rest : Unit → Edit β}

/-! ## Rules -/

/-- A commit forgets the listing and saves the graph as it is then, or has the save refused. -/
theorem commit_commits (env : Setup) : Within (Committed env) (commit env) where
  ok {d u d'} h := by
    change commitOf env d.workflow d = .ok u d' at h
    obtain ⟨free, rfl⟩ := commitOf_eq_ok.1 h
    exact ⟨rfl, fun keyed => keyed, rfl, Or.inl ⟨free, rfl⟩⟩
  error {d f d'} h := by
    change save env d.workflow d.unlisted = .error f d' at h
    unfold save at h
    split at h
    · next g fault =>
      cases h
      have refused : env.saveFault (d.editor.store.attempts + 1) ≠ none := by
        rw [show env.saveFault (d.editor.store.attempts + 1) = some f from fault]
        exact Option.some_ne_none f
      exact ⟨rfl, fun keyed => keyed, rfl, Or.inr ⟨refused, rfl⟩⟩
    · cases h

theorem ends_of_commits (hx : Within (Committed env) x) : Within (Ending env) x :=
  hx.mono .committed

/-- A step beside the workflow comes before the save. -/
theorem ends_after (hx : Within Aside x) (hk : ∀ a, Within (Ending env) (k a)) :
    Within (Ending env) (x >>= k) := hx.seq hk Aside.ending Aside.ending_trans

/-- A branch is counted after the workflow was changed and before the save. -/
theorem commits_countBranch {needed : Bool} (hk : ∀ u, Within (Committed env) (rest u)) :
    Within (Committed env) (countBranch needed >>= rest) := by
  have counted : ∀ d : Desk, d.Aside (d.counted needed) := fun d =>
    (aside_countBranch needed).ok (d := d) (a := ()) rfl
  exact ⟨fun {d _ _} h => (counted d).committed ((hk ()).ok h),
    fun {d _ _} h => (counted d).committed ((hk ()).error h)⟩

/-- A step beside the workflow comes after the save. -/
theorem commits_before (hx : Within (Committed env) x) (hk : ∀ a, Within Aside (k a)) :
    Within (Committed env) (x >>= k) := hx.seq hk (fun h => h) Committed.aside

/-- An edit ends in one of the ways if its first part does and only the trash and the counters
change afterwards. -/
theorem ends_before (hx : Within (Ending env) x) (hk : ∀ a, Within Aside (k a)) :
    Within (Ending env) (x >>= k) := hx.seq hk (fun h => h) Ending.aside

/-- A change of the workflow before a commit is part of what is saved. -/
theorem commits_modifyWorkflow {change : Workflow → Workflow} (id : ∀ w, (change w).id = w.id)
    (keyed : ∀ w : Workflow, w.Keyed → (change w).Keyed)
    (hk : ∀ u, Within (Committed env) (rest u)) :
    Within (Committed env) (modifyWorkflow change >>= rest) := by
  have first : ∀ {d d' : Desk},
      ({ d with workflow := change d.workflow } : Desk).Committed env d' →
      d.Committed env d' := by
    intro d d' h
    obtain ⟨id', keyed', listings, store⟩ := h
    simp only [id] at id' listings store
    exact ⟨id', fun k => keyed' (keyed _ k), listings, store⟩
  exact ⟨fun h => first ((hk ()).ok h), fun h => first ((hk ()).error h)⟩

/-- An edit of the graph that fails leaves it alone, and one that does not is saved. -/
theorem ends_onGraph {e : Graph.Edit Unit}
    (clean : ∀ {g f g'}, e g = .error f g' → g' = g) (hk : ∀ u, Within (Committed env) (rest u)) :
    Within (Ending env) (onGraph e >>= rest) where
  ok {d b d'} h := by
    obtain ⟨g, _, h⟩ := onGraph_bind_ok.1 h
    obtain ⟨id, keyed, listings, store⟩ := (hk ()).ok h
    exact .committed ⟨id, keyed, listings, store⟩
  error {d f d'} h := by
    rcases onGraph_bind_failed clean h with rfl | ⟨g, h⟩
    · exact (Aside.refl d).ending
    · obtain ⟨id, keyed, listings, store⟩ := (hk ()).error h
      exact .committed ⟨id, keyed, listings, store⟩

/-! ## One lemma for each edit -/

section Edits

variable (env : Setup) (n : NodeId)

/-- Of the operations, each ends in one of the ways, here a creation: nothing of the workflow has
changed, or all of it is saved. -/
theorem create_ends (typeName : String) (values : NodeValues) (p : Position) :
    Within (Ending env) (create env typeName values p) := by
  unfold create
  exact ends_after aside_workflow fun w => ends_after (aside_check _) fun type =>
    ends_after (aside_check _) fun reference => ends_after (aside_check _) fun _ =>
    ends_after (aside_check _) fun _ => ends_after (aside_nextBranch env) fun uid =>
    ends_after (aside_newNode ..) fun node => ends_onGraph Graph.insert_error fun _ =>
    commits_modifyWorkflow (fun _ => rfl) (fun _ keyed => keyed.addNode node) fun _ =>
    commits_countBranch fun _ => commits_before (commit_commits env) fun _ => aside_pure _

/-- An update is the one that forgets the listing and saves nothing, since graphs do not hold what
it changes. -/
theorem update_ends (values : NodeValues) : Within (Ending env) (update env n values) where
  ok h := by
    obtain ⟨node, _, service, _, _, _, _, rfl⟩ := update_eq_ok.1 h
    exact .revised rfl (fun keyed => keyed.addNode (updatedNode node values service)) rfl rfl rfl
  error h := (update_error h).aside.ending

theorem delete_ends (actor : Option String) : Within (Ending env) (delete env n actor) := by
  unfold delete
  exact ends_after aside_workflow fun w => ends_after (aside_check _) fun node =>
    ends_after (aside_check _) fun type => ends_after (aside_check _) fun _ =>
    ends_after (aside_check _) fun position => ends_after (aside_check _) fun graph =>
    ends_after (aside_throwAway _) fun _ => ends_of_commits <|
    commits_modifyWorkflow (fun _ => rfl) (fun _ keyed => (keyed.setGraph graph).takeNode n)
      fun _ => commits_before (commit_commits env) fun _ => aside_pure _

theorem restore_ends : Within (Ending env) (restore env n) := by
  unfold restore
  exact ends_after aside_workflow fun w => ends_after aside_editor fun e =>
    ends_after (aside_check _) fun entry => ends_after (aside_check _) fun p =>
    ends_after (aside_check _) fun _ => ends_after (aside_takeBack n false) fun entry =>
    ends_onGraph Graph.insert_error fun _ =>
    commits_modifyWorkflow (fun _ => rfl) (fun _ keyed => keyed.addNode entry.node) fun _ =>
    commits_before (commit_commits env) fun _ => aside_pure _

theorem duplicate_ends : Within (Ending env) (duplicate env n) := by
  unfold duplicate
  exact ends_after aside_workflow fun w => ends_after (aside_check _) fun source =>
    ends_after (aside_check _) fun type => ends_after (aside_check _) fun _ =>
    ends_after (aside_newNode ..) fun copy => ends_onGraph Graph.insert_error fun _ =>
    commits_modifyWorkflow (fun _ => rfl) (fun _ keyed => keyed.addNode copy) fun _ =>
    commits_before (commit_commits env) fun _ => aside_pure _

/-- A replacement throws the old node away before it commits, and with a node that exists already it
draws no id. -/
theorem replace_ends (typeName : String) (existing : Option Node) (actor : Option String) :
    Within (Ending env) (replace env n typeName existing actor) := by
  unfold replace
  refine ends_after aside_workflow fun w => ends_after (aside_check _) fun old => ?_
  have rest : ∀ choice : Node × Bool, Within (Ending env)
      (check (w.graph.position n) >>= fun position =>
        check (w.graph.edited (Graph.replace n choice.1.id)) >>= fun graph =>
        throwAway
          { node := old, workflow := w.id, trashedBy := actor, reason := .replaced
            position := some position } >>= fun _ =>
        modifyWorkflow (fun w => ({ w with graph }.takeNode n).addNode choice.1) >>= fun _ =>
        countBranch choice.2 >>= fun _ => commit env >>= fun _ =>
        pure (ReplacedNode.mk choice.1 n old.typeName)) := fun choice =>
    ends_after (aside_check _) fun position => ends_after (aside_check _) fun graph =>
      ends_after (aside_throwAway _) fun _ => ends_of_commits <|
      commits_modifyWorkflow (fun _ => rfl)
        (fun _ keyed => ((keyed.setGraph graph).takeNode n).addNode choice.1) fun _ =>
        commits_countBranch fun _ =>
        commits_before (commit_commits env) fun _ => aside_pure _
  cases existing with
  | some node => exact ends_after (aside_pure _) rest
  | none => exact ends_after (aside_replacement env w old typeName) rest

theorem restoreReplaced_ends (trashed : NodeId) :
    Within (Ending env) (restoreReplaced env n trashed) := by
  unfold restoreReplaced
  refine ends_after aside_editor fun e => ends_after (aside_check _) fun entry => ?_
  have rest : Within (Ending env)
      (replace env n entry.node.typeName (some entry.node) none >>= fun replaced =>
        takeBack trashed true >>= fun _ => pure replaced) :=
    ends_before (replace_ends env n _ _ _) fun replaced =>
      aside_bind (aside_takeBack trashed true) fun _ => aside_pure replaced
  exact .ite (ends_after (aside_check _) fun _ => rest) rest

theorem move_ends (p : Position) : Within (Ending env) (move env n p) := by
  unfold move
  refine ends_after aside_workflow fun w => ends_after (aside_check _) fun node =>
    ends_after (aside_check _) fun type => ends_after (aside_check _) fun reference =>
    ends_after (aside_check _) fun _ => ?_
  have rest : Within (Ending env)
      (check (w.checkMove type.kind node reference) >>= fun _ =>
        check (w.graph.position n) >>= fun origin => onGraph (Graph.move n p) >>= fun _ =>
        commit env >>= fun _ => pure (MovedNode.mk n origin p)) :=
    ends_after (aside_check _) fun _ => ends_after (aside_check _) fun origin =>
      ends_onGraph Graph.move_error fun _ =>
      commits_before (commit_commits env) fun _ => aside_pure _
  exact .ite (ends_after (aside_check _) fun _ => rest) rest

/-- The marker is part of the workflow only, so the listing and the store stay. -/
theorem simulate_ends (m : Option NodeId) : Within (Ending env) (simulate m) where
  ok h := by
    obtain ⟨_, rfl⟩ := simulate_eq_ok.1 h
    exact .beside rfl rfl rfl rfl rfl
  error h := (simulate_error h).aside.ending

end Edits

end Edit

/-- Everything that can be asked for ends in one of the three ways. -/
theorem Operation.ends (o : Operation) (env : Setup) :
    Edit.Within (Desk.Ending env) (o.perform env) := by
  refine Operation.induct (P := fun _ x => Edit.Within (Desk.Ending env) (x env))
    ?_ ?_ ?_ ?_ ?_ ?_ ?_ ?_ ?_ ?_ ?_ o
  · exact fun a => (Edit.aside_pure a).mono Desk.Aside.ending
  · exact fun g h => Edit.ends_before h fun a => Edit.aside_pure (g a)
  · exact fun typeName values p => Edit.create_ends env typeName values p
  · exact fun n values => Edit.update_ends env n values
  · exact fun n actor => Edit.delete_ends env n actor
  · exact fun n => Edit.restore_ends env n
  · exact fun n => Edit.duplicate_ends env n
  · exact fun n typeName actor => Edit.replace_ends env n typeName none actor
  · exact fun n trashed => Edit.restoreReplaced_ends env n trashed
  · exact fun n p => Edit.move_ends env n p
  · exact fun m => Edit.simulate_ends env m

end Autoflow

import Autoflow.Proofs.Editing.Custody

/-!
# Nodes that take a place back

To undo or redo a replacement, a node that was replaced takes the place of a live one. All that is
asked is that the one has a place and the other was replaced once (`Session.serve_takes_over`).
Its type, its workflow and what is behind or inside of the live one are not looked at, unlike when
a new node replaces one, so children can end up in a node that is no container.
-/

namespace Autoflow

namespace Desk

/-- A node that was replaced takes the place of a live one if this one has a place, and with the
place it takes over its successors and its children, whatever the types of the two. -/
structure TakesOver (env : Setup) (d : Desk) (n trashed : NodeId) : Prop where
  succeeds : (∃ r d', Edit.restoreReplaced env n trashed d = .ok r d') ↔
    n ∈ d.workflow.nodes.ids ∧ (∃ p, d.workflow.graph.position n = .ok p) ∧
      ∃ e, d.editor.trash.get? trashed = some e ∧ e.isManaged = true
  entry : ∀ r d', Edit.restoreReplaced env n trashed d = .ok r d' →
    d'.workflow.graph.find? trashed = d.workflow.graph.find? n
  root : ∀ r d', Edit.restoreReplaced env n trashed d = .ok r d' →
    d.workflow.graph.root = some n → d'.workflow.graph.root = some trashed
  node : ∀ r d', Edit.restoreReplaced env n trashed d = .ok r d' →
    r.node.id = trashed ∧ d'.workflow.nodes.get? trashed = some r.node

variable {env : Setup} {d : Desk} {n trashed : NodeId}

/-- It takes desks on which nodes are filed and none that is live is in the trash. -/
theorem takesOver (accepting : env.Accepting) (filed : d.Filed)
    (apart : ∀ k, k ∈ d.workflow.nodes.ids → d.editor.trash.get? k = none) :
    d.TakesOver env n trashed := by
  have known : ∀ {e}, d.editor.trash.get? trashed = some e → e.node.id = trashed := fun he =>
    filed.trash (congrArg (Option.map TrashEntry.node) he)
  have fresh : ∀ {e}, d.editor.trash.get? trashed = some e →
      trashed ∉ d.workflow.graph.ids := by
    intro e he mem
    rw [apart trashed ((filed.workflow.ids trashed).1 mem)] at he
    cases he
  refine ⟨⟨?_, ?_⟩, fun r d' h => ?_, fun r d' h root => ?_, fun r d' h => ?_⟩
  · rintro ⟨r, d', h⟩
    obtain ⟨entry, old, p, g, he, managed, hn, hp, _⟩ :=
      (Edit.restoreReplaced_eq_ok accepting).1 h
    exact ⟨NodeMap.mem_ids_of_get? hn, ⟨p, hp⟩, entry, he, managed⟩
  · rintro ⟨live, ⟨p, hp⟩, entry, he, managed⟩
    obtain ⟨old, hn⟩ := NodeMap.mem_ids_iff.1 live
    obtain ⟨g, hg⟩ := Graph.replace_run (m := entry.node.id) hp ((filed.workflow.ids n).2 live)
    have new : d.editor.trash.get? old.id = none := filed.workflow.id hn ▸ apart n live
    exact ⟨_, _, (Edit.restoreReplaced_eq_ok accepting).2
      ⟨entry, old, p, g, he, managed, hn, hp, hg, new, rfl, rfl⟩⟩
  · obtain ⟨entry, old, p, g, he, _, _, _, hg, _, _, rfl⟩ :=
      (Edit.restoreReplaced_eq_ok accepting).1 h
    rw [known he] at hg
    exact Graph.find?_replace hg (fresh he)
  · obtain ⟨entry, old, p, g, he, _, _, _, hg, _, _, rfl⟩ :=
      (Edit.restoreReplaced_eq_ok accepting).1 h
    rw [known he] at hg
    exact Graph.root_replace hg root
  · obtain ⟨entry, old, p, g, he, _, _, _, _, _, rfl, rfl⟩ :=
      (Edit.restoreReplaced_eq_ok accepting).1 h
    exact ⟨known he, (Workflow.get?_addNode (known he) _ trashed).trans (if_pos rfl)⟩

end Desk

namespace Session

/-- In every state that operations reach from empty workflows, a node that was replaced takes the
place of any live one that has a place, whatever types are registered. -/
theorem serve_takes_over {setup : Setup} (accepting : setup.Accepting) (nodeCache : Bool)
    (shelf : List (String × WorkflowId × String)) (calls : List (String × Operation))
    (room : calls.length ≤ UInt64.size) {name : String} {d : Desk}
    (here : ((opened setup nodeCache shelf).serve calls).desk? name = some d)
    (n trashed : NodeId) : d.TakesOver setup n trashed := by
  obtain ⟨⟨drawn, _, settled⟩, _⟩ :=
    (settled_opened setup nodeCache shelf).serve accepting calls (by omega)
  refine Desk.takesOver accepting (settled.filed.desk here) fun k live => ?_
  obtain ⟨node, hnode⟩ := NodeMap.mem_ids_iff.1 live
  obtain ⟨was_live, was_trash⟩ := node?_of_desk here k
  have off := settled.elsewhere (was_live.trans hnode) (q := .trash) nofun
  exact Option.map_eq_none_iff.1 (was_trash.symm.trans off)

/-- A node is put into a container that has taken its place back from an action. -/
def refilled : Session :=
  (opened (.builtin fun _ => "branch") true [("main", 1, "Main")]).serve [
    ("main", .request (.create "periodic" {} .root)),
    ("main", .request (.create "iterator" {} (.south 1 ""))),
    ("main", .request (.replace 2 "http_request" none)), ("main", .restoreReplaced 3 2),
    ("main", .request (.create "smtp_email" {} (.child 2)))]

/-- The action takes the place of the container and what is inside. -/
theorem serve_takes_over_refilled : ∃ d r d', refilled.desk? "main" = some d ∧
    Edit.restoreReplaced (.builtin fun _ => "branch") 2 3 d = .ok r d' ∧
    d'.workflow.graph.find? 3 = d.workflow.graph.find? 2 := by
  have succeeds : ((refilled.edit "main"
      (Edit.restoreReplaced (.builtin fun _ => "branch") 2 3)).map fun x => x.1.isOk) =
        some true := by
    decide +kernel
  obtain ⟨⟨_, s'⟩, edited, ok⟩ := Option.map_eq_some_iff.1 succeeds
  obtain ⟨d, d', here, _, ⟨r, run, _⟩ | ⟨f, _, rfl⟩⟩ := edit_cases edited
  · have accepting : (Setup.builtin fun _ => "branch").Accepting := fun _ => rfl
    have takes := serve_takes_over accepting true _ _ (by decide) here 2 3
    exact ⟨d, r, d', here, run, takes.entry r d' run⟩
  · cases ok

/-- A new action is not let into the place of the container, since there is a node inside. The
action that was replaced is, and it has a child then although it is no container. -/
theorem replaced_takes_refilled :
    (refilled.edit "main" (Edit.replace (.builtin fun _ => "branch") 2 "http_request" none
      none)).map (fun x => x.1.map (·.node.id)) = some (.error (.node (.notReplaceable
        "Container nodes cannot be replaced if they have one or more children nodes."))) ∧
    (refilled.edit "main" (Edit.restoreReplaced (.builtin fun _ => "branch") 2 3)).map
      (fun x => x.1.map fun r => (r.node.id, r.node.typeName)) = some (.ok (3, "http_request")) ∧
    ((refilled.operate "main" (.restoreReplaced 2 3)).workflows.get? "main").map
      (fun w => w.graph.children 3) = some (.ok [4]) ∧
    (Registry.builtin.get? "http_request").map NodeType.isContainer = some false := by
  decide +kernel

end Session

end Autoflow

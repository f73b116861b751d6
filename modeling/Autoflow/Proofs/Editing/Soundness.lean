import Autoflow.Proofs.Editing.Failures
import Autoflow.Proofs.Editing.Fittings
import Autoflow.Proofs.Graph.Validation

/-!
# Edits keep a workflow sound

Every call keeps a desk tidy as long as the counter of ids does not come round (`Tidy.step`, with
one lemma for each edit), so every sequence of calls does (`run_sound`). A call that fails leaves
the desk as it was, but for an id that it may have drawn (`Idle`).
-/

namespace Autoflow

open Workflow (IsContainer IsTrigger Housed)

namespace Desk

variable {registry : Registry} {drawn : Nat} {d d' : Desk} {n : NodeId} {node : Node}
  {p : Position}

namespace Tidy

/-! ## One lemma for each edit -/

section Edits

open Edit

variable {env : Setup} (accepting : env.Accepting) (named : env.registry.Named)

include accepting named in
/-- A new node has the next id, which no node has had before. -/
theorem created (tidy : d.Tidy env.registry drawn) (room : drawn < UInt64.size) {typeName : String}
    {values : NodeValues} (h : create env typeName values p d = .ok node d') :
    d'.Tidy env.registry (drawn + 1) := by
  have fits := create_fits accepting named tidy.fits (tidy.next_not_live room) h
  obtain ⟨type, reference, service, g, _, _, _, _, _, _, rfl, rfl⟩ := (create_eq_ok accepting).1 h
  refine tidy.grown_fresh room fits (g := g) rfl rfl ?_ ?_
  · simp [planted]
  · simp [planted]

include accepting named in
/-- A duplicate has the next id as well. -/
theorem duplicated (tidy : d.Tidy env.registry drawn) (room : drawn < UInt64.size)
    (h : duplicate env n d = .ok node d') : d'.Tidy env.registry (drawn + 1) := by
  have fits := duplicate_fits accepting named tidy.fits (tidy.next_not_live room) h
  obtain ⟨source, type, service, g, _, _, _, _, _, rfl, rfl⟩ := (duplicate_eq_ok accepting).1 h
  exact tidy.grown_fresh room fits (g := g) rfl rfl rfl rfl

/-- What is in the trash suits the workflow. -/
theorem awaits (tidy : d.Tidy registry drawn) {entry : TrashEntry}
    (he : d.editor.trash.get? n = some entry) : d.workflow.Awaits registry n entry where
  housed _ := tidy.trashed n entry he
  root p recorded := (tidy.restorable n entry p he recorded).root
  inside p r reference recorded ref place live := by
    obtain ⟨container, known, c⟩ := (tidy.restorable n entry p he recorded).inside r ref place
    rcases known with h | ⟨e, h, _⟩
    · rw [live] at h
      cases h
      exact c
    · rw [tidy.not_trashed live] at h
      cases h

include accepting in
/-- A restored node has left the trash and keeps the id it was drawn. -/
theorem restored (tidy : d.Tidy env.registry drawn) (h : restore env n d = .ok node d') :
    d'.Tidy env.registry drawn := by
  obtain ⟨entry, p, g, he, _, _, _, rfl, rfl⟩ := (restore_eq_ok accepting).1 h
  have new : n ∉ d.workflow.nodes.ids := by
    intro mem
    rw [tidy.apart n mem] at he
    cases he
  refine tidy.grown (Nat.le_refl _)
    (restore_fits accepting tidy.fits new (fun _ => tidy.awaits) h) (g := g) rfl
    (tidy.trashed n entry he).id (get?_takenBack d n) tidy.next
    (tidy.numbered n _ (Or.inr ⟨entry, he, rfl⟩)) new fun e he' => ?_
  rw [he] at he'
  cases he'
  rfl

include accepting in
/-- A deleted node is in the trash and not in the workflow any more. -/
theorem deleted (tidy : d.Tidy env.registry drawn) {actor : Option String}
    (h : delete env n actor d = .ok node d') : d'.Tidy env.registry drawn := by
  have fits := delete_fits accepting tidy.fits h
  obtain ⟨type, p, g, hn, _, _, hp, _, _, rfl⟩ := (delete_eq_ok accepting).1 h
  have housed := tidy.fits.housed hn
  have nodes : ∀ m, (uprooted (thrownAway d (deletion d node actor p)) g
      n).saved.workflow.nodes.get? m = if n = m then none else d.workflow.nodes.get? m :=
    Workflow.get?_takeNode _ n
  have trash : ∀ m, (uprooted (thrownAway d (deletion d node actor p)) g
      n).saved.editor.trash.get? m =
        if n = m then some (deletion d node actor p) else d.editor.trash.get? m :=
    get?_thrownAway housed.id d
  have mem := NodeMap.mem_ids_of_erase nodes
  refine tidy.follow (Nat.le_refl _) rfl fits ?_ ?_ tidy.next ?_ ?_ ?_
  · intro m hm
    obtain ⟨ne, was⟩ := Workflow.simulateUntil_takeNode hm
    exact (mem m).2 ⟨ne, tidy.marker m was⟩
  · intro m hm
    obtain ⟨ne, live⟩ := (mem m).1 hm
    rw [trash m, if_neg (Ne.symm ne)]
    exact tidy.apart m live
  · rintro m node' (hm | ⟨e, hm, rfl⟩)
    · by_cases same : n = m
      · subst same
        rw [hn] at hm
        cases hm
        exact ⟨node, Or.inr ⟨_, by rw [trash, if_pos rfl], rfl⟩, rfl⟩
      · exact ⟨node', Or.inl (by rw [nodes m, if_neg same, hm]), rfl⟩
    · have ne : n ≠ m := by
        rintro rfl
        rw [tidy.not_trashed hn] at hm
        cases hm
      exact ⟨e.node, Or.inr ⟨e, by rw [trash m, if_neg ne, hm], rfl⟩, rfl⟩
  · rintro m node' (hm | ⟨e, hm, rfl⟩)
    · rw [nodes m] at hm
      split at hm
      · cases hm
      · exact Or.inl ⟨node', Or.inl hm⟩
    · rw [trash m] at hm
      split at hm
      · next same => exact Or.inl ⟨node, Or.inl (same ▸ hn)⟩
      · exact Or.inl ⟨e.node, Or.inr ⟨e, hm, rfl⟩⟩
  · intro m e hm
    rw [trash m] at hm
    split at hm
    · next same =>
      cases hm
      subst same
      refine Or.inr ⟨housed, fun q hq => ?_⟩
      cases hq
      exact tidy.restorable_of_position hn hp
    · exact Or.inl hm

include accepting named in
/-- The new node has the next id, and the old one is in the trash. -/
theorem replaced (tidy : d.Tidy env.registry drawn) (room : drawn < UInt64.size)
    {typeName : String} {actor : Option String} {r : ReplacedNode}
    (h : replace env n typeName none actor d = .ok r d') : d'.Tidy env.registry (drawn + 1) := by
  have new := tidy.next_not_live room
  have fits := replace_fits accepting named tidy.fits new h
  obtain ⟨old, oldType, type, service, p, g, hn, _, _, _, _, hp, _, _, rfl, rfl⟩ :=
    (replace_eq_ok accepting).1 h
  have id := (tidy.fits.housed hn).id
  have mem : n ∈ d.workflow.nodes.ids := NodeMap.mem_ids_of_get? hn
  have nodes : ∀ k, (({ d.workflow with graph := g }.takeNode n).addNode
      (freshNode d type "" d.workflow.id service)).nodes.get? k =
        if d.editor.nextId = k then some (freshNode d type "" d.workflow.id service)
        else if n = k then none else d.workflow.nodes.get? k := fun k =>
    (Workflow.get?_addNode rfl _ k).trans (if_congr Iff.rfl rfl (Workflow.get?_takeNode _ n k))
  refine tidy.swapped (m := d.editor.nextId) (e := retirement d old actor p) (Nat.le_succ _) rfl
    fits nodes ?_ ?_ ?_ ?_ hn new ?_ rfl ?_
  · intro k
    rw [Desk.trash_saved, Desk.trash_counted]
    refine (get?_thrownAway (e := retirement d old actor p) id d.drawn k).trans ?_
    by_cases e : d.editor.nextId = k
    · subst e
      have ne : n ≠ d.editor.nextId := fun e => new (e ▸ mem)
      rw [if_neg ne, if_pos rfl]
      exact tidy.next_not_trashed room
    · rw [if_neg e]
      rfl
  · exact fun k hk => Workflow.simulateUntil_takeNode hk
  · rw [Desk.nextId_saved, Desk.nextId_counted]
    exact tidy.next_drawn
  · rw [tidy.ordinal_next room]
    exact Nat.lt_succ_self _
  · intro e he
    rw [tidy.next_not_trashed room] at he
    cases he
  · intro q hq
    cases hq
    exact hp

include accepting in
/-- A move changes the graph only, -/
theorem moved (tidy : d.Tidy env.registry drawn) {m : MovedNode} (h : move env n p d = .ok m d') :
    d'.Tidy env.registry drawn := by
  have fits := move_fits accepting tidy.fits h
  obtain ⟨_, _, _, _, _, _, _, _, _, _, _, _, _, _, rfl⟩ := (move_eq_ok accepting).1 h
  exact tidy.reworked rfl fits rfl rfl tidy.marker (fun _ => Iff.rfl) fun k node hk =>
    ⟨node, hk, rfl⟩

/-- an update the node only, -/
theorem updated (tidy : d.Tidy env.registry drawn) {values : NodeValues} {u : UpdatedNode}
    (h : update env n values d = .ok u d') : d'.Tidy env.registry drawn := by
  have fits := update_fits tidy.fits h
  obtain ⟨node, type, service, hn, _, _, _, rfl⟩ := update_eq_ok.1 h
  have id : (updatedNode node values service).id = n := (tidy.fits.housed hn).id
  have nodes : ∀ k, (d.workflow.addNode (updatedNode node values service)).nodes.get? k =
      if n = k then some (updatedNode node values service) else d.workflow.nodes.get? k :=
    Workflow.get?_addNode id _
  refine tidy.reworked rfl fits rfl rfl tidy.marker ?_ ?_
  · intro k
    refine (NodeMap.mem_ids_of_insert nodes k).trans ?_
    exact or_iff_right_of_imp fun e => e ▸ NodeMap.mem_ids_of_get? hn
  · intro k node' hk
    by_cases e : n = k
    · subst e
      rw [hn] at hk
      cases hk
      exact ⟨_, (nodes n).trans (if_pos rfl), rfl⟩
    · exact ⟨node', (nodes k).trans ((if_neg e).trans hk), rfl⟩

/-- and a simulation the marker only. -/
theorem simulated (tidy : d.Tidy registry drawn) {m : Option NodeId} {u : Unit}
    (h : simulate m d = .ok u d') : d'.Tidy registry drawn := by
  have fits := simulate_fits tidy.fits h
  obtain ⟨live, rfl⟩ := simulate_eq_ok.1 h
  exact tidy.reworked rfl fits rfl rfl live (fun _ => Iff.rfl) fun k node hk => ⟨node, hk, rfl⟩

include accepting named in
/-- A request that succeeds keeps a desk tidy and draws at most one id. -/
theorem requested (tidy : d.Tidy env.registry drawn) (room : drawn < UInt64.size) {r : Request}
    {out : Option Node × Action} (h : r.perform env d = .ok out d') :
    ∃ k, drawn ≤ k ∧ k ≤ drawn + 1 ∧ d'.Tidy env.registry k := by
  have kept : d'.Tidy env.registry drawn → ∃ k, drawn ≤ k ∧ k ≤ drawn + 1 ∧
      d'.Tidy env.registry k := fun h => ⟨drawn, Nat.le_refl _, Nat.le_succ _, h⟩
  have grew : d'.Tidy env.registry (drawn + 1) → ∃ k, drawn ≤ k ∧ k ≤ drawn + 1 ∧
      d'.Tidy env.registry k := fun h => ⟨drawn + 1, Nat.le_succ _, Nat.le_refl _, h⟩
  cases r with
  | create typeName values p =>
    obtain ⟨_, _, run, done⟩ := bind_eq_ok.1 h
    cases done
    exact grew (tidy.created accepting named room run)
  | update n values =>
    obtain ⟨_, _, run, done⟩ := bind_eq_ok.1 h
    cases done
    exact kept (tidy.updated run)
  | delete n actor =>
    obtain ⟨_, _, run, done⟩ := bind_eq_ok.1 h
    cases done
    exact kept (tidy.deleted accepting run)
  | duplicate n =>
    obtain ⟨_, _, run, done⟩ := bind_eq_ok.1 h
    cases done
    exact grew (tidy.duplicated accepting named room run)
  | replace n typeName actor =>
    obtain ⟨_, _, run, done⟩ := bind_eq_ok.1 h
    cases done
    exact grew (tidy.replaced accepting named room run)
  | move n p =>
    obtain ⟨_, _, run, done⟩ := bind_eq_ok.1 h
    cases done
    exact kept (tidy.moved accepting run)

end Edits

end Tidy

end Desk

/-! ## Runs -/

/-- What can be asked of an editor: a request, to bring a deleted node back or to set the
simulation marker. -/
inductive Call where
  | request (r : Request)
  | restore (n : NodeId)
  | simulate (n : Option NodeId)

/-- Does what a call asks for. -/
def Call.perform (env : Setup) : Call → Edit Unit
  | request r => do let _ ← r.perform env
  | restore n => do let _ ← Edit.restore env n
  | simulate n => Edit.simulate n

/-- The builtin types, with every save accepted. -/
def Setup.builtin (branchUid : Nat → String) : Setup where
  registry := .builtin
  branchUid := branchUid
  saveFault _ := none

namespace Desk

/-- A new editor and an empty workflow. -/
def start (nodeCache : Bool) (id : WorkflowId) (name : String) : Desk where
  editor := { listings := { enabled := nodeCache } }
  workflow := { id, name }

/-- The desk after a call, whether it succeeded or not. -/
def after (env : Setup) (d : Desk) (c : Call) : Desk :=
  match c.perform env d with
  | .ok _ d => d
  | .error _ d => d

/-- The desk after several calls. -/
def run (env : Setup) (d : Desk) (calls : List Call) : Desk := calls.foldl (after env) d

variable {env : Setup} {drawn : Nat} {d : Desk}

/-- An empty desk is tidy before any id is drawn. -/
theorem tidy_start (registry : Registry) (nodeCache : Bool) (id : WorkflowId) (name : String) :
    (start nodeCache id name).Tidy registry 0 := by
  have empty : ∀ t, ¬ ∃ x, x ∈ Graph.empty.occupants t := by
    rintro (_ | _ | _) ⟨x, hx⟩ <;> cases hx
  have tree : Graph.empty.IsTree := by
    refine ⟨⟨fun {t x _} hx => ?_, fun {t x} hx => ?_, fun t => ?_, fun {t _ x} hx => ?_⟩,
      fun {a _} ha => ?_, fun {x} hx => ?_⟩
    · exact absurd ⟨x, hx⟩ (empty t)
    · exact absurd ⟨x, hx⟩ (empty t)
    · rw [List.eq_nil_iff_forall_not_mem.2 fun x hx => empty t ⟨x, hx⟩]
      exact List.nodup_nil
    · exact absurd ⟨x, hx⟩ (empty t)
    · exact absurd ⟨a, ha⟩ (empty .root)
    · cases hx
  refine ⟨⟨tree, fun n => Iff.rfl, fun h => (by cases h), fun h => (by cases h), fun {n} h => ?_⟩,
    fun n h => (by cases h), fun n h => (by cases h), fun n e h => (by cases h),
    fun n e p h => (by cases h), rfl, ?_⟩
  · obtain ⟨x, hx⟩ := List.exists_mem_of_ne_nil _ h
    exact absurd ⟨x, hx⟩ (empty (.child n))
  · rintro n node (h | ⟨e, h, _⟩) <;> cases h

/-- Every call keeps a desk tidy and draws at most one id. -/
theorem Tidy.step (accepting : env.Accepting) (named : env.registry.Named)
    (tidy : d.Tidy env.registry drawn) (room : drawn < UInt64.size) (c : Call) :
    ∃ k, k ≤ drawn + 1 ∧ (d.after env c).Tidy env.registry k := by
  unfold after
  cases h : c.perform env d with
  | ok u d' =>
    cases c with
    | request r =>
      obtain ⟨out, _, run, done⟩ := Edit.bind_eq_ok.1 h
      cases done
      obtain ⟨k, _, le, tidy⟩ := tidy.requested accepting named room run
      exact ⟨k, le, tidy⟩
    | restore n =>
      obtain ⟨out, _, run, done⟩ := Edit.bind_eq_ok.1 h
      cases done
      exact ⟨drawn, Nat.le_succ _, tidy.restored accepting run⟩
    | simulate n => exact ⟨drawn, Nat.le_succ _, tidy.simulated h⟩
  | error f d' =>
    have idle : d.Idle d' := by
      cases c with
      | request r =>
        rcases Edit.bind_eq_error.1 h with h | ⟨_, _, _, h⟩
        · exact Edit.request_error accepting h
        · exact absurd h Edit.pure_ne_error
      | restore n =>
        rcases Edit.bind_eq_error.1 h with h | ⟨_, _, _, h⟩
        · exact Edit.restore_error accepting (fun r => (tidy.fits.ids r).2) h
        · exact absurd h Edit.pure_ne_error
      | simulate n => exact Edit.simulate_error h
    obtain ⟨k, _, le, tidy⟩ := tidy.of_idle idle
    exact ⟨k, le, tidy⟩

/-- The run lemma, by induction on the calls, as each call draws one id at most. -/
theorem Tidy.run (accepting : env.Accepting) (named : env.registry.Named)
    (tidy : d.Tidy env.registry drawn) (calls : List Call)
    (room : drawn + calls.length ≤ UInt64.size) :
    ∃ k, (d.run env calls).Tidy env.registry k := by
  induction calls generalizing d drawn with
  | nil => exact ⟨drawn, tidy⟩
  | cons c calls ih =>
    rw [List.length_cons] at room
    obtain ⟨k, le, tidy⟩ := tidy.step accepting named (by omega) c
    exact ih tidy (by omega)

/-- The workflow on a desk is sound: its graph is a valid tree of the live nodes with the trigger
at the root and children in containers only, and neither the marker nor the trash disagree. -/
structure Sound (registry : Registry) (d : Desk) : Prop where
  valid : d.workflow.graph.validate = .ok ()
  ids : ∀ n, n ∈ d.workflow.graph.ids ↔ n ∈ d.workflow.nodes.ids
  root : ∀ r, d.workflow.graph.root = some r →
    ∃ node, d.workflow.nodes.get? r = some node ∧ IsTrigger registry node
  trigger : ∀ n node, d.workflow.nodes.get? n = some node → IsTrigger registry node →
    d.workflow.graph.root = some n
  children : ∀ n l, d.workflow.graph.children n = .ok l → l ≠ [] →
    ∃ node, d.workflow.nodes.get? n = some node ∧ IsContainer registry node
  marker : ∀ n, d.workflow.simulateUntil = some n → n ∈ d.workflow.nodes.ids
  trash : ∀ n, n ∈ d.workflow.nodes.ids → d.editor.trash.get? n = none

/-- A tidy desk is sound. -/
theorem Tidy.sound {registry : Registry} (tidy : d.Tidy registry drawn) : d.Sound registry where
  valid := Graph.validate_eq_ok_iff.2 tidy.fits.tree
  ids := tidy.fits.ids
  root r hr := by
    obtain ⟨node, hn⟩ := tidy.fits.exists_node (tidy.fits.tree.root_mem hr)
    exact ⟨node, hn, (tidy.fits.trigger hn).2 hr⟩
  trigger n node hn t := (tidy.fits.trigger hn).1 t
  children n l hl some_inside := by
    rw [Graph.eq_occupants_of_children hl] at some_inside
    exact tidy.fits.container some_inside
  marker := tidy.marker
  trash := tidy.apart

/-- Every sequence of calls on an empty workflow leaves it sound, the calls that fail among them.
Ids are counted in 64 bits, so the calls must not be more than there are ids. -/
theorem run_sound (branchUid : Nat → String) (nodeCache : Bool) (id : WorkflowId) (name : String)
    (calls : List Call) (room : calls.length ≤ UInt64.size) :
    ((start nodeCache id name).run (.builtin branchUid) calls).Sound .builtin := by
  have accepting : (Setup.builtin branchUid).Accepting := fun _ => rfl
  have start := tidy_start .builtin nodeCache id name
  obtain ⟨k, tidy⟩ := start.run accepting Registry.named_builtin calls (by omega)
  exact tidy.sound

/-- A container behind a trigger with a node inside, its duplicate in the trash, and the trigger
refused to go. -/
theorem run_sound_container :
    ((start true 1 "Sample").run (.builtin fun _ => "branch") [
        .request (.create "periodic" {} .root), .request (.create "iterator" {} (.south 1 "")),
        .request (.create "create_row" {} (.child 2)), .request (.duplicate 3),
        .request (.delete 4 none), .request (.delete 1 none)]).workflow.nodes.ids = [1, 2, 3] ∧
      ((start true 1 "Sample").run (.builtin fun _ => "branch") [
        .request (.create "periodic" {} .root), .request (.create "iterator" {} (.south 1 "")),
        .request (.create "create_row" {} (.child 2)), .request (.duplicate 3),
        .request (.delete 4 none), .request (.delete 1 none)]).Sound .builtin :=
  ⟨by decide +kernel, run_sound _ _ _ _ _ (by decide)⟩

end Desk

end Autoflow

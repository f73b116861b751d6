import Autoflow.Proofs.Editing.Requests
import Autoflow.Proofs.Graph.Search
import Mathlib.Data.List.Infix

/-!
# One node in each slot

Deleting or moving a node leaves its successors in its slot, one behind the other. As long as only
routers expose outputs besides the default one, the checks by kind see to it that there is no more
than one successor to leave: routers with used branches and containers with nodes inside stay where
they are, and an update keeps the branches in use. So the workflow of an editor stays neat and
pruned (`Laned.step`), also when nodes come back from the trash (`Laned.restored`), and then no slot
is shared and every node has a path (`run_unforked`).
-/

namespace Autoflow

open Workflow (Planted Swapped)

/-- Every list that is kept holds one node, none is kept without an output, and every live node has
a path from the root. -/
structure Workflow.Unforked (w : Workflow) : Prop where
  next : ∀ n e outputs, w.graph.find? n = some e → e.next = some outputs →
    outputs.isEmpty = false ∧ ∀ o l, outputs.get? o = some l → l.length = 1
  children : ∀ n e l, w.graph.find? n = some e → e.children = some l → l.length = 1
  above : ∀ n ∈ w.nodes.ids, ∃ l, w.previousNodes n = .ok l

namespace Action

variable {registry : Registry} {a : Action} {w w' : Workflow} {trash : Trash} {n : NodeId}

/-- The node that an action takes out of the trash is live afterwards. -/
theorem Spans.arrives (h : a.Spans registry w w') (wanted : a.wanted = some n) :
    n ∈ w'.nodes.ids := by
  cases a with
  | create n | duplicate _ n =>
    cases wanted
    obtain ⟨s, node, planted⟩ := h
    exact NodeMap.mem_ids_of_get? planted.live
  | replace n _ former _ =>
    cases wanted
    obtain ⟨old, new, swapped⟩ := h
    exact NodeMap.mem_ids_of_get? swapped.symm.live
  | update _ _ _ | delete _ | move _ _ _ => cases wanted

/-- What the trash keeps for an action is a node as the workflow has it. -/
theorem Kept.held (h : a.Kept w trash) (wanted : a.wanted = some n) :
    ∃ entry, trash.get? n = some entry ∧ w.nodes.get? n = some entry.node := by
  cases a with
  | create n | duplicate _ n =>
    cases wanted
    obtain ⟨entry, s, he, _, _, live, _⟩ := h
    exact ⟨entry, he, live⟩
  | replace n _ _ _ =>
    cases wanted
    obtain ⟨entry, he, _, live⟩ := h
    exact ⟨entry, he, live⟩
  | update _ _ _ | delete _ | move _ _ _ => cases wanted

end Action

namespace Workflow

variable {registry : Registry} {w : Workflow} {n : NodeId} {s : Slot}

/-- A list that is kept in a pruned graph whose slots hold at most one node holds one. -/
theorem length_of_slot? {e : Entry} {l : List NodeId} {placement : Placement} {o : String}
    (single : w.graph.occupants.Single) (pruned : w.graph.Pruned) (he : w.graph.find? n = some e)
    (kept : e.slot? placement o = some l) : l.length = 1 := by
  have held : w.graph.occupants (.beside n placement o) = l := by
    rw [Graph.occupants_beside, he, Option.bind_some, kept, Option.getD_some]
  have few : l.length ≤ 1 := held ▸ single _
  have some_left : l ≠ [] := fun e' => (pruned n e he).slots placement o (e' ▸ kept)
  have : 0 < l.length := List.length_pos_of_ne_nil some_left
  omega

theorem Neat.unforked (neat : w.Neat registry) (pruned : w.graph.Pruned) : w.Unforked where
  next n e outputs he outputs_eq := by
    have kept : outputs.toList ≠ [] := (pruned n e he).outputs outputs outputs_eq
    refine ⟨?_, fun o l at_output => ?_⟩
    · rw [OrderedMap.isEmpty, List.isEmpty_eq_false_iff]
      exact kept
    · have slot : e.slot? .south o = some l := by simp [Entry.slot?, outputs_eq, at_output]
      exact length_of_slot? neat.single pruned he slot
  children n e l he children_eq := by
    have slot : e.slot? .child "" = some l := children_eq
    exact length_of_slot? neat.single pruned he slot
  above n live := by
    have known : n ∈ w.graph.ids := (neat.ids n).2 live
    have led := neat.tree.led_of_single neat.single known
    obtain ⟨path, found⟩ := Option.isSome_iff_exists.1 ((neat.tree.led_iff known).2 led)
    refine ⟨path.filterMap Position.reference, ?_⟩
    simp only [previousNodes, Workflow.path, found, Except.map]

end Workflow

namespace Desk

open Edit

variable {env : Setup} {drawn : Nat} {d d' : Desk} {n : NodeId} {node : Node}

/-- A tidy desk with a neat and pruned workflow, and scripted services in the trash as well. -/
structure Laned (registry : Registry) (drawn : Nat) (d : Desk) : Prop where
  tidy : d.Tidy registry drawn
  neat : d.workflow.Neat registry
  pruned : d.workflow.graph.Pruned
  scripted : ∀ n entry, d.editor.trash.get? n = some entry → entry.node.service.IsScripted

/-- What is in the trash after a request was there before or was live. -/
theorem Requested.trash {registry : Registry} {a : Action}
    (h : Requested registry drawn a d d') {entry : TrashEntry}
    (he : d'.editor.trash.get? n = some entry) :
    d.editor.trash.get? n = some entry ∨ d.workflow.nodes.get? n = some entry.node := by
  by_cases arrives : a.wanted = some n
  · have live := h.spans.arrives arrives
    rw [h.did.tidy.apart n live] at he
    cases he
  · by_cases leaves : a.inverse.wanted = some n
    · obtain ⟨entry', he', live⟩ := h.did.kept.held leaves
      rw [he] at he'
      cases he'
      exact Or.inr live
    · rw [h.did.trash n arrives leaves] at he
      exact Or.inl he

namespace Laned

variable (accepting : env.Accepting) (named : env.registry.Named)
  (scripts : env.registry.Scripts)

include accepting named scripts in
theorem requested (h : d.Laned env.registry drawn) (room : drawn < UInt64.size)
    (plain : d.workflow.OnlyRoutersBranch env.registry) {r : Request}
    {out : Option Node × Action} (run : r.perform env d = .ok out d') :
    ∃ k, k ≤ drawn + 1 ∧ d'.Laned env.registry k := by
  obtain ⟨k, le, requested⟩ :=
    request_requested accepting named scripts h.tidy h.neat plain room run
  refine ⟨k, le, requested.did.tidy, requested.neat, requested.did.pruned h.pruned, ?_⟩
  intro n entry he
  rcases requested.trash he with old | live
  · exact h.scripted n entry old
  · exact h.neat.scripted live

include accepting in
/-- A node that comes back stands in the slot that it left, and what is in the slot by then follows
it. -/
theorem restored (h : d.Laned env.registry drawn) (run : restore env n d = .ok node d') :
    d'.Laned env.registry drawn := by
  have tidy' := h.tidy.restored accepting run
  obtain ⟨entry, p, g, he, hp, hc, hg, rfl, rfl⟩ := (restore_eq_ok accepting).1 run
  obtain ⟨_, _, at_p⟩ := recordedPosition_eq_ok.1 hp
  have id : entry.node.id = n := (h.tidy.trashed n entry he).id
  have new : d.workflow.nodes.get? n = none := by
    refine NodeMap.get?_eq_none_iff.2 fun live => ?_
    rw [h.tidy.apart n live] at he
    cases he
  have outlet : ∀ r, p.reference = some r → d.workflow.Exposes r p.output := by
    intro r ref
    rcases checkRestore_eq_ok.1 hc with ⟨r', reference, ref', live, out⟩ | ⟨top, _⟩
    · rw [ref] at ref'
      cases ref'
      exact ⟨reference, live, out⟩
    · rw [ref] at top
      cases top
  obtain ⟨g', inserted, layout, _⟩ := h.neat.tree.exists_insert (h.neat.not_mem_graph new) (p := p)
    fun r ref => by
      obtain ⟨_, live, _⟩ := outlet r ref
      exact h.neat.mem_graph live
  rw [hg] at inserted
  cases inserted
  have planted : Planted n p.slot entry.node d.workflow
      (planted (takenBack d n) g entry.node).saved.workflow := by
    refine ⟨rfl, new, fun m => ?_, layout, fun top => ?_⟩
    · exact Workflow.get?_addNode id _ m
    · have top : p.reference = none := by
        rw [← p.owner_slot, top]
        rfl
      rcases checkRestore_eq_ok.1 hc with ⟨_, _, ref, _⟩ | ⟨_, type, ht, free⟩
      · rw [top] at ref
        cases ref
      · have trigger := (h.tidy.restorable n entry p he at_p).root.2 top
        exact Graph.occupants_root_eq_nil.2 (free ((Workflow.isTrigger_iff ht).1 trigger))
  refine ⟨tidy', ?_, h.pruned.insert hg, fun m entry' he' => ?_⟩
  · refine planted.neat h.neat tidy'.fits (h.scripted n entry he) fun r o slot => ?_
    obtain ⟨ref, _, rfl⟩ := Position.slot_eq_south slot
    exact outlet r ref
  · rw [Desk.trash_saved] at he'
    have back := (get?_takenBack d n m).symm.trans he'
    split at back
    · cases back
    · exact h.scripted m entry' back

theorem simulated (h : d.Laned env.registry drawn) {m : Option NodeId} {u : Unit}
    (run : simulate m d = .ok u d') : d'.Laned env.registry drawn := by
  have tidy' := h.tidy.simulated run
  obtain ⟨_, rfl⟩ := simulate_eq_ok.1 run
  exact ⟨tidy', ⟨tidy'.fits, h.neat.single, h.neat.exposed, h.neat.scripted⟩, h.pruned, h.scripted⟩

theorem of_idle (h : d.Laned env.registry drawn) (idle : d.Idle d') :
    ∃ k, k ≤ drawn + 1 ∧ d'.Laned env.registry k := by
  rcases idle with rfl | rfl
  · exact ⟨drawn, Nat.le_succ _, h⟩
  · exact ⟨drawn + 1, Nat.le_refl _, h.tidy.drawn_tidy, h.neat, h.pruned, h.scripted⟩

include accepting named scripts in
/-- Every call keeps a desk so and draws at most one id. -/
theorem step (h : d.Laned env.registry drawn) (room : drawn < UInt64.size)
    (plain : d.workflow.OnlyRoutersBranch env.registry) (c : Call) :
    ∃ k, k ≤ drawn + 1 ∧ (d.after env c).Laned env.registry k := by
  unfold after
  cases run : c.perform env d with
  | ok u d' =>
    cases c with
    | request r =>
      obtain ⟨out, _, run, done⟩ := bind_eq_ok.1 run
      cases done
      exact h.requested accepting named scripts room plain run
    | restore n =>
      obtain ⟨out, _, run, done⟩ := bind_eq_ok.1 run
      cases done
      exact ⟨drawn, Nat.le_succ _, h.restored accepting run⟩
    | simulate n => exact ⟨drawn, Nat.le_succ _, h.simulated run⟩
  | error f d' =>
    cases c with
    | request r =>
      rcases bind_eq_error.1 run with run | ⟨_, _, _, run⟩
      · exact h.of_idle (request_error accepting run)
      · exact absurd run pure_ne_error
    | restore n =>
      rcases bind_eq_error.1 run with run | ⟨_, _, _, run⟩
      · exact h.of_idle (restore_error accepting (fun r => (h.neat.ids r).2) run)
      · exact absurd run pure_ne_error
    | simulate n => exact h.of_idle (simulate_error run)

include accepting named scripts in
theorem run (h : d.Laned env.registry drawn) (calls : List Call)
    (room : drawn + calls.length ≤ UInt64.size) (plain : ∀ past, past <+: calls →
      (d.run env past).workflow.OnlyRoutersBranch env.registry) :
    ∃ k, (d.run env calls).Laned env.registry k := by
  induction calls generalizing d drawn with
  | nil => exact ⟨drawn, h⟩
  | cons c calls ih =>
    rw [List.length_cons] at room
    obtain ⟨k, le, laned⟩ :=
      h.step accepting named scripts (by omega) (plain [] List.nil_prefix) c
    exact ih laned (by omega) fun past before =>
      plain (c :: past) (List.cons_prefix_cons.2 ⟨rfl, before⟩)

end Laned

theorem laned_start (registry : Registry) (nodeCache : Bool) (id : WorkflowId) (name : String) :
    (start nodeCache id name).Laned registry 0 := by
  have tidy := tidy_start registry nodeCache id name
  have empty : ∀ s, Graph.empty.occupants s = [] := by
    intro s
    cases s <;> rfl
  have single : (start nodeCache id name).workflow.graph.occupants.Single := fun s =>
    (congrArg List.length (empty s)).trans_le (Nat.zero_le 1)
  exact ⟨tidy, ⟨tidy.fits, single, fun held => absurd (empty _) held, nofun⟩, Graph.pruned_empty,
    nofun⟩

/-- As long as only routers expose outputs besides the default one, every sequence of calls on an
empty workflow, the calls that fail among them, leaves one node in every list that is kept, no list
or map of outputs without use, and a path to every node. Ids are counted in 64 bits, so the calls
must not be more than there are ids. -/
theorem run_unforked (branchUid : Nat → String) (nodeCache : Bool) (id : WorkflowId)
    (name : String) (calls : List Call) (room : calls.length ≤ UInt64.size)
    (plain : ∀ past, past <+: calls → ((start nodeCache id name).run (.builtin branchUid)
      past).workflow.OnlyRoutersBranch .builtin) :
    ((start nodeCache id name).run (.builtin branchUid) calls).workflow.Unforked := by
  have accepting : (Setup.builtin branchUid).Accepting := fun _ => rfl
  have start := laned_start .builtin nodeCache id name
  obtain ⟨k, laned⟩ := start.run accepting Registry.named_builtin Registry.scripts_builtin calls
    (by omega) plain
  exact laned.neat.unforked laned.pruned

/-- A row on the branch of a router goes, comes back and gets another node before it, which is
replaced; a node with children is refused to go. -/
def routed : List Call := [
  .request (.create "periodic" {} .root), .request (.create "router" {} (.south 1 "")),
  .request (.create "create_row" {} (.south 2 "branch")),
  .request (.create "iterator" {} (.south 3 "")), .request (.create "create_row" {} (.child 4)),
  .request (.delete 3 none), .request (.create "smtp_email" {} (.south 2 "branch")), .restore 3,
  .request (.replace 6 "http_request" none), .request (.delete 4 none),
  .request (.move 3 (.child 4)), .request (.duplicate 3), .simulate (some 5)]

theorem run_unforked_routed :
    ((start true 1 "Sample").run (.builtin fun _ => "branch") routed).workflow.nodes.ids =
        [1, 2, 3, 4, 5, 7, 8] ∧
      ((start true 1 "Sample").run (.builtin fun _ => "branch") routed).workflow.Unforked := by
  have plain : ∀ past ∈ routed.inits, ((start true 1 "Sample").run
      (.builtin fun _ => "branch") past).workflow.OnlyRoutersBranch .builtin := by
    decide +kernel
  refine ⟨by decide +kernel, run_unforked _ _ _ _ _ (by decide) fun past before => ?_⟩
  exact plain past ((List.mem_inits _ _).2 before)

end Desk

end Autoflow

import Autoflow.Proofs.Editing.Redo

/-!
# What a request does to a neat workflow

A request that succeeds on a neat workflow leaves a neat one, and its action spans the two
(`request_requested`). It takes that only routers expose outputs besides the default one: the checks
by kind look at the branches of routers alone.
-/

namespace Autoflow

open Workflow (Planted Swapped Updated Moved)

namespace Workflow

/-- Only routers expose outputs besides the default one. -/
def OnlyRoutersBranch (registry : Registry) (w : Workflow) : Prop :=
  ∀ node ∈ w.nodes.values, ∀ type ∈ registry.get? node.typeName, type.kind ≠ .router →
    ∀ e ∈ node.service.edges, e.uid = ""

instance (registry : Registry) (w : Workflow) : Decidable (w.OnlyRoutersBranch registry) :=
  inferInstanceAs (Decidable (∀ node ∈ w.nodes.values, ∀ type ∈ registry.get? node.typeName,
    type.kind ≠ .router → ∀ e ∈ node.service.edges, e.uid = ""))

variable {registry : Registry} {w : Workflow} {n : NodeId} {node : Node} {type : NodeType}

/-- Nothing follows a node on another output than the default one, if it is no router or has
bare branches. -/
theorem Neat.branches (neat : w.Neat registry) (plain : w.OnlyRoutersBranch registry)
    (hn : w.nodes.get? n = some node) (ht : registry.get? node.typeName = some type)
    (bare : type.kind = .router → w.BareBranches node) (o : String) (branch : o ≠ "") :
    w.graph.occupants (.south n o) = [] := by
  by_contra used
  obtain ⟨node', hn', out⟩ := neat.exposed used
  rw [hn] at hn'
  cases hn'
  obtain ⟨e, he, uid⟩ := List.any_eq_true.1 out
  have uid : e.uid = o := by simpa using uid
  by_cases router : type.kind = .router
  · have free := bare router e he (uid ▸ branch)
    rw [(neat.housed hn).id, uid] at free
    exact used free
  · exact branch (uid ▸ plain node (NodeMap.mem_values_iff.2 ⟨n, hn⟩) type ht router e he)

end Workflow

namespace Desk

open Edit

variable {env : Setup} {drawn : Nat} {d d' : Desk} {n : NodeId} {p : Position} {node : Node}

/-- What a request leaves behind: its action was done and spans the two workflows. -/
structure Requested (registry : Registry) (drawn : Nat) (a : Action) (d d' : Desk) : Prop where
  did : Did registry drawn a d.workflow d'.workflow d d'
  spans : a.Spans registry d.workflow d'.workflow
  neat : d'.workflow.Neat registry
  fresh : ∀ n, a.wanted = some n → d.editor.trash.get? n = none

/-- A new node was planted in an exposed slot. -/
theorem planted_of_insert (tidy : d.Tidy env.registry drawn) (room : drawn < UInt64.size)
    (neat : d.workflow.Neat env.registry) (fits' : d'.workflow.Fits env.registry) {g : Graph}
    (workflow : d'.workflow = { d.workflow with graph := g }.addNode node)
    (id : node.id = d.editor.nextId)
    (graph : Graph.insert node.id p d.workflow.graph = .ok () g)
    (held : ∀ r, p.reference = some r → r ∈ d.workflow.graph.ids)
    (first : p.reference = none → d.workflow.graph.root = none)
    (outlet : ∀ r, p.reference = some r → d.workflow.Exposes r p.output)
    (script : node.service.IsScripted) :
    Planted node.id p.slot node d.workflow d'.workflow ∧ d'.workflow.Neat env.registry := by
  have new : d.workflow.nodes.get? node.id = none := by
    rw [id]
    exact NodeMap.get?_eq_none_iff.2 (tidy.next_not_live room)
  obtain ⟨g', run, layout, _⟩ :=
    tidy.fits.tree.exists_insert (tidy.fits.not_mem_graph new) held
  rw [graph] at run
  cases run
  have planted : Planted node.id p.slot node d.workflow d'.workflow := by
    refine ⟨by rw [workflow]; rfl, new, fun m => ?_, by rw [workflow]; exact layout, fun top => ?_⟩
    · rw [workflow]
      exact NodeMap.get?_insert _ _ _ _
    · have ref : p.reference = none := by
        rw [← p.owner_slot, top]
        rfl
      exact Graph.occupants_root_eq_nil.2 (first ref)
  refine ⟨planted, planted.neat neat fits' script fun r o e => ?_⟩
  obtain ⟨ref, _, rfl⟩ := Position.slot_eq_south e
  exact outlet r ref

section Requests

variable (accepting : env.Accepting) (named : env.registry.Named)
  (scripts : env.registry.Scripts) (tidy : d.Tidy env.registry drawn)
  (neat : d.workflow.Neat env.registry)

/-- A service that a type has built is scripted. -/
theorem isScripted_of_build (scripts : env.registry.Scripts) {name : String} {type : NodeType}
    (ht : env.registry.get? name = some type) {config : Json} {service : Service}
    (build : type.build config = .ok service) : service.IsScripted := by
  obtain ⟨kind, e⟩ := scripts _ _ ht
  rw [e] at build
  exact NodeType.isScripted_of_build build

include accepting named scripts tidy neat in
theorem create_requested (room : drawn < UInt64.size) {typeName : String} {values : NodeValues}
    (h : create env typeName values p d = .ok node d') :
    Requested env.registry (drawn + 1) (.create node.id) d d' := by
  have tidy' := tidy.created accepting named room h
  obtain ⟨type, reference, service, g, ht, hr, hp, hc, build, hg, rfl, rfl⟩ :=
    (create_eq_ok accepting).1 h
  have referred := Workflow.isSome_of_resolve hr
  have first : p.reference = none → d.workflow.graph.root = none := by
    intro top
    rw [top] at referred
    rcases Workflow.checkCreate_eq_ok.1 hc with ⟨_, root, _⟩ | ⟨_, e⟩
    · exact root
    · rw [e] at referred
      cases referred
  have outlet : ∀ r, p.reference = some r → d.workflow.Exposes r p.output := by
    intro r ref
    obtain ⟨_, node, hn, _, out, _⟩ := tidy.fits.held hr hp ref
    exact ⟨node, hn, out⟩
  obtain ⟨planted, neat'⟩ := planted_of_insert tidy room neat tidy'.fits (p := p) (g := g) rfl rfl
    hg (fun r ref => (tidy.fits.held hr hp ref).1) first outlet
    (isScripted_of_build scripts ht build)
  refine ⟨⟨tidy', .refl _, fun pruned => pruned.insert hg, trivial, fun k _ _ => ?_, nofun⟩,
    ⟨_, _, planted⟩, neat', fun k e => ?_⟩
  · simp [Edit.planted]
  · cases e
    exact tidy.next_not_trashed room

include accepting named scripts tidy neat in
theorem duplicate_requested (room : drawn < UInt64.size) (h : duplicate env n d = .ok node d') :
    Requested env.registry (drawn + 1) (.duplicate n node.id) d d' := by
  have tidy' := tidy.duplicated accepting named room h
  obtain ⟨source, type, service, g, hn, ht, hc, build, hg, rfl, rfl⟩ :=
    (duplicate_eq_ok accepting).1 h
  have id := (tidy.fits.housed hn).id
  have held : ∀ r, (Position.south source.id "").reference = some r →
      r ∈ d.workflow.graph.ids := by
    intro r ref
    cases ref
    rw [id]
    exact tidy.fits.mem_graph hn
  have outlet : ∀ r, (Position.south source.id "").reference = some r →
      d.workflow.Exposes r "" := by
    intro r ref
    cases ref
    rw [id]
    exact ⟨source, hn, neat.default hn⟩
  obtain ⟨planted, neat'⟩ := planted_of_insert tidy room neat tidy'.fits rfl rfl hg held nofun
    outlet (isScripted_of_build scripts ht build)
  refine ⟨⟨tidy', .refl _, fun pruned => pruned.insert hg, trivial, fun _ _ _ => rfl, nofun⟩,
    ⟨_, _, planted⟩, neat', fun k e => ?_⟩
  cases e
  exact tidy.next_not_trashed room

include accepting tidy neat in
theorem delete_requested (plain : d.workflow.OnlyRoutersBranch env.registry)
    {actor : Option String} (h : delete env n actor d = .ok node d') :
    Requested env.registry drawn (.delete n) d d' := by
  have tidy' := tidy.deleted accepting h
  obtain ⟨type, p, g, hn, ht, hc, hp, hg, _, rfl⟩ := (delete_eq_ok accepting).1 h
  have housed := tidy.fits.housed hn
  have there := tidy.fits.mem_graph hn
  obtain ⟨s, rfl, hs, _⟩ := Graph.mem_occupants_of_position hp
  have legal := hc
  rw [← housed.id] at there
  rw [Workflow.checkDelete_eq_ok there, housed.id] at legal
  have branches := neat.branches plain hn ht legal.2.2
  have bare := tidy.fits.bare_of_checkDelete hn ht hc
  obtain ⟨e, he⟩ := Graph.mem_ids_iff.1 (tidy.fits.mem_graph hn)
  have successors := Graph.successors_eq he branches bare
  have top : s = .root → d.workflow.graph.occupants (.south n "") = [] := by
    rintro rfl
    exact legal.1 ((tidy.fits.root_iff hn ht).1 hs) ""
  obtain ⟨g', run, layout, _⟩ := tidy.fits.tree.exists_remove hs he fun first => by
    rw [successors, top first]
    exact Nat.zero_le 1
  rw [hg] at run
  cases run
  have alone := neat.single.eq_singleton hs
  have own := tidy.fits.tree.owner_ne hs
  have nodes : ∀ k, (d.workflow.nodes.erase n).get? k =
      if n = k then none else d.workflow.nodes.get? k := Workflow.get?_takeNode d.workflow n
  have planted : Planted n s node (uprooted (thrownAway d (deletion d node actor s.position)) g
      n).saved.workflow d.workflow := by
    refine ⟨rfl, (nodes n).trans (if_pos rfl), fun k => ?_, ?_, fun first => ?_⟩
    · by_cases e : n = k
      · rw [if_pos e, ← e, hn]
      · rw [if_neg e]
        exact ((nodes k).trans (if_neg e)).symm
    · show _ = g.occupants.plant s n
      rw [layout, successors, Layout.extract_plant alone branches own fun _ => bare]
    · show g.occupants .root = []
      rw [layout, successors, ← first, top first]
      simp [Layout.extract, alone, Graph.splice_nil_singleton]
  have trash : ∀ k, (thrownAway d (deletion d node actor s.position)).editor.trash.get? k =
      if n = k then some (deletion d node actor s.position) else d.editor.trash.get? k :=
    get?_thrownAway housed.id d
  refine ⟨⟨tidy', .refl _, fun pruned => pruned.remove hg,
    ⟨_, s, (trash n).trans (if_pos rfl), rfl, rfl, hn, rfl, hs⟩,
    fun k _ ne => (trash k).trans (if_neg fun e => ne (congrArg some e)), fun k e => ?_⟩,
    ⟨s, node, planted⟩, planted.neat_of_neat neat tidy'.fits, by rintro k ⟨⟩⟩
  cases e
  exact NodeMap.mem_ids_of_get? hn

include accepting named scripts tidy neat in
theorem replace_requested (plain : d.workflow.OnlyRoutersBranch env.registry)
    (room : drawn < UInt64.size) {typeName : String} {actor : Option String} {r : ReplacedNode}
    (h : replace env n typeName none actor d = .ok r d') :
    Requested env.registry (drawn + 1) (.replace r.node.id r.node.typeName r.formerId r.formerType)
      d d' := by
  have tidy' := tidy.replaced accepting named room h
  obtain ⟨old, oldType, type, service, p, g, hn, ho, ht, hc, build, hp, hg, _, rfl, rfl⟩ :=
    (replace_eq_ok accepting).1 h
  have housed := tidy.fits.housed hn
  have there := tidy.fits.mem_graph hn
  have legal := hc
  rw [← housed.id] at there
  rw [Workflow.checkReplace_eq_ok there] at legal
  have branches := neat.branches plain hn ho legal.2.1
  have off : d.workflow.nodes.get? d.editor.nextId = none :=
    NodeMap.get?_eq_none_iff.2 (tidy.next_not_live room)
  obtain ⟨g', run, layout, _⟩ := tidy.fits.tree.exists_replace (tidy.fits.mem_graph hn)
    (tidy.fits.not_mem_graph off)
  rw [hg] at run
  cases run
  have swapped : Swapped n d.editor.nextId old (freshNode d type "" d.workflow.id service)
      d.workflow ((planted (uprooted (thrownAway d.drawn (retirement d old actor p)) g n) g
        (freshNode d type "" d.workflow.id service)).counted
          (type.needsBranch .null)).saved.workflow := by
    refine ⟨rfl, hn, off, fun k => ?_, layout, tidy.fits.bare_of_checkReplace hn ho hc⟩
    exact (NodeMap.get?_insert _ _ _ _).trans
      (if_congr Iff.rfl rfl (Workflow.get?_takeNode d.workflow n k))
  have trash : ∀ k, (thrownAway d (retirement d old actor p)).editor.trash.get? k =
      if n = k then some (retirement d old actor p) else d.editor.trash.get? k :=
    get?_thrownAway housed.id d
  refine ⟨⟨tidy', .refl _, fun pruned => pruned.replace hg,
    ⟨retirement d old actor p, ?_, rfl, hn⟩, fun k _ ne => ?_, fun k e => ?_⟩,
    ⟨_, _, swapped⟩, swapped.neat neat tidy'.fits (isScripted_of_build scripts ht build) branches,
    fun k e => ?_⟩
  · rw [Desk.trash_saved, Desk.trash_counted]
    exact (trash n).trans (if_pos rfl)
  · rw [Desk.trash_saved, Desk.trash_counted]
    exact (trash k).trans (if_neg fun e => ne (congrArg some e))
  · cases e
    exact NodeMap.mem_ids_of_get? hn
  · cases e
    exact tidy.next_not_trashed room

include accepting tidy neat in
theorem move_requested (plain : d.workflow.OnlyRoutersBranch env.registry) {m : MovedNode}
    (h : move env n p d = .ok m d') :
    Requested env.registry drawn (.move m.node m.origin m.destination) d d' := by
  have tidy' := tidy.moved accepting h
  obtain ⟨node, type, reference, origin, g, hn, ht, hr, hp, off, hc, ho, hg, rfl, rfl⟩ :=
    (move_eq_ok accepting).1 h
  have id := (tidy.fits.housed hn).id
  have there := tidy.fits.mem_graph hn
  rw [← id] at there
  obtain ⟨still, bare, _, rfl, _⟩ := (Workflow.checkMove_eq_ok (fun _ => tidy.fits.tree) there).1 hc
  obtain ⟨s, rfl, hs, _⟩ := Graph.mem_occupants_of_position ho
  obtain ⟨r, ref⟩ := Option.isSome_iff_exists.1 (Workflow.isSome_of_resolve hr).symm
  obtain ⟨held, _, live, same, out, inside⟩ := tidy.fits.held hr hp ref
  cases same
  have branches := neat.branches plain hn ht bare
  have low : s ≠ .root := by
    rintro rfl
    exact still ((tidy.fits.root_iff hn ht).1 hs)
  have ne : r ≠ n := fun e => off (e ▸ ref)
  obtain ⟨e, he⟩ := Graph.mem_ids_iff.1 (tidy.fits.mem_graph hn)
  obtain ⟨g', run, layout, _⟩ := tidy.fits.tree.exists_move hs he (fun top => absurd top low) ref
    held ne (tidy.fits.outside_of_checkMove hn ht live hc)
  rw [hg] at run
  cases run
  have alone := neat.single.eq_singleton hs
  have own := tidy.fits.tree.owner_ne hs
  rw [Graph.nextIds_eq he branches] at layout
  have moved : Moved env.registry n s.position p d.workflow
      { d.workflow with graph := g } := by
    refine ⟨rfl, rfl, ⟨_, Layout.vacant_extract tidy.fits.tree alone, ?_, layout⟩, ⟨?_⟩,
      ⟨r, _, ref, ne, live, out, inside⟩⟩
    · rw [Slot.slot_position]
      exact (Layout.extract_plant alone branches own fun e => by cases e).symm
    · cases owner : s.owner? with
      | none => exact absurd (Slot.eq_root_of_owner owner) low
      | some m =>
        obtain ⟨reference, hm, out, inside⟩ := neat.outlet hs owner
        refine ⟨m, reference, s.reference_position.trans owner, ?_, hm, out, inside⟩
        exact fun e => own (e ▸ owner)
  exact ⟨⟨tidy', .refl _, fun pruned => pruned.move hg, trivial, fun _ _ _ => rfl, nofun⟩, moved,
    moved.neat neat tidy'.fits, nofun⟩

include scripts tidy neat in
theorem update_requested (plain : d.workflow.OnlyRoutersBranch env.registry)
    {values : NodeValues} {u : UpdatedNode} (h : update env n values d = .ok u d') :
    Requested env.registry drawn (.update n u.before u.after) d d' := by
  have tidy' := tidy.updated h
  obtain ⟨node, type, service, hn, ht, source, rfl, rfl⟩ := update_eq_ok.1 h
  have housed := tidy.fits.housed hn
  have there := tidy.fits.mem_graph hn
  have nodes : ∀ k, (d.workflow.addNode (updatedNode node values service)).nodes.get? k =
      if n = k then some (updatedNode node values service) else d.workflow.nodes.get? k :=
    Workflow.get?_addNode (show (updatedNode node values service).id = n from housed.id) _
  have updated : Updated n node (updatedNode node values service) d.workflow
      (d.workflow.addNode (updatedNode node values service)) :=
    ⟨rfl, hn, nodes, rfl, rfl⟩
  have script : service.IsScripted := by
    rcases source with ⟨_, rfl⟩ | ⟨config, _, build, _⟩
    · exact neat.scripted hn
    · exact isScripted_of_build scripts ht build
  have keeps : ∀ o, d.workflow.graph.occupants (.south n o) ≠ [] →
      service.hasOutput o = true := by
    intro o used
    obtain ⟨node', hn', out⟩ := neat.exposed used
    rw [hn] at hn'
    cases hn'
    rcases source with ⟨_, rfl⟩ | ⟨config, _, build, legal⟩
    · exact out
    · by_cases branch : o = ""
      · subst branch
        exact script.hasOutput_default
      · obtain ⟨e, he, uid⟩ := List.any_eq_true.1 out
        have uid : e.uid = o := by simpa using uid
        by_cases router : type.kind = .router
        · rw [← housed.id] at there used
          have kept := (Workflow.checkUpdate_eq_ok there).1 legal router e he (uid ▸ branch)
          rw [uid] at kept
          by_contra gone
          exact used (kept (Bool.not_eq_true _ ▸ gone))
        · have live := NodeMap.mem_values_iff.2 ⟨n, hn⟩
          exact absurd (uid ▸ plain node live type ht router e he) branch
  exact ⟨⟨tidy', .refl _, fun pruned => pruned, trivial, fun _ _ _ => rfl, nofun⟩,
    ⟨_, _, rfl, rfl, updated⟩, updated.neat neat tidy'.fits script keeps, nofun⟩

include accepting named scripts tidy neat in
/-- A request that succeeds draws at most one id. -/
theorem request_requested (plain : d.workflow.OnlyRoutersBranch env.registry)
    (room : drawn < UInt64.size) {r : Request} {shown : Option Node} {a : Action}
    (h : r.perform env d = .ok (shown, a) d') :
    ∃ k, k ≤ drawn + 1 ∧ Requested env.registry k a d d' := by
  cases r with
  | create typeName values p =>
    obtain ⟨_, _, run, done⟩ := bind_eq_ok.1 h
    cases done
    exact ⟨_, Nat.le_refl _, create_requested accepting named scripts tidy neat room run⟩
  | update n values =>
    obtain ⟨_, _, run, done⟩ := bind_eq_ok.1 h
    cases done
    exact ⟨_, Nat.le_succ _, update_requested scripts tidy neat plain run⟩
  | delete n actor =>
    obtain ⟨_, _, run, done⟩ := bind_eq_ok.1 h
    cases done
    exact ⟨_, Nat.le_succ _, delete_requested accepting tidy neat plain run⟩
  | duplicate n =>
    obtain ⟨_, _, run, done⟩ := bind_eq_ok.1 h
    cases done
    exact ⟨_, Nat.le_refl _, duplicate_requested accepting named scripts tidy neat room run⟩
  | replace n typeName actor =>
    obtain ⟨_, _, run, done⟩ := bind_eq_ok.1 h
    cases done
    exact ⟨_, Nat.le_refl _, replace_requested accepting named scripts tidy neat plain room run⟩
  | move n p =>
    obtain ⟨_, _, run, done⟩ := bind_eq_ok.1 h
    cases done
    exact ⟨_, Nat.le_succ _, move_requested accepting tidy neat plain run⟩

end Requests

end Desk

end Autoflow

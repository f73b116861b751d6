import Autoflow.Proofs.Editing.Atomicity

/-!
# The custody of nodes

However several workflows are edited under one editor, each node is in one place: in one of the
workflows or in the trash. In one operation a node is made, changed, thrown away or taken back, or
it stays as it is where it is (`Fate`), so a node that was made is never lost and never in two
places, and what is in the trash does not change (`Session.serve_in_custody`).
-/

namespace Autoflow

namespace Session

/-- What became of a node from one session to the next one. -/
inductive Fate (s s' : Session) (k : NodeId) : Prop where
  | made (name : String) (node : Node) (new : k = s.editor.nextId)
    (drawn : s'.editor.nextId = s.editor.nextId.next) (unknown : ∀ p, s.node? p k = none)
    (there : ∀ p, s'.node? p k = if p = .live name then some node else none)
  | changed (name : String) (old node : Node) (was : s.node? (.live name) k = some old)
    (there : ∀ p, s'.node? p k = if p = .live name then some node else none)
  | restored (name : String) (node : Node) (was : s.node? .trash k = some node)
    (there : ∀ p, s'.node? p k = if p = .live name then some node else none)
  | trashed (name : String) (node : Node) (was : s.node? (.live name) k = some node)
    (there : ∀ p, s'.node? p k = if p = .trash then some node else none)
  | kept (same : ∀ p, s'.node? p k = s.node? p k)

/-- Each node of a session is filed and in one place, and its id was drawn from the counter. -/
structure Settled (drawn : Nat) (s : Session) : Prop where
  filed : s.Filed
  alone : ∀ {k p q node node'}, s.node? p k = some node → s.node? q k = some node' → p = q
  next : s.editor.nextId = ⟨1 + UInt64.ofNat drawn⟩
  numbered : ∀ {k p node}, s.node? p k = some node → k.ordinal < drawn

/-- A node is somewhere. -/
def Knows (s : Session) (k : NodeId) : Prop := ∃ p node, s.node? p k = some node

variable {s s' : Session} {name : String} {d d' : Desk} {k : NodeId} {p q : Place}
  {node node' : Node} {drawn : Nat} {out back : Option NodeId} {into : Option Node}

/-! ## One operation -/

theorem node?_keep_live (s : Session) (name other : String) (d : Desk) (k : NodeId) :
    (s.keep name d).node? (.live other) k =
      if name = other then d.workflow.nodes.get? k else s.node? (.live other) k := by
  rw [node?_live, node?_live, get?_keep]
  split <;> rfl

theorem node?_of_desk (here : s.desk? name = some d) (k : NodeId) :
    s.node? (.live name) k = d.workflow.nodes.get? k ∧
      s.node? .trash k = d.editor.trash.node? k := by
  obtain ⟨hw, editor⟩ := desk?_eq_some.1 here
  rw [node?_live, node?_trash, hw, editor]
  exact ⟨rfl, rfl⟩

theorem Settled.unknown_next (settled : s.Settled drawn) (room : drawn < UInt64.size)
    (p : Place) : s.node? p s.editor.nextId = none := by
  cases h : s.node? p s.editor.nextId with
  | none => rfl
  | some node =>
    have below := settled.numbered h
    rw [settled.next, NodeId.ordinal_mk room] at below
    exact absurd below (Nat.lt_irrefl _)

theorem Settled.elsewhere (settled : s.Settled drawn) (h : s.node? p k = some node)
    (ne : q ≠ p) : s.node? q k = none := by
  cases h' : s.node? q k with
  | none => rfl
  | some node' => exact absurd (settled.alone h' h) ne

/-- Only the workflow and the trash decide where nodes are. -/
theorem node?_keep_same (here : s.desk? name = some d) (workflow : d'.workflow = d.workflow)
    (trash : d'.editor.trash = d.editor.trash) (p : Place) (k : NodeId) :
    (s.keep name d').node? p k = s.node? p k := by
  obtain ⟨was_live, was_trash⟩ := node?_of_desk here k
  cases p with
  | trash =>
    rw [was_trash, ← trash]
    rfl
  | live other =>
    rw [node?_keep_live, workflow]
    split
    · next same => rw [← same, was_live]
    · rfl

/-- What is live in a workflow after an exchange, and what is in the trash. -/
theorem node?_exchange (here : s.desk? name = some d) (h : d.Exchange d' out into back)
    (k : NodeId) :
    (∀ other, (s.keep name d').node? (.live other) k =
      if name = other then
        if into.map (·.id) = some k then into
        else if out = some k then none else s.node? (.live name) k
      else s.node? (.live other) k) ∧
    (s.keep name d').node? .trash k =
      if back = some k then none
      else if out = some k then s.node? (.live name) k else s.node? .trash k := by
  obtain ⟨live, trash⟩ := node?_of_desk here k
  refine ⟨fun other => ?_, ?_⟩
  · rw [node?_keep_live, h.nodes k, live]
  · rw [live, trash]
    exact h.trash k

/-- A node that arrives in a workflow is there and nowhere else. -/
theorem node?_arrived (here : s.desk? name = some d) (h : d.Exchange d' out (some node) back)
    (others : ∀ other, other ≠ name → s.node? (.live other) node.id = none)
    (off : (s.keep name d').node? .trash node.id = none) (p : Place) :
    (s.keep name d').node? p node.id = if p = .live name then some node else none := by
  cases p with
  | trash => exact off
  | live other =>
    rw [(node?_exchange here h node.id).1 other]
    by_cases same : name = other
    · simp [same]
    · simp [same, Ne.symm same, others other (Ne.symm same)]

/-- A node arrives that is new, in another version, or from the trash. -/
theorem Settled.fate_arrived (settled : s.Settled drawn) (room : drawn < UInt64.size)
    (here : s.desk? name = some d) (h : d.Exchange d' out (some node) back) :
    Fate s (s.keep name d') node.id := by
  have trash := (node?_exchange here h node.id).2
  obtain ⟨was_live, was_trash⟩ := node?_of_desk here node.id
  have arrival := h.arrival
  generalize drawn : d'.editor.nextId = next at arrival
  cases arrival with
  | fresh _ id =>
    rw [(desk?_eq_some.1 here).2] at id drawn
    have unknown := settled.unknown_next room
    rw [← id] at unknown
    refine .made name node id drawn unknown (node?_arrived here h (fun other _ => unknown _) ?_)
    rw [trash, unknown, unknown]
    simp
  | version _ mem stays =>
    obtain ⟨old, hold⟩ := NodeMap.mem_ids_iff.1 mem
    have was := was_live.trans hold
    refine .changed name old node was
      (node?_arrived here h (fun other ne => settled.elsewhere was ?_) ?_)
    · exact fun e => ne (Place.live.inj e)
    · rw [trash, stays, settled.elsewhere was (q := .trash) nofun]
      simp
  | back _ mem =>
    have was := was_trash.trans mem
    refine .restored name node was
      (node?_arrived here h (fun other ne => settled.elsewhere was nofun) ?_)
    rw [trash, if_pos rfl]

/-- A node that leaves its workflow is in the trash then. -/
theorem Settled.fate_left (settled : s.Settled drawn) (here : s.desk? name = some d)
    (h : d.Exchange d' (some k) into back) (new : into.map (·.id) ≠ some k) :
    Fate s (s.keep name d') k := by
  obtain ⟨live, trash⟩ := node?_exchange here h k
  obtain ⟨node, hnode⟩ := NodeMap.mem_ids_iff.1 (h.leaves rfl).1
  have was := (node?_of_desk here k).1.trans hnode
  refine .trashed name node was fun p => ?_
  cases p with
  | trash =>
    rw [trash, if_neg fun e => new (h.arrival.into_of_back e), if_pos rfl, was, if_pos rfl]
  | live other =>
    rw [live other, if_neg new, if_pos rfl]
    by_cases same : name = other
    · simp [same]
    · simp [same, settled.elsewhere was fun e => same (Place.live.inj e).symm]

/-- An exchange decides what becomes of each node. -/
theorem Settled.fate (settled : s.Settled drawn) (room : drawn < UInt64.size)
    (here : s.desk? name = some d) (h : d.Exchange d' out into back) (k : NodeId) :
    Fate s (s.keep name d') k := by
  by_cases new : into.map (·.id) = some k
  · obtain ⟨node, rfl, rfl⟩ := Option.map_eq_some_iff.1 new
    exact settled.fate_arrived room here h
  · by_cases gone : out = some k
    · subst gone
      exact settled.fate_left here h new
    · obtain ⟨live, trash⟩ := node?_exchange here h k
      refine .kept fun p => ?_
      cases p with
      | trash => rw [trash, if_neg fun e => new (h.arrival.into_of_back e), if_neg gone]
      | live other =>
        rw [live other, if_neg new, if_neg gone]
        split
        · next same => rw [same]
        · rfl

theorem next_ne (n : NodeId) : n.next ≠ n := by
  intro e
  have val : n.val + 1 = n.val := congrArg NodeId.val e
  simp at val

/-- After one operation a node is in one place only, or it is where it was. -/
theorem Fate.placed (h : Fate s s' k) :
    (∃ place node, ∀ p, s'.node? p k = if p = place then some node else none) ∨
      ∀ p, s'.node? p k = s.node? p k := by
  cases h with
  | made name node _ _ _ there | changed name _ node _ there | restored name node _ there =>
    exact Or.inl ⟨.live name, node, there⟩
  | trashed name node _ there => exact Or.inl ⟨.trash, node, there⟩
  | kept same => exact Or.inr same

/-- Nothing is lost. -/
theorem Fate.knows (h : Fate s s' k) (known : s.Knows k) : s'.Knows k := by
  rcases h.placed with ⟨place, node, there⟩ | same
  · exact ⟨place, node, by rw [there, if_pos rfl]⟩
  · obtain ⟨p, node, hp⟩ := known
    exact ⟨p, node, by rw [same, hp]⟩

/-- What is known after one operation was known before, or its id was drawn. -/
theorem Fate.known_before (h : Fate s s' k) (known : s'.Knows k) :
    s.Knows k ∨ k = s.editor.nextId ∧ s'.editor.nextId = s.editor.nextId.next := by
  cases h with
  | made _ _ new drawn _ _ => exact Or.inr ⟨new, drawn⟩
  | changed name old _ was _ => exact Or.inl ⟨.live name, old, was⟩
  | restored _ node was _ => exact Or.inl ⟨.trash, node, was⟩
  | trashed name node was _ => exact Or.inl ⟨.live name, node, was⟩
  | kept same =>
    obtain ⟨p, node, hp⟩ := known
    exact Or.inl ⟨p, node, (same p).symm.trans hp⟩

/-- A node is in one place at most after one operation if each was before. -/
theorem Settled.follow (settled : s.Settled drawn) (room : drawn < UInt64.size) (filed : s'.Filed)
    (next : s'.editor.nextId = s.editor.nextId ∨ s'.editor.nextId = s.editor.nextId.next)
    (fates : ∀ k, Fate s s' k) : ∃ drawn', drawn' ≤ drawn + 1 ∧ s'.Settled drawn' := by
  obtain ⟨drawn', le, lt, next⟩ : ∃ drawn', drawn' ≤ drawn + 1 ∧ drawn ≤ drawn' ∧
      s'.editor.nextId = ⟨1 + UInt64.ofNat drawn'⟩ := by
    rcases next with next | next
    · exact ⟨drawn, Nat.le_succ _, Nat.le_refl _, next.trans settled.next⟩
    · exact ⟨drawn + 1, Nat.le_refl _, Nat.le_succ _, by rw [next, settled.next, NodeId.next_mk]⟩
  refine ⟨drawn', le, filed, fun {k p q node node'} hp hq => ?_, next, fun {k p node} hp => ?_⟩
  · rcases (fates k).placed with ⟨place, _, there⟩ | same
    · have at_place : ∀ {p node}, s'.node? p k = some node → p = place := by
        intro p node hp
        rw [there] at hp
        split at hp
        · assumption
        · cases hp
      exact (at_place hp).trans (at_place hq).symm
    · rw [same] at hp hq
      exact settled.alone hp hq
  · rcases (fates k).known_before ⟨p, node, hp⟩ with ⟨q, old, hq⟩ | ⟨new, once⟩
    · exact Nat.lt_of_lt_of_le (settled.numbered hq) lt
    · rw [new, settled.next, NodeId.ordinal_mk room]
      refine Nat.lt_of_le_of_ne lt fun e => next_ne s.editor.nextId ?_
      rw [← once, next, ← e, settled.next]

/-- An operation leaves a session settled and decides what becomes of each node. -/
theorem Settled.operate (settled : s.Settled drawn) (accepting : s.setup.Accepting)
    (room : drawn < UInt64.size) (name : String) (o : Operation) :
    (∃ drawn', drawn' ≤ drawn + 1 ∧ (s.operate name o).Settled drawn') ∧
      ∀ k, Fate s (s.operate name o) k := by
  have filed := settled.filed.after (.operate name o)
  suffices step : ((s.operate name o).editor.nextId = s.editor.nextId ∨
      (s.operate name o).editor.nextId = s.editor.nextId.next) ∧
      ∀ k, Fate s (s.operate name o) k from
    ⟨settled.follow room filed step.1 step.2, step.2⟩
  unfold Session.operate leave
  cases h : s.edit name (o.perform s.setup) with
  | none => exact ⟨Or.inl rfl, fun k => .kept fun p => rfl⟩
  | some result =>
    obtain ⟨r, s'⟩ := result
    obtain ⟨d, d', here, rfl, ⟨made, run, _⟩ | ⟨f, run, _⟩⟩ := edit_cases h
    · obtain ⟨out, into, back, exchange⟩ :=
        o.exchange accepting (settled.filed.desk here) run
      have next := exchange.arrival.next
      rw [(desk?_eq_some.1 here).2] at next
      exact ⟨next, settled.fate room here exchange⟩
    · have idle := o.idle_of_error accepting (settled.filed.desk here) run
      refine ⟨?_, fun k => .kept fun p =>
        node?_keep_same here idle.drew.workflow idle.drew.trash p k⟩
      rw [← (desk?_eq_some.1 here).2]
      rcases idle with rfl | rfl
      · exact Or.inl rfl
      · exact Or.inr rfl

/-! ## Sessions -/

/-- The session after operations on its workflows, one after the other. -/
def serve (s : Session) (calls : List (String × Operation)) : Session :=
  calls.foldl (fun s c => s.operate c.1 c.2) s

/-- The id of the node that an operation made, if it succeeded and made one. -/
def issue? (s : Session) (name : String) (o : Operation) : Option NodeId :=
  match s.edit name (o.perform s.setup) with
  | some (.ok made, _) => made
  | some (.error _, _) => none
  | none => none

/-- The ids of all nodes that operations made. -/
def issued (s : Session) : List (String × Operation) → List NodeId
  | [] => []
  | (name, o) :: calls => (s.issue? name o).toList ++ (s.operate name o).issued calls

theorem setup_leave {α : Type} (s : Session) (name : String) (e : Edit α) :
    (s.leave name e).setup = s.setup := by
  unfold leave
  cases h : s.edit name e with
  | none => rfl
  | some result =>
    obtain ⟨r, s'⟩ := result
    obtain ⟨d, d', _, rfl, _⟩ := edit_cases h
    rfl

theorem setup_operate (s : Session) (name : String) (o : Operation) :
    (s.operate name o).setup = s.setup := setup_leave s name _

theorem setup_serve (s : Session) (calls : List (String × Operation)) :
    (s.serve calls).setup = s.setup := by
  induction calls generalizing s with
  | nil => rfl
  | cons c calls ih => exact (ih _).trans (setup_operate s c.1 c.2)

/-- A node that was made is somewhere. -/
theorem Settled.knows_issue (settled : s.Settled drawn) (accepting : s.setup.Accepting)
    {o : Operation} (h : s.issue? name o = some k) : (s.operate name o).Knows k := by
  unfold issue? at h
  unfold Session.operate leave
  cases edited : s.edit name (o.perform s.setup) with
  | none =>
    rw [edited] at h
    cases h
  | some result =>
    obtain ⟨r, s'⟩ := result
    rw [edited] at h
    obtain ⟨d, d', here, rfl, ⟨made, run, rfl⟩ | ⟨f, run, rfl⟩⟩ := edit_cases edited
    · cases h
      obtain ⟨node, live⟩ := NodeMap.mem_ids_iff.1
        (Operation.mem_of_made accepting (settled.filed.desk here) run)
      exact ⟨.live name, node, by rw [node?_keep_live, if_pos rfl, live]⟩
    · cases h

/-- Operations leave a session settled, nothing is lost, and what they made is somewhere. -/
theorem Settled.serve (settled : s.Settled drawn) (accepting : s.setup.Accepting)
    (calls : List (String × Operation)) (room : drawn + calls.length ≤ UInt64.size) :
    (∃ drawn', drawn' ≤ drawn + calls.length ∧ (s.serve calls).Settled drawn') ∧
      ∀ k, s.Knows k ∨ k ∈ s.issued calls → (s.serve calls).Knows k := by
  induction calls generalizing s drawn with
  | nil =>
    refine ⟨⟨drawn, Nat.le_refl _, settled⟩, fun k known => ?_⟩
    rcases known with known | mem
    · exact known
    · cases mem
  | cons c calls ih =>
    obtain ⟨name, o⟩ := c
    rw [List.length_cons] at room ⊢
    obtain ⟨⟨drawn₁, le₁, settled₁⟩, fates⟩ := settled.operate accepting (by omega) name o
    obtain ⟨⟨drawn', le, settled'⟩, known⟩ :=
      ih settled₁ (by rw [setup_operate]; exact accepting) (by omega)
    refine ⟨⟨drawn', by omega, settled'⟩, fun k before => known k ?_⟩
    rcases before with before | mem
    · exact Or.inl ((fates k).knows before)
    · rcases List.mem_append.1 mem with made | later
      · exact Or.inl (settled.knows_issue accepting (Option.mem_toList.1 made))
      · exact Or.inr later

theorem settled_opened (setup : Setup) (nodeCache : Bool)
    (shelf : List (String × WorkflowId × String)) : (opened setup nodeCache shelf).Settled 0 := by
  have nowhere : ∀ p k, (opened setup nodeCache shelf).node? p k = none := by
    intro p k
    cases p with
    | trash => rfl
    | live name =>
      rw [node?_live]
      cases h : (opened setup nodeCache shelf).workflows.get? name with
      | none => rfl
      | some w =>
        obtain ⟨id, title, rfl⟩ := eq_of_opened h
        rfl
  refine ⟨filed_opened setup nodeCache shelf, fun {k p q node node'} h => ?_, rfl,
    fun {k p node} h => ?_⟩
  · rw [nowhere] at h
    cases h
  · rw [nowhere] at h
    cases h

/-- Every node that was made is in one place, in one of the workflows or in the trash, and one
more operation neither loses nor changes what is in the trash. -/
structure Custody (s : Session) (made : List NodeId) : Prop where
  placed : ∀ n ∈ made, ∃! p, ∃ node, s.node? p n = some node
  id : ∀ p n node, s.node? p n = some node → node.id = n
  comes : ∀ name o n node, (s.operate name o).node? .trash n = some node →
    ∃ p, s.node? p n = some node
  goes : ∀ name o n node, s.node? .trash n = some node →
    ∃ p, (s.operate name o).node? p n = some node

/-- What is in the trash after an operation was somewhere before. -/
theorem Fate.comes (h : Fate s s' k) (there : s'.node? .trash k = some node) :
    ∃ p, s.node? p k = some node := by
  cases h with
  | made _ _ _ _ _ at_p | changed _ _ _ _ at_p | restored _ _ _ at_p =>
    rw [at_p] at there
    cases there
  | trashed name _ was at_p =>
    rw [at_p, if_pos rfl] at there
    exact ⟨.live name, was.trans there⟩
  | kept same => exact ⟨.trash, (same _).symm.trans there⟩

/-- What was in the trash before an operation is somewhere after it. -/
theorem Fate.goes (h : Fate s s' k)
    (alone : ∀ {p node'}, s.node? p k = some node' → p = .trash)
    (there : s.node? .trash k = some node) : ∃ p, s'.node? p k = some node := by
  cases h with
  | made _ _ _ _ unknown _ =>
    rw [unknown] at there
    cases there
  | changed _ _ _ was _ | trashed _ _ was _ => cases alone was
  | restored name _ was at_p => exact ⟨.live name, by rw [at_p, if_pos rfl, ← was, there]⟩
  | kept same => exact ⟨.trash, (same _).trans there⟩

/-- However several workflows that were empty are edited under one editor whose saves are
accepted, no node that was made is lost or in two places, and the trash keeps nodes as they are,
whatever types are registered. Ids are counted in 64 bits, so there must be fewer operations than
ids. -/
theorem serve_in_custody {setup : Setup} (accepting : setup.Accepting) (nodeCache : Bool)
    (shelf : List (String × WorkflowId × String)) (calls : List (String × Operation))
    (room : calls.length < UInt64.size) :
    ((opened setup nodeCache shelf).serve calls).Custody
      ((opened setup nodeCache shelf).issued calls) := by
  have here : (opened setup nodeCache shelf).setup.Accepting := accepting
  obtain ⟨⟨drawn, le, settled⟩, known⟩ :=
    (settled_opened setup nodeCache shelf).serve here calls (by omega)
  have fates := fun name o => (settled.operate (by rw [setup_serve]; exact here) (by omega)
    name o).2
  refine ⟨fun n mem => ?_, fun p n node h => ?_, fun name o n node h => ?_,
    fun name o n node h => ?_⟩
  · obtain ⟨p, node, h⟩ := known n (Or.inr mem)
    refine ⟨p, ⟨node, h⟩, ?_⟩
    rintro q ⟨node', h'⟩
    exact settled.alone h' h
  · cases p with
    | trash => exact settled.filed.trash h
    | live name =>
      rw [node?_live, Option.bind_eq_some_iff] at h
      obtain ⟨w, hw, hn⟩ := h
      exact (settled.filed.workflows hw).id hn
  · exact (fates name o n).comes h
  · exact (fates name o n).goes (fun h' => settled.alone h' h) h

/-- Two empty workflows, with one more trigger than the builtin types and every save accepted. -/
def hooked : Session :=
  opened
    { registry := Registry.builtin.register (.scripted "webhook" .trigger)
      branchUid := fun _ => "branch"
      saveFault := fun _ => none }
    true [("main", 1, "Main"), ("other", 2, "Other")]

/-- A node is replaced, its replacement taken back, the node deleted and restored, and the
replacement done again, beside another workflow. -/
def swapping : List (String × Operation) := [
  ("main", .request (.create "webhook" {} .root)),
  ("main", .request (.create "create_row" {} (.south 1 ""))),
  ("main", .request (.replace 2 "http_request" none)),
  ("main", .undo { undoable := [.replace 3 "http_request" 2 "create_row"] }),
  ("main", .request (.delete 2 none)), ("main", .restore 2),
  ("other", .request (.create "periodic" {} .root)),
  ("main", .redo { redoable := [.replace 3 "http_request" 2 "create_row"] })]

theorem serve_in_custody_swapping :
    hooked.setup.Accepting ∧ swapping.length < UInt64.size ∧
      hooked.issued swapping = [1, 2, 3, 4] ∧
      ((hooked.serve swapping).node? (.live "main") 1).map (·.typeName) = some "webhook" ∧
      ((hooked.serve swapping).node? .trash 2).isSome ∧
      (hooked.serve swapping).Custody (hooked.issued swapping) := by
  have accepting : hooked.setup.Accepting := fun _ => rfl
  have room : swapping.length < UInt64.size := by decide
  exact ⟨accepting, room, by decide +kernel, by decide +kernel, by decide +kernel,
    serve_in_custody accepting true _ swapping room⟩

end Session

end Autoflow

import Autoflow.Proofs.Editing.Replicas
import Autoflow.Proofs.Editing.Turns

/-!
# Ids of a session were drawn

Every id in a session was drawn from the counter (`Session.Counted`): operations and copies draw
the ids of new nodes, and an existing node that is put in the place of another one has an id that
was drawn before. So none of the ids is zero before the counter of 64 bits comes round
(`Session.Counted.zero_not_mem`).
-/

namespace Autoflow

namespace Desk

/-- If all ids were drawn, they still were, and no more than a number of them is new. -/
def Advances (limit : Nat) (d d' : Desk) : Prop :=
  ∀ drawn, drawn + limit < UInt64.size → d.Counted drawn →
    ∃ drawn', drawn ≤ drawn' ∧ drawn' ≤ drawn + limit ∧ d'.Counted drawn'

variable {d d' : Desk} {limit drawn : Nat} {out back : Option NodeId} {into : Option Node}

/-- Only the nodes, the trash and the next id decide whether ids were drawn. -/
theorem Counted.of_eq {drawn' : Nat} (counted : d.Counted drawn)
    (workflow : d'.workflow = d.workflow) (trash : d'.editor.trash = d.editor.trash)
    (le : drawn ≤ drawn') (next : d'.editor.nextId = ⟨1 + UInt64.ofNat drawn'⟩) :
    d'.Counted drawn' where
  filed := counted.filed.of_eq workflow trash
  next := next
  live mem := by
    rw [workflow] at mem
    exact Nat.lt_of_lt_of_le (counted.live mem) le
  trashed hn := by
    rw [trash] at hn
    exact Nat.lt_of_lt_of_le (counted.trashed hn) le

/-- A desk that stands still advances within any limit. -/
theorem Still.advances (h : d.Still d') (limit : Nat) : d.Advances limit d' :=
  fun drawn _ counted => ⟨drawn, Nat.le_refl _, Nat.le_add_right _ _,
    counted.of_eq h.workflow h.trash (Nat.le_refl _) (h.next.trans counted.next)⟩

/-- Ids that are only drawn count for themselves. -/
theorem DrewAtMost.advances (h : d.DrewAtMost limit d') : d.Advances limit d' := by
  intro drawn _ counted
  obtain ⟨drawn', low, high, next⟩ := h.nextId counted.next
  exact ⟨drawn', low, high, counted.of_eq h.drew.workflow h.drew.trash low next⟩

/-- An idle desk has drawn one id at most. -/
theorem Idle.advances (h : d.Idle d') : d.Advances 1 d' := by
  rcases h with rfl | rfl
  · exact (drewAtMost_refl 1 d).advances
  · exact DrewAtMost.advances ⟨1, Nat.le_refl 1, rfl⟩

/-- What arrives is new, or its id was drawn before. -/
theorem Exchange.advances (h : d.Exchange d' out into back) : d.Advances 1 d' := by
  intro drawn room counted
  obtain ⟨drawn', low, high, next, arrived⟩ : ∃ drawn', drawn ≤ drawn' ∧ drawn' ≤ drawn + 1 ∧
      d'.editor.nextId = ⟨1 + UInt64.ofNat drawn'⟩ ∧
      ∀ k, into.map (·.id) = some k → k.ordinal < drawn' := by
    have arrival := h.arrival
    generalize d'.editor.nextId = next at arrival
    cases arrival with
    | nothing => exact ⟨drawn, Nat.le_refl _, Nat.le_succ _, counted.next, nofun⟩
    | fresh node id =>
      refine ⟨drawn + 1, Nat.le_succ _, Nat.le_refl _, by rw [counted.next, NodeId.next_mk], ?_⟩
      rintro k ⟨⟩
      change node.id.ordinal < drawn + 1
      rw [id, counted.next, NodeId.ordinal_mk (Nat.lt_of_succ_lt room)]
      exact Nat.lt_succ_self drawn
    | version node live _ =>
      refine ⟨drawn, Nat.le_refl _, Nat.le_succ _, counted.next, ?_⟩
      rintro k ⟨⟩
      exact counted.live live
    | back node trashed =>
      refine ⟨drawn, Nat.le_refl _, Nat.le_succ _, counted.next, ?_⟩
      rintro k ⟨⟩
      exact counted.trashed trashed
  refine ⟨drawn', low, high, h.filed counted.filed, next, fun {k} mem => ?_,
    fun {k node} hn => ?_⟩
  · rcases (h.mem_nodes k).1 mem with new | ⟨_, before⟩
    · exact arrived k new
    · exact Nat.lt_of_lt_of_le (counted.live before) low
  · rw [h.trash k] at hn
    split at hn
    · cases hn
    · split at hn
      · exact Nat.lt_of_lt_of_le (counted.live (NodeMap.mem_ids_of_get? hn)) low
      · exact Nat.lt_of_lt_of_le (counted.trashed hn) low

end Desk

open Desk (Advances)

/-- Every operation draws at most one id and files no node with an id that was not drawn. -/
theorem Operation.advances (o : Operation) {env : Setup} (accepting : env.Accepting) :
    Edit.Within (Advances 1) (o.perform env) where
  ok run := fun drawn room counted => by
    obtain ⟨_, _, _, exchange⟩ := o.exchange accepting counted.filed run
    exact exchange.advances drawn room counted
  error run := fun drawn room counted =>
    (o.idle_of_error accepting counted.filed run).advances drawn room counted

namespace Edit

variable {env : Setup} {d d' : Desk} {n : NodeId} {node : Node} {drawn : Nat}

/-- An existing node whose id was drawn takes the place of a node. -/
theorem replace_existing_counted (accepting : env.Accepting) {typeName : String}
    {actor : Option String} {r : ReplacedNode} (counted : d.Counted drawn)
    (known : node.id.ordinal < drawn)
    (h : replace env n typeName (some node) actor d = .ok r d') : d'.Counted drawn := by
  obtain ⟨old, p, g, hn, _, hg, _, _, rfl⟩ := (replace_existing_eq_ok accepting _ _).1 h
  have id := counted.filed.workflow.id hn
  have keyed := ((counted.filed.workflow.keyed.setGraph g).takeNode n).addNode node
  have live : ∀ k, k ∈ (({ d.workflow with graph := g }.takeNode n).addNode node).nodes.ids ↔
      k = node.id ∨ k ≠ n ∧ k ∈ d.workflow.nodes.ids := fun k =>
    (NodeMap.mem_ids_of_insert (Workflow.get?_addNode rfl _) k).trans
      (or_congr_right (NodeMap.mem_ids_of_erase (Workflow.get?_takeNode _ n) k))
  have trash : ∀ {k other},
      (thrownAway d (retirement d old actor p)).editor.trash.node? k = some other →
      k = n ∧ other = old ∨ d.editor.trash.node? k = some other := by
    intro k other hk
    unfold Trash.node? at hk
    rw [get?_thrownAway (e := retirement d old actor p) id] at hk
    split at hk
    · next same =>
      cases hk
      exact Or.inl ⟨same.symm, rfl⟩
    · exact Or.inr hk
  refine ⟨⟨⟨fun {k other} hk => keyed k other hk, fun k => ?_⟩, fun {k other} hk => ?_⟩,
    counted.next, fun {k} mem => ?_, fun {k other} hk => ?_⟩
  · refine (Graph.mem_ids_replace hg).trans (Iff.trans ?_ (live k).symm)
    rw [counted.filed.workflow.ids k]
  · rcases trash hk with ⟨rfl, rfl⟩ | before
    · exact id
    · exact counted.filed.trash before
  · rcases (live k).1 mem with rfl | ⟨_, before⟩
    · exact known
    · exact counted.live before
  · rcases trash hk with ⟨rfl, _⟩ | before
    · exact counted.live (NodeMap.mem_ids_of_get? hn)
    · exact counted.trashed before

/-- A replacement by an existing node draws none, and the node has to have been drawn before. -/
theorem replace_existing_advances (accepting : env.Accepting) (n : NodeId) (typeName : String)
    (node : Node) (actor : Option String) :
    Within (fun d d' => node.id.ordinal < d.editor.nextId.ordinal → d.Advances 1 d')
      (replace env n typeName (some node) actor) where
  ok run := fun known drawn room counted => by
    rw [counted.next, NodeId.ordinal_mk (Nat.lt_of_succ_lt room)] at known
    exact ⟨drawn, Nat.le_refl _, Nat.le_succ _,
      replace_existing_counted accepting counted known run⟩
  error run := fun _ => (replace_error accepting run).advances

end Edit

namespace Session

variable {s s' : Session} {drawn drawn' limit : Nat} {name : String} {d d' : Desk}

/-- A session stays counted when one desk is exchanged for another that is. -/
theorem Counted.keep (counted : s.Counted drawn) (le : drawn ≤ drawn') (h : d'.Counted drawn') :
    (s.keep name d').Counted drawn' where
  filed := counted.filed.keep name h.filed
  next := h.next
  numbered {p k node} hp := by
    cases p with
    | trash => exact h.trashed hp
    | live other =>
      rw [node?_keep_live] at hp
      split at hp
      · exact h.live (NodeMap.mem_ids_of_get? hp)
      · exact Nat.lt_of_lt_of_le (counted.numbered hp) le

/-- A workflow put under a name has to have drawn ids only. -/
theorem Counted.put {w : Workflow} (counted : s.Counted drawn) (filed : w.Filed)
    (low : ∀ k ∈ w.nodes.ids, k.ordinal < drawn) : (s.put name w).Counted drawn where
  filed := counted.filed.put name filed
  next := counted.next
  numbered {p k node} hp := by
    cases p with
    | trash => exact counted.numbered (p := .trash) hp
    | live other =>
      rw [node?_put_live] at hp
      split at hp
      · exact low k (NodeMap.mem_ids_of_get? hp)
      · exact counted.numbered hp

/-- All ids were drawn in a session that keeps a desk in which they were. -/
theorem Counted.advance (counted : s.Counted drawn) (room : drawn + limit < UInt64.size)
    (here : s.desk? name = some d) (h : d.Advances limit d') :
    ∃ drawn', drawn' ≤ drawn + limit ∧ (s.keep name d').Counted drawn' := by
  obtain ⟨drawn', low, high, counted'⟩ := h drawn room (counted.desk here)
  exact ⟨drawn', high, counted.keep low counted'⟩

/-- An edit of a workflow draws within its limit, and its ids count from then on for all
workflows. -/
theorem Counted.leave {α : Type} {R : Desk → Desk → Prop} {e : Edit α} (counted : s.Counted drawn)
    (room : drawn + limit < UInt64.size) (name : String) (h : Edit.Within R e)
    (advances : ∀ {d d'}, s.desk? name = some d → R d d' → d.Advances limit d') :
    ∃ drawn', drawn' ≤ drawn + limit ∧ (s.leave name e).Counted drawn' := by
  rcases leave_cases h s name with same | ⟨d, d', here, related, same⟩
  · exact ⟨drawn, Nat.le_add_right _ _, by rwa [same]⟩
  · rw [same]
    exact counted.advance room here (advances here related)

/-- A copy draws an id for each node. -/
theorem Counted.copy (counted : s.Counted drawn) (accepting : s.setup.Accepting)
    (name copyName : String) (id : WorkflowId) (title : String)
    (room : drawn + s.draws (.copy name copyName id title) < UInt64.size) :
    ∃ drawn', drawn' ≤ drawn + s.draws (.copy name copyName id title) ∧
      (s.copy name copyName id title).Counted drawn' := by
  rcases copy_cases s name copyName id title with ⟨same, _⟩ | ⟨d, d', here, outcome⟩
  · exact ⟨drawn, Nat.le_add_right _ _, by rwa [same]⟩
  rw [draws_copy here] at room ⊢
  have desk := counted.desk here
  rcases outcome with ⟨w, run, after⟩ | ⟨f, run, after⟩
  · obtain ⟨filed, workflow, trash⟩ := Edit.duplicateWorkflow_ok desk.filed.workflow run
    obtain ⟨new, next⟩ :=
      Edit.duplicateWorkflow_new desk.filed.workflow (Nat.le_of_lt room) desk.next run
    rw [after]
    have kept := desk.of_eq workflow trash (Nat.le_add_right _ _) next
    exact ⟨_, Nat.le_refl _, (counted.keep (Nat.le_add_right _ _) kept).put filed
      fun k mem => (new k mem).2⟩
  · rw [after]
    exact counted.advance room here (Edit.duplicateWorkflow_error accepting run).advances

/-! ## Calls -/

/-- The number of ids that a call draws at most. -/
def callDraws (s : Session) : Call → Nat
  | .step step => s.draws step
  | .reuse _ _ _ _ _ => 1
  | .clear => 0

/-- The number of ids that several calls draw at most. -/
def callDemand (s : Session) : List Call → Nat
  | [] => 0
  | call :: calls => s.callDraws call + (s.call call).callDemand calls

/-- An existing node that is put in the place of another one has an id that was drawn before. -/
def Call.Drawn (s : Session) : Call → Prop
  | .reuse _ _ _ existing _ => existing.id.ordinal < s.editor.nextId.ordinal
  | .step _ | .clear => True

/-- So does every existing node in several calls. -/
def AllDrawn (s : Session) : List Call → Prop
  | [] => True
  | call :: calls => call.Drawn s ∧ (s.call call).AllDrawn calls

/-- Calls do not change the setup. -/
theorem setup_call (s : Session) (call : Call) : (s.call call).setup = s.setup := by
  cases call with
  | step step => exact setup_after s step
  | reuse name n typeName existing actor => exact setup_leave s name _
  | clear => rfl

/-- The step lemma: each call draws no more than it is counted for. -/
theorem Counted.call (counted : s.Counted drawn) (accepting : s.setup.Accepting) (call : Call)
    (known : call.Drawn s) (room : drawn + s.callDraws call < UInt64.size) :
    ∃ drawn', drawn' ≤ drawn + s.callDraws call ∧ (s.call call).Counted drawn' := by
  have idle : ∀ {name step}, drawn + 1 < UInt64.size → step = .list name ∨ step = .reserve name →
      ∃ drawn', drawn' ≤ drawn + 1 ∧ (s.after step).Counted drawn' := by
    intro name step room which
    rcases counted.idle room which with same | ⟨d, d', here, still, same⟩
    · exact ⟨drawn, Nat.le_succ _, by rwa [same]⟩
    · rw [same]
      exact counted.advance room here (still.advances 1)
  cases call with
  | step step =>
    cases step with
    | operate name o =>
      exact counted.leave room name (o.advances accepting) fun _ h => h
    | copy name copyName id title => exact counted.copy accepting name copyName id title room
    | list name => exact idle room (Or.inl rfl)
    | reserve name => exact idle room (Or.inr rfl)
  | reuse name n typeName existing actor =>
    refine counted.leave room name
      (Edit.replace_existing_advances accepting n typeName existing actor) fun here h => h ?_
    rw [(desk?_eq_some.1 here).2]
    exact known
  | clear =>
    have same : ∀ p k, (s.call .clear).node? p k = s.node? p k := by
      intro p k
      cases p <;> rfl
    exact ⟨drawn, Nat.le_refl _, ⟨counted.filed.workflows, counted.filed.trash⟩, counted.next,
      fun hp => counted.numbered ((same _ _).symm.trans hp)⟩

/-- The run lemma, by induction on the calls: all of them draw no more than the sum. -/
theorem Counted.process (counted : s.Counted drawn) (accepting : s.setup.Accepting)
    (calls : List Call) (known : s.AllDrawn calls)
    (room : drawn + s.callDemand calls < UInt64.size) :
    ∃ drawn', drawn' ≤ drawn + s.callDemand calls ∧ (s.process calls).Counted drawn' := by
  induction calls generalizing s drawn with
  | nil => exact ⟨drawn, Nat.le_refl _, counted⟩
  | cons call calls ih =>
    rw [callDemand] at room ⊢
    obtain ⟨drawn₁, le, counted₁⟩ := counted.call accepting call known.1 (by omega)
    obtain ⟨drawn', le', counted'⟩ := ih counted₁ (by rw [setup_call]; exact accepting) known.2
      (by omega)
    exact ⟨drawn', by omega, counted'⟩

/-- Zero is the id that is drawn last. -/
theorem Counted.zero_not_mem (counted : s.Counted drawn) (room : drawn < UInt64.size)
    {w : Workflow} (there : s.workflows.get? name = some w) : (0 : NodeId) ∉ w.graph.ids := by
  intro mem
  obtain ⟨node, live⟩ :=
    NodeMap.mem_ids_iff.1 (((counted.filed.workflows there).ids 0).1 mem)
  have found : s.node? (.live name) 0 = some node := by
    rw [node?_live, there]
    exact live
  have low := counted.numbered found
  have last : (0 : NodeId).ordinal = UInt64.size - 1 := rfl
  rw [last] at low
  omega

end Session

end Autoflow

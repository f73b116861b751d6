import Autoflow.Proofs.Run.Pruning
import Autoflow.Proofs.Service.Scripts

/-!
# Simulations show what runs do

A run leaves, among all its records, those that a simulation leaves: the records of the nodes on
the path, each at the first item of every container. For a node on the path comes first in its
slot and sees only what is above it, so it is called with the same payload, the same results and
the same iterations in both; and nothing that a simulation leaves out has a record that counts.
-/

namespace Autoflow

/-- The answers of the services depend on the payload, the results that they see and the current
iterations, and on nothing else that a context has. -/
def Workflow.Oblivious (w : Workflow) : Prop :=
  ∀ n node, w.nodes.get? n = some node → ∀ c c' : Context, c.event = c'.event →
    c.results = c'.results → c.iterations = c'.iterations →
    node.service.dispatch node.toNodeInfo c = node.service.dispatch node.toNodeInfo c'

/-- Scripted services are such services. -/
theorem Workflow.oblivious_of_isScripted {w : Workflow}
    (scripted : ∀ n node, w.nodes.get? n = some node → node.service.IsScripted) : w.Oblivious := by
  intro n node live c c' event _ _
  obtain ⟨script, e⟩ := scripted n node live
  simp only [e, Script.service, Script.answer, event]

/-- Two contexts in which such services answer the same. -/
structure Context.Matches (c c' : Context) : Prop where
  payload : c'.payload = c.payload
  results : c'.results = c.results
  iterations : c'.iterations = c.iterations

namespace Context.Matches

variable {c c' c'' : Context}

theorem afterDispatch (h : c.Matches c') (n : NodeId) (r : NodeResult) :
    (c.afterDispatch n r).Matches (c'.afterDispatch n r) :=
  ⟨h.payload, congrArg (·.insert n r) h.results, h.iterations⟩

theorem setIteration (h : c.Matches c') (n : NodeId) (i : Nat) :
    (c.setIteration n i).Matches (c'.setIteration n i) :=
  ⟨h.payload, h.results, congrArg (·.insert n i) h.iterations⟩

end Context.Matches

namespace Workflow

variable {w : Workflow} {n : NodeId} {c c' : Context} {r : NodeResult} {depth : Nat}

/-! ## What a part of a run keeps -/

theorem foldlM_keeps {α β : Type} {φ : Context → β} {step : Context → α → Walk} {l : List α}
    (each : ∀ a ∈ l, ∀ c c', step c a = .ok c' → φ c' = φ c) (h : l.foldlM step c = .ok c') :
    φ c' = φ c := by
  induction l generalizing c with
  | nil =>
    cases h
    rfl
  | cons a l ih =>
    rw [List.foldlM_cons, Except.bind_eq_ok] at h
    obtain ⟨c₁, first, rest⟩ := h
    exact (ih (fun a mem => each a (List.mem_cons_of_mem _ mem)) rest).trans
      (each a List.mem_cons_self c c₁ first)

/-- What runs inside a node shows nothing to what runs behind it. -/
theorem runInside_scope {step : NodeId → Context → Walk} (h : w.runInside step n r c = .ok c') :
    c'.toScope = c.toScope := by
  unfold runInside at h
  obtain ⟨children, _, h⟩ := Except.bind_eq_ok.1 h
  split at h
  · cases h
    rfl
  · obtain ⟨count, _, h⟩ := Except.bind_eq_ok.1 h
    refine foldlM_keeps (fun i _ c c' one => ?_) h
    obtain ⟨inner, _, done⟩ := Except.bind_eq_ok.1 one
    cases done
    rfl

section Payload

variable {step : NodeId → Context → Walk}
  (keeps : ∀ n c c', step n c = .ok c' → c'.payload = c.payload)

include keeps in
theorem runInside_payload (h : w.runInside step n r c = .ok c') : c'.payload = c.payload := by
  unfold runInside at h
  obtain ⟨children, _, h⟩ := Except.bind_eq_ok.1 h
  split at h
  · cases h
    rfl
  · obtain ⟨count, _, h⟩ := Except.bind_eq_ok.1 h
    refine foldlM_keeps (fun i _ c c' one => ?_) h
    obtain ⟨inner, inside, done⟩ := Except.bind_eq_ok.1 one
    cases done
    have kept : inner.payload = (c.setIteration n i).payload :=
      foldlM_keeps (fun k _ c c' => keeps k c c') inside
    exact kept

include keeps in
theorem runNext_payload (h : w.runNext step n r c = .ok c') : c'.payload = c.payload := by
  obtain ⟨next, _, h⟩ := Except.bind_eq_ok.1 h
  exact foldlM_keeps (fun k _ c c' => keeps k c c') h

end Payload

theorem dispatchWithin_payload {allowed : Option (List NodeId)}
    (h : (w.dispatchWithin Node.call depth n allowed c : Walk) = .ok c') :
    c'.payload = c.payload := by
  induction depth generalizing n allowed c c' with
  | zero => cases h
  | succ depth ih =>
    obtain ⟨allowed', _, h⟩ := Except.bind_eq_ok.1 h
    split at h
    · cases h
      rfl
    obtain ⟨⟨r, c₁⟩, one, h⟩ := Except.bind_eq_ok.1 h
    obtain rfl := dispatchOne_eq_ok one
    dsimp only at h
    split at h
    · cases h
      rfl
    obtain ⟨c₂, inside, next⟩ := Except.bind_eq_ok.1 h
    have kept : c₂.payload = (c.afterDispatch n r).payload :=
      runInside_payload (fun _ _ _ => ih) inside
    exact (runNext_payload (fun _ _ _ => ih) next).trans kept

/-- A dispatch is the answer of a live node. -/
theorem dispatchOne_eq_ok_iff {out : NodeResult × Context} :
    (w.dispatchOne Node.call n c : Except Halt _) = .ok out ↔
      ∃ node, w.nodes.get? n = some node ∧
        node.service.dispatch node.toNodeInfo c = .ok out.1 ∧ out.2 = c.afterDispatch n out.1 := by
  have live : ∀ node, w.node n = .ok node ↔ w.nodes.get? n = some node := by
    intro node
    unfold Workflow.node
    cases w.nodes.get? n <;> simp
  have called : ∀ node : Node, (Node.call node c : Except Halt _) =
      .ok (node.service.dispatch node.toNodeInfo c) := fun _ => rfl
  simp only [dispatchOne, Except.bind_eq_ok, orHalt_eq_ok, live, called]
  constructor
  · rintro ⟨node, held, _, ⟨⟩, r, answer, ⟨⟩⟩
    exact ⟨node, held, answer, rfl⟩
  · rintro ⟨node, held, answer, after⟩
    exact ⟨node, held, _, rfl, out.1, answer, by rw [← after]; rfl⟩

/-- What a dispatch without a simulation that succeeds is made of. -/
theorem dispatchWithin_eq_ok (plain : c.simulateUntil = none)
    (h : (w.dispatchWithin Node.call (depth + 1) n none c : Walk) = .ok c') :
    ∃ node r c₁, w.nodes.get? n = some node ∧
      node.service.dispatch node.toNodeInfo c = .ok r ∧
      (w.runInside (fun below c => w.dispatchWithin Node.call depth below none c) n r
        (c.afterDispatch n r) : Walk) = .ok c₁ ∧
      (w.runNext (fun below c => w.dispatchWithin Node.call depth below none c) n r c₁ : Walk) =
        .ok c' := by
  have free : w.allowedNodes c none = .ok none := by simp [allowedNodes, plain]
  simp only [dispatchWithin, Except.bind_eq_ok, orHalt_eq_ok, free] at h
  obtain ⟨_, ⟨⟩, h⟩ := h
  simp only [Option.any_none, Bool.false_eq_true, if_false, Except.bind_eq_ok] at h
  obtain ⟨⟨r, c₁⟩, one, h⟩ := h
  obtain ⟨node, live, answer, e⟩ := dispatchOne_eq_ok_iff.1 one
  simp only at e answer
  subst e
  have still : (c.afterDispatch n r).simulateUntil = none := plain
  simp only [still, reduceCtorEq, if_false, Except.bind_eq_ok] at h
  obtain ⟨c₂, inside, next⟩ := h
  exact ⟨node, r, c₂, live, answer, inside, next⟩

/-- Whether there is an item does not depend on whether the run is a simulation. -/
theorem childCount_eq_ok {count : Nat} (h : (w.childCount n r c : Except Halt Nat) = .ok count)
    (k : Context) : ∃ count', (w.childCount n r k : Except Halt Nat) = .ok count' ∧
      (count' = 0 ↔ count = 0) := by
  unfold childCount at h ⊢
  split at h
  · next bare =>
    rw [if_pos bare]
    exact ⟨count, h, Iff.rfl⟩
  · next parent =>
    rw [if_neg parent]
    unfold Workflow.iterations at h ⊢
    split at h
    · cases h
    · next items _ =>
      cases h
      refine ⟨_, rfl, ?_⟩
      split <;> split <;> omega

/-! ## What a simulation leaves out -/

/-- One program adds to its history those of the records that another one adds that are to be
kept. -/
def Mirrors (keep : Record → Bool) (c c' k k' : Context) : Prop :=
  ∃ l, c'.history = c.history ++ l ∧ k'.history = k.history ++ l.filter keep

namespace Mirrors

variable {keep : Record → Bool} {c'' k k' k'' : Context}

theorem trans (h : Mirrors keep c c' k k') (h' : Mirrors keep c' c'' k' k'') :
    Mirrors keep c c'' k k'' := by
  obtain ⟨l, e, f⟩ := h
  obtain ⟨l', e', f'⟩ := h'
  refine ⟨l ++ l', ?_, ?_⟩
  · rw [e', e, List.append_assoc]
  · rw [f', f, List.filter_append, List.append_assoc]

theorem dispatched (same : c.Matches k) (kept : keep ⟨n, c.iterations, r⟩ = true) :
    Mirrors keep c (c.afterDispatch n r) k (k.afterDispatch n r) := by
  refine ⟨[⟨n, c.iterations, r⟩], rfl, ?_⟩
  rw [List.filter_cons_of_pos kept, List.filter_nil, ← same.iterations]
  rfl

/-- Doing nothing mirrors a part of a run whose records are not kept. -/
theorem idle {L : Layout} {tasks : List Task} (ran : Ran L tasks c c')
    (off : ∀ l, Runs L tasks l → l.filter keep = []) (k : Context) : Mirrors keep c c' k k := by
  obtain ⟨l, e, runs⟩ := ran.history
  exact ⟨l, e, by rw [off l runs, List.append_nil]⟩

end Mirrors

section Beside

-- The records to be kept are those of the nodes above the last one, at the first items.
variable {last next : NodeId} {keep : Record → Bool} {step : NodeId → Context → Walk}
  (counts : ∀ R, keep R = true ↔ w.graph.occupants.Reach R.node last ∧ AtFirst R.iterations)
  (ran : ∀ n c c', c.simulateUntil = none → step n c = .ok c' →
    Ran w.graph.occupants [⟨n, c.iterations⟩] c c')

include counts in
theorem filter_off_path {tasks : List Task} {l : List Record} (runs : Runs w.graph.occupants tasks l)
    (off : ∀ t ∈ tasks, ¬ w.graph.occupants.Reach t.node last) : l.filter keep = [] := by
  refine List.filter_eq_nil_iff.2 fun R hR kept => ?_
  obtain ⟨t, ht, covers⟩ := runs.covers hR
  exact off t ht (covers.1.trans ((counts R).1 kept).1)

include counts in
theorem filter_later_items (tree : w.graph.IsTree) {t : Task} {items : List Nat} {l : List Record}
    (later : ∀ i ∈ items, i ≠ 0)
    (runs : Runs w.graph.occupants (items.flatMap (w.graph.occupants.inner t)) l) :
    l.filter keep = [] := by
  refine List.filter_eq_nil_iff.2 fun R hR kept => ?_
  obtain ⟨s, hs, covers⟩ := runs.covers hR
  obtain ⟨i, hi, hs⟩ := List.mem_flatMap.1 hs
  have index := tree.get?_of_covers_inner hs covers
  exact later i hi (atFirst_iff.1 ((counts R).1 kept).2 _ i index)

include counts ran in
theorem runInside_left_out (plain : c.simulateUntil = none)
    (off : ∀ x ∈ w.graph.occupants (.child n), ¬ w.graph.occupants.Reach x last)
    (h : w.runInside step n r c = .ok c') (k : Context) : Mirrors keep c c' k k := by
  refine .idle (runInside_ran ran rfl rfl plain h) (fun l runs => ?_) k
  refine filter_off_path counts runs fun t ht => ?_
  obtain ⟨i, _, ht⟩ := List.mem_flatMap.1 ht
  exact off t.node (Layout.mem_inner_iff.1 ht).1

include counts ran in
theorem runNext_left_out (plain : c.simulateUntil = none)
    (off : ∀ x ∈ w.graph.occupants (.south n r.output), ¬ w.graph.occupants.Reach x last)
    (h : w.runNext step n r c = .ok c') (k : Context) : Mirrors keep c c' k k := by
  refine .idle (runNext_ran ran rfl plain h) (fun l runs => ?_) k
  exact filter_off_path counts runs fun t ht => off t.node (Layout.mem_behind_iff.1 ht).1

include counts ran in
/-- In a slot on the path the next node comes first, and what comes after it is left out. -/
theorem slot_left_out {s : Slot} (tree : w.graph.IsTree) (plain : c.simulateUntil = none)
    (head : (w.graph.occupants s).head? = some next)
    (off : ∀ x ∈ w.graph.occupants s, x ≠ next → ¬ w.graph.occupants.Reach x last)
    (h : (w.graph.occupants s).foldlM (fun c x => step x c) c = .ok c') :
    ∃ c₁, step next c = .ok c₁ ∧ ∀ k, Mirrors keep c₁ c' k k := by
  obtain ⟨others, slot⟩ := List.head?_eq_some_iff.1 head
  have nodup := List.nodup_cons.1 (slot ▸ tree.nodup s)
  rw [slot, List.foldlM_cons, Except.bind_eq_ok] at h
  obtain ⟨c₁, first, rest⟩ := h
  have still := (ran next c c₁ plain first).simulateUntil.trans plain
  refine ⟨c₁, first, .idle (foldlM_step_ran ran still rest) fun l runs => ?_⟩
  refine filter_off_path counts runs fun t ht => ?_
  obtain ⟨x, hx, rfl⟩ := List.mem_map.1 ht
  refine off x (slot ▸ List.mem_cons_of_mem _ hx) fun e => nodup.1 (e ▸ hx)

include counts ran in
/-- Of the items of a container only the first one counts. -/
theorem later_items_left_out (tree : w.graph.IsTree) (plain : c.simulateUntil = none) {count : Nat}
    (some : count ≠ 0)
    (h : (List.range count).foldlM (runIteration step n (w.graph.occupants (.child n))) c = .ok c') :
    ∃ inner, (w.graph.occupants (.child n)).foldlM (fun c x => step x c) (c.setIteration n 0) =
      .ok inner ∧ ∀ k, Mirrors keep (c.resume inner) c' k k := by
  obtain ⟨count, rfl⟩ := Nat.exists_eq_succ_of_ne_zero some
  rw [List.range_succ_eq_map, List.foldlM_cons, Except.bind_eq_ok] at h
  obtain ⟨c₁, first, rest⟩ := h
  obtain ⟨inner, inside, done⟩ := Except.bind_eq_ok.1 first
  cases done
  have later : Ran w.graph.occupants
      (((List.range count).map Nat.succ).flatMap (w.graph.occupants.inner ⟨n, c.iterations⟩))
      (c.resume inner) c' :=
    foldlM_ran (fun i _ _ e plain h => runIteration_ran ran e plain h) _ rfl plain rest
  refine ⟨inner, inside, .idle later fun l runs => ?_⟩
  refine filter_later_items counts tree (fun i hi => ?_) runs
  obtain ⟨j, _, rfl⟩ := List.mem_map.1 hi
  exact Nat.succ_ne_zero j

section OnPath

-- A line goes on from the next node as the run does.
variable {line : Context → Walk} {k : Context} {path : List Position} {s : Slot}
  (off : ∀ t, t.owner? = some n → ∀ x ∈ w.graph.occupants t, (x = next → t ≠ s) →
    ¬ w.graph.occupants.Reach x last)
  (payload : ∀ n c c', step n c = .ok c' → c'.payload = c.payload)
  (goes : ∀ c c' k, c.simulateUntil = none → AtFirst c.iterations → c.Matches k →
    step next c = .ok c' → ∃ k', line k = .ok k' ∧ Mirrors keep c c' k k')

include counts ran off payload goes in
/-- Behind a node on the path, a run and a line take the same output. -/
theorem south_mirrors (tree : w.graph.IsTree) (known : n ∈ w.graph.ids) {output : String}
    (slot : s = .south n output) (head : (w.graph.occupants s).head? = some next)
    (plain : c.simulateUntil = none) (first : AtFirst c.iterations) (same : c.Matches k)
    {c₁ : Context} (inside : w.runInside step n r c = .ok c₁)
    (behind : w.runNext step n r c₁ = .ok c') :
    ∃ k', (do
        let _ ← w.childCount n r k
        if r.output = output then line k else return k) = .ok k' ∧ Mirrors keep c c' k k' := by
  subst slot
  have scope : c₁.toScope = c.toScope := runInside_scope inside
  have still : c₁.simulateUntil = none := (congrArg Scope.simulateUntil scope).trans plain
  have left_inside := runInside_left_out counts ran plain
    (fun x hx => off _ rfl x hx fun _ => Slot.noConfusion) inside k
  obtain ⟨count, counted, _⟩ :=
    Except.bind_eq_ok.1 ((runInside_eq_childCount known).symm.trans inside)
  obtain ⟨count', counted', _⟩ := childCount_eq_ok counted k
  simp only [Except.bind_eq_ok, counted']
  by_cases taken : r.output = output
  · rw [runNext_eq_foldlM known, taken] at behind
    have others := fun x hx ne => off (.south n output) rfl x hx fun e => absurd e ne
    obtain ⟨c₂, first_run, rest⟩ := slot_left_out counts ran tree still head others behind
    have level : c₁.iterations = c.iterations := congrArg Scope.iterations scope
    have shown : c₁.Matches k :=
      ⟨same.payload.trans (runInside_payload payload inside).symm,
        same.results.trans (congrArg Scope.results scope).symm, same.iterations.trans level.symm⟩
    obtain ⟨k', done, mirrors⟩ := goes c₁ c₂ k still (level ▸ first) shown first_run
    exact ⟨k', ⟨count', rfl, (if_pos taken).trans done⟩, left_inside.trans (mirrors.trans (rest k'))⟩
  · have left_behind := runNext_left_out counts ran still
      (fun x hx => off _ rfl x hx fun _ e => taken (by injection e)) behind k
    exact ⟨k, ⟨count', rfl, if_neg taken⟩, left_inside.trans left_behind⟩

include counts ran off goes in
/-- Inside a container on the path, a line does what the run does for the first item. -/
theorem child_mirrors (tree : w.graph.IsTree) (known : n ∈ w.graph.ids) (slot : s = .child n)
    (head : (w.graph.occupants s).head? = some next) (plain : c.simulateUntil = none)
    (first : AtFirst c.iterations) (same : c.Matches k) {c₁ : Context}
    (inside : w.runInside step n r c = .ok c₁) (behind : w.runNext step n r c₁ = .ok c') :
    ∃ k', (do
        let count ← w.childCount n r k
        if count = 0 then
          return k
        let inner ← line (k.setIteration n 0)
        return k.resume inner) = .ok k' ∧ Mirrors keep c c' k k' := by
  subst slot
  have still : c₁.simulateUntil = none :=
    (congrArg Scope.simulateUntil (runInside_scope inside)).trans plain
  have left_behind := runNext_left_out counts ran still
    (fun x hx => off _ rfl x hx fun _ => Slot.noConfusion) behind
  rw [runInside_eq_childCount known, Except.bind_eq_ok] at inside
  obtain ⟨count, counted, items⟩ := inside
  obtain ⟨count', counted', zero⟩ := childCount_eq_ok counted k
  simp only [Except.bind_eq_ok, counted']
  by_cases none : count' = 0
  · rw [zero.1 none] at items
    cases items
    exact ⟨k, ⟨count', rfl, if_pos none⟩, left_behind k⟩
  · obtain ⟨inner, children, later⟩ := later_items_left_out counts ran tree plain
      (fun e => none (zero.2 e)) items
    have others := fun x hx ne => off (.child n) rfl x hx fun e => absurd e ne
    obtain ⟨c₂, first_run, rest⟩ :=
      slot_left_out (c := c.setIteration n 0) counts ran tree plain head others children
    obtain ⟨k', done, mirrors⟩ := goes (c.setIteration n 0) c₂ (k.setIteration n 0) plain
      (first.insert n) (same.setIteration n 0) first_run
    have one_item : Mirrors keep c (c.resume inner) k (k.resume k') := mirrors.trans (rest k')
    refine ⟨k.resume k', ⟨count', rfl, ?_⟩, one_item.trans ((later _).trans (left_behind _))⟩
    rw [if_neg none, done]
    rfl

end OnPath

end Beside

/-! ## The comparison -/

section Line

variable {last : NodeId} {path : List Position} {keep : Record → Bool} {k : Context}

/-- The dispatches below a node in a run without a simulation. -/
abbrev below (w : Workflow) (depth : Nat) : NodeId → Context → Walk :=
  fun n c => w.dispatchWithin Node.call depth n none c

theorem below_ran (w : Workflow) (depth : Nat) (n : NodeId) (c c' : Context)
    (plain : c.simulateUntil = none) (h : w.below depth n c = .ok c') :
    Ran w.graph.occupants [⟨n, c.iterations⟩] c c' := dispatchWithin_ran plain h

/-- A node that is dispatched in a run answers the same in a context that shows the same. -/
theorem dispatch_mirrored (oblivious : w.Oblivious)
    (kept : ∀ r, keep ⟨n, c.iterations, r⟩ = true) (plain : c.simulateUntil = none)
    (same : c.Matches k) (full : (w.dispatchWithin Node.call depth n none c : Walk) = .ok c') :
    ∃ depth' r c₁,
      (w.dispatchOne Node.call n k : Except Halt _) = .ok (r, k.afterDispatch n r) ∧
      Mirrors keep c (c.afterDispatch n r) k (k.afterDispatch n r) ∧
      w.runInside (w.below depth') n r (c.afterDispatch n r) = .ok c₁ ∧
      w.runNext (w.below depth') n r c₁ = .ok c' := by
  cases depth with
  | zero => cases full
  | succ depth =>
    obtain ⟨node, r, c₁, live, answer, inside, behind⟩ := dispatchWithin_eq_ok plain full
    have event : k.event = c.event := congrArg Payload.get same.payload
    have answer' : node.service.dispatch node.toNodeInfo k = .ok r :=
      (oblivious n node live k c event same.results same.iterations).trans answer
    exact ⟨depth, r, c₁, dispatchOne_eq_ok_iff.2 ⟨node, live, answer', rfl⟩,
      .dispatched same (kept r), inside, behind⟩

/-- Where a run succeeds, a line down a path in a context that shows the same succeeds as well, and
adds those of the records that the run adds that are to be kept. -/
theorem line_mirrors (tree : w.graph.IsTree) (oblivious : w.Oblivious)
    (counts : ∀ R, keep R = true ↔ w.graph.occupants.Reach R.node last ∧ AtFirst R.iterations)
    (leads : w.graph.occupants.Leads last n path) (known : n ∈ w.graph.ids)
    (plain : c.simulateUntil = none) (first : AtFirst c.iterations) (same : c.Matches k)
    (full : (w.dispatchWithin Node.call depth n none c : Walk) = .ok c') :
    ∃ k', (w.line Node.call last path k : Walk) = .ok k' ∧ Mirrors keep c c' k k' := by
  induction leads generalizing depth c c' k with
  | here =>
    obtain ⟨depth, r, c₁, one, added, inside, behind⟩ :=
      dispatch_mirrored oblivious (fun r => (counts _).2 ⟨.refl, first⟩) plain same full
    have below : ∀ s, s.owner? = some last → ∀ x ∈ w.graph.occupants s,
        ¬ w.graph.occupants.Reach x last := fun s owned x hx => tree.not_reach_owner hx owned
    have still : c₁.simulateUntil = none :=
      (congrArg Scope.simulateUntil (runInside_scope inside)).trans plain
    have left_inside := runInside_left_out (c := c.afterDispatch last r) counts (w.below_ran depth)
      plain (below _ rfl) inside (k.afterDispatch last r)
    have left_behind := runNext_left_out counts (w.below_ran depth) still (below _ rfl) behind
      (k.afterDispatch last r)
    refine ⟨k.afterDispatch last r, ?_, added.trans (left_inside.trans left_behind)⟩
    rw [line, one]
    rfl
  | @down n next p path owner head rest ih =>
    have edge := Layout.edge_of_head owner head
    obtain ⟨depth, r, c₁, one, added, inside, behind⟩ := dispatch_mirrored oblivious
      (fun r => (counts _).2 ⟨.head edge rest.reach, first⟩) plain same full
    have off : ∀ s, s.owner? = some n → ∀ x ∈ w.graph.occupants s, (x = next → s ≠ p.slot) →
        ¬ w.graph.occupants.Reach x last := by
      intro s owned x hx ne above
      obtain ⟨e, e'⟩ := Layout.Leads.eq_next tree owner head rest owned hx above
      exact ne e e'
    have goes : ∀ c c' k, c.simulateUntil = none → AtFirst c.iterations → c.Matches k →
        w.below depth next c = .ok c' →
        ∃ k', (w.line Node.call last path k : Walk) = .ok k' ∧ Mirrors keep c c' k k' :=
      fun c c' k plain first same run => ih (tree.mem_of_edge edge).2 plain first same run
    have shown := same.afterDispatch n r
    rw [line, owner]
    simp only [one]
    cases place : p.placement with
    | south =>
      have slot : p.slot = .south n p.output := by
        simp only [Position.slot, owner, place, Slot.beside]
      obtain ⟨k', done, mirrors⟩ := south_mirrors (c := c.afterDispatch n r) counts
        (w.below_ran depth) off (fun _ _ _ => dispatchWithin_payload) goes tree known slot head plain
        first shown inside behind
      exact ⟨k', done, added.trans mirrors⟩
    | child =>
      have slot : p.slot = .child n := by
        simp only [Position.slot, owner, place, Slot.beside]
      obtain ⟨k', done, mirrors⟩ := child_mirrors (c := c.afterDispatch n r) counts
        (w.below_ran depth) off goes tree known slot head plain first shown inside behind
      exact ⟨k', done, added.trans mirrors⟩

end Line

theorem exists_path_of_previousNodes {last : NodeId} {before : List NodeId}
    (h : w.previousNodes last = .ok before) : ∃ path, w.graph.previousPositions last = some path ∧
      before = path.filterMap Position.reference := by
  cases found : w.graph.previousPositions last with
  | none => simp [previousNodes, Workflow.path, found, Except.map] at h
  | some path =>
    rw [previousNodes_of_found found] at h
    cases h
    exact ⟨path, rfl, rfl⟩

/-- The marker of a workflow only sets how its runs start. -/
theorem dispatchWithin_withMarker (w : Workflow) (marker : Option NodeId) (depth : Nat) (n : NodeId)
    (allowed : Option (List NodeId)) (c : Context) :
    ({ w with simulateUntil := marker }.dispatchWithin Node.call depth n allowed c : Walk) =
      w.dispatchWithin Node.call depth n allowed c := by
  induction depth generalizing n allowed c with
  | zero => rfl
  | succ depth ih =>
    simp only [dispatchWithin, ih]
    rfl

/-- A simulation shows what a run does: for services that answer by what they see, if the run of a
valid workflow succeeds, so does the simulation up to a node that has a path, wherever the marker
is set, and its history is that of the run without all records but those of the nodes on the path
at the first items. -/
theorem simulation_shows_run (w : Workflow) (payload : Payload) (last : NodeId)
    (before : List NodeId) (c : Context) (valid : w.graph.validate = .ok ())
    (marker : w.simulateUntil = none) (oblivious : w.Oblivious)
    (above : w.previousNodes last = .ok before) (full : w.run (.new payload) = .ok c) :
    ∃ c', w.run ((Context.new payload).withSimulateUntil (some last)) = .ok c' ∧
      { w with simulateUntil := some last }.run (.new payload) = .ok c' ∧
      c'.history = c.history.filter fun R => R.node ∈ before ++ [last] ∧ AtFirst R.iterations := by
  have tree := Graph.validate_eq_ok_iff.1 valid
  obtain ⟨path, found, rfl⟩ := exists_path_of_previousNodes above
  obtain ⟨r, root, leads⟩ := Graph.leads_of_previousPositions found
  have top : r ∈ w.graph.occupants .root := Graph.mem_occupants_root.2 root
  have counts : ∀ R : Record, decide (R.node ∈ Position.nodes path last ∧ AtFirst R.iterations) =
      true ↔ w.graph.occupants.Reach R.node last ∧ AtFirst R.iterations := fun R => by
    rw [decide_eq_true_iff, leads.mem_nodes_iff_reach tree top]
  have empty : AtFirst (Context.new payload).iterations := fun i mem => (List.not_mem_nil mem).elim
  rw [run, runWith_of_root root, start_of_plain rfl marker] at full
  obtain ⟨c', walked, l, added, kept⟩ := line_mirrors (k := (Context.new payload).withSimulateUntil last)
    tree oblivious counts leads (tree.mem top) rfl empty ⟨rfl, rfl, rfl⟩ full
  have simulated : w.run ((Context.new payload).withSimulateUntil last) = .ok c' := by
    rw [run, runWith_eq_line (fun _ _ => rfl) tree Node.call found rfl]
    exact walked
  refine ⟨c', simulated, ?_, ?_⟩
  · rw [← simulated, run, run, runWith_of_root root,
      runWith_of_root (w := { w with simulateUntil := some last }) root]
    exact dispatchWithin_withMarker w (some last) _ _ _ _
  · rw [kept, show c.history = l from added]
    rfl

/-- A node with a scripted service. -/
def scriptedNode (n : NodeId) (script : Script) : Node where
  id := n
  workflow := 1
  typeName := "Scripted"
  service := script.service

/-- The container of `nested` answers with two items, the other nodes with the payload. -/
def scriptedNested : Workflow :=
  { nested with
    nodes := (((NodeMap.empty.insert 1 (scriptedNode 1 {})).insert 2
      (scriptedNode 2 { data := .object [("results", .array [.null, .null])] })).insert 3
      (scriptedNode 3 {})).insert 4 (scriptedNode 4 {}) }

theorem simulation_shows_run_scripted : ∃ c c',
    scriptedNested.run (.new (.known .null)) = .ok c ∧
    c.history.map Record.node = [1, 2, 3, 3, 4] ∧
    scriptedNested.run ((Context.new (.known .null)).withSimulateUntil (some 3)) = .ok c' ∧
    c'.history = c.history.filter (fun R => R.node ∈ [1, 2] ++ [3] ∧ AtFirst R.iterations) ∧
    c'.history.map Record.node = [1, 2, 3] := by
  have ran : ∃ c, scriptedNested.run (.new (.known .null)) = .ok c ∧
      c.history.map Record.node = [1, 2, 3, 3, 4] ∧ (c.history.filter fun R =>
        R.node ∈ [1, 2] ++ [3] ∧ AtFirst R.iterations).map Record.node = [1, 2, 3] :=
    ⟨_, rfl, rfl, rfl⟩
  have oblivious : scriptedNested.Oblivious := by
    refine oblivious_of_isScripted fun n node live => ?_
    simp only [scriptedNested, NodeMap.get?_insert] at live
    repeat' split at live
    all_goals cases live
    all_goals exact ⟨_, rfl⟩
  obtain ⟨c, full, nodes, kept⟩ := ran
  obtain ⟨c', simulated, _, history⟩ := simulation_shows_run scriptedNested (.known .null) 3 [1, 2] c
    (by decide +kernel) rfl oblivious (previousNodes_of_found previousPositions_nested) full
  exact ⟨c, c', full, nodes, simulated, history, history ▸ kept⟩

end Workflow

end Autoflow

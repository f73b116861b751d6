import Autoflow.Proofs.Graph.Paths
import Autoflow.Proofs.Run.Depth

/-!
# Simulations as straight lines

A simulation dispatches what stands on the path to its last node and nothing else. Said as a
program: `Workflow.line` walks down a path of slots, a node at a time, and goes on as long as the
node has taken the output on the path or has an item. The walk of a simulation is that program
(`dispatchWithin_eq_line`), for whatever comes back from a slot that is not on the path is the
context that went in.
-/

namespace Autoflow

namespace Workflow

section Line

variable {m : Type → Type} [Monad m] [MonadExceptOf Halt m]

/-- How often the children of a node are run, never if there are none. -/
def childCount (w : Workflow) (n : NodeId) (r : NodeResult) (c : Context) : m Nat :=
  if (w.graph.occupants (.child n)).isEmpty then pure 0 else iterations n r c

/-- Walks down a path of slots to the last node of a simulation. A container on the path is run
for its first item, if it has one. -/
def line (w : Workflow) (call : Caller m) (last : NodeId) : List Position → Context → m Context
  | [], c => do
    let (_, c) ← w.dispatchOne call last c
    return c
  | p :: path, c =>
    match p.reference with
    | none => return c
    | some n => do
      let (r, c) ← w.dispatchOne call n c
      let count ← w.childCount n r c
      match p.placement with
      | .south => if r.output = p.output then w.line call last path c else return c
      | .child =>
        if count = 0 then
          return c
        let inner ← w.line call last path (c.setIteration n 0)
        return c.resume inner

end Line

section Loops

variable {m : Type → Type} [Monad m] [LawfulMonad m] {α β : Type} {f : β → α → m β} {l : List α}

/-- A loop whose steps give back what went in does nothing. -/
theorem foldlM_idle (idle : ∀ a ∈ l, ∀ b, f b a = pure b) (b : β) : l.foldlM f b = pure b := by
  induction l generalizing b with
  | nil => rfl
  | cons a l ih =>
    rw [List.foldlM_cons, idle a List.mem_cons_self, pure_bind]
    exact ih (fun a mem => idle a (List.mem_cons_of_mem _ mem)) b

/-- A loop in which only the first step does something. -/
theorem foldlM_first {a : α} (head : l.head? = some a) (nodup : l.Nodup)
    (idle : ∀ a' ∈ l, a' ≠ a → ∀ b, f b a' = pure b) (b : β) : l.foldlM f b = f b a := by
  obtain ⟨rest, rfl⟩ := List.head?_eq_some_iff.1 head
  have off := (List.nodup_cons.1 nodup).1
  have still : ∀ b, rest.foldlM f b = pure b := foldlM_idle fun a' mem =>
    idle a' (List.mem_cons_of_mem _ mem) fun e => off (e ▸ mem)
  rw [List.foldlM_cons]
  simp only [still, bind_pure]

end Loops

section Walk

variable {m : Type → Type} [Monad m] [LawfulMonad m] [MonadExceptOf Halt m]
  {w : Workflow} {last n next : NodeId} {path : List Position} {p : Position}
  {allowed : List NodeId} {depth : Nat} {c : Context} {r : NodeResult}
  {step : NodeId → Context → m Context}

/-- A node that is not on the path is left alone. -/
theorem dispatchWithin_idle (call : Caller m) (off : n ∉ allowed) (deep : depth ≠ 0)
    (c : Context) : w.dispatchWithin call depth n (some allowed) c = pure c := by
  obtain ⟨depth, rfl⟩ := Nat.exists_eq_succ_of_ne_zero deep
  simp [dispatchWithin, allowedNodes, Context.orHalt, off]

theorem runInside_eq_childCount (known : n ∈ w.graph.ids) :
    w.runInside step n r c = w.childCount n r c >>= fun count =>
      (List.range count).foldlM (runIteration step n (w.graph.occupants (.child n))) c := by
  simp only [runInside, childCount, Graph.children_of_mem_ids known, Context.orHalt, pure_bind]
  split
  · rw [pure_bind]
    rfl
  · rfl

theorem runNext_eq_foldlM (known : n ∈ w.graph.ids) : w.runNext step n r c =
    (w.graph.occupants (.south n r.output)).foldlM (fun c below => step below c) c := by
  simp only [runNext, Graph.nextNodes_of_mem_ids known, Context.orHalt, pure_bind]

/-- A dispatch goes on in the context that has its record. -/
theorem dispatchOne_bind {call : Caller m} {k k' : NodeResult × Context → m Context}
    (same : ∀ r, k (r, c.afterDispatch n r) = k' (r, c.afterDispatch n r)) :
    w.dispatchOne call n c >>= k = w.dispatchOne call n c >>= k' := by
  simp only [dispatchOne, bind_assoc, pure_bind, same]

omit [MonadExceptOf Halt m] in
/-- An iteration whose children do nothing leaves its container as it was. -/
theorem runIteration_idle {l : List NodeId} (idle : ∀ k ∈ l, ∀ c, step k c = pure c) (c : Context)
    (i : Nat) : runIteration step n l c i = pure c := by
  unfold runIteration
  rw [foldlM_idle idle, pure_bind]
  rfl

variable (stops : ∀ {α β : Type} (e : Halt) (k : α → m β), (throw e : m α) >>= k = throw e)

include stops in
/-- In a simulation the children of a node are run once or not at all. -/
theorem childCount_bind {k k' : Nat → m Context} (sim : c.simulateUntil = some last)
    (same : ∀ count ≤ 1, k count = k' count) :
    w.childCount n r c >>= k = w.childCount n r c >>= k' := by
  unfold childCount
  split
  · rw [pure_bind, pure_bind, same 0 (Nat.zero_le 1)]
  · unfold iterations
    split
    · rw [stops, stops]
    · next count _ =>
      simp only [Context.isSimulation, sim, Option.isSome_some, if_true, pure_bind]
      exact same _ (Nat.min_le_right count 1)

omit [MonadExceptOf Halt m] in
/-- Of a slot with the next node at its head nothing but that node is run. -/
theorem foldlM_slot {s : Slot} (tree : w.graph.IsTree)
    (head : (w.graph.occupants s).head? = some next)
    (idle : ∀ x ∈ w.graph.occupants s, x ≠ next → ∀ c, step x c = pure c) (c : Context) :
    (w.graph.occupants s).foldlM (fun c x => step x c) c = step next c :=
  foldlM_first head (tree.nodup s) idle c

section Beside

-- What stands beside a node is left alone, but for the next node in its slot.
variable {s : Slot}
  (idle : ∀ t, t.owner? = some n → ∀ x ∈ w.graph.occupants t, (x = next → t ≠ s) →
    ∀ c, step x c = pure c)

include idle in
theorem runNext_off_path (known : n ∈ w.graph.ids) (off : Slot.south n r.output ≠ s) :
    w.runNext step n r c = pure c := by
  rw [runNext_eq_foldlM known]
  exact foldlM_idle (fun x hx => idle _ rfl x hx fun _ => off) c

include idle in
theorem runNext_on_path (tree : w.graph.IsTree) (known : n ∈ w.graph.ids)
    (head : (w.graph.occupants s).head? = some next) (on : Slot.south n r.output = s) :
    w.runNext step n r c = step next c := by
  subst on
  rw [runNext_eq_foldlM known]
  exact foldlM_slot tree head (fun x hx ne => idle _ rfl x hx fun e => absurd e ne) c

include idle in
omit [MonadExceptOf Halt m] in
theorem items_off_path (off : Slot.child n ≠ s) (count : Nat) :
    (List.range count).foldlM (runIteration step n (w.graph.occupants (.child n))) c = pure c := by
  refine foldlM_idle (fun i _ c => runIteration_idle (fun x hx => ?_) c i) c
  exact idle _ rfl x hx fun _ => off

include idle in
omit [MonadExceptOf Halt m] in
theorem items_on_path (tree : w.graph.IsTree)
    (head : (w.graph.occupants s).head? = some next) (on : Slot.child n = s) :
    (List.range 1).foldlM (runIteration step n (w.graph.occupants (.child n))) c = do
      let inner ← step next (c.setIteration n 0)
      return c.resume inner := by
  subst on
  have first := foldlM_slot tree head (fun x hx ne => idle _ rfl x hx fun e => absurd e ne)
  rw [show List.range 1 = [0] from rfl, List.foldlM_cons]
  simp only [List.foldlM_nil, bind_pure, runIteration, first]

end Beside

include stops in
/-- The walk of a simulation goes down the path to its last node, and nowhere else. -/
theorem dispatchWithin_eq_line (tree : w.graph.IsTree) (call : Caller m)
    (above : ∀ x ∈ allowed, w.graph.occupants.Reach x last)
    (leads : w.graph.occupants.Leads last n path)
    (held : ∀ x ∈ Position.nodes path last, x ∈ allowed) (known : n ∈ w.graph.ids)
    (deep : w.graph.Deep depth n) (sim : c.simulateUntil = some last) :
    w.dispatchWithin call depth n (some allowed) c = w.line call last path c := by
  induction leads generalizing depth c with
  | here =>
    obtain ⟨depth, rfl⟩ := Nat.exists_eq_succ_of_ne_zero (deep.ne_zero tree known)
    have mem : last ∈ allowed := held last (List.mem_singleton_self last)
    simp only [dispatchWithin, line, allowedNodes, Context.orHalt, pure_bind]
    rw [if_neg (by simpa using mem)]
    exact dispatchOne_bind fun r => if_pos sim
  | @down n next p path owner head rest ih =>
    obtain ⟨depth, rfl⟩ := Nat.exists_eq_succ_of_ne_zero (deep.ne_zero tree known)
    have leads := Layout.Leads.down owner head rest
    have edge := Layout.edge_of_head owner head
    have mem : n ∈ allowed := held n leads.mem_nodes
    have other : n ≠ last := leads.ne_last tree
    have goes : ∀ c : Context, c.simulateUntil = some last →
        w.dispatchWithin call depth next (some allowed) c = w.line call last path c := fun c sim =>
      ih (fun x hx => held x (by rw [Layout.Leads.nodes_cons owner]; exact .tail _ hx))
        (tree.mem_of_edge edge).2 (deep.below tree edge) sim
    have idle : ∀ s, s.owner? = some n → ∀ x ∈ w.graph.occupants s, (x = next → s ≠ p.slot) →
        ∀ c, w.dispatchWithin call depth x (some allowed) c = pure c := by
      intro s owned x hx ne c
      have below := Layout.Edge.of_mem hx owned
      refine dispatchWithin_idle call (fun hit => ?_)
        ((deep.below tree below).ne_zero tree (tree.mem hx)) c
      obtain ⟨e, e'⟩ := Layout.Leads.eq_next tree owner head rest owned hx (above x hit)
      exact ne e e'
    simp only [dispatchWithin, line, owner, allowedNodes, Context.orHalt, pure_bind]
    rw [if_neg (by simpa using mem)]
    refine dispatchOne_bind fun r => ?_
    have still : (c.afterDispatch n r).simulateUntil = some last := sim
    have goes_on : (c.afterDispatch n r).simulateUntil ≠ some n := by
      rw [still]
      exact fun e => other (Option.some.inj e).symm
    simp only [if_neg goes_on, runInside_eq_childCount known, bind_assoc]
    refine childCount_bind stops still fun count le => ?_
    cases place : p.placement with
    | south =>
      have slot : p.slot = .south n p.output := by
        simp only [Position.slot, owner, place, Slot.beside]
      rw [items_off_path idle (by simp [slot]), pure_bind]
      dsimp only
      split
      · next e =>
        rw [runNext_on_path idle tree known head (by rw [slot, e])]
        exact goes _ still
      · next ne =>
        refine runNext_off_path idle known fun e => ne ?_
        rw [slot] at e
        injection e
    | child =>
      have slot : p.slot = .child n := by
        simp only [Position.slot, owner, place, Slot.beside]
      have behind : ∀ c, w.runNext
          (fun below c => w.dispatchWithin call depth below (some allowed) c) n r c = pure c :=
        fun c => runNext_off_path idle known (by simp [slot])
      simp only [behind, bind_pure]
      split
      · next none =>
        rw [none]
        rfl
      · next some =>
        have one : count = 1 := by omega
        rw [one, items_on_path idle tree head slot.symm,
          goes ((c.afterDispatch n r).setIteration n 0) still]

omit [LawfulMonad m] in
/-- A simulation comes to the same if it is told its path. -/
theorem dispatchWithin_simulated (call : Caller m)
    (found : w.graph.previousPositions last = some path) (sim : c.simulateUntil = some last) :
    w.dispatchWithin call depth n none c =
      w.dispatchWithin call depth n (some (Position.nodes path last)) c := by
  have allowed : w.allowedNodes c none = .ok (some (Position.nodes path last)) := by
    simp [allowedNodes, sim, simulatedPath, previousNodes, Workflow.path, found, Except.map,
      Position.nodes]
  cases depth with
  | zero => rfl
  | succ depth =>
    have told : w.allowedNodes c (some (Position.nodes path last)) =
        .ok (some (Position.nodes path last)) := rfl
    simp only [dispatchWithin, allowed, told]

include stops in
/-- A simulation of a valid workflow walks down the path to its last node. -/
theorem runWith_eq_line (tree : w.graph.IsTree) (call : Caller m)
    (found : w.graph.previousPositions last = some path)
    (sim : (w.start c).simulateUntil = some last) :
    w.runWith call c = w.line call last path (w.start c) := by
  obtain ⟨r, root, leads⟩ := Graph.leads_of_previousPositions found
  have top : r ∈ w.graph.occupants .root := Graph.mem_occupants_root.2 root
  rw [runWith_of_root root, dispatchWithin_simulated call found sim]
  exact dispatchWithin_eq_line stops tree call (fun x hx => (leads.mem_nodes_iff tree).1 hx |>.2)
    leads (fun x hx => hx) (tree.mem top) (w.deep_depthBound r) sim

end Walk

end Workflow

end Autoflow

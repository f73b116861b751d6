import Autoflow.Proofs.Graph.Edits

/-!
# Graphs that differ in order only

Two graphs are alike if they have the same entries up to the order of entries and of outputs.
A graph is pruned if it keeps no empty list and no empty map of outputs. Every edit that
succeeds keeps a graph pruned, and pruned graphs with the same layout and the same nodes are
alike (`Pruned.alike`), so the layout says all there is to say about them.
-/

namespace Autoflow

namespace Entry

/-- The same list on each output and the same nodes inside. -/
structure Alike (e e' : Entry) : Prop where
  next : Option.Rel (fun o o' : Outputs => ∀ output, o.get? output = o'.get? output) e.next e'.next
  children : e.children = e'.children

/-- No slot holds an empty list, and a map of outputs is kept for some output only. -/
structure Pruned (e : Entry) : Prop where
  slots : ∀ placement o, e.slot? placement o ≠ some []
  outputs : ∀ o, e.next = some o → o.toList ≠ []

variable {e e' : Entry} {placement : Placement} {o : String} {ids : List NodeId}

theorem toList_ne_nil_of_get? {m : Outputs} (h : m.get? o = some ids) : m.toList ≠ [] :=
  List.ne_nil_of_mem (OrderedMap.mem_of_get? h)

theorem pruned_empty : Pruned {} where
  slots placement _ := by cases placement <;> exact nofun
  outputs := nofun

/-- A slot may be set to a list that is not empty. -/
theorem Pruned.setSlot (h : e.Pruned) (some_left : ids ≠ []) (placement : Placement) (o : String) :
    (e.setSlot placement o ids).Pruned := by
  constructor
  · intro placement' o'
    by_cases same : Slot.beside 0 placement' o' = .beside 0 placement o
    · have slot : (e.setSlot placement o ids).slot? placement' o' = some ids := by
        rw [← e.slot?_setSlot_self placement o ids]
        cases placement <;> cases placement' <;> simp_all [Slot.beside, slot?]
      rw [slot]
      exact fun e => some_left (Option.some.inj e)
    · rw [e.slot?_setSlot_other ids same]
      exact h.slots placement' o'
  · intro m hm
    cases placement with
    | south =>
      cases hm
      have held : ((e.next.getD .empty).insert o ids).get? o = some ids := by
        rw [OrderedMap.get?_insert, if_pos rfl]
      exact toList_ne_nil_of_get? held
    | child => exact h.outputs m hm

/-- A slot that is dropped takes the map of outputs with it if that has no other one. -/
theorem Pruned.dropSlot (h : e.Pruned) (placement : Placement) (o : String) :
    (e.dropSlot placement o).Pruned := by
  constructor
  · intro placement' o'
    by_cases same : Slot.beside 0 placement' o' = .beside 0 placement o
    · have slot : (e.dropSlot placement o).slot? placement' o' = none := by
        rw [← e.slot?_dropSlot_self placement o]
        cases placement <;> cases placement' <;> simp_all [Slot.beside, slot?]
      rw [slot]
      exact (Option.some_ne_none _).symm
    · rw [e.slot?_dropSlot_other same]
      exact h.slots placement' o'
  · intro m hm
    cases placement with
    | south =>
      simp only [Entry.dropSlot] at hm
      split at hm
      · cases hm
      · next left =>
        cases hm
        exact fun none_left => left (by simp [OrderedMap.isEmpty, none_left])
    | child => exact h.outputs m hm

/-- Where the list in a slot becomes empty, the slot is dropped. -/
theorem Pruned.spliceSlot (h : e.Pruned) (n : NodeId) (l : List NodeId) :
    (Graph.spliceSlot e placement o n l).Pruned := by
  unfold Graph.spliceSlot
  split
  · exact h
  · simp only
    split
    · exact h.dropSlot placement o
    · next left => exact h.setSlot (fun e => left (by rw [e]; rfl)) placement o

theorem Pruned.behind (h : e.Pruned) (displaced : List NodeId) :
    Pruned { e with next := Graph.behind displaced } := by
  unfold Graph.behind
  constructor
  · intro placement o
    cases placement with
    | child => exact h.slots .child o
    | south =>
      by_cases left : displaced = []
      · simp [left, slot?]
      · by_cases default : "" = o <;> simp [left, slot?, default]
  · intro m hm
    by_cases left : displaced = []
    · simp [left] at hm
    · simp only [List.isEmpty_iff, left, if_false, Option.some.injEq] at hm
      rw [← hm]
      exact List.cons_ne_nil _ _

/-- In pruned entries, slots that hold the same nodes are the same, so the layout tells which slots
there are. -/
theorem Pruned.slot_eq (h : e.Pruned) (h' : e'.Pruned)
    (same : (e.slot? placement o).getD [] = (e'.slot? placement o).getD []) :
    e.slot? placement o = e'.slot? placement o := by
  have some_left := h.slots placement o
  have some_left' := h'.slots placement o
  cases hs : e.slot? placement o <;> cases hs' : e'.slot? placement o <;> simp_all

/-- Pruned entries with the same slots differ in the order of their outputs at most. -/
theorem Pruned.alike (h : e.Pruned) (h' : e'.Pruned)
    (same : ∀ placement o, e.slot? placement o = e'.slot? placement o) : e.Alike e' := by
  have output : ∀ {m : Outputs}, m.toList ≠ [] → ∃ o ids, m.get? o = some ids := by
    intro m some_left
    obtain ⟨⟨o, ids⟩, mem⟩ := List.exists_mem_of_ne_nil _ some_left
    exact ⟨o, ids, OrderedMap.mem_toList_iff.1 mem⟩
  refine ⟨?_, same .child ""⟩
  cases hm : e.next with
  | none =>
    cases hm' : e'.next with
    | none => exact .none
    | some m' =>
      obtain ⟨o, ids, held⟩ := output (h'.outputs m' hm')
      have := same .south o
      simp [slot?, hm, hm', held] at this
  | some m =>
    cases hm' : e'.next with
    | none =>
      obtain ⟨o, ids, held⟩ := output (h.outputs m hm)
      have := same .south o
      simp [slot?, hm, hm', held] at this
    | some m' =>
      refine .some fun o => ?_
      have := same .south o
      simpa [slot?, hm, hm'] using this

end Entry

namespace Graph

/-- The same root and alike entries of the same nodes. -/
structure Alike (g g' : Graph) : Prop where
  root : g.root = g'.root
  entries : ∀ n, Option.Rel Entry.Alike (g.find? n) (g'.find? n)

/-- All entries are pruned. -/
def Pruned (g : Graph) : Prop := ∀ n e, g.find? n = some e → e.Pruned

variable {g g' : Graph} {n : NodeId} {p : Position}

/-- A change of one entry keeps a graph pruned if it keeps entries so. -/
theorem Pruned.modifyEntry (h : g.Pruned) (n : NodeId) {f : Entry → Entry}
    (keeps : ∀ e : Entry, e.Pruned → (f e).Pruned) : (g.modifyEntry n f).Pruned := by
  intro m e he
  rw [find?_modifyEntry] at he
  split at he
  · obtain ⟨e', he', rfl⟩ := Option.map_eq_some_iff.1 he
    exact keeps e' (h m e' he')
  · exact h m e he

theorem Pruned.ensureEntry (h : g.Pruned) (n : NodeId) (anchor : Option NodeId) :
    (g.ensureEntry n anchor).Pruned := by
  intro m e he
  rw [find?_ensureEntry] at he
  split at he
  · cases he
    cases old : g.find? n with
    | none => exact Entry.pruned_empty
    | some e => exact h n e old
  · exact h m e he

/-- Every edit of a graph that succeeds keeps it pruned, here an insertion. -/
theorem Pruned.insert (h : g.Pruned) (run : insert n p g = .ok () g') : g'.Pruned := by
  unfold Graph.insert at run
  split at run
  · cases run
    have placed : ({ g with root := some n }.ensureEntry n none).Pruned :=
      Pruned.ensureEntry (g := { g with root := some n }) h n none
    unfold placeAtRoot
    simp only
    split
    · split
      · exact placed
      · exact placed.modifyEntry n fun e he => he.behind _
    · exact placed
  · split at run
    · cases run
      refine Pruned.modifyEntry (Pruned.ensureEntry ?_ _ _) n fun e he => he.behind _
      exact h.modifyEntry _ fun e he => he.setSlot (List.cons_ne_nil _ _) _ _
    · cases run

theorem Pruned.bypass (h : g.Pruned) (n : NodeId) (p : Position) (l : List NodeId) :
    (g.bypass n p l).Pruned := by
  unfold Graph.bypass
  split
  · exact h
  · exact h.modifyEntry _ fun e he => he.spliceSlot n l

/-- A removal drops the entry and whatever slot it leaves empty. -/
theorem Pruned.remove (h : g.Pruned) {keepInfo : Bool} (run : remove n keepInfo g = .ok () g') :
    g'.Pruned := by
  rw [remove_eq] at run
  split at run
  · cases run
    exact h
  · split at run
    · cases run
    · next e _ _ p _ =>
      cases keepInfo with
      | true =>
        cases run
        exact h.bypass n p e.nextIds
      | false =>
        cases run
        intro m e' he'
        have find : ((g.bypass n p e.successors).entries.erase n).get? m = some e' := he'
        rw [OrderedMap.get?_erase] at find
        split at find
        · cases find
        · exact h.bypass n p e.successors m e' find

theorem Pruned.replace (h : g.Pruned) {old new : NodeId} (run : replace old new g = .ok () g') :
    g'.Pruned := by
  rw [replace_eq] at run
  split at run
  · cases run
  · split at run
    · cases run
    · next e he =>
      have handed : (g.handOver old new e).Pruned := by
        intro m e' he'
        rw [find?_handOver] at he'
        split at he'
        · cases he'
          exact h old e he
        · split at he'
          · cases he'
          · exact h m e' he'
      simp only at run
      split at run
      · cases run
        exact handed
      · cases run
        refine handed.modifyEntry _ fun e he => ?_
        split
        · next ids held =>
          refine he.setSlot (fun none_left => ?_) _ _
          cases ids with
          | nil => exact he.slots _ _ held
          | cons a ids =>
            simp only [splice] at none_left
            split at none_left <;> simp at none_left
        · exact he

/-- A move takes a node out and puts it in again. -/
theorem move_eq_ok (run : move n p g = .ok () g') :
    ∃ g₁, remove n true g = .ok () g₁ ∧ insert n p g₁ = .ok () g' := by
  have last : EStateM.bind (remove n true) (fun _ => insert n p) g = .ok () g' := by
    rw [move, get_bind] at run
    simp only [bind] at run
    cases ref : p.reference with
    | none =>
      cases here : g.position n with
      | error f =>
        simp only [ref, here] at run
        cases run
      | ok q =>
        simp only [ref, here] at run
        exact run
    | some r =>
      cases there : g.contains r with
      | false =>
        simp only [ref, there, Bool.not_false, if_true] at run
        cases run
      | true =>
        cases here : g.position n with
        | error f =>
          simp only [ref, there, here, Bool.not_true, Bool.false_eq_true, if_false] at run
          cases run
        | ok q =>
          simp only [ref, there, here, Bool.not_true, Bool.false_eq_true, if_false] at run
          exact run
  unfold EStateM.bind at last
  cases left : remove n true g with
  | ok u g₁ =>
    rw [left] at last
    exact ⟨g₁, rfl, last⟩
  | error f g₁ =>
    rw [left] at last
    cases last

/-- A move is a removal and an insertion. -/
theorem Pruned.move (h : g.Pruned) (run : move n p g = .ok () g') : g'.Pruned := by
  obtain ⟨g₁, left, put⟩ := move_eq_ok run
  exact (h.remove left).insert put

theorem pruned_empty : Graph.empty.Pruned := nofun

/-- Pruned graphs with the same nodes in the same slots are alike. -/
theorem Pruned.alike (h : g.Pruned) (h' : g'.Pruned) (ids : ∀ n, n ∈ g.ids ↔ n ∈ g'.ids)
    (same : g.occupants = g'.occupants) : g.Alike g' := by
  refine ⟨?_, fun n => ?_⟩
  · have root : g.root.toList = g'.root.toList := congrFun same .root
    cases hg : g.root <;> cases hg' : g'.root <;> simp_all
  cases he : g.find? n with
  | none =>
    have out : g'.find? n = none := by
      rw [find?_eq_none_iff, ← ids n, ← find?_eq_none_iff]
      exact he
    rw [out]
    exact .none
  | some e =>
    obtain ⟨e', he'⟩ := mem_ids_iff.1 ((ids n).1 (mem_ids_of_find? he))
    have slots : ∀ placement o, e.slot? placement o = e'.slot? placement o := by
      intro placement o
      have held := congrFun same (.beside n placement o)
      simp only [occupants_beside, he, he', Option.bind_some] at held
      exact (h n e he).slot_eq (h' n e' he') held
    rw [he']
    exact .some ((h n e he).alike (h' n e' he') slots)

end Graph

end Autoflow

import Autoflow.Proofs.Graph.Order
import Autoflow.Proofs.Graph.Positions
import Autoflow.Proofs.Graph.Validation

/-!
# The main line of a graph

The main line goes from the root to the first successor on its default output, from there to the
first one of that node, and so on. `lastPosition` follows it through nodes that are all different
(`lastPosition_eq_lastBehind`), so its outcome is a matter of the line alone: it ends at a node that
leads no further, comes back to a node, or runs into one without an entry (`lastPosition_eq_ok`,
`lastPosition_eq_error`). In a valid graph it ends. A node that is inserted there makes the line
longer by one and displaces no other (`lastPosition_verdict`).
-/

namespace Autoflow.Graph

open Layout

variable {g g' : Graph} {n m r x : NodeId} {e : Entry} {p : Position} {f : GraphFault}
  {seen : List NodeId}

/-- A node lists another one first on its default output. -/
def Follows (g : Graph) (a b : NodeId) : Prop :=
  ∃ e, g.find? a = some e ∧ e.defaultSuccessor = some b

/-- The main line came from the root through `seen`, the latest first, and stands on a node. -/
inductive Mainline (g : Graph) : List NodeId → NodeId → Prop
  | root {r : NodeId} (top : g.root = some r) : Mainline g [] r
  | next {seen : List NodeId} {n m : NodeId} (line : Mainline g seen n) (follows : g.Follows n m) :
      Mainline g (n :: seen) m

/-- A position is the slot at the end of the main line, which is the root if there is no node. -/
def EndsAt (g : Graph) (p : Position) : Prop :=
  (g.root = none ∧ p = .root) ∨ ∃ seen n, g.Mainline seen n ∧ seen.Nodup ∧ n ∈ g.ids ∧
    (∀ m, ¬ g.Follows n m) ∧ p = .south n ""

/-- What a fault says about the main line: it comes back to a node, or there is no entry for the
node that it has come to. -/
def BreaksOff (g : Graph) : GraphFault → Prop
  | .multipleIncomingEdges n => ∃ seen, g.Mainline seen n ∧ seen.Nodup ∧ n ∈ seen
  | .nodeNotFound n => ∃ seen, g.Mainline seen n ∧ seen.Nodup ∧ n ∉ g.ids
  | _ => False

/-! ## Where the line leads -/

theorem follows_iff : g.Follows n m ↔ (g.occupants (.south n "")).head? = some m := by
  constructor
  · rintro ⟨e, he, first⟩
    rw [occupants_south he]
    exact first
  · intro first
    obtain ⟨e, he⟩ := mem_ids_iff.1 (owner_mem_ids (List.mem_of_head? first) rfl)
    refine ⟨e, he, ?_⟩
    rw [occupants_south he] at first
    exact first

theorem Follows.mem_ids (h : g.Follows n m) : n ∈ g.ids := by
  obtain ⟨e, he, _⟩ := h
  exact mem_ids_of_find? he

theorem Follows.edge (h : g.Follows n m) : g.occupants.Edge n m :=
  ⟨.south n "", rfl, List.mem_of_head? (follows_iff.1 h)⟩

/-- Nothing follows a node if its default output is free. -/
theorem not_follows_iff : (∀ m, ¬ g.Follows n m) ↔ g.occupants (.south n "") = [] := by
  rw [← List.head?_eq_none_iff, Option.eq_none_iff_forall_ne_some]
  exact forall_congr' fun m => not_congr follows_iff

namespace Mainline

theorem follows_of_mem (h : g.Mainline seen n) (mem : x ∈ seen) : ∃ y, g.Follows x y := by
  induction h with
  | root => cases mem
  | @next seen n m line follows ih =>
    rcases List.mem_cons.1 mem with rfl | before
    · exact ⟨m, follows⟩
    · exact ih before

/-- A node without successors is not one that the line has left behind. -/
theorem not_mem_of_end (h : g.Mainline seen n) (last : ∀ m, ¬ g.Follows n m) : n ∉ seen := by
  intro mem
  obtain ⟨y, follows⟩ := h.follows_of_mem mem
  exact last y follows

/-- The line comes down to its node from each that it met. -/
theorem leads_down (h : g.Mainline seen n) (mem : x ∈ seen) :
    Relation.TransGen g.occupants.Edge x n := by
  induction h with
  | root => cases mem
  | next line follows ih =>
    rcases List.mem_cons.1 mem with rfl | before
    · exact .single follows.edge
    · exact (ih before).tail follows.edge

theorem mem_ids (tree : g.IsTree) (h : g.Mainline seen n) : n ∈ g.ids := by
  cases h with
  | root top => exact tree.root_mem top
  | next line follows => exact (tree.mem_of_edge follows.edge).2

/-- A line is one of every graph with the same root in which its nodes lead on as before. -/
theorem mono (h : g.Mainline seen n) (root : g'.root = g.root)
    (kept : ∀ a b, g.Follows a b → g'.Follows a b) : g'.Mainline seen n := by
  induction h with
  | root top => exact .root (root.trans top)
  | next line follows ih => exact .next ih (kept _ _ follows)

end Mainline

/-! ## The walk ends -/

/-- The walk of `lastBehind`, given up if it has not ended after so many rounds. -/
def lastWithin (g : Graph) :
    Nat → List NodeId → NodeId → Option (Except GraphFault Position)
  | 0, _, _ => none
  | rounds + 1, seen, n =>
    if n ∈ seen then some (.error (.multipleIncomingEdges n))
    else
      match g.find? n with
      | none => some (.error (.nodeNotFound n))
      | some e =>
        match e.defaultSuccessor with
        | some m => g.lastWithin rounds (n :: seen) m
        | none => some (.ok (.south n ""))

theorem lastWithin_eq {rounds : Nat} (enough : g.unseen seen < rounds) :
    g.lastWithin rounds seen n = some (g.lastBehind seen n) := by
  induction rounds generalizing seen n with
  | zero => omega
  | succ rounds ih =>
    fun_cases lastBehind g seen n with
    | case1 isSeen => rw [lastWithin, if_pos isSeen]
    | case2 notSeen missing => simp only [lastWithin, if_neg notSeen, missing]
    | case3 notSeen e he m next =>
      have fewer := unseen_cons_lt he notSeen
      simp only [lastWithin, if_neg notSeen, he, next]
      apply ih
      omega
    | case4 notSeen e he last => simp only [lastWithin, if_neg notSeen, he, last]

/-! ## Its outcome -/

/-- As long as no node was met twice, the walk goes on from where the main line stands. -/
theorem lastPosition_eq_lastBehind (line : g.Mainline seen n) (distinct : seen.Nodup) :
    g.lastPosition = g.lastBehind seen n := by
  induction line with
  | root top => rw [lastPosition, top]
  | @next seen n m line follows ih =>
    obtain ⟨new, distinct⟩ := List.nodup_cons.1 distinct
    obtain ⟨e, he, first⟩ := follows
    rw [ih distinct]
    conv_lhs => rw [lastBehind]
    simp only [dif_neg new]
    split
    · next missing => cases he.symm.trans missing
    · next e' he' =>
      cases he.symm.trans he'
      simp only [first]

/-- The walk ends where the main line does, whatever the graph looks like. -/
theorem lastPosition_of_endsAt (ends : g.EndsAt p) : g.lastPosition = .ok p := by
  rcases ends with ⟨root, rfl⟩ | ⟨seen, n, line, distinct, there, last, rfl⟩
  · rw [lastPosition, root]
  · obtain ⟨e, he⟩ := mem_ids_iff.1 there
    have none_next : e.defaultSuccessor = none :=
      Option.eq_none_iff_forall_ne_some.2 fun m first => last m ⟨e, he, first⟩
    rw [lastPosition_eq_lastBehind line distinct, lastBehind, dif_neg (line.not_mem_of_end last)]
    split
    · next missing => cases he.symm.trans missing
    · next e' he' =>
      cases he.symm.trans he'
      simp only [none_next]

theorem lastPosition_of_breaksOff (broken : g.BreaksOff f) : g.lastPosition = .error f := by
  cases f with
  | multipleIncomingEdges n =>
    obtain ⟨seen, line, distinct, again⟩ := broken
    rw [lastPosition_eq_lastBehind line distinct, lastBehind, dif_pos again]
  | nodeNotFound n =>
    obtain ⟨seen, line, distinct, missing⟩ := broken
    have new : n ∉ seen := line.not_mem_of_end fun m follows => missing follows.mem_ids
    rw [lastPosition_eq_lastBehind line distinct, lastBehind, dif_neg new]
    split
    · rfl
    · next e he => exact absurd (mem_ids_of_find? he) missing
  | _ => exact broken.elim

/-- The walk ends in one of these ways: each round leaves the main line one node further on, until
it breaks off or ends. -/
theorem outcome_of_lastBehind (line : g.Mainline seen n) (distinct : seen.Nodup) :
    (∃ p, g.EndsAt p ∧ g.lastBehind seen n = .ok p) ∨
      ∃ f, g.BreaksOff f ∧ g.lastBehind seen n = .error f := by
  fun_induction lastBehind g seen n with
  | case1 seen n again =>
    exact Or.inr ⟨.multipleIncomingEdges n, ⟨seen, line, distinct, again⟩, rfl⟩
  | case2 seen n new missing =>
    have absent : n ∉ g.ids := find?_eq_none_iff.1 missing
    exact Or.inr ⟨.nodeNotFound n, ⟨seen, line, distinct, absent⟩, rfl⟩
  | case3 seen n new e he m first ih =>
    exact ih (.next line ⟨e, he, first⟩) (List.nodup_cons.2 ⟨new, distinct⟩)
  | case4 seen n new e he last =>
    refine Or.inl ⟨_, Or.inr ⟨seen, n, line, distinct, mem_ids_of_find? he, ?_, rfl⟩, rfl⟩
    rintro m ⟨e', he', first⟩
    cases he.symm.trans he'
    cases last.symm.trans first

theorem outcome_of_lastPosition (g : Graph) : (∃ p, g.EndsAt p ∧ g.lastPosition = .ok p) ∨
    ∃ f, g.BreaksOff f ∧ g.lastPosition = .error f := by
  cases root : g.root with
  | none => exact Or.inl ⟨.root, Or.inl ⟨root, rfl⟩, by rw [lastPosition, root]⟩
  | some r =>
    have outcome := outcome_of_lastBehind (.root root) List.nodup_nil
    rwa [← lastPosition_eq_lastBehind (.root root) List.nodup_nil] at outcome

theorem lastPosition_eq_ok : g.lastPosition = .ok p ↔ g.EndsAt p := by
  refine ⟨fun run => ?_, lastPosition_of_endsAt⟩
  rcases g.outcome_of_lastPosition with ⟨q, ends, run'⟩ | ⟨f, _, run'⟩
  · cases run.symm.trans run'
    exact ends
  · cases run.symm.trans run'

theorem lastPosition_eq_error : g.lastPosition = .error f ↔ g.BreaksOff f := by
  refine ⟨fun run => ?_, lastPosition_of_breaksOff⟩
  rcases g.outcome_of_lastPosition with ⟨q, _, run'⟩ | ⟨f', broken, run'⟩
  · cases run.symm.trans run'
  · cases run.symm.trans run'
    exact broken

/-! ## Valid graphs -/

/-- The main line of a tree does not break off. -/
theorem IsTree.not_breaksOff (tree : g.IsTree) : ¬ g.BreaksOff f := by
  intro broken
  cases f with
  | multipleIncomingEdges n =>
    obtain ⟨seen, line, _, again⟩ := broken
    exact tree.acyclic (line.leads_down again)
  | nodeNotFound n =>
    obtain ⟨seen, line, _, missing⟩ := broken
    exact missing (line.mem_ids tree)
  | _ => exact broken

theorem IsTree.exists_lastPosition (tree : g.IsTree) :
    ∃ p, g.lastPosition = .ok p ∧ g.EndsAt p := by
  rcases g.outcome_of_lastPosition with ⟨p, ends, run⟩ | ⟨f, broken, _⟩
  · exact ⟨p, run, ends⟩
  · exact absurd broken tree.not_breaksOff

namespace EndsAt

variable (ends : g.EndsAt p)

include ends in
/-- The slot at the end of the main line is free. -/
theorem free : g.occupants p.slot = [] := by
  rcases ends with ⟨root, rfl⟩ | ⟨_, n, _, _, _, last, rfl⟩
  · exact occupants_root_eq_nil.2 root
  · exact not_follows_iff.1 last

include ends in
theorem nodeAt_eq : g.nodeAt p = .ok none := by
  rcases ends with ⟨root, rfl⟩ | ⟨_, n, _, _, there, last, rfl⟩
  · exact congrArg Except.ok root
  · obtain ⟨e, he⟩ := mem_ids_iff.1 there
    have bare := not_follows_iff.1 last
    rw [occupants_south he] at bare
    have first : (e.slot? .south "").bind List.head? = none := by
      cases held : e.slot? .south "" with
      | none => rfl
      | some ids =>
        rw [Entry.nextOn_eq, held] at bare
        rw [Option.bind_some, show ids = [] from bare]
        rfl
    simp only [nodeAt, Position.south, require, he, bind, Except.bind, first]
    rfl

include ends in
theorem mem_ids_of_reference (ref : p.reference = some r) : r ∈ g.ids := by
  rcases ends with ⟨_, rfl⟩ | ⟨_, n, _, _, there, _, rfl⟩
  · cases ref
  · cases ref
    exact there

include ends in
/-- A new node that is planted there is where the main line ends. -/
theorem plant (new : n ∉ g.ids) (layout : g'.occupants = g.occupants.plant p.slot n)
    (there : n ∈ g'.ids) : g'.EndsAt (.south n "") := by
  have own : p.slot.owner? ≠ some n := by
    rw [p.owner_slot]
    exact fun ref => new (ends.mem_ids_of_reference ref)
  have last : ∀ m, ¬ g'.Follows n m := by
    rw [not_follows_iff, layout, plant_default own]
    exact ends.free
  rcases ends with ⟨_, rfl⟩ | ⟨seen, m, line, distinct, _, last', rfl⟩
  · have root : g'.root = some n := by
      apply mem_occupants_root.1
      rw [layout]
      exact mem_plant_self _ _ _
    exact Or.inr ⟨[], n, .root root, List.nodup_nil, there, last, rfl⟩
  · have root : g'.root = g.root := by
      apply root_of_occupants
      rw [layout]
      exact plant_of_owner_ne (show Slot.root ≠ .south m "" from nofun) (by simp)
    -- The slot of the new node is that of a node which led nowhere, so the line is as it was.
    have kept : ∀ a b, g.Follows a b → g'.Follows a b := by
      intro a b follows
      have ne : Slot.south a "" ≠ (Position.south m "").slot := by
        intro same
        cases show Slot.south a "" = .south m "" from same
        exact last' b follows
      have old : (Slot.south a "").owner? ≠ some n := by
        intro owned
        cases owned
        exact new follows.mem_ids
      rw [follows_iff, layout, plant_of_owner_ne ne old]
      exact follows_iff.1 follows
    have follows : g'.Follows m n := by
      rw [follows_iff, layout]
      exact congrArg List.head? (plant_self _ _ _)
    have off := line.not_mem_of_end last'
    exact Or.inr ⟨m :: seen, n, .next (line.mono root kept) follows,
      List.nodup_cons.2 ⟨off, distinct⟩, there, last, rfl⟩

end EndsAt

/-- Nodes can be added in a slot, one behind the other, so that no other node has to give way. -/
structure Open (g : Graph) (p : Position) : Prop where
  free : g.nodeAt p = .ok none
  append : ∀ n, n ∉ g.ids → ∃ g', insert n p g = .ok () g' ∧ g'.validate = .ok () ∧
    (∀ m, m ≠ n → g'.position m = g.position m) ∧ g'.lastPosition = .ok (.south n "")

/-- The walk along the main line ends on every graph. It fails exactly if the line comes back to a
node or comes to one without an entry. In a valid graph neither happens, and the slot at its end is
open. -/
theorem lastPosition_verdict (g : Graph) :
    (∀ r rounds, g.root = some r → g.ids.length < rounds →
      g.lastWithin rounds [] r = some g.lastPosition) ∧
    (∀ f, g.lastPosition = .error f ↔ g.BreaksOff f) ∧
    (∀ p, g.lastPosition = .ok p ↔ g.EndsAt p) ∧
    (g.validate = .ok () → ∃ p, g.lastPosition = .ok p ∧ g.Open p) := by
  refine ⟨fun r rounds root enough => ?_, fun f => lastPosition_eq_error,
    fun p => lastPosition_eq_ok, fun valid => ?_⟩
  · rw [lastPosition, root]
    apply lastWithin_eq
    exact Nat.lt_of_le_of_lt List.countP_le_length enough
  · have tree := validate_eq_ok_iff.1 valid
    obtain ⟨p, found, ends⟩ := tree.exists_lastPosition
    refine ⟨p, found, ends.nodeAt_eq, fun n new => ?_⟩
    obtain ⟨g', run, layout, ids, tree'⟩ :=
      tree.exists_insert new fun r => ends.mem_ids_of_reference
    have orderly : g.Orderly := tree.toOrderly
    have off : ∀ m, m ∉ g.occupants p.slot := by
      rw [ends.free]
      exact fun m => List.not_mem_nil
    exact ⟨g', run, validate_eq_ok_iff.2 tree',
      fun m ne => orderly.position_insert_other new run ne (off m),
      lastPosition_of_endsAt (ends.plant new layout ((ids n).2 (Or.inl rfl)))⟩

/-- The main line of `grove` goes into the container behind its root and no further. -/
theorem lastPosition_verdict_grove : grove.validate = .ok () ∧
    grove.lastPosition = .ok (.south 2 "") ∧ grove.Open (.south 2 "") := by
  have valid : grove.validate = .ok () := by decide +kernel
  obtain ⟨_, _, verdict, found⟩ := lastPosition_verdict grove
  have last : grove.lastPosition = .ok (.south 2 "") := by
    apply (verdict _).2
    have line : grove.Mainline [1] 2 := .next (.root rfl) ⟨_, rfl, rfl⟩
    exact Or.inr ⟨[1], 2, line, by decide, by decide, not_follows_iff.2 rfl, rfl⟩
  obtain ⟨p, at_p, opened⟩ := found valid
  cases last.symm.trans at_p
  exact ⟨valid, last, opened⟩

end Autoflow.Graph

import Autoflow.Proofs.Graph.Descent
import Autoflow.Proofs.Graph.Gaps
import Autoflow.Proofs.Graph.Listing
import Autoflow.Proofs.Graph.Mutations

/-!
# Edits in the order of the nodes

An edit of a valid graph leaves the depth-first listing alone but for the nodes that it is about.
An inserted node joins the listing where it was put (`insert_in_order`), a removed one drops out of
it (`remove_in_order`), and one that is moved takes what is inside it along and leaves the order of
all others as it was (`move_in_order`). Each time the node gives way to what stands in its place
without it, before the edit or after it, so `IsTree.strike` applies.
-/

namespace Autoflow

open Layout

namespace Graph

variable {g g' : Graph} {n r x : NodeId} {e : Entry} {s : Slot} {p : Position} {l : List NodeId}
  {inside : List NodeId}

/-- A valid graph, with its listing: depth first, and each node that has an entry once. -/
structure InOrder (g : Graph) : Prop where
  valid : g.validate = .ok ()
  listed : Listed g.successors g.root.toList g.listing
  complete : g.listing.Perm g.ids

theorem IsTree.inOrder (tree : g.IsTree) : g.InOrder :=
  ⟨validate_eq_ok_iff.2 tree, tree.listed_listing, tree.listing_perm⟩

/-! ## Inserting -/

/-- Without a planted node and what is inside it the listing is the one of the graph before. -/
theorem Planted.listed (h : g.Planted n p g') (tree' : g'.IsTree)
    (inner : ∀ x, x ∈ inside ↔ g'.occupants.Inside n x) :
    Listed g.successors g.root.toList (g'.listing.filter (· ∉ n :: inside)) := by
  have split := h.occupants_child ▸ h.successors_self
  refine h.root ▸ tree'.strike split inner fun x out => ?_
  exact (h.successors x fun e => out (e ▸ List.mem_cons_self)).symm

/-- What the insertion of a node makes of a graph. -/
structure Inserted (g : Graph) (n : NodeId) (p : Position) (g' : Graph) : Prop
    extends InOrder g' where
  /-- Without a reference the entry of the node is the first one. -/
  first : p.reference = none → g'.ids = n :: g.ids
  /-- Otherwise it comes right behind that of the reference. -/
  next : ∀ r, p.reference = some r →
    ∃ front back, g.ids = front ++ r :: back ∧ g'.ids = front ++ r :: n :: back
  position : g'.position n = .ok p.slot.position
  alone : g'.held? p.slot = some [n]
  /-- What was in the slot follows the node on its default output, and nothing else does. -/
  behind : g'.nextNodes n (some "") = .ok (g.occupants p.slot)
  successors : g'.successors n = g.occupants p.slot
  slots : ∀ s, s ≠ p.slot → s ≠ .south n "" → g'.held? s = g.held? s
  listing : g'.listing.filter (· ≠ n) = g.listing

/-- A new node can be inserted into any slot of a valid graph. It stands between the slot and what
was there, and everything else stays as it is. -/
theorem insert_in_order (valid : g.validate = .ok ()) (new : n ∉ g.ids)
    (held : ∀ r, p.reference = some r → r ∈ g.ids) :
    ∃ g', insert n p g = .ok () g' ∧ g.Inserted n p g' := by
  have tree := validate_eq_ok_iff.1 valid
  obtain ⟨g', run⟩ : ∃ g', insert n p g = .ok () g' := insert_run held
  have tree' : g'.IsTree := (tree.insert_iff run).2 (Or.inl new)
  have planted := Orderly.planted_insert tree.toOrderly new run
  have there : n ∈ g'.ids := mem_ids_of_find? planted.entry
  have here : n ∈ g'.occupants p.slot := by simp [planted.occupants_here]
  have no_children : g.occupants (.child n) = [] := occupants_eq_nil new rfl
  refine ⟨g', run, tree'.inOrder, (ids_insert run new).1, (ids_insert run new).2,
    tree'.position_eq here, planted.here, ?_, ?_, fun s => planted.held?_of_new new, ?_⟩
  · rw [nextNodes_of_mem_ids there, planted.occupants_behind]
  · rw [planted.successors_self, no_children, List.append_nil]
  · have nothing : ∀ x, x ∈ [] ↔ g'.occupants.Inside n x := fun x => by
      simp [Inside, planted.occupants_child, no_children]
    simpa using (planted.listed tree' nothing).unique tree.listed_listing

/-- A root with a container and two other nodes behind it. One of the two nodes in the container is
followed by a third one. -/
def grove : Graph where
  root := some 1
  entries := .ofList [(1, { next := some (.ofList [("", [2]), ("x", [3, 4])]) }),
    (2, { children := some [5, 6] }), (5, { next := some (.single "" [7]) }), (7, {}), (6, {}),
    (3, {}), (4, {})]

/-- A node is inserted on an output of the root that leads to two nodes. -/
theorem insert_in_order_grove : grove.validate = .ok () ∧ 8 ∉ grove.ids ∧
    ∃ g', insert 8 (.south 1 "x") grove = .ok () g' ∧ grove.Inserted 8 (.south 1 "x") g' := by
  have valid : grove.validate = .ok () := by decide +kernel
  have new : 8 ∉ grove.ids := by decide
  refine ⟨valid, new, insert_in_order valid new fun r ref => ?_⟩
  cases ref
  decide

/-! ## Removing -/

/-- What the removal of a node from a slot makes of a graph. -/
structure Removed (g : Graph) (n : NodeId) (p : Position) (g' : Graph) : Prop
    extends InOrder g' where
  ids : g'.ids = g.ids.filter (· ≠ n)
  /-- Only the entry of the node that the slot belongs to may be another one. -/
  others : ∀ m, m ≠ n → p.reference ≠ some m → g'.find? m = g.find? m
  /-- In the slot the successors of the node stand in its place. -/
  closed : g'.occupants p.slot = splice n (g.successors n) (g.occupants p.slot)
  /-- If there are none and the node was alone, the slot is taken out. -/
  pruned : g'.held? p.slot ≠ some []
  slots : ∀ s, s ≠ p.slot → s.owner? ≠ some n → g'.held? s = g.held? s
  listing : g'.listing = g.listing.filter (· ≠ n)

/-- A node of a valid graph can be removed, unless it is the root and has several successors. They
close the gap, and everything else stays as it is. -/
theorem remove_in_order (valid : g.validate = .ok ()) (there : n ∈ g.ids)
    (few : g.root = some n → (g.successors n).length ≤ 1) :
    ∃ q g', g.position n = .ok q ∧ remove n false g = .ok () g' ∧ g.Removed n q g' := by
  have tree := validate_eq_ok_iff.1 valid
  obtain ⟨g', run⟩ : ∃ g', remove n false g = .ok () g' :=
    Mutation.exists_run (m := .remove n) tree trivial
  have tree' : g'.IsTree := (tree.remove_iff run).2 few
  obtain ⟨s, e, stands, removed⟩ := remove_eq_bypass run there
  have few' : s = .root → (g.successors n).length ≤ 1 := fun top =>
    few ((stands.root_iff tree).2 top)
  obtain ⟨g₁, bypassed⟩ : ∃ g₁, g.bypass n s.position (g.successors n) = g₁ := ⟨_, rfl⟩
  simp only [leaving, Bool.false_eq_true, if_false, ← successors_of_find? stands.entry,
    closing_of_length few', bypassed] at removed
  subst removed
  refine ⟨_, _, stands.position, run, tree'.inOrder, ?_, fun m mn off => ?_, ?_, ?_,
    fun t ts own => ?_, ?_⟩
  · rw [ids_erase, ← bypassed, ids_bypass]
  · rw [find?_erase, if_neg mn.symm, ← bypassed, find?_bypass off]
  · have layout := congrFun (occupants_bypass stands.mem few') s
    rw [Slot.slot_position, occupants_erase, ← bypassed]
    exact (if_neg stands.own).trans (layout.trans (if_pos rfl))
  · rw [Slot.slot_position, held?_erase stands.own, ← bypassed]
    exact held?_bypass_self g n s _
  · rw [Slot.slot_position] at ts
    rw [held?_erase own, ← bypassed, held?_bypass ts]
  · have split : g.successors n = g.successors n ++ [] := (List.append_nil _).symm
    have nothing : ∀ x, x ∈ [] ↔ ∃ d ∈ [], g.occupants.Reach d x := by simp
    have close : ∀ x, x ∉ [n] → ({ g₁ with entries := g₁.entries.erase n } : Graph).successors x =
        splice n (g.successors n) (g.successors x) := fun x out => by
      rw [successors_erase fun e => out (List.mem_singleton.2 e.symm), ← bypassed,
        Orderly.successors_bypass tree.toOrderly stands.mem]
    have root := bypassed ▸ Orderly.root_bypass tree.toOrderly stands.mem few'
    have struck := root ▸ tree.strike split nothing close
    simpa using tree'.listed_listing.unique struck

/-- The container is removed, and what was inside it follows the root. -/
theorem remove_in_order_grove : grove.validate = .ok () ∧ 2 ∈ grove.ids ∧ ∃ q g',
    grove.position 2 = .ok q ∧ remove 2 false grove = .ok () g' ∧ grove.Removed 2 q g' := by
  have valid : grove.validate = .ok () := by decide +kernel
  have there : 2 ∈ grove.ids := by decide
  exact ⟨valid, there, remove_in_order valid there fun top => absurd top (by decide)⟩

/-! ## Moving -/

/-- What the move of a node from a slot to another one, with some nodes inside it, makes of a
graph. -/
structure Moved (g : Graph) (n : NodeId) (q p : Position) (inside : List NodeId) (g' : Graph) : Prop
    extends InOrder g' where
  ids : g'.ids = g.ids
  root : g'.root = g.root
  position : g'.position n = .ok p.slot.position
  alone : g'.held? p.slot = some [n]
  /-- What was in the slot follows the node on its default output. -/
  displaced : n ∉ g.occupants p.slot → g'.nextNodes n (some "") = .ok (g.occupants p.slot)
  /-- In its own slot those that followed the node have taken its place by then. -/
  returned : n ∈ g.occupants p.slot →
    g'.nextNodes n (some "") = .ok (splice n (g.nextIds n) (g.occupants p.slot))
  default : ∀ o, o ≠ "" → g'.held? (.south n o) = none
  children : g'.held? (.child n) = g.held? (.child n)
  /-- Only the entries of the reference and of the node that the old slot belongs to may be
  others. -/
  others : ∀ m, m ≠ n → p.reference ≠ some m → q.reference ≠ some m → g'.find? m = g.find? m
  slots : ∀ s, s ≠ p.slot → s ≠ q.slot → s.owner? ≠ some n → g'.held? s = g.held? s
  listing : g'.listing.filter (· ∉ n :: inside) = g.listing.filter (· ∉ n :: inside)

/-- If the entries of the nodes inside a node are unchanged, so is what is inside it. -/
theorem inside_congr (children : g'.held? (.child n) = g.held? (.child n))
    (same : ∀ y, g.occupants.Inside n y → g'.find? y = g.find? y) :
    g'.occupants.Inside n x ↔ g.occupants.Inside n x := by
  have within : g'.occupants (.child n) = g.occupants (.child n) := by
    rw [occupants_eq, occupants_eq, children]
  have edge : ∀ {y z}, g.occupants.Inside n y →
      (g'.occupants.Edge y z ↔ g.occupants.Edge y z) := fun inside => by
    rw [← mem_successors, ← mem_successors, successors_congr (same _ inside)]
  constructor
  · rintro ⟨d, hd, reach⟩
    rw [within] at hd
    induction reach with
    | refl => exact .of_mem hd
    | tail _ e ih => exact ih.of_edge ((edge ih).1 e)
  · rintro ⟨d, hd, reach⟩
    refine ⟨d, within ▸ hd, ?_⟩
    induction reach with
    | refl => exact .refl
    | tail reach e ih => exact ih.tail ((edge ⟨d, hd, reach⟩).2 e)

/-- Without a node that is bypassed and what is inside it the listing stays the same. -/
theorem IsTree.listed_bypass (tree : g.IsTree) (stands : g.Stands n s e)
    (few : s = .root → (g.nextIds n).length ≤ 1)
    (within : ∀ x, x ∈ inside ↔ g.occupants.Inside n x) :
    Listed (g.bypass n s.position (g.nextIds n)).successors
      (g.bypass n s.position (g.nextIds n)).root.toList (g.listing.filter (· ∉ n :: inside)) := by
  have split : g.successors n = g.nextIds n ++ g.occupants (.child n) := by
    rw [successors_of_find? stands.entry, nextIds_of_find? stands.entry,
      occupants_child stands.entry]
    rfl
  rw [Orderly.root_bypass tree.toOrderly stands.mem few]
  exact tree.strike split within fun x _ => Orderly.successors_bypass tree.toOrderly stands.mem _ x

/-- A move of a node that is not the root bypasses it and plants it at its new place. -/
theorem IsTree.planted_move (tree : g.IsTree) (there : n ∈ g.ids) (low : g.root ≠ some n)
    (ref : p.reference = some r) (ne : r ≠ n) (run : move n p g = .ok () g') :
    g'.ids = g.ids ∧ ∃ s e, g.Stands n s e ∧ s ≠ .root ∧
      (g.bypass n s.position (g.nextIds n)).Planted n p g' := by
  obtain ⟨held, s, e, stands, moved⟩ := move_eq_placeAt run there ref
  have below : s ≠ .root := fun top => low ((stands.root_iff tree).2 top)
  have out := Orderly.out_of_bypass stands tree.toOrderly
  rw [closing_of_length fun top => absurd top below, ← nextIds_of_find? stands.entry] at moved out
  refine ⟨?_, s, e, stands, below, moved ▸ planted_placeAt out (by rwa [ids_bypass]) ne ref⟩
  rw [moved, ids_placeAt_of_mem (by rwa [ids_bypass]), ids_bypass]

section Replanted

variable (stands : g.Stands n s e)
  (planted : (g.bypass n s.position (g.nextIds n)).Planted n p g')

include planted in
theorem Planted.find?_replanted {m : NodeId} (mn : m ≠ n) (off : p.reference ≠ some m)
    (old : s.owner? ≠ some m) : g'.find? m = g.find? m := by
  rw [planted.others m mn off, find?_bypass]
  rwa [Slot.reference_position]

include stands planted in
theorem Planted.children_replanted : g'.held? (.child n) = g.held? (.child n) := by
  have other : Slot.child n ≠ s := fun e => stands.own (e ▸ rfl)
  rw [planted.held?_child, held?_bypass other]

include stands planted in
/-- A node that is moved out of a slot keeps what is inside it. -/
theorem Planted.inside_replanted (tree : g.IsTree) (ref : p.reference = some r)
    (outside : ¬ g.occupants.Inside n r) :
    g'.occupants.Inside n x ↔ g.occupants.Inside n x := by
  refine inside_congr (planted.children_replanted stands) fun y inside => ?_
  refine planted.find?_replanted (fun e => ?_) (fun ref' => ?_) fun o => ?_
  · exact tree.not_inside_self (e ▸ inside)
  · exact outside (Option.some.inj (ref.symm.trans ref') ▸ inside)
  · exact tree.not_reach_owner stands.mem o inside.reach

end Replanted

/-- A node of a valid graph can be moved, with what is inside it, to any slot of a node that is not
inside it, unless it is the root. What follows the node stays behind and closes the gap. -/
theorem move_in_order (valid : g.validate = .ok ()) (there : n ∈ g.ids) (low : g.root ≠ some n)
    (ref : p.reference = some r) (held : r ∈ g.ids) (ne : r ≠ n)
    (inner : g.descendants n = .ok inside) (outside : r ∉ inside) :
    ∃ q g', g.position n = .ok q ∧ move n p g = .ok () g' ∧ g.Moved n q p inside g' := by
  have tree := validate_eq_ok_iff.1 valid
  have within : ∀ x, x ∈ inside ↔ g.occupants.Inside n x := fun x => tree.mem_descendants_iff inner
  have outside : ¬ g.occupants.Inside n r := fun i => outside ((within r).2 i)
  obtain ⟨s₀, e₀, stands₀⟩ := tree.stands there
  obtain ⟨g', run⟩ : ∃ g', move n p g = .ok () g' :=
    move_run (fun r' ref' => Option.some.inj (ref.symm.trans ref') ▸ held) stands₀.position
  have tree' : g'.IsTree := by
    refine (tree.move_iff there run).2 ⟨fun top => absurd top low, fun r' ref' => ?_⟩
    exact Option.some.inj (ref.symm.trans ref') ▸ ⟨ne, outside⟩
  obtain ⟨ids, s, e, stands, below, planted⟩ := tree.planted_move there low ref ne run
  have few : s = .root → (g.nextIds n).length ≤ 1 := fun top => absurd top below
  have there' : n ∈ g'.ids := ids ▸ there
  have before := congrFun (occupants_bypass stands.mem few) p.slot
  have slots : ∀ t : Slot, t ≠ p.slot → t ≠ s → t.owner? ≠ some n → g'.held? t = g.held? t :=
    fun t tp ts own => (planted.slots t tp own).trans (held?_bypass ts)
  have top : Slot.root ≠ p.slot := fun e => by simp [← p.owner_slot, ← e] at ref
  refine ⟨_, g', stands.position, run, tree'.inOrder, ids, ?_,
    tree'.position_eq (planted.occupants_here ▸ List.mem_singleton_self n), planted.here,
    fun new => ?_, fun own => ?_, fun o => planted.held?_south, planted.children_replanted stands,
    fun m mn off off' => planted.find?_replanted mn off (s.reference_position ▸ off'),
    s.slot_position.symm ▸ slots, ?_⟩
  · refine root_of_occupants ?_
    rw [occupants_eq, occupants_eq, slots .root top below.symm nofun]
  · have other : p.slot ≠ s := fun e => new (e ▸ stands.mem)
    rw [nextNodes_of_mem_ids there', planted.occupants_behind, before, if_neg other]
  · have same : p.slot = s := tree.slot_unique own stands.mem
    rw [nextNodes_of_mem_ids there', planted.occupants_behind, before, if_pos same, same]
  · -- both listings are compared with that of the graph between taking out and putting back
    have within' : ∀ x, x ∈ inside ↔ g'.occupants.Inside n x := fun x =>
      (within x).trans (planted.inside_replanted stands tree ref outside).symm
    exact (planted.listed tree' within').unique (tree.listed_bypass stands few within)

/-- The container goes to another output of the same node and takes three nodes along. -/
theorem move_in_order_grove : grove.validate = .ok () ∧ grove.descendants 2 = .ok [7, 5, 6] ∧
    ∃ q g', grove.position 2 = .ok q ∧ move 2 (.south 1 "x") grove = .ok () g' ∧
      grove.Moved 2 q (.south 1 "x") [7, 5, 6] g' := by
  have valid : grove.validate = .ok () := by decide +kernel
  have inner : grove.descendants 2 = .ok [7, 5, 6] := by
    have six : grove.find? 6 = some {} := by decide
    have five : grove.find? 5 = some { next := some (.single "" [7]) } := by decide
    have seven : grove.find? 7 = some {} := by decide
    calc grove.descendants 2
      _ = .ok (grove.reach 2 [] [6, 5]) := descendants_eq (by decide)
      _ = .ok (grove.reach 2 [6] [5]) := by rw [reach_cons (by decide) six]; rfl
      _ = .ok (grove.reach 2 [5, 6] [7]) := by rw [reach_cons (by decide) five]; rfl
      _ = .ok (grove.reach 2 [7, 5, 6] []) := by rw [reach_cons (by decide) seven]; rfl
      _ = .ok [7, 5, 6] := by rw [reach]
  exact ⟨valid, inner, move_in_order valid (by decide) (by decide) rfl (by decide) (by decide) inner
    (by decide)⟩

end Graph

end Autoflow

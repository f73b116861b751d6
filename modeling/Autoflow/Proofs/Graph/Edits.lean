import Autoflow.Proofs.Graph.Occupants
import Autoflow.Proofs.Graph.Rewiring

/-!
# What edits do to the layout

Each edit of a graph is a change of its layout: inserting plants a node, removing extracts it,
replacing renames it, and moving plants it again after extracting it. On a tree all of them
succeed, and the result is a tree again.
-/

namespace Autoflow

open Layout

namespace Entry

/-- A slot that is set holds the list, -/
theorem slot?_setSlot_self (e : Entry) (placement : Placement) (o : String)
    (ids : List NodeId) : (e.setSlot placement o ids).slot? placement o = some ids := by
  cases placement with
  | south => simp [setSlot, slot?, OrderedMap.get?_insert]
  | child => rfl

/-- and the other slots hold what they held. -/
theorem slot?_setSlot_other (e : Entry) {n : NodeId} {placement placement' : Placement}
    {o o' : String} (ids : List NodeId)
    (ne : Slot.beside n placement' o' ≠ .beside n placement o) :
    (e.setSlot placement o ids).slot? placement' o' = e.slot? placement' o' := by
  cases placement <;> cases placement'
  · have : ¬ o = o' := fun e => ne (e ▸ rfl)
    cases h : e.next <;> simp [setSlot, slot?, OrderedMap.get?_insert, h, this]
  · rfl
  · rfl
  · exact absurd rfl ne

/-- A slot that is dropped is gone, -/
theorem slot?_dropSlot_self (e : Entry) (placement : Placement) (o : String) :
    (e.dropSlot placement o).slot? placement o = none := by
  cases placement with
  | south =>
    unfold dropSlot
    simp only [slot?]
    split
    · rfl
    · simp [OrderedMap.get?_erase]
  | child => rfl

/-- and the others stay here as well. -/
theorem slot?_dropSlot_other (e : Entry) {n : NodeId} {placement placement' : Placement}
    {o o' : String} (ne : Slot.beside n placement' o' ≠ .beside n placement o) :
    (e.dropSlot placement o).slot? placement' o' = e.slot? placement' o' := by
  cases placement <;> cases placement'
  · have ne : ¬ o = o' := fun e => ne (e ▸ rfl)
    have rest : ((e.next.getD .empty).erase o).get? o' = (e.next.getD .empty).get? o' := by
      rw [OrderedMap.get?_erase, if_neg ne]
    have old : (e.next.getD .empty).get? o' = e.slot? .south o' := by
      cases h : e.next <;> simp [slot?, h]
    unfold dropSlot
    simp only [slot?]
    split
    · next empty =>
      have gone : ((e.next.getD .empty).erase o).get? o' = none := by
        simp only [OrderedMap.isEmpty, List.isEmpty_iff] at empty
        simp [OrderedMap.get?, empty]
      exact gone.symm.trans (rest.trans old)
    · rw [Option.bind_some, rest, old]
      rfl
  · rfl
  · rfl
  · exact absurd rfl ne

end Entry

namespace Graph

variable {g : Graph} {n m r x : NodeId} {e : Entry} {s t : Slot}

/-- A change of one entry leaves the others. -/
theorem find?_modifyEntry (g : Graph) (n m : NodeId) (f : Entry → Entry) :
    (g.modifyEntry n f).find? m = if n = m then (g.find? m).map f else g.find? m :=
  OrderedMap.get?_modify _ n m f

/-- A node has an entry afterwards, an empty one if it had none. -/
theorem find?_ensureEntry (g : Graph) (n m : NodeId) (anchor : Option NodeId) :
    (g.ensureEntry n anchor).find? m =
      if n = m then some ((g.find? n).getD {}) else g.find? m :=
  OrderedMap.get?_insertAfter g.entries anchor n m {}

@[simp] theorem ids_modifyEntry (g : Graph) (n : NodeId) (f : Entry → Entry) :
    (g.modifyEntry n f).ids = g.ids :=
  OrderedMap.keys_modify _ n f

theorem mem_ids_ensureEntry {anchor : Option NodeId} :
    m ∈ (g.ensureEntry n anchor).ids ↔ m = n ∨ m ∈ g.ids := by
  rw [mem_ids_iff, find?_ensureEntry, mem_ids_iff]
  by_cases e : n = m
  · simp [e]
  · simp [e, Ne.symm e]

/-- A layout is given by its slots of each owner and the root. -/
theorem occupants_ext {L : Layout} (root : g.occupants .root = L .root)
    (slots : ∀ n placement o, g.occupants (.beside n placement o) = L (.beside n placement o)) :
    g.occupants = L := by
  funext t
  cases t with
  | root => exact root
  | south n o => exact slots n .south o
  | child n => exact slots n .child ""

/-- An empty entry has no occupants. -/
theorem occupants_ensureEntry (g : Graph) (n : NodeId) (anchor : Option NodeId) :
    (g.ensureEntry n anchor).occupants = g.occupants := by
  refine occupants_ext rfl fun m placement o => ?_
  rw [occupants_beside, occupants_beside, find?_ensureEntry]
  by_cases e : n = m
  · subst e
    cases h : g.find? n with
    | none => cases placement <;> simp [Entry.slot?]
    | some e => simp
  · simp [e]

/-- A change of one slot of an entry changes that slot of the layout. -/
theorem occupants_modifySlot (change : List NodeId → List NodeId) (hn : n ∈ g.ids)
    {placement : Placement} {o : String} {f : Entry → Entry}
    (self : ∀ e : Entry, ((f e).slot? placement o).getD [] =
      change ((e.slot? placement o).getD []))
    (other : ∀ (e : Entry) placement' o', Slot.beside n placement' o' ≠ .beside n placement o →
      (f e).slot? placement' o' = e.slot? placement' o') :
    (g.modifyEntry n f).occupants =
      fun t => if t = .beside n placement o then change (g.occupants t) else g.occupants t := by
  obtain ⟨e, he⟩ := mem_ids_iff.1 hn
  refine occupants_ext (by cases placement <;> rfl) fun m placement' o' => ?_
  simp only [occupants_beside, find?_modifyEntry]
  by_cases eq : n = m
  · subst eq
    by_cases ts : Slot.beside n placement' o' = .beside n placement o
    · have same : ∀ e : Entry, e.slot? placement' o' = e.slot? placement o := by
        intro e
        cases placement <;> cases placement' <;> simp_all [Slot.beside, Entry.slot?]
      simp [he, ts, same, self]
    · simp [he, ts, other e placement' o' ts]
  · have ts : Slot.beside m placement' o' ≠ .beside n placement o := fun e => by
      have := congrArg Slot.owner? e
      simp only [Slot.owner_beside, Option.some.injEq] at this
      exact eq this.symm
    simp [eq, ts]

/-- Setting a slot of a node puts the list there and nowhere else. -/
theorem occupants_setSlot (hn : n ∈ g.ids) (placement : Placement) (o : String)
    (ids : List NodeId) :
    (g.modifyEntry n (·.setSlot placement o ids)).occupants =
      fun t => if t = .beside n placement o then ids else g.occupants t :=
  occupants_modifySlot (fun _ => ids) hn
    (fun e => by rw [Entry.slot?_setSlot_self, Option.getD_some])
    (fun e _ _ ne => e.slot?_setSlot_other ids ne)

/-- Setting what is behind a node leaves the slots of the other nodes and what is inside. -/
theorem occupants_behind (g : Graph) (n : NodeId) (l : List NodeId) (hn : n ∈ g.ids) :
    (g.modifyEntry n fun e => { e with next := behind l }).occupants =
      fun t => if t = .south n "" then l else if t.isSouthOf n then [] else g.occupants t := by
  obtain ⟨e, he⟩ := mem_ids_iff.1 hn
  have after : ∀ o, ((behind l).bind fun x => x.get? o).getD [] = if o = "" then l else [] := by
    intro o
    unfold behind
    by_cases hl : l = []
    · simp [hl]
    · by_cases ho : o = ""
      · simp [hl, ho]
      · simp [hl, ho, Ne.symm ho]
  refine occupants_ext rfl fun m placement o => ?_
  rw [occupants_beside, occupants_beside, find?_modifyEntry]
  by_cases eq : n = m
  · subst eq
    cases placement with
    | south => simp [he, Entry.slot?, Slot.beside, Slot.isSouthOf, after]
    | child => simp [he, Entry.slot?, Slot.beside, Slot.isSouthOf]
  · cases placement <;> simp [eq, Ne.symm eq, Slot.beside, Slot.isSouthOf]

/-! ## Inserting -/

/-- A node beside another one is planted in that slot, and what was there comes behind it. -/
theorem occupants_placeAt (hr : r ∈ g.ids) (ne : r ≠ n) (placement : Placement) (o : String) :
    (g.placeAt n r placement o).occupants = g.occupants.plant (.beside r placement o) n := by
  have own : Slot.beside r placement o ≠ .south n "" := fun e =>
    ne (Option.some.inj ((Slot.owner_beside r placement o).symm.trans (congrArg Slot.owner? e)))
  unfold placeAt
  rw [occupants_behind _ _ _ (mem_ids_ensureEntry.2 (Or.inl rfl)), occupants_ensureEntry,
    occupants_setSlot hr, ← occupants_beside]
  funext t
  unfold plant
  by_cases ts : t = .beside r placement o
  · have south : ¬ t.isSouthOf n = true := fun south => by
      have := Slot.owner_of_isSouthOf south
      rw [ts, Slot.owner_beside] at this
      exact ne (Option.some.inj this)
    rw [ts] at south
    simp [ts, own, south]
  · simp [ts]

/-- A node that was not the root gets there. Without a root its outputs have to be empty. -/
theorem occupants_placeAtRoot_of (off : g.root ≠ some n)
    (free : g.root = none → ∀ t : Slot, t.isSouthOf n = true → g.occupants t = []) :
    (g.placeAtRoot n).occupants = g.occupants.plant .root n := by
  have placed : ∀ t, ({ g with root := some n }.ensureEntry n none).occupants t =
      if t = .root then [n] else g.occupants t := by
    intro t
    rw [occupants_ensureEntry]
    cases t <;> simp [occupants, find?]
  unfold placeAtRoot
  funext t
  cases root : g.root with
  | none =>
    simp only [placed]
    unfold plant
    by_cases tr : t = .root
    · simp [tr]
    · by_cases south : t.isSouthOf n = true
      · simp [tr, south, free root t south, occupants_root_eq_nil.2 root]
      · have : t ≠ .south n "" := fun e => south (by simp [e, Slot.isSouthOf])
        simp [tr, south, this]
  | some previous =>
    have ne : previous ≠ n := fun e => off (root.trans (congrArg some e))
    simp only [ne, if_false]
    rw [occupants_behind _ _ _ (mem_ids_ensureEntry.2 (Or.inl rfl))]
    simp only [placed]
    unfold plant
    by_cases tr : t = .root
    · simp [tr, Slot.isSouthOf]
    · simp [tr, occupants_root root]

/-- At the root it is the same, with the old root behind. -/
theorem occupants_placeAtRoot (hn : n ∉ g.ids) (off : g.root ≠ some n) :
    (g.placeAtRoot n).occupants = g.occupants.plant .root n :=
  occupants_placeAtRoot_of off fun _ _ south =>
    occupants_eq_nil hn (Slot.owner_of_isSouthOf south)

theorem mem_ids_placeAt {placement : Placement} {o : String} :
    m ∈ (g.placeAt n r placement o).ids ↔ m = n ∨ m ∈ g.ids := by
  simp [placeAt, mem_ids_ensureEntry]

theorem mem_ids_placeAtRoot : m ∈ (g.placeAtRoot n).ids ↔ m = n ∨ m ∈ g.ids := by
  have placed : m ∈ ({ g with root := some n }.ensureEntry n none).ids ↔ m = n ∨ m ∈ g.ids :=
    mem_ids_ensureEntry
  unfold placeAtRoot
  simp only
  split
  · split
    · exact placed
    · rw [ids_modifyEntry]
      exact placed
  · exact placed

/-- A new node can be inserted into a slot at the root or of a node that has an entry. -/
theorem exists_insert (hn : n ∉ g.ids) (off : g.root ≠ some n) {p : Position}
    (hp : ∀ r, p.reference = some r → r ∈ g.ids) :
    ∃ g', insert n p g = .ok () g' ∧ g'.occupants = g.occupants.plant p.slot n ∧
      ∀ m, m ∈ g'.ids ↔ m = n ∨ m ∈ g.ids := by
  unfold insert Position.slot
  cases ref : p.reference with
  | none => exact ⟨_, rfl, occupants_placeAtRoot hn off, fun m => mem_ids_placeAtRoot⟩
  | some r =>
    have hr := hp r ref
    have ne : r ≠ n := fun e => hn (e ▸ hr)
    refine ⟨_, if_pos (contains_iff.2 hr), occupants_placeAt hr ne _ _, fun m => mem_ids_placeAt⟩

theorem IsTree.root_mem (tree : g.IsTree) (h : g.root = some n) : n ∈ g.ids :=
  tree.mem (mem_occupants_root.2 h)

/-- In a tree an insertion of a new node succeeds and plants it, and the result is a tree with one
node more. -/
theorem IsTree.exists_insert (tree : g.IsTree) (hn : n ∉ g.ids) {p : Position}
    (hp : ∀ r, p.reference = some r → r ∈ g.ids) :
    ∃ g', insert n p g = .ok () g' ∧ g'.occupants = g.occupants.plant p.slot n ∧
      (∀ m, m ∈ g'.ids ↔ m = n ∨ m ∈ g.ids) ∧ g'.IsTree := by
  obtain ⟨g', run, layout, ids⟩ := Graph.exists_insert hn (fun e => hn (tree.root_mem e)) hp
  refine ⟨g', run, layout, ids, ?_⟩
  have domain : {m | m ∈ g'.ids} = Set.insert n {m | m ∈ g.ids} := Set.ext ids
  unfold IsTree
  rw [layout, domain]
  exact Layout.IsTree.plant tree hn fun a o => hp a (by rwa [Position.owner_slot] at o)

/-! ## Looking up the owner of a slot -/

/-- A position is there if the node that it refers to is. -/
theorem missing?_eq_none_iff {p : Position} :
    g.missing? p = none ↔ ∀ r, p.reference = some r → r ∈ g.ids := by
  cases ref : p.reference <;> simp [missing?, ref, contains_iff]

/-- The slot found for a node belongs to another node, which has an entry. -/
theorem reference_of_position {p : Position} (at_p : g.position n = .ok p)
    (ref : p.reference = some r) : r ∈ g.ids ∧ r ≠ n := by
  obtain ⟨s, rfl, mem, own⟩ := mem_occupants_of_position at_p
  rw [Slot.reference_position] at ref
  exact ⟨owner_mem_ids mem ref, fun e => own (e ▸ ref)⟩

/-- The position of a node always is. -/
theorem missing?_of_position {p : Position} (at_p : g.position n = .ok p) :
    g.missing? p = none :=
  missing?_eq_none_iff.2 fun _ ref => (reference_of_position at_p ref).1

/-! ## Removing -/

/-- The owner of the slot of a node that is removed is there. -/
theorem remove_eq (n : NodeId) (keepInfo : Bool) (g : Graph) : remove n keepInfo g =
    match g.find? n with
    | none => .ok () g
    | some e =>
      match g.position n with
      | .error fault => .error fault g
      | .ok p =>
        let successors := if keepInfo then e.nextIds else e.successors
        let g := g.bypass n p successors
        .ok () (if keepInfo then g else { g with entries := g.entries.erase n }) := by
  unfold remove
  cases g.find? n with
  | none => rfl
  | some e =>
    cases at_p : g.position n with
    | error fault => rfl
    | ok p => simp only [missing?_of_position at_p]

/-- A list is spliced into the slot of a node in its place. -/
theorem slot?_spliceSlot_self (e : Entry) (placement : Placement) (o : String) (n : NodeId)
    (l : List NodeId) : ((spliceSlot e placement o n l).slot? placement o).getD [] =
      splice n l ((e.slot? placement o).getD []) := by
  unfold spliceSlot
  cases h : e.slot? placement o with
  | none => simp [h, splice]
  | some ids =>
    simp only [Option.getD_some]
    split
    · next empty => rw [Entry.slot?_dropSlot_self, List.isEmpty_iff.1 empty, Option.getD_none]
    · rw [Entry.slot?_setSlot_self, Option.getD_some]

/-- The other slots keep what they have. -/
theorem slot?_spliceSlot_other (e : Entry) {m : NodeId} {placement placement' : Placement}
    {o o' : String} (n : NodeId) (l : List NodeId)
    (ne : Slot.beside m placement' o' ≠ .beside m placement o) :
    (spliceSlot e placement o n l).slot? placement' o' = e.slot? placement' o' := by
  unfold spliceSlot
  cases h : e.slot? placement o with
  | none => rfl
  | some ids =>
    simp only
    split
    · exact e.slot?_dropSlot_other ne
    · exact e.slot?_setSlot_other _ ne

/-- A slot of a node is the one beside it that its position names. -/
theorem beside_position {a : NodeId} (o : s.owner? = some a) :
    .beside a s.position.placement s.position.output = s := by
  cases s <;> cases o <;> rfl

/-- Bypassing a node changes its slot only. From the root at most one node can take over. -/
theorem occupants_bypass {l : List NodeId} (hn : n ∈ g.occupants s)
    (one : s = .root → l.length ≤ 1) :
    (g.bypass n s.position l).occupants =
      fun t => if t = s then splice n l (g.occupants s) else g.occupants t := by
  unfold bypass
  rw [Slot.reference_position]
  cases o : s.owner? with
  | none =>
    have root := Slot.eq_root_of_owner o
    subst root
    have held : g.occupants .root = [n] := occupants_root (mem_occupants_root.1 hn)
    have head : l.head?.toList = l := by
      rcases l with _ | ⟨a, _ | ⟨b, l⟩⟩
      · rfl
      · rfl
      · exact absurd (one rfl) (by simp)
    funext t
    rw [held, splice_nil_singleton]
    cases t <;> simp [occupants, head, find?]
  | some r =>
    have hr := owner_mem_ids hn o
    have at_s := beside_position o
    simp only
    rw [occupants_modifySlot (splice n l) hr (slot?_spliceSlot_self · _ _ n l)
      (fun e _ _ ne => slot?_spliceSlot_other e n l ne), at_s]
    funext t
    by_cases ts : t = s
    · simp [ts]
    · simp [ts]

theorem find?_erase (g : Graph) (n m : NodeId) :
    ({ g with entries := g.entries.erase n } : Graph).find? m =
      if n = m then none else g.find? m :=
  OrderedMap.get?_erase g.entries n m

/-- Without an entry, the slots of its node are empty. -/
theorem occupants_erase (g : Graph) (n : NodeId) :
    ({ g with entries := g.entries.erase n } : Graph).occupants =
      fun t => if t.owner? = some n then [] else g.occupants t := by
  refine occupants_ext rfl fun m placement o => ?_
  rw [occupants_beside, occupants_beside, find?_erase, Slot.owner_beside]
  by_cases e : n = m
  · simp [e]
  · simp [e, Ne.symm e]

theorem mem_ids_erase : m ∈ ({ g with entries := g.entries.erase n } : Graph).ids ↔
    m ≠ n ∧ m ∈ g.ids := by
  rw [mem_ids_iff, find?_erase, mem_ids_iff]
  by_cases e : n = m
  · simp [e]
  · simp [e, Ne.symm e]

@[simp] theorem ids_bypass (g : Graph) (n : NodeId) (p : Position) (l : List NodeId) :
    (g.bypass n p l).ids = g.ids := by
  unfold bypass
  split
  · rfl
  · rw [ids_modifyEntry]

/-- What a node has behind it is what stands in the slots that it gives up when it moves. -/
theorem mem_nextIds_iff_givenUp (he : g.find? n = some e) :
    x ∈ e.nextIds ↔ ∃ t, givenUp n true t ∧ x ∈ g.occupants t := by
  rw [mem_nextIds_iff he]
  constructor
  · rintro ⟨o, hx⟩
    exact ⟨.south n o, ⟨rfl, fun _ e => by cases e⟩, hx⟩
  · rintro ⟨t, ⟨o, notChild⟩, hx⟩
    cases t with
    | root => cases o
    | south m out =>
      cases o
      exact ⟨out, hx⟩
    | child m =>
      cases o
      exact absurd rfl (notChild rfl)

/-- What it has behind and inside is what stands in those it gives up when it goes. -/
theorem mem_successors_iff_givenUp (he : g.find? n = some e) :
    x ∈ e.successors ↔ ∃ t, givenUp n false t ∧ x ∈ g.occupants t := by
  rw [mem_successors_iff he]
  simp [Layout.Edge, givenUp]

theorem all_eq_of_length_le_one {l : List NodeId} (h : l.length ≤ 1) {a b : NodeId}
    (ha : a ∈ l) (hb : b ∈ l) : a = b := by
  match l, h with
  | [c], _ => rw [List.mem_singleton.1 ha, List.mem_singleton.1 hb]

/-- Bypassing a node and giving its entry up takes it out of the layout. -/
theorem occupants_bypass_erase {l : List NodeId} (hn : n ∈ g.occupants s)
    (one : s = .root → l.length ≤ 1) :
    ({ g.bypass n s.position l with entries := (g.bypass n s.position l).entries.erase n } :
      Graph).occupants = g.occupants.extract n s l false := by
  funext t
  rw [occupants_erase, occupants_bypass hn one]
  simp [extract, givenUp]

/-- A node can be removed, from the root only if at most one node closes the gap. -/
theorem IsTree.exists_remove (tree : g.IsTree) (hn : n ∈ g.occupants s)
    (he : g.find? n = some e) (one : s = .root → e.successors.length ≤ 1) :
    ∃ g', remove n false g = .ok () g' ∧
      g'.occupants = g.occupants.extract n s e.successors false ∧
      (∀ m, m ∈ g'.ids ↔ m ≠ n ∧ m ∈ g.ids) ∧ g'.IsTree := by
  refine ⟨_, ?_, occupants_bypass_erase hn one, fun m => ?_, ?_⟩
  · simp only [remove_eq, he, tree.position_eq hn]
    rfl
  · rw [mem_ids_erase, ids_bypass]
  · have domain : ∀ m, m ∈ ({ g.bypass n s.position e.successors with
        entries := (g.bypass n s.position e.successors).entries.erase n } : Graph).ids ↔
        m ≠ n ∧ m ∈ g.ids := fun m => by rw [mem_ids_erase, ids_bypass]
    unfold IsTree
    rw [occupants_bypass_erase hn one, show {m | m ∈ Graph.ids _} = {m | m ∈ g.ids} \ {n} from
        Set.ext fun m => (domain m).trans and_comm]
    exact Layout.IsTree.extract tree hn (fun x => mem_successors_iff_givenUp he) rfl
      (nodup_successors tree.toOrderly he) fun root => all_eq_of_length_le_one (one root)

/-! ## Moving -/

theorem get_bind {α : Type} (f : Graph → Edit α) (g : Graph) : (get >>= f) g = f g g := rfl

/-- A list that is spliced in for a node, which is then planted elsewhere, is an extraction followed
by a planting. -/
theorem extract_plant_eq {L : Layout} {l : List NodeId} (own : t.owner? ≠ some n) :
    (Layout.plant (fun u => if u = s then splice n l (L s) else L u) t n) =
      (L.extract n s l true).plant t n := by
  have at_t : ¬ givenUp n true t := fun up => own up.1
  funext u
  unfold plant
  by_cases ut : u = t
  · simp [ut]
  · by_cases south : u.isSouthOf n = true
    · simp [ut, south, extract, at_t]
    · have up : ¬ givenUp n true u := fun up => south (Slot.isSouthOf_of_owner up.1 (up.2 rfl))
      have ne : u ≠ .south n "" := fun e => south (by simp [e, Slot.isSouthOf])
      simp [ut, south, ne, extract, up]

/-- Bypassing a node and putting it into a slot of another one moves it in the layout. -/
theorem occupants_bypass_placeAt {l : List NodeId} (hn : n ∈ g.occupants s)
    (one : s = .root → l.length ≤ 1) {p : Position} (ref : p.reference = some r) (hr : r ∈ g.ids)
    (ne : r ≠ n) : ((g.bypass n s.position l).placeAt n r p.placement p.output).occupants =
      (g.occupants.extract n s l true).plant p.slot n := by
  have own : p.slot.owner? ≠ some n := by
    rw [p.owner_slot, ref]
    exact fun o => ne (Option.some.inj o)
  have slot : p.slot = .beside r p.placement p.output := by simp [Position.slot, ref]
  rw [occupants_placeAt ((ids_bypass g n s.position l).symm ▸ hr) ne, occupants_bypass hn one,
    ← slot, extract_plant_eq own]

/-- A node can be moved to a slot of another node that is not inside it. -/
theorem IsTree.exists_move (tree : g.IsTree) (hn : n ∈ g.occupants s)
    (he : g.find? n = some e) (one : s = .root → e.nextIds.length ≤ 1) {p : Position}
    (ref : p.reference = some r) (hr : r ∈ g.ids) (ne : r ≠ n)
    (outside : ¬ g.occupants.Inside n r) :
    ∃ g', move n p g = .ok () g' ∧
      g'.occupants = (g.occupants.extract n s e.nextIds true).plant p.slot n ∧
      (∀ m, m ∈ g'.ids ↔ m ∈ g.ids) ∧ g'.IsTree := by
  have owner : p.slot.owner? = some r := p.owner_slot.trans ref
  have left : remove n true g = .ok () (g.bypass n s.position e.nextIds) := by
    simp only [remove_eq, he, tree.position_eq hn]
    rfl
  have hr' : r ∈ (g.bypass n s.position e.nextIds).ids := by rwa [ids_bypass]
  have layout := occupants_bypass_placeAt hn one ref hr ne
  have ids : ∀ m, m ∈ ((g.bypass n s.position e.nextIds).placeAt n r p.placement p.output).ids ↔
      m ∈ g.ids := by
    intro m
    rw [mem_ids_placeAt, ids_bypass]
    exact or_iff_right_of_imp fun e => e ▸ tree.mem hn
  refine ⟨_, ?_, layout, ids, ?_⟩
  · have here : g.contains r = true := contains_iff.2 hr
    have there : (g.bypass n s.position e.nextIds).contains r = true := contains_iff.2 hr'
    rw [move, get_bind]
    simp [ref, here, tree.position_eq hn, left, insert, there, bind, EStateM.bind]
  · unfold IsTree
    rw [layout, show {m | m ∈ Graph.ids _} = {m | m ∈ g.ids} from Set.ext ids]
    exact Layout.IsTree.replant tree hn (fun x => mem_nextIds_iff_givenUp he) rfl
      (nodup_nextIds tree.toOrderly he) (fun root => all_eq_of_length_le_one (one root)) owner hr
      ne outside

/-! ## Replacing -/

/-- To splice in one new node for another is to swap the two. -/
theorem splice_singleton_eq_map {old new : NodeId} {l : List NodeId} (d : l.Nodup)
    (fresh : new ∉ l) : splice old [new] l = l.map (Equiv.swap old new) := by
  induction l with
  | nil => rfl
  | cons a l ih =>
    obtain ⟨ha, hl⟩ := List.nodup_cons.1 d
    simp only [List.mem_cons, not_or] at fresh
    by_cases e : a = old
    · subst e
      have rest : l.map (Equiv.swap a new) = l.map id := List.map_congr_left fun x hx =>
        Equiv.swap_apply_of_ne_of_ne (ne_of_mem_of_not_mem hx ha) (ne_of_mem_of_not_mem hx fresh.2)
      simp [splice, rest]
    · simp [splice, e, ih hl fresh.2, Equiv.swap_apply_of_ne_of_ne e (Ne.symm fresh.1)]

/-- An entry is handed over from one node to another, under the other's id. -/
theorem find?_handOver {old new : NodeId} (g : Graph) (e : Entry) (m : NodeId) :
    (g.handOver old new e).find? m =
      if new = m then some e else if old = m then none else g.find? m := by
  unfold handOver find?
  rw [OrderedMap.get?_insert, OrderedMap.get?_erase]

/-- What stood in a slot of the old node stands in that of the new one. -/
theorem occupants_handOver {old new : NodeId} (ne : new ≠ old) (fresh : new ∉ g.ids)
    (he : g.find? old = some e) :
    (g.handOver old new e).occupants = fun t => g.occupants (t.rename (Equiv.swap old new)) := by
  refine occupants_ext rfl fun m placement o => ?_
  have rename : (Slot.beside m placement o).rename (Equiv.swap old new) =
      .beside (Equiv.swap old new m) placement o := by cases placement <;> rfl
  rw [rename, occupants_beside, occupants_beside, find?_handOver]
  by_cases hm : new = m
  · simp [← hm, he]
  · by_cases hm' : old = m
    · simp [← hm', ne, find?_eq_none_iff.2 fresh]
    · simp [hm, hm', Equiv.swap_apply_of_ne_of_ne (Ne.symm hm') (Ne.symm hm)]

theorem mem_ids_handOver {old new : NodeId} :
    m ∈ (g.handOver old new e).ids ↔ m = new ∨ m ≠ old ∧ m ∈ g.ids := by
  rw [mem_ids_iff, find?_handOver, mem_ids_iff]
  by_cases hm : new = m
  · simp [hm]
  · by_cases hm' : old = m
    · simp [hm', hm, Ne.symm hm]
    · simp [hm', hm, Ne.symm hm, Ne.symm hm']

/-- The owner of the slot of a node that is replaced is there, before the entry is handed over and
behind that. -/
theorem replace_eq (old new : NodeId) (g : Graph) : replace old new g =
    match g.position old with
    | .error fault => .error fault g
    | .ok p =>
      match g.find? old with
      | none => .error (.nodeNotFound old) g
      | some e =>
        let g := g.handOver old new e
        match p.reference with
        | none => .ok () { g with root := some new }
        | some reference =>
          .ok () (g.modifyEntry reference fun e =>
            match e.slot? p.placement p.output with
            | some ids => e.setSlot p.placement p.output (splice old [new] ids)
            | none => e) := by
  unfold replace
  cases at_p : g.position old with
  | error fault => rfl
  | ok p =>
    cases g.find? old with
    | none => rfl
    | some e =>
      have still : (g.handOver old new e).missing? p = none := missing?_eq_none_iff.2 fun r ref =>
        have there := reference_of_position at_p ref
        mem_ids_handOver.2 (Or.inr ⟨there.2, there.1⟩)
      simp only [missing?_of_position at_p]
      split
      · next r lost =>
        rw [still] at lost
        cases lost
      · rfl

/-- The ids are those from before with the two swapped. -/
theorem mem_ids_handOver_swap {old new : NodeId} (ne : new ≠ old) (fresh : new ∉ g.ids)
    (ho : old ∈ g.ids) : m ∈ (g.handOver old new e).ids ↔ Equiv.swap old new m ∈ g.ids := by
  rw [mem_ids_handOver]
  by_cases hm : m = new
  · simp [hm, ho]
  · by_cases hm' : m = old
    · simp [hm', ne.symm, fresh]
    · simp [hm, hm', Equiv.swap_apply_of_ne_of_ne hm' hm]

/-- The slot of a node that is replaced keeps its name. -/
theorem rename_slot {old new : NodeId} (hs : old ∈ g.occupants s) (own : s.owner? ≠ some old)
    (fresh : new ∉ g.ids) : s.rename (Equiv.swap old new) = s := by
  have off : s.owner? ≠ some new := fun o => fresh (owner_mem_ids hs o)
  cases s with
  | root => rfl
  | south m o | child m =>
    simp only [Slot.owner_south, Slot.owner_child, ne_eq, Option.some.injEq] at own off
    simp [Slot.rename, Equiv.swap_apply_of_ne_of_ne own off]

/-- The old node stands in no other slot after the renaming, as it stood in one only. -/
theorem Orderly.not_mem_rename (h : g.Orderly) {old new : NodeId} (hs : old ∈ g.occupants s)
    (own : s.owner? ≠ some old) (fresh : new ∉ g.ids) (ts : t ≠ s) :
    old ∉ g.occupants (t.rename (Equiv.swap old new)) := by
  intro ht
  have same : t.rename (Equiv.swap old new) = s := h.slot_unique ht hs
  have back : t = s.rename (Equiv.swap old new) := by
    rw [← same, Slot.rename_rename, ← Equiv.coe_trans, Equiv.swap_swap]
    exact t.rename_id.symm
  exact ts (back.trans (rename_slot hs own fresh))

/-- A node with a position can be replaced by one without an entry, which amounts to a
renaming. -/
theorem Orderly.exists_replace (h : g.Orderly) {old new : NodeId} (ho : old ∈ g.ids)
    (fresh : new ∉ g.ids) {p : Position} (at_p : g.position old = .ok p) :
    ∃ g', replace old new g = .ok () g' ∧
      g'.occupants = g.occupants.relabel (Equiv.swap old new) ∧
      (∀ m, m ∈ g'.ids ↔ Equiv.swap old new m ∈ g.ids) ∧ g'.Orderly := by
  obtain ⟨e, he⟩ := mem_ids_iff.1 ho
  obtain ⟨s, rfl, hs, own⟩ := mem_occupants_of_position at_p
  have ne : new ≠ old := fun e => fresh (e ▸ ho)
  have spliced : ∀ t, splice old [new] (g.occupants (t.rename (Equiv.swap old new))) =
      g.occupants.relabel (Equiv.swap old new) t := fun t =>
    splice_singleton_eq_map (h.nodup _) fun hx => fresh (h.mem hx)
  have done : ∃ g', replace old new g = .ok () g' ∧
      g'.occupants = g.occupants.relabel (Equiv.swap old new) ∧
      (∀ m, m ∈ g'.ids ↔ Equiv.swap old new m ∈ g.ids) := by
    simp only [replace_eq, at_p, he, Slot.reference_position]
    cases o : s.owner? with
    | none =>
      have root := Slot.eq_root_of_owner o
      subst root
      refine ⟨_, rfl, ?_, fun m => mem_ids_handOver_swap ne fresh ho⟩
      funext t
      have moved := congrFun (occupants_handOver (e := e) ne fresh he) t
      cases t with
      | root =>
        rw [← spliced]
        have held : g.root = some old := mem_occupants_root.1 hs
        simp [occupants, Slot.rename, held, splice]
      | south m o | child m =>
        rw [← spliced, splice_of_not_mem (h.not_mem_rename hs own fresh (by simp))]
        exact moved
    | some r =>
      have hr : r ∈ (g.handOver old new e).ids := by
        have rOld : r ≠ old := fun e => own (e ▸ o)
        have rNew : r ≠ new := fun e => fresh (e ▸ owner_mem_ids hs o)
        rw [mem_ids_handOver_swap ne fresh ho, Equiv.swap_apply_of_ne_of_ne rOld rNew]
        exact owner_mem_ids hs o
      refine ⟨_, rfl, ?_, fun m => by rw [ids_modifyEntry]; exact mem_ids_handOver_swap ne fresh ho⟩
      rw [occupants_modifySlot (splice old [new]) hr (fun e => ?_)
        (fun e pl o ne => ?_), beside_position o, occupants_handOver ne fresh he]
      · funext t
        rw [← spliced]
        by_cases ts : t = s
        · simp [ts]
        · rw [if_neg ts, splice_of_not_mem (h.not_mem_rename hs own fresh ts)]
      · cases h : e.slot? s.position.placement s.position.output with
        | none => simp [h, splice]
        | some ids => simp [Entry.slot?_setSlot_self]
      · cases h : e.slot? s.position.placement s.position.output with
        | none => rfl
        | some ids => exact e.slot?_setSlot_other _ ne
  obtain ⟨g', run, layout, ids⟩ := done
  refine ⟨g', run, layout, ids, ?_⟩
  unfold Orderly
  rw [layout, show {m | m ∈ g'.ids} = {m | (Equiv.swap old new).symm m ∈ g.ids} from Set.ext ids]
  exact Layout.Orderly.relabel h _

/-- Any node of a tree can be replaced by one without an entry, and the tree stays one. -/
theorem IsTree.exists_replace (tree : g.IsTree) {old new : NodeId} (ho : old ∈ g.ids)
    (fresh : new ∉ g.ids) :
    ∃ g', replace old new g = .ok () g' ∧
      g'.occupants = g.occupants.relabel (Equiv.swap old new) ∧
      (∀ m, m ∈ g'.ids ↔ Equiv.swap old new m ∈ g.ids) ∧ g'.IsTree := by
  obtain ⟨s, hs⟩ := tree.exists_slot ho
  obtain ⟨g', run, layout, ids, _⟩ :=
    Orderly.exists_replace tree.toOrderly ho fresh (tree.position_eq hs)
  refine ⟨g', run, layout, ids, ?_⟩
  unfold IsTree
  rw [layout, show {m | m ∈ g'.ids} = {m | (Equiv.swap old new).symm m ∈ g.ids} from Set.ext ids]
  exact Layout.IsTree.relabel tree _

/-! ## The root -/

/-- The root is read off the layout. -/
theorem root_of_occupants {g' : Graph} (e : g'.occupants .root = g.occupants .root) :
    g'.root = g.root := by
  cases hg : g.root <;> cases hg' : g'.root <;> simp_all [occupants]

/-- A planted node is the root if it has no reference, and else the root stays. -/
theorem root_of_plant {g' : Graph} {p : Position}
    (layout : g'.occupants = g.occupants.plant p.slot n) (m : NodeId) :
    g'.root = some m ↔ if p.reference = none then m = n else g.root = some m := by
  have slot : p.slot = .root ↔ p.reference = none := by
    rw [← Position.owner_slot]
    exact ⟨fun e => by rw [e]; rfl, Slot.eq_root_of_owner⟩
  rw [← mem_occupants_root, layout]
  by_cases top : p.reference = none
  · simp [plant, slot.2 top, top]
  · have off : ¬ Slot.root = p.slot := fun e => top (slot.1 e.symm)
    simp [plant, off, top, Slot.isSouthOf]

/-- The root stays when another node is extracted; the root itself leaves none if nothing is spliced
in. -/
theorem root_of_extract {g' : Graph} {l : List NodeId} (tree : g.IsTree) (hs : n ∈ g.occupants s)
    (alone : s = .root → l = []) (layout : g'.occupants = g.occupants.extract n s l false)
    (m : NodeId) : g'.root = some m ↔ m ≠ n ∧ g.root = some m := by
  rw [← mem_occupants_root, ← mem_occupants_root, layout]
  by_cases top : s = .root
  · have occ : g.occupants .root = [n] := occupants_root (mem_occupants_root.1 (top ▸ hs))
    rw [top, alone top]
    simp [extract, givenUp, occ, splice_nil_singleton]
  · have off : ¬ Slot.root = s := fun e => top e.symm
    have ne : g.root = some m → m ≠ n := by
      rintro h rfl
      exact top (tree.slot_unique hs (mem_occupants_root.2 h))
    simpa [extract, givenUp, off] using ne

/-- The root is swapped along with the nodes. -/
theorem root_of_relabel {g' : Graph} {a b : NodeId}
    (layout : g'.occupants = g.occupants.relabel (Equiv.swap a b)) (m : NodeId) :
    g'.root = some m ↔ g.root = some (Equiv.swap a b m) := by
  rw [← mem_occupants_root, ← mem_occupants_root, layout, Layout.mem_relabel_iff]
  simp [Slot.rename]

end Graph

end Autoflow

import Autoflow.Graph.Captions
import Autoflow.Proofs.Graph.Relabeling

/-!
# Labels of an image

The labeled form of a graph does not depend on the choice of ids: an image whose nodes have the
labels of those they stand for has the same labeled form, character by character, with the hyphens
of labels that were taken already in the same places (`labeled_image`). For the two labelings go
the same steps, and the labels given so far are those of the other one with the nodes renamed.
-/

namespace Autoflow

/-- The second labels are those of the first nodes under their new names. -/
structure LabelSource.Translates (f : NodeId → NodeId) (source source' : LabelSource) : Prop where
  inj : f.Injective
  node : ∀ n, source'.node (f n) = source.node n
  output : ∀ n o, source'.output (f n) o = source.output n o

namespace Captions

variable {f : NodeId → NodeId} {α β ι ι' : Type}

/-- The same labels were given, to the nodes under their new names. -/
def Renamed (f : NodeId → NodeId) (s s' : Captions) : Prop :=
  s'.used = s.used.map fun p => (p.1, f p.2)

/-- Two steps of labeling that both succeed with the same result. -/
def Twins (f : NodeId → NodeId) (m m' : Labeling α) : Prop :=
  ∀ s s', Renamed f s s' → ∃ a t t', m s = .ok a t ∧ m' s' = .ok a t' ∧ Renamed f t t'

/-- The label that is still free for a node does not depend on the ids. -/
theorem freeLabel_map (inj : f.Injective) (used : List (String × NodeId)) (n : NodeId)
    (label : String) :
    freeLabel (used.map fun p => (p.1, f p.2)) (f n) label = freeLabel used n label := by
  have look : ∀ label, Assoc.find? label (used.map fun p => (p.1, f p.2)) =
      (Assoc.find? label used).map f := fun label =>
    Assoc.find?_map Function.injective_id f label used
  fun_induction freeLabel used n label with
  | case1 label free =>
    rw [freeLabel]
    split
    · rfl
    · next taken =>
      rw [look, free] at taken
      cases taken
  | case2 label own =>
    rw [freeLabel]
    split
    · rfl
    · next m taken =>
      rw [look, own] at taken
      exact if_pos (Option.some.inj taken).symm
  | case3 label m taken other ih =>
    rw [freeLabel]
    split
    · next free =>
      rw [look, taken] at free
      cases free
    · next m' taken' =>
      rw [look, taken] at taken'
      cases taken'
      rw [if_neg (inj.ne other)]
      exact ih

namespace Twins

theorem pure (a : α) : Twins f (pure a) (pure a) := fun s s' same => ⟨a, s, s', rfl, rfl, same⟩

/-- Steps that go the same way do so one after the other. -/
theorem bind {m m' : Labeling α} {k k' : α → Labeling β} (first : Twins f m m')
    (rest : ∀ a, Twins f (k a) (k' a)) : Twins f (m >>= k) (m' >>= k') := by
  intro s s' same
  obtain ⟨a, t, t', run, run', same⟩ := first s s' same
  obtain ⟨b, u, u', next, next', same⟩ := rest a t t' same
  refine ⟨b, u, u', ?_, ?_, same⟩
  · change EStateM.bind m k s = _
    rw [EStateM.bind, run]
    exact next
  · change EStateM.bind m' k' s' = _
    rw [EStateM.bind, run']
    exact next'

/-- Lists are labeled the same way if their items are. -/
theorem mapM {l : List ι} {v : ι → ι'} {k : ι → Labeling β} {k' : ι' → Labeling β}
    (each : ∀ x ∈ l, Twins f (k x) (k' (v x))) : Twins f (l.mapM k) ((l.map v).mapM k') := by
  induction l with
  | nil => exact pure []
  | cons x l ih =>
    rw [List.map_cons, List.mapM_cons, List.mapM_cons]
    apply (each x List.mem_cons_self).bind
    intro b
    apply (ih fun y mem => each y (List.mem_cons_of_mem x mem)).bind
    intro bs
    exact pure (b :: bs)

theorem mapM_option {o : Option ι} {v : ι → ι'} {k : ι → Labeling β} {k' : ι' → Labeling β}
    (each : ∀ x, o = some x → Twins f (k x) (k' (v x))) :
    Twins f (o.mapM k) ((o.map v).mapM k') := by
  cases o with
  | none => exact pure none
  | some x =>
    rw [Option.map_some, Option.mapM_some, Option.mapM_some]
    apply (each x rfl).bind
    intro b
    exact pure (some b)

end Twins

variable {source source' : LabelSource} {g : Graph} {n : NodeId} {e : Entry} {ids : List NodeId}
  (translates : source.Translates f source')

/-- A node is given the label that is free for it, and the label is its own from then on. -/
theorem label_eq_ok {own : String} (named : source.node n = some own) (s : Captions) :
    label source n s = .ok (freeLabel s.used n own)
      { s with used := Assoc.put (freeLabel s.used n own) n s.used } := by
  simp only [label, named]

include translates in
/-- A node and its image are given the same label. -/
theorem label_twins (known : (source.node n).isSome) :
    Twins f (label source n) (label source' (f n)) := by
  obtain ⟨own, named⟩ := Option.isSome_iff_exists.1 known
  intro s s' same
  have run' := label_eq_ok ((translates.node n).trans named) s'
  have free : freeLabel s'.used (f n) own = freeLabel s.used n own := by
    rw [same]
    exact freeLabel_map translates.inj s.used n own
  rw [free] at run'
  refine ⟨_, _, _, label_eq_ok named s, run', ?_⟩
  unfold Renamed at same ⊢
  simp only [same]
  exact Assoc.put_map Function.injective_id f _ n s.used

include translates in
/-- So are the nodes of a list, in order. -/
theorem labels_twins (known : ∀ x ∈ ids, (source.node x).isSome) :
    Twins f (labels source ids) (labels source' (ids.map f)) := by
  apply (Twins.mapM fun x mem => label_twins translates (known x mem)).bind
  intro texts
  exact .pure _

include translates in
theorem outputLabel_twins (n : NodeId) (o : String) :
    Twins f (outputLabel source n o) (outputLabel source' (f n) o) := by
  intro s s' same
  unfold outputLabel
  rw [translates.output]
  cases source.output n o with
  | none => exact ⟨o, _, _, rfl, rfl, same⟩
  | some text => exact ⟨text, _, _, rfl, rfl, same⟩

include translates in
/-- The outputs of a node are written under the same labels, with the same lists. -/
theorem outputs_twins {o : Outputs} (known : ∀ p ∈ o.toList, ∀ x ∈ p.2, (source.node x).isSome) :
    Twins f (outputs source n o) (outputs source' (f n) (o.image f id)) := by
  unfold outputs Outputs.image
  rw [OrderedMap.toList_image Function.injective_id]
  refine Twins.bind (Twins.mapM fun p mem => ?_) fun fields => .pure _
  apply (outputLabel_twins translates n p.1).bind
  intro key
  apply (labels_twins translates (known p mem)).bind
  intro texts
  exact .pure (key, texts)

include translates in
/-- The entry of a node is written the same for its image. -/
theorem entry_twins (known : (source.node n).isSome)
    (next : ∀ x ∈ e.nextIds, (source.node x).isSome)
    (children : ∀ x ∈ e.childIds, (source.node x).isSome) :
    Twins f (entry source n e) (entry source' (f n) (e.image f id)) := by
  unfold entry Entry.image
  apply (label_twins translates known).bind
  intro key
  refine Twins.bind (Twins.mapM_option fun ids held => ?_) fun inside => ?_
  · apply labels_twins translates
    intro x mem
    exact children x (by simpa [Entry.childIds, held] using mem)
  · refine Twins.bind (Twins.mapM_option fun o held => ?_) fun behind => .pure _
    apply outputs_twins translates
    intro p mem x hx
    refine next x ?_
    simp only [Entry.nextIds, held, Option.elim_some, Outputs.allIds]
    exact List.mem_flatMap.2 ⟨p, mem, hx⟩

include translates in
/-- So is the whole graph, entry by entry, as long as all nodes have labels. -/
theorem graph_twins (orderly : g.Orderly) (known : ∀ n ∈ g.ids, (source.node n).isSome) :
    Twins f (graph source g) (graph source' (g.image f id)) := by
  unfold graph Graph.image
  rw [OrderedMap.toList_image translates.inj]
  refine Twins.bind (Twins.mapM_option fun n root => ?_) fun root => ?_
  · exact label_twins translates (known n (orderly.mem (Graph.mem_occupants_root.2 root)))
  · refine Twins.bind (Twins.mapM fun p mem => ?_) fun entries => .pure _
    have he : g.find? p.1 = some p.2 := OrderedMap.mem_toList_iff.1 mem
    refine entry_twins translates (known p.1 (Graph.mem_ids_of_find? he)) (fun x behind => ?_)
      fun x inside => ?_
    · obtain ⟨o, held⟩ := (Graph.mem_nextIds_iff he).1 behind
      exact known x (orderly.mem held)
    · rw [← Graph.occupants_child he] at inside
      exact known x (orderly.mem inside)

end Captions

/-- An orderly graph with labels for all its nodes has a labeled form, and so does every image with
the same labels: it is the same. -/
theorem Graph.labeled_image {f : NodeId → NodeId} {source source' : LabelSource} {g : Graph}
    (translates : source.Translates f source') (orderly : g.Orderly)
    (known : ∀ n ∈ g.ids, (source.node n).isSome) :
    ∃ v, g.labeled source = .ok v ∧ (g.image f id).labeled source' = .ok v := by
  obtain ⟨v, s, s', run, run', _⟩ :=
    Captions.graph_twins translates orderly known {} {} rfl
  exact ⟨v, by rw [labeled, run], by rw [labeled, run']⟩

end Autoflow

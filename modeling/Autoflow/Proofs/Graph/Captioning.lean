import Autoflow.Proofs.Graph.Labels
import Autoflow.Proofs.Graph.Renamings
import Mathlib.Logic.Function.Iterate

/-!
# The labels given during a rendering

The label of a node is its own one with as few hyphens behind it as are needed: without any of
them it is taken by another node (`freeLabel_eq`). So what was given stays given, a node that is
asked for again gets the same label (`Given.unique`), and no other node ever does. A rendering can
then be read off from the labels that the nodes have in the end, whatever the order in which they
were asked for (`Writes`, `labeled_eq_rendered`).
-/

namespace Autoflow

namespace Captions

/-- A label with hyphens behind it. -/
def hyphened (own : String) (k : Nat) : String := (·.push '-')^[k] own

theorem hyphened_zero (own : String) : hyphened own 0 = own := rfl

theorem hyphened_succ (own : String) (k : Nat) :
    hyphened own (k + 1) = hyphened (own.push '-') k := rfl

variable {used used' : List (String × NodeId)} {n m : NodeId} {own l l' : String}

/-- A label gets hyphens as long as another node has it. -/
theorem freeLabel_eq (used : List (String × NodeId)) (n : NodeId) (own : String) :
    ∃ k, freeLabel used n own = hyphened own k ∧
      (∀ j < k, ∃ m ≠ n, Assoc.find? (hyphened own j) used = some m) ∧
      ∀ m, Assoc.find? (hyphened own k) used = some m → m = n := by
  fun_induction freeLabel used n own with
  | case1 own free =>
    refine ⟨0, rfl, fun j below => absurd below (Nat.not_lt_zero j), fun m taken => ?_⟩
    rw [hyphened_zero, free] at taken
    cases taken
  | case2 own held =>
    refine ⟨0, rfl, fun j below => absurd below (Nat.not_lt_zero j), fun m taken => ?_⟩
    rw [hyphened_zero, held] at taken
    exact (Option.some.inj taken).symm
  | case3 own m taken other ih =>
    obtain ⟨k, free, shorter, last⟩ := ih
    refine ⟨k + 1, free, fun j below => ?_, last⟩
    cases j with
    | zero => exact ⟨m, other, taken⟩
    | succ j => exact shorter j (Nat.lt_of_succ_lt_succ below)

/-- The labels given to nodes are their own ones with hyphens, no more of them than needed. -/
def Given (source : LabelSource) (used : List (String × NodeId)) : Prop :=
  ∀ l n, Assoc.find? l used = some n → ∃ own k, source.node n = some own ∧ l = hyphened own k ∧
    ∀ j < k, ∃ m ≠ n, Assoc.find? (hyphened own j) used = some m

/-- All labels stay given. -/
def Kept (used used' : List (String × NodeId)) : Prop :=
  ∀ l n, Assoc.find? l used = some n → Assoc.find? l used' = some n

variable {source : LabelSource}

/-- Before the first label nothing is given. -/
theorem given_nil (source : LabelSource) : Given source [] := nofun

/-- A node has one label at most. -/
theorem Given.unique (h : Given source used) (held : Assoc.find? l used = some n)
    (held' : Assoc.find? l' used = some n) : l = l' := by
  obtain ⟨own, k, named, rfl, shorter⟩ := h l n held
  obtain ⟨own', k', named', rfl, shorter'⟩ := h l' n held'
  obtain rfl : own = own' := Option.some.inj (named.symm.trans named')
  rcases Nat.lt_trichotomy k k' with less | rfl | more
  · obtain ⟨m, other, taken⟩ := shorter' k less
    exact absurd (Option.some.inj (taken.symm.trans held)) other
  · rfl
  · obtain ⟨m, other, taken⟩ := shorter k' more
    exact absurd (Option.some.inj (taken.symm.trans held')) other

theorem Kept.refl (used : List (String × NodeId)) : Kept used used := fun _ _ held => held

/-- Labels that are kept by two steps are kept by both together. -/
theorem Kept.trans {used'' : List (String × NodeId)} (h : Kept used used')
    (h' : Kept used' used'') : Kept used used'' := fun l n held => h' l n (h l n held)

/-- Giving a node its label takes none from another one. -/
theorem kept_put (used : List (String × NodeId)) (n : NodeId) (own : String) :
    Kept used (Assoc.put (freeLabel used n own) n used) := by
  intro l m held
  obtain ⟨k, free, _, last⟩ := freeLabel_eq used n own
  rw [Assoc.find?_put, free]
  split
  · next same =>
    rw [last m (same ▸ held)]
  · exact held

/-- A free label that is given to a node has no hyphen too many. -/
theorem Given.put (h : Given source used) (named : source.node n = some own) :
    Given source (Assoc.put (freeLabel used n own) n used) := by
  have kept := kept_put used n own
  intro l m held
  rw [Assoc.find?_put] at held
  split at held
  · next same =>
    cases held
    obtain ⟨k, free, shorter, _⟩ := freeLabel_eq used n own
    refine ⟨own, k, named, same ▸ free, fun j below => ?_⟩
    obtain ⟨m, other, taken⟩ := shorter j below
    exact ⟨m, other, kept _ m taken⟩
  · obtain ⟨own', k, named', rfl, shorter⟩ := h l m held
    refine ⟨own', k, named', rfl, fun j below => ?_⟩
    obtain ⟨m', other, taken⟩ := shorter j below
    exact ⟨m', other, kept _ m' taken⟩

/-! ## Steps of a rendering -/

/-- The nodes with labels have those that are given to them. -/
def Follows (caption : NodeId → String) (used : List (String × NodeId)) : Prop :=
  ∀ l n, Assoc.find? l used = some n → caption n = l

/-- A step that always succeeds. It gives labels to some nodes and keeps those that were given,
and what it writes can be read off from the labels that the nodes have in the end. -/
def Writes {α : Type} (source : LabelSource) (nodes : List NodeId)
    (written : (NodeId → String) → α) (step : Labeling α) : Prop :=
  ∀ s, Given source s.used → ∃ a t, step s = .ok a t ∧ Given source t.used ∧ Kept s.used t.used ∧
    (∀ n ∈ nodes, ∃ l, Assoc.find? l t.used = some n) ∧
    (∀ l n, Assoc.find? l t.used = some n → n ∈ nodes ∨ Assoc.find? l s.used = some n) ∧
    ∀ caption, Follows caption t.used → a = written caption

namespace Writes

variable {α β ι : Type} {nodes nodes' : List NodeId}

/-- A step that does nothing writes what it is told to. -/
theorem pure (a : α) : Writes source [] (fun _ => a) (Pure.pure a : Labeling α) := fun s given =>
  ⟨a, s, rfl, given, .refl _, nofun, fun _ _ => Or.inr, fun _ _ => rfl⟩

/-- Two steps in a row write what each does, and the second one may depend on the first. -/
theorem bind {step : Labeling α} {k : α → Labeling β} {written : (NodeId → String) → α}
    {written' : α → (NodeId → String) → β} (first : Writes source nodes written step)
    (rest : ∀ a, Writes source nodes' (written' a) (k a)) :
    Writes source (nodes ++ nodes') (fun c => written' (written c) c) (step >>= k) := by
  intro s given
  obtain ⟨a, t, run, given, kept, named, new, text⟩ := first s given
  obtain ⟨b, u, run', given, kept', named', new', text'⟩ := rest a t given
  refine ⟨b, u, ?_, given, kept.trans kept', fun n mem => ?_, fun l n held => ?_,
    fun c follows => ?_⟩
  · change EStateM.bind step k s = _
    rw [EStateM.bind, run]
    exact run'
  · rcases List.mem_append.1 mem with mem | mem
    · obtain ⟨l, held⟩ := named n mem
      exact ⟨l, kept' l n held⟩
    · exact named' n mem
  · rw [List.mem_append]
    rcases new' l n held with mem | held
    · exact Or.inl (Or.inr mem)
    · exact (new l n held).imp Or.inl id
  · rw [text' c follows, text c fun l n held => follows l n (kept' l n held)]

/-- A list is written item by item, -/
theorem mapM {k : ι → Labeling β} {nodes : ι → List NodeId} {written : ι → (NodeId → String) → β}
    {l : List ι} (each : ∀ x ∈ l, Writes source (nodes x) (written x) (k x)) :
    Writes source (l.flatMap nodes) (fun c => l.map (written · c)) (l.mapM k) := by
  induction l with
  | nil => exact pure []
  | cons x l ih =>
    obtain ⟨first, rest⟩ := List.forall_mem_cons.1 each
    rw [List.mapM_cons, List.flatMap_cons, ← List.append_nil (l.flatMap nodes)]
    exact first.bind fun b => (ih rest).bind fun bs => pure (b :: bs)

/-- and an optional value if it is there. -/
theorem mapM_option {k : ι → Labeling β} {nodes : ι → List NodeId}
    {written : ι → (NodeId → String) → β} {o : Option ι}
    (each : ∀ x ∈ o, Writes source (nodes x) (written x) (k x)) :
    Writes source (o.elim [] nodes) (fun c => o.map (written · c)) (o.mapM k) := by
  cases o with
  | none => exact pure none
  | some x =>
    rw [Option.mapM_some, Option.elim_some, ← List.append_nil (nodes x)]
    exact (each x rfl).bind fun b => pure (some b)

/-- The nodes may be listed in another way, and the text may be put in another way. -/
theorem congr {step : Labeling α} {written written' : (NodeId → String) → α}
    (h : Writes source nodes written step) (same : ∀ n, n ∈ nodes ↔ n ∈ nodes')
    (text : ∀ c, written c = written' c) : Writes source nodes' written' step := by
  obtain rfl : written = written' := funext text
  intro s given
  obtain ⟨a, t, run, given, kept, named, new, text⟩ := h s given
  exact ⟨a, t, run, given, kept, fun n mem => named n ((same n).2 mem),
    fun l n held => (new l n held).imp_left (same n).1, text⟩

end Writes

/-- A node that the source knows is written as its label. -/
theorem label_writes (named : (source.node n).isSome) :
    Writes source [n] (fun c => c n) (label source n) := by
  obtain ⟨own, named⟩ := Option.isSome_iff_exists.1 named
  intro s given
  have own_label : Assoc.find? (freeLabel s.used n own)
      (Assoc.put (freeLabel s.used n own) n s.used) = some n := by
    rw [Assoc.find?_put, if_pos rfl]
  refine ⟨_, _, label_eq_ok named s, given.put named, kept_put s.used n own, ?_, fun l m held => ?_,
    fun c follows => (follows _ n own_label).symm⟩
  · exact List.forall_mem_singleton.2 ⟨_, own_label⟩
  · rw [Assoc.find?_put] at held
    split at held
    · cases held
      exact Or.inl List.mem_cons_self
    · exact Or.inr held

end Captions

/-! ## What is written -/

/-- The text of an output: its label, or else its own name. -/
def LabelSource.outputText (source : LabelSource) (n : NodeId) (o : String) : String :=
  (source.output n o).getD o

/-- The labels of several nodes. -/
def NodeId.captions (caption : NodeId → String) (ids : List NodeId) : Json :=
  .array (ids.map fun n => .string (caption n))

/-- The outputs of a node, each under its text. -/
def Outputs.rendered (source : LabelSource) (caption : NodeId → String) (n : NodeId)
    (o : Outputs) : Json :=
  .ofPairs (o.toList.map fun p => (source.outputText n p.1, NodeId.captions caption p.2))

/-- The entry of a node with labels in the place of ids and outputs. -/
def Entry.rendered (source : LabelSource) (caption : NodeId → String) (n : NodeId)
    (e : Entry) : Json :=
  .object ((e.children.map fun ids => ("children", NodeId.captions caption ids)).toList ++
    (e.next.map fun o => ("next", o.rendered source caption n)).toList)

/-- The label of the root under its key, and the entries under the labels of their nodes. -/
def Graph.renderedPairs (g : Graph) (source : LabelSource) (caption : NodeId → String) :
    List (String × Json) :=
  (g.root.map fun r => (rootKey, Json.string (caption r))).toList ++
    g.entries.toList.map fun p => (caption p.1, p.2.rendered source caption p.1)

namespace Captions

variable {source : LabelSource} {n : NodeId} {ids : List NodeId} {o : Outputs} {e : Entry}
  {g : Graph}

/-- Several nodes are written as the list of their labels. -/
theorem labels_writes (known : ∀ x ∈ ids, (source.node x).isSome) :
    Writes source ids (fun c => NodeId.captions c ids) (labels source ids) := by
  have each := Writes.mapM fun x mem => label_writes (known x mem)
  refine (each.bind fun texts => .pure (Json.array (texts.map .string))).congr ?_ ?_
  · simp
  · intro c
    simp [NodeId.captions]

/-- The text of an output needs no label of a node. -/
theorem outputLabel_writes (n : NodeId) (o : String) :
    Writes source [] (fun _ => source.outputText n o) (outputLabel source n o) := by
  intro s given
  unfold outputLabel LabelSource.outputText
  cases source.output n o with
  | none => exact ⟨o, _, rfl, given, .refl _, nofun, fun _ _ => Or.inr, fun _ _ => rfl⟩
  | some text => exact ⟨text, s, rfl, given, .refl _, nofun, fun _ _ => Or.inr, fun _ _ => rfl⟩

/-- The outputs are written with the labels of all nodes behind them. -/
theorem outputs_writes (known : ∀ x ∈ o.allIds, (source.node x).isSome) :
    Writes source o.allIds (fun c => o.rendered source c n) (outputs source n o) := by
  have pair : ∀ p ∈ o.toList, Writes source p.2
      (fun c => (source.outputText n p.1, NodeId.captions c p.2)) (do
        let key ← outputLabel source n p.1
        return (key, ← labels source p.2)) := by
    intro p mem
    have below : ∀ x ∈ p.2, (source.node x).isSome := fun x held =>
      known x (List.mem_flatMap.2 ⟨p, mem, held⟩)
    refine ((outputLabel_writes n p.1).bind fun key => (labels_writes below).bind fun texts =>
      .pure (key, texts)).congr ?_ fun c => rfl
    simp
  refine ((Writes.mapM pair).bind fun pairs => .pure (Json.ofPairs pairs)).congr ?_ fun c => rfl
  simp [Outputs.allIds]

/-- An entry is written under the label of its node. -/
theorem entry_writes (named : (source.node n).isSome)
    (known : ∀ x ∈ e.successors, (source.node x).isSome) :
    Writes source (n :: e.successors) (fun c => (c n, e.rendered source c n))
      (entry source n e) := by
  have inside : ∀ ids ∈ e.children, Writes source ids (NodeId.captions · ids)
      (labels source ids) := by
    intro ids held
    refine labels_writes fun x mem => known x (List.mem_append_right _ ?_)
    rwa [Entry.childIds, Option.mem_def.1 held]
  have behind : ∀ o ∈ e.next, Writes source o.allIds (o.rendered source · n)
      (outputs source n o) := by
    intro o held
    refine outputs_writes fun x mem => known x (List.mem_append_left _ ?_)
    rwa [Entry.nextIds, Option.mem_def.1 held]
  refine ((label_writes named).bind fun key => (Writes.mapM_option inside).bind fun children =>
    (Writes.mapM_option behind).bind fun next => .pure _).congr ?_ fun c => ?_
  · intro m
    unfold Entry.successors Entry.nextIds Entry.childIds
    cases e.children <;> cases e.next <;> simp [or_comm]
  · simp [Entry.rendered, Option.map_map, Function.comp_def]

/-- The entries of a graph, one after the other. -/
theorem entries_writes (known : ∀ n ∈ g.mentions, (source.node n).isSome) :
    Writes source (g.entries.toList.flatMap fun p => p.1 :: p.2.successors)
      (fun c => g.entries.toList.map fun p => (c p.1, p.2.rendered source c p.1))
      (g.entries.toList.mapM fun p => entry source p.1 p.2) := by
  refine .mapM fun p mem => ?_
  obtain ⟨_, each⟩ := Graph.forall_mentions.1 known
  exact entry_writes (each p mem).1 (each p mem).2

end Captions

/-- The labels in the rendering of a graph. Each is the own label of the node with as few hyphens
as are needed, since without any of them it is the label of another node, and the root has its
own. -/
structure Graph.Captioned (g : Graph) (source : LabelSource) (caption : NodeId → String) :
    Prop where
  own : ∀ n ∈ g.mentions, ∃ own k, source.node n = some own ∧
    caption n = Captions.hyphened own k ∧
    ∀ j < k, ∃ m ∈ g.mentions, m ≠ n ∧ caption m = Captions.hyphened own j
  distinct : ∀ n ∈ g.mentions, ∀ m ∈ g.mentions, caption n = caption m → n = m
  root : ∀ r, g.root = some r → source.node r = some (caption r)

/-- The nodes that a graph mentions are its root and those that are asked for with its entries. -/
theorem Graph.mem_mentions_iff {g : Graph} {n : NodeId} : n ∈ g.mentions ↔
    g.root = some n ∨ n ∈ g.entries.toList.flatMap fun p => p.1 :: p.2.successors := by
  have all := forall_mentions (g := g) (P := fun m => m ≠ n)
  rw [← not_iff_not]
  simp only [List.mem_flatMap, List.mem_cons, not_or, not_exists, not_and]
  constructor
  · intro out
    obtain ⟨root, each⟩ := all.1 fun m mem same => out (same ▸ mem)
    exact ⟨fun same => root n same rfl, fun p mem => ⟨fun same => (each p mem).1 same.symm,
      fun held => (each p mem).2 n held rfl⟩⟩
  · rintro ⟨root, each⟩ mem
    refine all.2 ⟨fun m same eq => root (eq ▸ same), fun p mem => ⟨fun same =>
      (each p mem).1 same.symm, fun m held eq => (each p mem).2 (eq ▸ held)⟩⟩ n mem rfl

namespace Captions

variable {source : LabelSource} {used : List (String × NodeId)}

/-- The labels given in the end are those of a function on nodes, since a node gets one label
only. -/
theorem Given.exists_follows (h : Given source used) : ∃ caption, Follows caption used := by
  classical
  refine ⟨fun n => if held : ∃ l, Assoc.find? l used = some n then held.choose else "", ?_⟩
  intro l n held
  have some_label : ∃ l, Assoc.find? l used = some n := ⟨l, held⟩
  exact (dif_pos some_label).trans (h.unique some_label.choose_spec held)

/-- The root is asked for first, so it has its own label. -/
theorem root_writes (source : LabelSource) (g : Graph)
    (named : ∀ r ∈ g.root, (source.node r).isSome) :
    ∃ text s, g.root.mapM (label source) {} = .ok text s ∧
      (∀ l n, Assoc.find? l s.used = some n ↔ g.root = some n ∧ source.node n = some l) ∧
      Given source s.used ∧ ∀ c, Follows c s.used → text = g.root.map c := by
  cases root : g.root with
  | none => exact ⟨none, {}, rfl, by simp, given_nil source, fun _ _ => rfl⟩
  | some r =>
    obtain ⟨own, owned⟩ := Option.isSome_iff_exists.1 (named r root)
    have first : freeLabel [] r own = own := by rw [freeLabel]; rfl
    have run := label_eq_ok owned {}
    have given := (given_nil source).put owned
    simp only [first] at run given
    have held : ∀ l n, Assoc.find? l [(own, r)] = some n ↔ own = l ∧ r = n := by
      intro l n
      simp [Assoc.find?]
    refine ⟨some own, { used := Assoc.put own r [] }, ?_, fun l n => ?_, given, fun c follows => ?_⟩
    · rw [Option.mapM_some]
      change EStateM.map some (label source r) {} = _
      rw [EStateM.map, run]
    · rw [Option.some_inj]
      constructor
      · intro mem
        obtain ⟨rfl, rfl⟩ := (held l n).1 mem
        exact ⟨rfl, owned⟩
      · rintro ⟨rfl, owned'⟩
        exact (held l r).2 ⟨Option.some.inj (owned.symm.trans owned'), rfl⟩
    · exact congrArg some (follows own r ((held own r).2 ⟨rfl, rfl⟩)).symm

end Captions

namespace Graph

variable {source : LabelSource} {g : Graph}

/-- If all that a graph mentions has a label, the graph is rendered, and each node has the same
label wherever it stands. -/
theorem labeled_eq_rendered (known : ∀ n ∈ g.mentions, (source.node n).isSome) :
    ∃ caption, g.Captioned source caption ∧
      g.labeled source = .ok (.ofPairs (g.renderedPairs source caption)) := by
  obtain ⟨top, s, run, rooted, given, text⟩ := Captions.root_writes source g
    fun r root => known r (mem_mentions_iff.2 (Or.inl root))
  obtain ⟨pairs, t, run', given', kept, named, new, text'⟩ := Captions.entries_writes known s given
  obtain ⟨c, follows⟩ := given'.exists_follows
  have labels : ∀ n ∈ g.mentions, Assoc.find? (c n) t.used = some n := by
    intro n mem
    obtain ⟨l, held⟩ : ∃ l, Assoc.find? l t.used = some n := by
      rcases mem_mentions_iff.1 mem with root | held
      · obtain ⟨own, owned⟩ := Option.isSome_iff_exists.1 (known n mem)
        exact ⟨own, kept own n ((rooted own n).2 ⟨root, owned⟩)⟩
      · exact named n held
    exact (follows l n held).symm ▸ held
  refine ⟨c, ⟨fun n mem => ?_, fun n mem m mem' same => ?_, fun r root => ?_⟩, ?_⟩
  · obtain ⟨own, k, owned, caption, shorter⟩ := given' (c n) n (labels n mem)
    refine ⟨own, k, owned, caption, fun j below => ?_⟩
    obtain ⟨m, other, taken⟩ := shorter j below
    refine ⟨m, mem_mentions_iff.2 ?_, other, follows _ m taken⟩
    exact (new _ m taken).symm.imp_left fun held => ((rooted _ m).1 held).1
  · exact Option.some.inj ((labels n mem).symm.trans (same ▸ labels m mem'))
  · have mem : r ∈ g.mentions := mem_mentions_iff.2 (Or.inl root)
    obtain ⟨own, owned⟩ := Option.isSome_iff_exists.1 (known r mem)
    rw [owned, follows own r (kept own r ((rooted own r).2 ⟨root, owned⟩))]
  · have top_text : top = g.root.map c := text c fun l n held => follows l n (kept l n held)
    unfold labeled
    have whole : Captions.graph source g {} = .ok (.ofPairs (g.renderedPairs source c)) t := by
      unfold Captions.graph
      change EStateM.bind _ _ _ = _
      rw [EStateM.bind, run]
      change EStateM.bind _ _ _ = _
      rw [EStateM.bind, run', text' c follows, top_text]
      simp only [Option.map_map]
      rfl
    rw [whole]

end Graph

end Autoflow

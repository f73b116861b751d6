import Autoflow.Proofs.Graph.Blobs
import Autoflow.Proofs.Graph.Captioning
import Autoflow.Proofs.Pairing

/-!
# What a rendering shows

The nodes of a rendering have labels that are all different, but the key of the root and the texts
of the outputs are taken as they are. The fields of an object that have the same key become one
(`OrderedMap.length_ofList_iff`). So nothing of a graph is lost exactly if no node with an entry has
the label `0` beside a root, and no two outputs of a node have the same text (`labeled_shows_iff`).
-/

namespace Autoflow

theorem OrderedMap.length_ofList_iff {κ ν : Type} [DecidableEq κ] {l : List (κ × ν)} :
    (ofList l).toList.length = l.length ↔ (Assoc.keys l).Nodup := by
  constructor
  · intro all
    have part : (ofList l).keys ⊆ Assoc.keys l := by
      intro k mem
      obtain ⟨v, held⟩ := mem_keys_iff.1 mem
      exact List.mem_map_of_mem (mem_of_get?_ofList held)
    have length : (Assoc.keys l).length ≤ (ofList l).keys.length := by
      simp [keys, Assoc.keys, all]
    have perm := ((ofList l).nodup.subperm part).perm_of_length_le length
    exact perm.nodup_iff.1 (ofList l).nodup
  · exact fun nodup => by rw [toList_ofList nodup]

theorem Json.ofPairs_eq_object {pairs : List (String × Json)} (nodup : (Assoc.keys pairs).Nodup) :
    ofPairs pairs = .object pairs := by
  rw [ofPairs, ← OrderedMap.toList_ofList_eq_ofPairs, OrderedMap.toList_ofList nodup]

/-- A list of as many labels as there are nodes. -/
def NodeId.ShownIn (ids : List NodeId) (v : Json) : Prop :=
  ∃ labels, v = .array labels ∧ labels.length = ids.length

/-- An object with a key for each output, and as many labels there as the output has nodes. -/
def Outputs.ShownIn (o : Outputs) (v : Json) : Prop :=
  ∃ outs, v = .object outs ∧ (Assoc.keys outs).Nodup ∧
    List.Forall₂ (fun p q => NodeId.ShownIn p.2 q.2) o.toList outs

/-- An object with the lists that the entry has, each of the same size. -/
structure Entry.ShownIn (e : Entry) (v : Json) : Prop where
  object : ∃ fields, v = .object fields
  children : Option.Rel NodeId.ShownIn e.children (v.field? "children")
  next : Option.Rel Outputs.ShownIn e.next (v.field? "next")

/-- An object with the label of the root under its key, one more key for each entry, and nothing
else. -/
structure Graph.ShownIn (g : Graph) (key : NodeId → String) (v : Json) : Prop where
  root : ∀ r, g.root = some r → v.field? rootKey = some (.string (key r))
  entries : ∀ n e, g.find? n = some e → ∃ shown, v.field? (key n) = some shown ∧ e.ShownIn shown
  distinct : ∀ n ∈ g.ids, ∀ m ∈ g.ids, key n = key m → n = m
  size : ∃ fields, v = .object fields ∧ (Assoc.keys fields).Nodup ∧
    fields.length = g.root.toList.length + g.ids.length

variable {source : LabelSource} {caption : NodeId → String} {n : NodeId} {o : Outputs} {e : Entry}
  {g : Graph}

theorem NodeId.shownIn_captions (caption : NodeId → String) (ids : List NodeId) :
    ShownIn ids (captions caption ids) :=
  ⟨_, rfl, List.length_map _⟩

/-- The outputs of a node are all shown exactly if they have different texts. -/
theorem Outputs.shownIn_rendered_iff (source : LabelSource) (caption : NodeId → String) :
    o.ShownIn (o.rendered source caption n) ↔ (o.keys.map (source.outputText n)).Nodup := by
  have keys : Assoc.keys (o.toList.map fun p =>
      (source.outputText n p.1, NodeId.captions caption p.2)) =
        o.keys.map (source.outputText n) := by
    simp [OrderedMap.keys, Assoc.keys]
  rw [← keys]
  constructor
  · rintro ⟨outs, same, _, all⟩
    rw [rendered, Json.ofPairs, ← OrderedMap.toList_ofList_eq_ofPairs] at same
    cases same
    refine OrderedMap.length_ofList_iff.1 ?_
    rw [← all.length_eq, List.length_map]
  · intro nodup
    refine ⟨_, Json.ofPairs_eq_object nodup, nodup, ?_⟩
    exact List.forall₂_map_right_iff.2 (List.forall₂_same.2 fun p _ =>
      NodeId.shownIn_captions caption p.2)

theorem Entry.field?_rendered_children :
    (e.rendered source caption n).field? "children" = e.children.map (NodeId.captions caption) := by
  rw [rendered, Json.field?, Assoc.find?_append, Assoc.find?_toList, Assoc.find?_toList]
  simp

theorem Entry.field?_rendered_next :
    (e.rendered source caption n).field? "next" = e.next.map (·.rendered source caption n) := by
  rw [rendered, Json.field?, Assoc.find?_append, Assoc.find?_toList, Assoc.find?_toList]
  simp

theorem Entry.shownIn_rendered_iff : e.ShownIn (e.rendered source caption n) ↔
    ∀ o, e.next = some o → (o.keys.map (source.outputText n)).Nodup := by
  simp only [← Outputs.shownIn_rendered_iff source caption]
  constructor
  · rintro ⟨_, _, behind⟩ o next
    rw [field?_rendered_next, next, Option.map_some] at behind
    cases behind with
    | some shown => exact shown
  · intro each
    refine ⟨⟨_, rfl⟩, ?_, ?_⟩
    · rw [field?_rendered_children]
      cases e.children with
      | none => exact .none
      | some ids => exact .some (NodeId.shownIn_captions caption ids)
    · rw [field?_rendered_next]
      cases next : e.next with
      | none => exact .none
      | some o => exact .some (each o next)

namespace Graph

theorem keys_renderedPairs : Assoc.keys (g.renderedPairs source caption) =
    (g.root.map fun _ => rootKey).toList ++ g.ids.map caption := by
  cases root : g.root <;> simp [renderedPairs, root, Assoc.keys, ids, OrderedMap.keys]

theorem length_renderedPairs : (g.renderedPairs source caption).length =
    g.root.toList.length + g.ids.length := by
  cases root : g.root <;> simp [renderedPairs, root, ids, OrderedMap.keys, Assoc.keys, Nat.add_comm]

/-- The keys of a rendering are all different exactly if none of the labels is the key of the
root, if there is one. -/
theorem nodup_renderedPairs_iff (source : LabelSource)
    (distinct : ∀ n ∈ g.ids, ∀ m ∈ g.ids, caption n = caption m → n = m) :
    (Assoc.keys (g.renderedPairs source caption)).Nodup ↔
      (g.root.isSome → ∀ n ∈ g.ids, caption n ≠ rootKey) := by
  have labels : (g.ids.map caption).Nodup := g.entries.nodup.map_on distinct
  rw [keys_renderedPairs]
  cases root : g.root with
  | none => simp [labels]
  | some r => simp [labels, eq_comm]

theorem mem_renderedPairs (he : g.find? n = some e) :
    (caption n, e.rendered source caption n) ∈ g.renderedPairs source caption :=
  List.mem_append_right _ (List.mem_map_of_mem (OrderedMap.mem_of_get? he))

/-- A graph is shown as a whole exactly if no key is there twice, among its fields and among the
outputs of an entry. -/
theorem shownIn_rendered_iff
    (distinct : ∀ n ∈ g.ids, ∀ m ∈ g.ids, caption n = caption m → n = m) :
    g.ShownIn caption (.ofPairs (g.renderedPairs source caption)) ↔
      (g.root.isSome → ∀ n ∈ g.ids, caption n ≠ rootKey) ∧
        ∀ n e o, g.find? n = some e → e.next = some o →
          (o.keys.map (source.outputText n)).Nodup := by
  rw [← nodup_renderedPairs_iff source distinct]
  have held : (Assoc.keys (g.renderedPairs source caption)).Nodup → ∀ n e, g.find? n = some e →
      (Json.ofPairs (g.renderedPairs source caption)).field? (caption n) =
        some (e.rendered source caption n) := by
    intro nodup n e he
    rw [Json.ofPairs_eq_object nodup]
    exact (Assoc.mem_iff_find? nodup).1 (mem_renderedPairs he)
  constructor
  · intro shown
    have nodup : (Assoc.keys (g.renderedPairs source caption)).Nodup := by
      obtain ⟨fields, same, _, length⟩ := shown.size
      rw [Json.ofPairs, ← OrderedMap.toList_ofList_eq_ofPairs] at same
      cases same
      exact OrderedMap.length_ofList_iff.1 (length.trans length_renderedPairs.symm)
    refine ⟨nodup, fun n e o he next => ?_⟩
    obtain ⟨v, field, entry⟩ := shown.entries n e he
    rw [held nodup n e he] at field
    cases field
    exact Entry.shownIn_rendered_iff.1 entry o next
  · rintro ⟨nodup, texts⟩
    refine ⟨fun r root => ?_, fun n e he => ?_, distinct, _, Json.ofPairs_eq_object nodup, nodup,
      length_renderedPairs⟩
    · rw [Json.ofPairs_eq_object nodup]
      refine (Assoc.mem_iff_find? nodup).1 (List.mem_append_left _ ?_)
      simp [root]
    · exact ⟨_, held nodup n e he, Entry.shownIn_rendered_iff.2 fun o => texts n e o he⟩

/-- If all that a graph mentions has a label, it is rendered with labels that are all different.
Nothing is lost exactly if no entry has the key of a root as its label, and no node has two outputs
of the same text. -/
theorem labeled_shows_iff (known : ∀ n ∈ g.mentions, (source.node n).isSome) :
    ∃ caption, g.Captioned source caption ∧ ∃ v, g.labeled source = .ok v ∧
      v = .ofPairs (g.renderedPairs source caption) ∧
      (g.ShownIn caption v ↔ (g.root.isSome → ∀ n ∈ g.ids, caption n ≠ rootKey) ∧
        ∀ n e o, g.find? n = some e → e.next = some o →
          (o.keys.map (source.outputText n)).Nodup) := by
  obtain ⟨caption, captioned, run⟩ := labeled_eq_rendered known
  have mentioned : ∀ n ∈ g.ids, n ∈ g.mentions := fun n mem =>
    List.mem_append_left _ (List.mem_append_right _ mem)
  refine ⟨caption, captioned, _, run, rfl, shownIn_rendered_iff fun n mem m mem' => ?_⟩
  exact captioned.distinct n (mentioned n mem) m (mentioned m mem')

/-- A graph with two outputs at its root. -/
def parting : Graph where
  root := some 1
  entries := .ofList [(1, { next := some (.ofList [("", [2]), ("x", [3])]) }), (2, {}), (3, {})]

/-- Labels for the nodes of `parting` and one text for all outputs. -/
def alikeTexts : LabelSource where
  node n := if n = 1 then some "A" else if n = 2 then some "B" else some "B"
  output _ _ := some ""

/-- Labels for the nodes of `parting`, the key of the root among them. -/
def rootTexts : LabelSource where
  node n := if n = 1 then some "A" else if n = 2 then some "B" else some "0"
  output _ o := some o

/-- Two nodes with one label and two outputs with one text. -/
theorem labeled_shows_iff_parting : (∀ n ∈ parting.mentions, (alikeTexts.node n).isSome) ∧
    ∃ caption, parting.Captioned alikeTexts caption ∧ ∃ v, parting.labeled alikeTexts = .ok v ∧
      ¬ parting.ShownIn caption v := by
  have known : ∀ n ∈ parting.mentions, (alikeTexts.node n).isSome := by decide
  obtain ⟨caption, captioned, v, run, _, shown⟩ := labeled_shows_iff known
  refine ⟨known, caption, captioned, v, run, fun whole => ?_⟩
  have texts := (shown.1 whole).2 1 { next := some (.ofList [("", [2]), ("x", [3])]) } _ rfl rfl
  exact absurd texts (by decide)

/-- The first of two outputs with one text is lost, and so is the root if an entry has its key as
its label. -/
theorem parting_loses :
    (∃ v, parting.labeled alikeTexts = .ok v ∧ ∀ key, ¬ parting.ShownIn key v) ∧
      ∃ v, parting.labeled rootTexts = .ok v ∧ ∀ key, ¬ parting.ShownIn key v := by
  constructor
  · refine ⟨.object [("0", .string "A"),
      ("A", .object [("next", .object [("", .array [.string "B-"])])]),
      ("B", .object []), ("B-", .object [])], by decide +kernel, fun key shown => ?_⟩
    obtain ⟨entry, field, _, _, next⟩ :=
      shown.entries 1 { next := some (.ofList [("", [2]), ("x", [3])]) } rfl
    -- no value of the object has two outputs
    have there := Assoc.mem_of_find? (show Assoc.find? (key 1) _ = some entry from field)
    simp only [List.mem_cons, List.not_mem_nil, Prod.mk.injEq, or_false] at there
    rcases there with ⟨_, rfl⟩ | ⟨_, rfl⟩ | ⟨_, rfl⟩ | ⟨_, rfl⟩
    · change Option.Rel _ _ none at next
      cases next
    · change Option.Rel _ _ (some _) at next
      cases next with
      | some behind =>
        obtain ⟨outs, same, _, all⟩ := behind
        cases same
        exact absurd all.length_eq (by decide)
    · change Option.Rel _ _ none at next
      cases next
    · change Option.Rel _ _ none at next
      cases next
  · refine ⟨.object [("0", .object []), ("A", .object [("next", .object [
      ("", .array [.string "B"]), ("x", .array [.string "0"])])]), ("B", .object [])],
      by decide +kernel, fun key shown => ?_⟩
    cases shown.root 1 rfl

end Graph

end Autoflow

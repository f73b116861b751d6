import Autoflow.Graph.Blob
import Autoflow.Proofs.Graph.Images

/-!
# Graphs and their blobs

The decimal numeral of an id is read as that id (`NodeId.ofKey?_toString`), and a written entry is
read as that entry, with a missing list and an empty one apart (`Entry.ofBlob_toJson`). So a
graph is read back from its blob as it was, with the order of its entries and outputs, unless a
node has the id 0: its key is the key of the root, which then leads to an object
(`Graph.ofBlob_toBlob_of_find?_zero`).
-/

namespace Except

variable {ε α β : Type}

/-- Reading without a fault is a plain fold. -/
theorem foldlM_eq_ok {l : List α} {f : β → α → Except ε β} {F : β → α → β}
    (each : ∀ a ∈ l, ∀ b, f b a = .ok (F b a)) (b : β) : l.foldlM f b = .ok (l.foldl F b) := by
  induction l generalizing b with
  | nil => rfl
  | cons a l ih =>
    rw [List.foldlM_cons, each a List.mem_cons_self]
    exact ih (fun x mem => each x (List.mem_cons_of_mem a mem)) (F b a)

/-- What was written item by item is read item by item. -/
theorem mapM_map_eq_ok {read : β → Except ε α} {write : α → β}
    (inverse : ∀ a, read (write a) = .ok a) (l : List α) : (l.map write).mapM read = .ok l := by
  induction l with
  | nil => rfl
  | cons a l ih =>
    rw [List.map_cons, List.mapM_cons, inverse, ih]
    rfl

end Except

namespace Autoflow

namespace OrderedMap

variable {κ ν : Type} [DecidableEq κ]

theorem toList_ofList_eq_ofPairs (l : List (κ × ν)) : (ofList l).toList = Assoc.ofPairs l :=
  (List.foldl_hom toList fun _ _ => rfl).symm

/-- A map is read back from its list. -/
theorem ofList_toList (m : OrderedMap κ ν) : ofList m.toList = m :=
  ext (toList_ofList m.nodup)

/-- Storing pairs leaves the keys that they do not have. -/
theorem get?_foldl_insert_of_not_mem {l : List (κ × ν)} {k : κ} (new : k ∉ Assoc.keys l)
    (m : OrderedMap κ ν) : (l.foldl (fun m p => m.insert p.1 p.2) m).get? k = m.get? k := by
  induction l generalizing m with
  | nil => rfl
  | cons p l ih =>
    simp only [Assoc.keys_cons, List.mem_cons, not_or] at new
    rw [List.foldl_cons, ih new.2, get?_insert, if_neg (Ne.symm new.1)]

/-- A pair read last decides. -/
theorem get?_foldl_insert_of_mem {l : List (κ × ν)} {k : κ} {v : ν}
    (nodup : (Assoc.keys l).Nodup) (mem : (k, v) ∈ l) (m : OrderedMap κ ν) :
    (l.foldl (fun m p => m.insert p.1 p.2) m).get? k = some v := by
  induction l generalizing m with
  | nil => cases mem
  | cons p l ih =>
    obtain ⟨new, nodup⟩ := List.nodup_cons.1 nodup
    rw [List.foldl_cons]
    rcases List.mem_cons.1 mem with rfl | mem
    · rw [get?_foldl_insert_of_not_mem new, get?_insert, if_pos rfl]
    · exact ih nodup mem _

end OrderedMap

namespace NodeId

/-- An id is written in decimal digits. -/
theorem toString_eq (n : NodeId) : toString n = String.ofList (Nat.toDigits 10 n.toNat) :=
  Nat.toString_eq_ofList_toDigits

/-- Digits are read from the left, as for any numeral. -/
theorem foldl_digitValue (digits : List Char) (sofar : Nat) :
    digits.foldl (fun n c => n * 10 + Json.digitValue c) sofar =
      Nat.ofDigitChars 10 digits sofar := by
  rw [Nat.ofDigitChars_eq_foldl]
  simp only [Json.digitValue, Nat.mul_comm 10]

/-- An id is read back from its key, -/
theorem ofKey?_toString (n : NodeId) : ofKey? (toString n) = some n := by
  have digit : ∀ c ∈ Nat.toDigits 10 n.toNat, c.isDigit = true := fun c mem =>
    Nat.isDigit_of_mem_toDigits (by decide) (by decide) mem
  have unsigned : ∀ rest, Nat.toDigits 10 n.toNat ≠ '+' :: rest := by
    intro rest e
    have plus := digit '+' (e ▸ List.mem_cons_self)
    exact absurd plus (by decide)
  unfold ofKey?
  rw [toString_eq, String.toList_ofList]
  split
  · next rest e => exact absurd e (unsigned rest)
  · simp only [foldl_digitValue, Nat.ofDigitChars_ten_toDigits, ofNat?_toNat]
    exact if_pos (by simpa [Nat.toDigits_ne_nil] using digit)

/-- so different ids have different keys. -/
theorem toString_inj {n m : NodeId} : toString n = toString m ↔ n = m := by
  refine ⟨fun same => Option.some.inj ?_, congrArg _⟩
  rw [← ofKey?_toString n, same, ofKey?_toString]

/-- The one id whose key is the key of the root. -/
theorem toString_eq_rootKey_iff {n : NodeId} : toString n = Graph.rootKey ↔ n = 0 := by
  have zero : toString (0 : NodeId) = "0" := congrArg String.ofList (Nat.toDigits_zero 10)
  rw [Graph.rootKey, ← zero, toString_inj]

theorem ofBlob_eq_ok {v : Json} {n : NodeId} (h : v.unsigned?.bind ofNat? = some n) :
    ofBlob v = .ok n := by
  unfold ofBlob
  rw [h]

/-- It is read back from its number as well. -/
theorem ofBlob_toJson (n : NodeId) : ofBlob n.toJson = .ok n := by
  apply ofBlob_eq_ok
  rw [toJson, Json.unsigned?_ofNat n.toNat_lt, Option.bind_some, ofNat?_toNat]

/-- A list of ids is read back. -/
theorem listOfBlob_listToJson (ids : List NodeId) : listOfBlob (listToJson ids) = .ok ids :=
  Except.mapM_map_eq_ok ofBlob_toJson ids

end NodeId

namespace Entry

/-- Outputs are read back in their order, each under its name. -/
theorem outputsOfBlob_toList (n : NodeId) (o : Outputs) :
    outputsOfBlob n (.object (o.toList.map fun p => (p.1, NodeId.listToJson p.2))) = .ok o := by
  unfold outputsOfBlob
  simp only
  rw [List.foldlM_map, Except.foldlM_eq_ok (F := fun acc p => acc.insert p.1 p.2)]
  · exact congrArg _ o.ofList_toList
  · intro p _ acc
    rw [NodeId.listOfBlob_listToJson]
    rfl

/-- An entry is read back, whichever of its two lists it has. -/
theorem ofBlob_toJson (n : NodeId) (e : Entry) : ofBlob n e.toJson = .ok e := by
  obtain ⟨next, children⟩ := e
  have outputs := outputsOfBlob_toList n
  have ids := NodeId.listOfBlob_listToJson
  rcases next with - | o <;> rcases children with - | l <;>
    simp [toJson, ofBlob, readField, outputs, ids, Except.map, bind, Except.bind, pure, Except.pure]

end Entry

namespace Graph

variable {g : Graph} {n : NodeId} {e : Entry}

/-- What is written for the root. -/
def rootPairs (g : Graph) : List (String × Json) :=
  (g.root.map fun r => (rootKey, r.toJson)).toList

/-- What is written for the entries. -/
def entryPairs (g : Graph) : List (String × Json) :=
  g.entries.toList.map fun p => (toString p.1, p.2.toJson)

/-- What is written for a graph, before pairs with the same key are put together. -/
def blobPairs (g : Graph) : OrderedMap String Json := .ofList (g.rootPairs ++ g.entryPairs)

/-- A blob is the object of what is written for the root and the entries. -/
theorem toBlob_eq (g : Graph) : g.toBlob = .object g.blobPairs.toList := by
  rw [blobPairs, OrderedMap.toList_ofList_eq_ofPairs]
  rfl

/-- Reading what is written for the root sets it, -/
theorem readField_root (r : NodeId) (g : Graph) :
    readField g (rootKey, r.toJson) = .ok { g with root := some r } := by
  have written : r.toJson = .number (.integer r.toNat) := rfl
  unfold readField
  rw [if_pos rfl]
  split
  · next absent => cases written.symm.trans absent
  · rw [NodeId.ofBlob_toJson]
    rfl

/-- and what is written for an entry puts that entry in, unless its key is that of the root. -/
theorem readField_entry (h : n ≠ 0) (e : Entry) (g : Graph) :
    readField g (toString n, e.toJson) = .ok { g with entries := g.entries.insert n e } := by
  unfold readField
  rw [if_neg (mt NodeId.toString_eq_rootKey_iff.1 h), NodeId.ofKey?_toString]
  simp only [Entry.ofBlob_toJson]
  rfl

/-- An entry is no id. -/
theorem readField_root_entry (e : Entry) (g : Graph) :
    readField g (rootKey, e.toJson) =
      .error (.invalidBlob ("invalid node id " ++ e.toJson.compact)) :=
  rfl

theorem eq_of_mem_rootPairs {p : String × Json} (mem : p ∈ g.rootPairs) : p.1 = rootKey := by
  obtain ⟨r, -, rfl⟩ := Option.map_eq_some_iff.1 (Option.mem_toList.1 mem)
  rfl

theorem mem_entryPairs_iff {p : String × Json} :
    p ∈ g.entryPairs ↔ ∃ n e, g.find? n = some e ∧ p = (toString n, e.toJson) := by
  refine List.mem_map.trans ⟨?_, ?_⟩
  · rintro ⟨⟨n, e⟩, held, rfl⟩
    exact ⟨n, e, OrderedMap.mem_toList_iff.1 held, rfl⟩
  · rintro ⟨n, e, held, rfl⟩
    exact ⟨(n, e), OrderedMap.mem_of_get? held, rfl⟩

/-- Entries are written under different keys, -/
theorem keys_entryPairs_nodup (g : Graph) : (Assoc.keys g.entryPairs).Nodup := by
  have keys : Assoc.keys g.entryPairs = g.ids.map toString := by
    simp [ids, entryPairs, OrderedMap.keys, Assoc.keys]
  exact keys ▸ g.entries.nodup.map fun _ _ same => NodeId.toString_inj.1 same

/-- and none of them is that of the root if no entry has the id 0. -/
theorem keys_pairs_nodup (h : (0 : NodeId) ∉ g.ids) :
    (Assoc.keys (g.rootPairs ++ g.entryPairs)).Nodup := by
  rw [Assoc.keys, List.map_append]
  refine List.nodup_append.2 ⟨?_, g.keys_entryPairs_nodup, ?_⟩
  · unfold rootPairs
    cases g.root <;> simp
  · rintro a atRoot b entry rfl
    obtain ⟨p, mem, rfl⟩ := List.mem_map.1 atRoot
    obtain ⟨q, mem', same⟩ := List.mem_map.1 entry
    obtain ⟨n, e, held, rfl⟩ := mem_entryPairs_iff.1 mem'
    rw [eq_of_mem_rootPairs mem] at same
    exact h (NodeId.toString_eq_rootKey_iff.1 same ▸ mem_ids_of_find? held)

/-- Read from an empty graph, the first part of a blob gives the root, -/
theorem foldlM_rootPairs (g : Graph) :
    g.rootPairs.foldlM readField .empty = .ok { root := g.root } := by
  unfold rootPairs
  cases g.root with
  | none => rfl
  | some r =>
    rw [Option.map_some, Option.toList_some, List.foldlM_cons, readField_root]
    rfl

/-- The entries read one by one go behind those that are there. -/
theorem foldl_insert_entries (l : List (NodeId × Entry)) (g : Graph) :
    l.foldl (fun g p => { g with entries := g.entries.insert p.1 p.2 }) g =
      { g with entries := l.foldl (fun m p => m.insert p.1 p.2) g.entries } := by
  induction l generalizing g with
  | nil => rfl
  | cons p l ih => rw [List.foldl_cons, List.foldl_cons, ih]

/-- and from there the rest gives the entries. -/
theorem foldlM_entryPairs (h : (0 : NodeId) ∉ g.ids) (root : Option NodeId) :
    g.entryPairs.foldlM readField { root := root } = .ok { g with root := root } := by
  have keyed : ∀ p ∈ g.entries.toList, p.1 ≠ 0 := fun p mem zero =>
    h (zero ▸ List.mem_map_of_mem mem)
  rw [entryPairs, List.foldlM_map,
    Except.foldlM_eq_ok fun p mem g' => readField_entry (keyed p mem) p.2 g',
    foldl_insert_entries]
  exact congrArg (fun m => Except.ok { g with root := root, entries := m }) g.entries.ofList_toList

/-- A graph without a node of the key of the root is read back as it was. -/
theorem ofBlob_toBlob (h : (0 : NodeId) ∉ g.ids) : ofBlob g.toBlob = .ok g := by
  rw [toBlob_eq, blobPairs, OrderedMap.toList_ofList (keys_pairs_nodup h)]
  show (g.rootPairs ++ g.entryPairs).foldlM readField .empty = .ok g
  rw [List.foldlM_append, foldlM_rootPairs]
  exact foldlM_entryPairs h g.root

/-- A node with the key of the root has its entry there. -/
theorem get?_rootKey (h : g.find? 0 = some e) : g.blobPairs.get? rootKey = some e.toJson := by
  rw [blobPairs, OrderedMap.ofList, List.foldl_append]
  refine OrderedMap.get?_foldl_insert_of_mem g.keys_entryPairs_nodup ?_ _
  exact mem_entryPairs_iff.2 ⟨0, e, h, Prod.ext (NodeId.toString_eq_rootKey_iff.2 rfl).symm rfl⟩

/-- Fields under other keys can be read. -/
theorem exists_readField {p : String × Json} (mem : p ∈ g.blobPairs.toList) (ne : p.1 ≠ rootKey)
    (g' : Graph) : ∃ next, readField g' p = .ok next := by
  rcases List.mem_append.1 (OrderedMap.mem_of_get?_ofList (OrderedMap.mem_toList_iff.1 mem)) with
    atRoot | entry
  · exact absurd (eq_of_mem_rootPairs atRoot) ne
  · obtain ⟨n, e, -, same⟩ := mem_entryPairs_iff.1 entry
    obtain rfl : p = (toString n, e.toJson) := same
    exact ⟨_, readField_entry (fun zero => ne (NodeId.toString_eq_rootKey_iff.2 zero)) e g'⟩

/-- The entry of a node with the key of the root is read as the root. -/
theorem ofBlob_toBlob_of_find?_zero (h : g.find? 0 = some e) :
    ofBlob g.toBlob = .error (.invalidBlob ("invalid node id " ++ e.toJson.compact)) := by
  obtain ⟨before, behind, split⟩ := List.append_of_mem (OrderedMap.mem_of_get? (get?_rootKey h))
  -- no field in front of it has its key, so the fault is the first one
  obtain ⟨g', read⟩ : ∃ g', before.foldlM readField .empty = .ok g' := by
    refine Except.exists_foldlM (fun p mem g' => ?_) Graph.empty
    refine exists_readField (g := g) (split ▸ List.mem_append_left _ mem) ?_ g'
    have nodup := g.blobPairs.nodup
    rw [split, Assoc.keys, List.map_append] at nodup
    exact (List.nodup_append.1 nodup).2.2 _ (List.mem_map_of_mem mem) _ List.mem_cons_self
  rw [toBlob_eq, split]
  show (before ++ (rootKey, e.toJson) :: behind).foldlM readField .empty = _
  rw [List.foldlM_append, read]
  show ((rootKey, e.toJson) :: behind).foldlM readField g' = _
  rw [List.foldlM_cons, readField_root_entry]
  rfl

/-- A graph is read back from its blob, its entries and outputs in the same order and a missing
list apart from an empty one, exactly if no node has the key of the root; with such a node the
blob is invalid. -/
theorem ofBlob_toBlob_iff (g : Graph) :
    (ofBlob g.toBlob = .ok g ↔ (0 : NodeId) ∉ g.ids) ∧
      ((∃ reason, ofBlob g.toBlob = .error (.invalidBlob reason)) ↔ (0 : NodeId) ∈ g.ids) := by
  by_cases mem : (0 : NodeId) ∈ g.ids
  · obtain ⟨e, held⟩ := OrderedMap.mem_keys_iff.1 mem
    have invalid := ofBlob_toBlob_of_find?_zero held
    exact ⟨by simp [invalid, mem], by simp [invalid, mem]⟩
  · have read := ofBlob_toBlob mem
    exact ⟨by simp [read, mem], by simp [read, mem]⟩

end Graph

end Autoflow

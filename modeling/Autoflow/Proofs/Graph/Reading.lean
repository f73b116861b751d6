import Autoflow.Proofs.Graph.Blobs
import Autoflow.Proofs.Graph.Renamings
import Autoflow.Proofs.Graph.Substitution
import Autoflow.Proofs.Pairing

/-!
# What a blob says

A blob is read field by field, and whether a field can be read does not depend on those before it.
So a blob is read exactly if it is null or an object of fields that can be read (`Graph.Readable`),
keys that mean nothing in an entry apart; every fault says that it is invalid. Two keys may stand
for one id, since a numeral may have a plus sign and zeros in front. Its entry is then at the
place of the first field and says what the last one does (`Graph.ReadFrom`), as one more field
decides about the root or about one entry (`Graph.ReadFrom.snoc`).
-/

namespace Autoflow

/-! ## Ids -/

namespace NodeId

/-- A key stands for an id if it is a numeral for it, with or without a plus sign and with any
number of zeros in front. -/
def WrittenAs (n : NodeId) (key : String) : Prop :=
  ∃ digits : List Char, (key.toList = digits ∨ key.toList = '+' :: digits) ∧ digits ≠ [] ∧
    (∀ c ∈ digits, c.isDigit) ∧ Nat.ofDigitChars 10 digits 0 = n.toNat

/-- A number in range is the number of one id. -/
theorem ofNat?_eq_some_iff {n : Nat} {id : NodeId} : ofNat? n = some id ↔ n = id.toNat := by
  constructor
  · exact fun h => (toNat_of_ofNat? h).symm
  · rintro rfl
    exact ofNat?_toNat id

/-- A key is read as an id exactly if it stands for it. -/
theorem ofKey?_eq_some_iff {key : String} {n : NodeId} :
    ofKey? key = some n ↔ n.WrittenAs key := by
  have numeral : ∀ digits : List Char,
      (if !digits.isEmpty && digits.all Char.isDigit then
        ofNat? (digits.foldl (fun n c => n * 10 + Json.digitValue c) 0) else none) = some n ↔
      digits ≠ [] ∧ (∀ c ∈ digits, c.isDigit) ∧ Nat.ofDigitChars 10 digits 0 = n.toNat := by
    intro digits
    rw [foldl_digitValue, Option.ite_none_right_eq_some, ofNat?_eq_some_iff]
    simp [and_assoc]
  unfold ofKey? WrittenAs
  split
  · next rest sign =>
    refine (numeral rest).trans ⟨fun h => ⟨rest, Or.inr sign, h⟩, ?_⟩
    rintro ⟨digits, written | written, given, digit, number⟩
    · -- a plus sign is no digit
      rw [sign] at written
      exact absurd (digit '+' (written ▸ List.mem_cons_self)) (by decide)
    · rw [sign] at written
      cases written
      exact ⟨given, digit, number⟩
  · next unsigned =>
    refine (numeral key.toList).trans ⟨fun h => ⟨key.toList, Or.inl rfl, h⟩, ?_⟩
    rintro ⟨digits, written | written, h⟩
    · rwa [written]
    · exact absurd written (unsigned digits)

/-- A key stands for one id at most. -/
theorem WrittenAs.unique {key : String} {n m : NodeId} (h : n.WrittenAs key)
    (h' : m.WrittenAs key) : n = m :=
  Option.some.inj ((ofKey?_eq_some_iff.2 h).symm.trans (ofKey?_eq_some_iff.2 h'))

/-- As a value, in contrast, an id is written in one way only. -/
theorem ofBlob_eq_ok_iff {v : Json} {n : NodeId} : ofBlob v = .ok n ↔ v = n.toJson := by
  constructor
  · intro h
    unfold ofBlob at h
    split at h
    · next m read =>
      cases h
      obtain ⟨i, number, inRange⟩ := Option.bind_eq_some_iff.1 read
      rw [ofNat?_eq_some_iff] at inRange
      unfold Json.unsigned? at number
      split at number
      · next k =>
        split at number
        · next bounds =>
          cases number
          rw [toJson, Json.ofNat, ← inRange, Int.toNat_of_nonneg bounds.1]
        · cases number
      · cases number
    · cases h
  · rintro rfl
    exact ofBlob_toJson n

theorem toJson_inj {n m : NodeId} : n.toJson = m.toJson ↔ n = m := by
  rw [← ofBlob_eq_ok_iff, ofBlob_toJson, Except.ok.injEq]

/-- A list of ids is read from what writing it gives and from nothing else. -/
theorem listOfBlob_eq_ok_iff {v : Json} {ids : List NodeId} :
    listOfBlob v = .ok ids ↔ v = listToJson ids := by
  constructor
  · intro h
    unfold listOfBlob at h
    split at h
    · next items =>
      have read := Except.mapM_eq_ok_iff.1 h
      simp only [ofBlob_eq_ok_iff] at read
      rw [listToJson, read.flip.eq_map]
    · cases h
  · rintro rfl
    exact listOfBlob_listToJson ids

end NodeId

/-! ## Entries -/

/-- The value of the last field with a key. -/
def Json.lastField? (key : String) (fields : List (String × Json)) : Option Json :=
  Assoc.find? key fields.reverse

/-- One more field says what its key has; the other keys keep what they have. -/
theorem Json.lastField?_append (key : String) (fields : List (String × Json))
    (p : String × Json) :
    lastField? key (fields ++ [p]) = if p.1 = key then some p.2 else lastField? key fields := by
  simp [lastField?, Assoc.find?]

/-- Outputs are read from an object of lists of ids, field by field. -/
def Outputs.ReadFrom (v : Json) (o : Outputs) : Prop :=
  ∃ pairs : List (String × List NodeId),
    v = .object (pairs.map fun p => (p.1, NodeId.listToJson p.2)) ∧ o = .ofList pairs

/-- A field of an entry has an object of lists of ids for the outputs, a list of ids for the nodes
inside, or another key and anything. -/
structure Entry.ReadableField (p : String × Json) : Prop where
  next : p.1 = "next" → ∃ o, Outputs.ReadFrom p.2 o
  children : p.1 = "children" → ∃ ids, p.2 = NodeId.listToJson ids

/-- A value can be read as an entry if it is an object and its fields can be read. -/
def Entry.Readable (v : Json) : Prop :=
  ∃ fields, v = .object fields ∧ ∀ p ∈ fields, ReadableField p

/-- An entry holds what the last fields for its two lists say, and no list that has no field. -/
structure Entry.ReadFrom (fields : List (String × Json)) (e : Entry) : Prop where
  next : Option.Rel Outputs.ReadFrom (Json.lastField? "next" fields) e.next
  children : Option.Rel (fun v ids => v = NodeId.listToJson ids)
    (Json.lastField? "children" fields) e.children

namespace Entry

variable {n : NodeId} {v : Json} {e e' : Entry} {p : String × Json}

/-- Outputs may be given twice under one name, so more than what was written can be read. -/
theorem outputsOfBlob_eq_ok_iff {o : Outputs} :
    outputsOfBlob n v = .ok o ↔ Outputs.ReadFrom v o := by
  have fold : ∀ fields : List (String × Json), fields.foldlM (fun (acc : Outputs) p => do
      return acc.insert p.1 (← NodeId.listOfBlob p.2)) (OrderedMap.empty : Outputs) = .ok o ↔
        ∃ pairs, List.Forall₂ (fun p (q : String × List NodeId) =>
          p = (q.1, NodeId.listToJson q.2)) fields pairs ∧ o = .ofList pairs := by
    refine fun fields => OrderedMap.foldlM_insert_eq_ok fun acc p acc' => ?_
    constructor
    · intro step
      obtain ⟨ids, list, step⟩ := Except.bind_eq_ok.1 step
      cases step
      exact ⟨(p.1, ids), Prod.ext rfl (NodeId.listOfBlob_eq_ok_iff.1 list), rfl⟩
    · rintro ⟨q, rfl, rfl⟩
      rw [NodeId.listOfBlob_listToJson]
      rfl
  unfold outputsOfBlob Outputs.ReadFrom
  split
  · next fields =>
    rw [fold]
    refine exists_congr fun pairs => and_congr_left fun _ => ?_
    constructor
    · intro all
      rw [all.flip.eq_map]
    · intro same
      cases same
      exact List.forall₂_map_left_iff.2 (List.forall₂_same.2 fun _ _ => rfl)
  · next other =>
    refine iff_of_false nofun ?_
    rintro ⟨pairs, rfl, _⟩
    exact other _ rfl

/-- What one field of an entry does: it sets one of the two lists, or it has another key and does
nothing. -/
theorem readField_eq_ok (run : readField n e p = .ok e') :
    p.1 = "next" ∧ (∃ o, Outputs.ReadFrom p.2 o ∧ e' = { e with next := some o }) ∨
      p.1 = "children" ∧
        (∃ ids, p.2 = NodeId.listToJson ids ∧ e' = { e with children := some ids }) ∨
      p.1 ≠ "next" ∧ p.1 ≠ "children" ∧ e' = e := by
  unfold readField at run
  split at run
  · next key =>
    obtain ⟨o, read, rfl⟩ := Except.map_eq_ok.1 run
    exact Or.inl ⟨key, o, outputsOfBlob_eq_ok_iff.1 read, rfl⟩
  · next other =>
    split at run
    · next key =>
      obtain ⟨ids, read, rfl⟩ := Except.map_eq_ok.1 run
      exact Or.inr (Or.inl ⟨key, ids, NodeId.listOfBlob_eq_ok_iff.1 read, rfl⟩)
    · next other' =>
      cases run
      exact Or.inr (Or.inr ⟨other, other', rfl⟩)

/-- Whether a field can be read does not depend on what was read before it. -/
theorem exists_readField_iff : (∃ e', readField n e p = .ok e') ↔ ReadableField p := by
  constructor
  · rintro ⟨e', run⟩
    rcases readField_eq_ok run with ⟨key, o, read, _⟩ | ⟨key, ids, list, _⟩ | ⟨other, other', _⟩
    · exact ⟨fun _ => ⟨o, read⟩, fun key' => absurd (key.symm.trans key') (by decide)⟩
    · exact ⟨fun key' => absurd (key.symm.trans key') (by decide), fun _ => ⟨ids, list⟩⟩
    · exact ⟨fun key => absurd key other, fun key => absurd key other'⟩
  · rintro ⟨next, children⟩
    unfold readField
    split
    · next key =>
      obtain ⟨o, read⟩ := next key
      rw [outputsOfBlob_eq_ok_iff.2 read]
      exact ⟨_, rfl⟩
    · split
      · next key =>
        obtain ⟨ids, list⟩ := children key
        rw [NodeId.listOfBlob_eq_ok_iff.2 list]
        exact ⟨_, rfl⟩
      · exact ⟨e, rfl⟩

/-- So an entry can be read if each of its fields can. -/
theorem exists_ofBlob_iff : (∃ e, ofBlob n v = .ok e) ↔ Readable v := by
  unfold ofBlob Readable
  split
  · next fields =>
    rw [Except.exists_foldlM_iff (f := readField n) fun e p => exists_readField_iff]
    simp
  · next other =>
    refine iff_of_false nofun ?_
    rintro ⟨fields, rfl, _⟩
    exact other fields rfl

/-- One more field decides about its list. -/
theorem ReadFrom.snoc {fields : List (String × Json)} (h : e.ReadFrom fields)
    (run : readField n e p = .ok e') : ReadFrom (fields ++ [p]) e' := by
  rcases readField_eq_ok run with ⟨key, o, read, rfl⟩ | ⟨key, ids, list, rfl⟩ |
    ⟨other, other', rfl⟩
  all_goals refine ⟨?_, ?_⟩ <;> rw [Json.lastField?_append]
  · rw [if_pos key]
    exact .some read
  · rw [if_neg (by simp [key])]
    exact h.children
  · rw [if_neg (by simp [key])]
    exact h.next
  · rw [if_pos key]
    exact .some list
  · rw [if_neg other]
    exact h.next
  · rw [if_neg other']
    exact h.children

/-- An entry that was read says what its last fields do. -/
theorem readFrom_of_ofBlob (run : ofBlob n v = .ok e) :
    ∃ fields, v = .object fields ∧ ReadFrom fields e := by
  unfold ofBlob at run
  split at run
  · next fields =>
    exact ⟨fields, rfl, Except.foldlM_reads (P := ReadFrom) ⟨.none, .none⟩
      (fun _ _ _ _ read step => read.snoc step) run⟩
  · cases run

end Entry

/-! ## Faults -/

/-- A fault says that the blob is invalid. -/
def GraphFault.Invalid (fault : GraphFault) : Prop := ∃ reason, fault = .invalidBlob reason

/-- To say that a blob is invalid is the one fault of reading. -/
theorem GraphFault.failsWith_invalid {α : Type} (reason : String) :
    Except.FailsWith Invalid (.error (.invalidBlob reason) : Except GraphFault α) := by
  intro fault same
  cases same
  exact ⟨reason, rfl⟩

/-- An id that cannot be read is reported as an invalid blob. -/
theorem NodeId.invalid_of_ofBlob (v : Json) :
    Except.FailsWith GraphFault.Invalid (NodeId.ofBlob v) := by
  unfold NodeId.ofBlob
  split
  · exact .ok _
  · exact GraphFault.failsWith_invalid _

theorem NodeId.invalid_of_listOfBlob (v : Json) :
    Except.FailsWith GraphFault.Invalid (NodeId.listOfBlob v) := by
  unfold NodeId.listOfBlob
  split
  · exact .mapM invalid_of_ofBlob _
  · exact GraphFault.failsWith_invalid _

theorem Entry.invalid_of_outputsOfBlob (n : NodeId) (v : Json) :
    Except.FailsWith GraphFault.Invalid (outputsOfBlob n v) := by
  unfold outputsOfBlob
  split
  · exact .foldlM (fun _ _ => (NodeId.invalid_of_listOfBlob _).bind fun _ => .ok _) _ _
  · exact GraphFault.failsWith_invalid _

/-- A field of an entry is read without any other fault. -/
theorem Entry.invalid_of_readField (n : NodeId) (e : Entry) (p : String × Json) :
    Except.FailsWith GraphFault.Invalid (readField n e p) := by
  unfold readField
  split
  · exact (invalid_of_outputsOfBlob n p.2).map _
  · split
    · exact (NodeId.invalid_of_listOfBlob p.2).map _
    · exact .ok _

theorem Entry.invalid_of_ofBlob (n : NodeId) (v : Json) :
    Except.FailsWith GraphFault.Invalid (ofBlob n v) := by
  unfold ofBlob
  split
  · exact .foldlM (invalid_of_readField n) _ _
  · exact GraphFault.failsWith_invalid _

/-! ## Graphs -/

namespace Graph

/-- A field of a blob has null or an id under the key of the root, or an entry under a key that
stands for an id. -/
structure ReadableField (p : String × Json) : Prop where
  root : p.1 = rootKey → p.2 = .null ∨ ∃ r : NodeId, p.2 = r.toJson
  key : p.1 ≠ rootKey → ∃ n : NodeId, n.WrittenAs p.1
  entry : p.1 ≠ rootKey → Entry.Readable p.2

/-- A value can be read as a graph if it is null, or an object and its fields can be read. -/
def Readable (blob : Json) : Prop :=
  blob = .null ∨ ∃ fields, blob = .object fields ∧ ∀ p ∈ fields, ReadableField p

/-- A field holds the entry of a node. -/
def IsFor (n : NodeId) (p : String × Json) : Prop := p.1 ≠ rootKey ∧ n.WrittenAs p.1

/-- Each id that a key stands for has one entry, at the place of the first field for it and read
from the last one. -/
structure EntriesReadFrom (fields : List (String × Json)) (m : OrderedMap NodeId Entry) : Prop where
  keys : ∃ named : List NodeId, List.Forall₂ (fun p n => n.WrittenAs p.1)
    (fields.filter (·.1 ≠ rootKey)) named ∧ m.keys = named.eraseDups
  values : ∀ n e, m.get? n = some e → ∃ before p behind lists, fields = before ++ p :: behind ∧
    IsFor n p ∧ (∀ q ∈ behind, ¬ IsFor n q) ∧ p.2 = .object lists ∧ e.ReadFrom lists

/-- The root is the id under its key, and the entries are those under the other keys. -/
structure ReadFrom (fields : List (String × Json)) (g : Graph) : Prop where
  root : ∀ r, g.root = some r ↔ Json.lastField? rootKey fields = some r.toJson
  entries : EntriesReadFrom fields g.entries

variable {g g' : Graph} {n : NodeId} {m : OrderedMap NodeId Entry} {e : Entry} {p : String × Json}
  {fields lists : List (String × Json)} {blob : Json}

/-- What one field of a graph does: it sets or clears the root, or it puts an entry under the id
that its key stands for. -/
theorem readField_eq_ok (run : readField g p = .ok g') :
    (p.1 = rootKey ∧ p.2 = .null ∧ g' = { g with root := none }) ∨
      (p.1 = rootKey ∧ ∃ r, p.2 = r.toJson ∧ g' = { g with root := some r }) ∨
      ∃ n lists e, IsFor n p ∧ p.2 = .object lists ∧ e.ReadFrom lists ∧
        Entry.Readable p.2 ∧ g' = { g with entries := g.entries.insert n e } := by
  unfold readField at run
  split at run
  · next key =>
    split at run
    · next null =>
      cases run
      exact Or.inl ⟨key, null, rfl⟩
    · obtain ⟨r, read, rfl⟩ := Except.map_eq_ok.1 run
      exact Or.inr (Or.inl ⟨key, r, NodeId.ofBlob_eq_ok_iff.1 read, rfl⟩)
  · next other =>
    split at run
    · next n key =>
      obtain ⟨e, read, rfl⟩ := Except.map_eq_ok.1 run
      obtain ⟨lists, object, said⟩ := Entry.readFrom_of_ofBlob read
      exact Or.inr (Or.inr ⟨n, lists, e, ⟨other, NodeId.ofKey?_eq_some_iff.1 key⟩, object, said,
        Entry.exists_ofBlob_iff.1 ⟨e, read⟩, rfl⟩)
    · cases run

/-- Again this does not depend on the fields before it. -/
theorem exists_readField_iff : (∃ g', readField g p = .ok g') ↔ ReadableField p := by
  constructor
  · rintro ⟨g', run⟩
    rcases readField_eq_ok run with ⟨key, null, _⟩ | ⟨key, r, id, _⟩ |
      ⟨n, lists, e, ⟨other, named⟩, _, _, readable, _⟩
    · exact ⟨fun _ => Or.inl null, fun other => absurd key other, fun other => absurd key other⟩
    · exact ⟨fun _ => Or.inr ⟨r, id⟩, fun other => absurd key other, fun other => absurd key other⟩
    · exact ⟨fun key => absurd key other, fun _ => ⟨n, named⟩, fun _ => readable⟩
  · rintro ⟨root, key, entry⟩
    unfold readField
    split
    · next atRoot =>
      split
      · exact ⟨_, rfl⟩
      · next given =>
        rcases root atRoot with null | ⟨r, id⟩
        · exact absurd null given
        · rw [id, NodeId.ofBlob_toJson]
          exact ⟨_, rfl⟩
    · next other =>
      obtain ⟨n, named⟩ := key other
      obtain ⟨e, read⟩ := (Entry.exists_ofBlob_iff (n := n)).2 (entry other)
      rw [NodeId.ofKey?_eq_some_iff.2 named]
      simp only [read]
      exact ⟨_, rfl⟩

/-- A field for the root leaves the entries. -/
theorem EntriesReadFrom.root (h : EntriesReadFrom fields m) (key : p.1 = rootKey) :
    EntriesReadFrom (fields ++ [p]) m where
  keys := by
    obtain ⟨named, all, keys⟩ := h.keys
    exact ⟨named, by simpa [List.filter_append, key] using all, keys⟩
  values := by
    intro n e held
    obtain ⟨before, q, behind, lists, split, named, last, object, said⟩ := h.values n e held
    refine ⟨before, q, behind ++ [p], lists, by simp [split], named, ?_, object, said⟩
    exact List.forall_mem_append.2 ⟨last, by simp [IsFor, key]⟩

/-- One more field decides about the entry of its node. -/
theorem EntriesReadFrom.insert (h : EntriesReadFrom fields m) (named : IsFor n p)
    (object : p.2 = .object lists) (said : e.ReadFrom lists) :
    EntriesReadFrom (fields ++ [p]) (m.insert n e) where
  keys := by
    obtain ⟨others, all, keys⟩ := h.keys
    refine ⟨others ++ [n], ?_, ?_⟩
    · rw [List.filter_append]
      refine List.rel_append all ?_
      simpa [named.1] using List.Forall₂.cons named.2 .nil
    · rw [List.eraseDups_append, ← keys]
      by_cases old : n ∈ others
      · rw [OrderedMap.keys_insert_of_mem (by rwa [keys, List.mem_eraseDups])]
        simp [List.removeAll, old]
      · rw [OrderedMap.keys_insert_of_not_mem (by rwa [keys, List.mem_eraseDups])]
        simp [List.removeAll, old, List.eraseDups_cons]
  values := by
    intro k e' held
    rw [OrderedMap.get?_insert] at held
    split at held
    · next same =>
      cases held
      exact ⟨fields, p, [], lists, rfl, same ▸ named, List.forall_mem_nil _, object, said⟩
    · next other =>
      obtain ⟨before, q, behind, lists', split, named', last, object', said'⟩ := h.values k e' held
      refine ⟨before, q, behind ++ [p], lists', by simp [split], named', ?_, object', said'⟩
      refine List.forall_mem_append.2 ⟨last, List.forall_mem_singleton.2 fun also => ?_⟩
      exact other (named.2.unique also.2)

/-- One more field decides about the root or about one entry. -/
theorem ReadFrom.snoc (h : g.ReadFrom fields) (run : readField g p = .ok g') :
    ReadFrom (fields ++ [p]) g' := by
  rcases readField_eq_ok run with ⟨key, null, rfl⟩ | ⟨key, r, id, rfl⟩ |
    ⟨n, lists, e, named, object, said, _, rfl⟩
  · refine ⟨fun r => ?_, h.entries.root key⟩
    rw [Json.lastField?_append, if_pos key, null]
    exact iff_of_false nofun nofun
  · refine ⟨fun r' => ?_, h.entries.root key⟩
    rw [Json.lastField?_append, if_pos key, id, Option.some_inj, Option.some_inj,
      NodeId.toJson_inj]
  · refine ⟨fun r => ?_, h.entries.insert named object said⟩
    rw [Json.lastField?_append, if_neg named.1]
    exact h.root r

/-! ## Blobs -/

/-- A graph can be read if it is null or each of its fields can be read. -/
theorem exists_ofBlob_iff : (∃ g, ofBlob blob = .ok g) ↔ Readable blob := by
  unfold ofBlob Readable
  split
  · simp
  · next fields =>
    rw [Except.exists_foldlM_iff (f := readField) fun _ _ => exists_readField_iff]
    simp
  · next given other =>
    refine iff_of_false nofun ?_
    rintro (null | ⟨fields, rfl, _⟩)
    · exact given null
    · exact other fields rfl

/-- A graph that was read says what its fields do, or is empty. -/
theorem readFrom_of_ofBlob (run : ofBlob blob = .ok g) :
    (blob = .null ∧ g = .empty) ∨ ∃ fields, blob = .object fields ∧ g.ReadFrom fields := by
  unfold ofBlob at run
  split at run
  · cases run
    exact Or.inl ⟨rfl, rfl⟩
  · next fields =>
    have start : ReadFrom [] .empty :=
      ⟨fun _ => iff_of_false nofun nofun, ⟨[], .nil, rfl⟩, nofun⟩
    exact Or.inr ⟨fields, rfl, Except.foldlM_reads start
      (fun _ _ _ _ read step => read.snoc step) run⟩
  · cases run

theorem invalid_of_readField (g : Graph) (p : String × Json) :
    Except.FailsWith GraphFault.Invalid (readField g p) := by
  unfold readField
  split
  · split
    · exact .ok _
    · exact (NodeId.invalid_of_ofBlob _).map _
  · split
    · exact (Entry.invalid_of_ofBlob _ _).map _
    · exact GraphFault.failsWith_invalid _

theorem invalid_of_ofBlob (blob : Json) : Except.FailsWith GraphFault.Invalid (ofBlob blob) := by
  unfold ofBlob
  split
  · exact .ok _
  · exact .foldlM invalid_of_readField _ _
  · exact GraphFault.failsWith_invalid _

/-- A blob is read exactly if it has the form of a graph, and invalid otherwise. Its graph has the
root that it says and, for each id that one of the other keys stands for, an entry at the place of
the first field for it, read from the last one. -/
theorem ofBlob_reads (blob : Json) :
    ((∃ g, ofBlob blob = .ok g) ↔ Readable blob) ∧
    (¬ Readable blob → ∃ reason, ofBlob blob = .error (.invalidBlob reason)) ∧
    ∀ g, ofBlob blob = .ok g →
      (blob = .null ∧ g = .empty) ∨ ∃ fields, blob = .object fields ∧ g.ReadFrom fields := by
  refine ⟨exists_ofBlob_iff, fun unreadable => ?_, fun g => readFrom_of_ofBlob⟩
  cases run : ofBlob blob with
  | ok g => exact absurd (exists_ofBlob_iff.1 ⟨g, run⟩) unreadable
  | error fault =>
    obtain ⟨reason, rfl⟩ := invalid_of_ofBlob blob fault run
    exact ⟨reason, rfl⟩

example : ofBlob (.object [("+01", .object []), ("2", .object []),
    ("1", .object [("children", .array []), ("label", .null)])]) =
    .ok { entries := .ofList [(1, { children := some [] }), (2, {})] } := by rfl

end Graph

end Autoflow

/-!
# Ids of nodes and workflows

Both are unsigned 64-bit numbers, written in decimal. Node ids are ordered by number;
fresh ones are counted up and wrap at the end of the range.
-/

namespace Autoflow

/-- The id of a node. -/
structure NodeId where
  val : UInt64
deriving DecidableEq, Inhabited

namespace NodeId

/-- The id as a number. -/
def toNat (n : NodeId) : Nat := n.val.toNat

/-- The id of a number, if it is in range. -/
def ofNat? (n : Nat) : Option NodeId := if n < UInt64.size then some ⟨UInt64.ofNat n⟩ else none

/-- The id counted next. -/
def next (n : NodeId) : NodeId := ⟨n.val + 1⟩

/-- The id to count on from so that fresh ids are past those of a list: the one after the greatest
of them, unless the counter is past that one anyway. After the last id of all comes 0, so a list
with that one leaves the counter where it is. -/
def beyond (counter : NodeId) (used : List NodeId) : NodeId :=
  match (used.map val).max? with
  | some greatest => ⟨max counter.val (greatest + 1)⟩
  | none => counter

instance (n : Nat) : OfNat NodeId n := ⟨⟨OfNat.ofNat n⟩⟩

instance : LT NodeId := ⟨fun a b => a.toNat < b.toNat⟩

instance (a b : NodeId) : Decidable (a < b) := inferInstanceAs (Decidable (a.toNat < b.toNat))

instance : ToString NodeId := ⟨fun n => toString n.toNat⟩

theorem toNat_lt (n : NodeId) : n.toNat < UInt64.size := n.val.toNat_lt

/-- An id is known by its number. -/
theorem toNat_inj {a b : NodeId} : a.toNat = b.toNat ↔ a = b := by
  constructor
  · intro h
    cases a; cases b
    exact congrArg _ (UInt64.toNat_inj.1 h)
  · exact fun h => h ▸ rfl

theorem lt_def {a b : NodeId} : a < b ↔ a.toNat < b.toNat := Iff.rfl

theorem lt_irrefl (a : NodeId) : ¬ a < a := Nat.lt_irrefl _

theorem lt_trans {a b c : NodeId} (h : a < b) (h' : b < c) : a < c := Nat.lt_trans h h'

theorem lt_or_eq_or_gt (a b : NodeId) : a < b ∨ a = b ∨ b < a := by
  rw [← toNat_inj, lt_def, lt_def]
  omega

/-- A number in range is the number of its id. -/
theorem toNat_of_ofNat? {n : Nat} {id : NodeId} (h : ofNat? n = some id) : id.toNat = n := by
  unfold ofNat? at h
  split at h
  · next hn =>
    cases h
    exact UInt64.toNat_ofNat_of_lt hn
  · cases h

/-- Every id is the id of its number. -/
theorem ofNat?_toNat (id : NodeId) : ofNat? id.toNat = some id := by
  unfold ofNat?
  rw [if_pos id.toNat_lt]
  exact congrArg (some ∘ NodeId.mk) (UInt64.ofNat_toNat)

end NodeId

/-- The id of a workflow. -/
structure WorkflowId where
  val : UInt64
deriving DecidableEq, Inhabited

namespace WorkflowId

/-- The id as a number. -/
def toNat (w : WorkflowId) : Nat := w.val.toNat

/-- The id of a number, if it is in range. -/
def ofNat? (n : Nat) : Option WorkflowId := if n < UInt64.size then some ⟨UInt64.ofNat n⟩ else none

instance (n : Nat) : OfNat WorkflowId n := ⟨⟨OfNat.ofNat n⟩⟩

instance : ToString WorkflowId := ⟨fun w => toString w.toNat⟩

theorem toNat_inj {a b : WorkflowId} : a.toNat = b.toNat ↔ a = b := by
  refine ⟨fun h => ?_, congrArg toNat⟩
  cases a; cases b
  exact congrArg mk (UInt64.toNat_inj.1 h)

end WorkflowId

end Autoflow

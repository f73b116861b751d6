import Autoflow.Proofs.Graph.Substitution
import Mathlib.Data.Finmap
import Mathlib.Data.List.Dedup

/-!
# Outputs in the order of their arrival

The lists by output are kept as a vector of rows that is searched from the front. Whatever changes
it goes through, no output gets a second row, it answers like a finite map of lists, and the rows
stand in the order in which their outputs arrived, that is, were inserted while they were absent
(`run_keeps_order`). A list that is replaced keeps its row, and an output that was taken out and
comes back stands last.
-/

namespace Autoflow

namespace Assoc

variable {κ ν : Type} [DecidableEq κ] {k : κ} {l : List (κ × ν)}

/-- A change of a key that is not there does nothing. -/
theorem change_of_not_mem (new : k ∉ keys l) (f : ν → ν) : change k f l = l := by
  induction l with
  | nil => rfl
  | cons p l ih =>
    obtain ⟨other, rest⟩ := List.ne_and_not_mem_of_not_mem_cons new
    rw [change, if_neg other.symm, ih rest]

/-- A key that is there has its value set in place. -/
theorem change_const (there : k ∈ keys l) (v : ν) : change k (fun _ => v) l = put k v l := by
  induction l with
  | nil => cases there
  | cons p l ih =>
    by_cases same : p.1 = k
    · rw [change, put, if_pos same, if_pos same]
    · have rest : k ∈ keys l := (List.mem_cons.1 there).resolve_left (Ne.symm same)
      rw [change, put, if_neg same, if_neg same, ih rest]

end Assoc

namespace Outputs

/-- A change of the lists by output. -/
inductive Change where
  | insert (output : String) (ids : List NodeId)
  | remove (output : String)
  | push (output : String) (node : NodeId)

/-- Changes one after the other, with the answer to each. -/
def run {σ : Type} (step : σ → Change → Option (List NodeId) × σ) :
    σ → List Change → List (Option (List NodeId)) × σ
  | s, [] => ([], s)
  | s, change :: changes =>
    let (answer, t) := step s change
    let (answers, u) := run step t changes
    (answer :: answers, u)

/-- Outputs are made without a list or with a single one. -/
def made : Option (String × List NodeId) → Outputs
  | none => .empty
  | some (output, ids) => .single output ids

/-- The outputs after a change. The answer is the list that was there before; a push goes into that
list where it stands, and nowhere if there is none. -/
def apply (o : Outputs) : Change → Option (List NodeId) × Outputs
  | .insert output ids => (o.get? output, o.insert output ids)
  | .remove output => (o.get? output, o.erase output)
  | .push output node => (o.get? output, o.push output node)

/-! ## As a vector -/

/-- The lists by output as a plain vector of rows. -/
abbrev Rows := List (String × List NodeId)

namespace Rows

/-- The place of the first row of an output. -/
def place? (rows : Rows) (output : String) : Option Nat := rows.findIdx? fun row => row.1 = output

/-- The list in the first row of an output. -/
def get? (rows : Rows) (output : String) : Option (List NodeId) :=
  (rows.find? fun row => row.1 = output).map Prod.snd

/-- Edits the rows at the first one of an output, and gives the list that stood there. -/
def atRow (rows : Rows) (output : String) (edit : Nat → Rows → Rows) :
    Option (List NodeId) × Rows :=
  match rows.place? output with
  | some i => (rows[i]?.map Prod.snd, edit i rows)
  | none => (none, rows)

/-- Changes the list of an output where it stands. -/
def change (rows : Rows) (output : String) (f : List NodeId → List NodeId) :
    Option (List NodeId) × Rows :=
  rows.atRow output fun i rows => rows.modify i fun row => (row.1, f row.2)

/-- Sets the list of an output in its row, or else in a new row at the end. -/
def insert (rows : Rows) (output : String) (ids : List NodeId) : Option (List NodeId) × Rows :=
  match rows.change output fun _ => ids with
  | (some previous, rows) => (some previous, rows)
  | (none, rows) => (none, rows ++ [(output, ids)])

/-- Takes the row of an output out. -/
def remove (rows : Rows) (output : String) : Option (List NodeId) × Rows :=
  rows.atRow output fun i rows => rows.eraseIdx i

/-- The rows after a change. The answer is the list that was there before. -/
def apply (rows : Rows) : Change → Option (List NodeId) × Rows
  | .insert output ids => rows.insert output ids
  | .remove output => rows.remove output
  | .push output node => rows.change output (· ++ [node])

/-- Looking for the first row with an output finds its list. -/
theorem get?_eq (rows : Rows) (output : String) : rows.get? output = Assoc.find? output rows := by
  induction rows with
  | nil => rfl
  | cons row rows ih =>
    by_cases same : row.1 = output
    · simp [get?, Assoc.find?, same]
    · simpa [get?, Assoc.find?, same] using ih

/-- The place of an output is counted from the first row. -/
theorem place?_cons (row : String × List NodeId) (rows : Rows) (output : String) :
    place? (row :: rows) output =
      if row.1 = output then some 0 else (rows.place? output).map (· + 1) := by
  simp [place?, List.findIdx?_cons]

theorem atRow_here {row : String × List NodeId} {output : String} (same : row.1 = output)
    (rows : Rows) (edit : Nat → Rows → Rows) :
    atRow (row :: rows) output edit = (some row.2, edit 0 (row :: rows)) := by
  rw [atRow, place?_cons, if_pos same]
  rfl

/-- A row of another output stays in front. -/
theorem atRow_cons {row : String × List NodeId} {output : String} {edit : Nat → Rows → Rows}
    (other : row.1 ≠ output) (behind : ∀ i rows, edit (i + 1) (row :: rows) = row :: edit i rows)
    (rows : Rows) : atRow (row :: rows) output edit =
      ((rows.atRow output edit).1, row :: (rows.atRow output edit).2) := by
  unfold atRow
  rw [place?_cons, if_neg other]
  cases rows.place? output with
  | none => rfl
  | some i => exact Prod.ext rfl (behind i rows)

/-- A change of a row in its place keeps the order of the rows. -/
theorem change_eq (rows : Rows) (output : String) (f : List NodeId → List NodeId) :
    rows.change output f = (Assoc.find? output rows, Assoc.change output f rows) := by
  induction rows with
  | nil => rfl
  | cons row rows ih =>
    unfold change at ih ⊢
    rw [Assoc.find?, Assoc.change]
    by_cases same : row.1 = output
    · rw [atRow_here same, if_pos same, if_pos same]
      rfl
    · rw [atRow_cons same, ih, if_neg same, if_neg same]
      exact fun _ _ => rfl

/-- A row that is removed lets the later ones move up. -/
theorem remove_eq (rows : Rows) (output : String) :
    rows.remove output = (Assoc.find? output rows, Assoc.drop output rows) := by
  induction rows with
  | nil => rfl
  | cons row rows ih =>
    unfold remove at ih ⊢
    rw [Assoc.find?, Assoc.drop]
    by_cases same : row.1 = output
    · rw [atRow_here same, if_pos same, if_pos same]
      rfl
    · rw [atRow_cons same, ih, if_neg same, if_neg same]
      exact fun _ _ => rfl

/-- An output that is there gets another list in its place, and a new one comes last. -/
theorem insert_eq (rows : Rows) (output : String) (ids : List NodeId) :
    rows.insert output ids = (Assoc.find? output rows, Assoc.put output ids rows) := by
  rw [insert, change_eq]
  by_cases there : output ∈ Assoc.keys rows
  · obtain ⟨previous, held⟩ := Option.isSome_iff_exists.1 (Assoc.find?_isSome_iff.2 there)
    rw [held, Assoc.change_const there]
  · rw [Assoc.find?_eq_none_iff.2 there, Assoc.change_of_not_mem there, Assoc.put_of_not_mem there]

/-- The outputs do as their rows do. -/
theorem apply_toList (o : Outputs) (rows : Rows) (change : Change) (same : o.toList = rows) :
    (o.apply change).1 = (rows.apply change).1 ∧
      (o.apply change).2.toList = (rows.apply change).2 := by
  subst same
  cases change with
  | insert output ids =>
    rw [apply, insert_eq]
    exact ⟨rfl, rfl⟩
  | remove output =>
    rw [apply, remove_eq]
    exact ⟨rfl, rfl⟩
  | push output node =>
    rw [apply, change_eq]
    exact ⟨rfl, rfl⟩

end Rows

/-! ## As a finite map -/

/-- A finite map of lists, and the outputs that arrived in it, one after the other. -/
structure Ledger where
  /-- The lists. -/
  lists : Finmap fun _ : String => List NodeId
  /-- Each output, as often as it was inserted while it was absent. -/
  arrivals : List String

namespace Ledger

/-- No list, or a single one. -/
def made : Option (String × List NodeId) → Ledger
  | none => ⟨∅, []⟩
  | some (output, ids) => ⟨.singleton output ids, [output]⟩

/-- The ledger after a change. The answer is the list that was there before. -/
def apply (l : Ledger) : Change → Option (List NodeId) × Ledger
  | .insert output ids =>
    (l.lists.lookup output,
      { lists := l.lists.insert output ids,
        arrivals := if output ∈ l.lists then l.arrivals else l.arrivals ++ [output] })
  | .remove output => (l.lists.lookup output, { l with lists := l.lists.erase output })
  | .push output node =>
    (l.lists.lookup output,
      { l with lists :=
          match l.lists.lookup output with
          | some ids => l.lists.insert output (ids ++ [node])
          | none => l.lists })

/-- The outputs that are present, in the order in which they last arrived: of several items that
are the same, `dedup` keeps the last. -/
def order (l : Ledger) : List String := l.arrivals.dedup.filter (· ∈ l.lists)

end Ledger

/-- Outputs that hold the lists of a ledger in its order. -/
structure Holds (o : Outputs) (l : Ledger) : Prop where
  get : ∀ output, o.get? output = l.lists.lookup output
  keys : o.keys = l.order

variable {o : Outputs} {l : Ledger}

namespace Ledger

/-- An output that arrives again counts as the last one only. -/
theorem dedup_concat (arrivals : List String) (output : String) :
    (arrivals ++ [output]).dedup = arrivals.dedup.filter (· ≠ output) ++ [output] := by
  induction arrivals with
  | nil => rfl
  | cons a arrivals ih =>
    rw [List.cons_append]
    by_cases again : a ∈ arrivals
    · rw [List.dedup_cons_of_mem (List.mem_append_left _ again), List.dedup_cons_of_mem again, ih]
    · by_cases same : a = output
      · subst same
        rw [List.dedup_cons_of_mem (by simp), List.dedup_cons_of_notMem again, ih]
        simp
      · rw [List.dedup_cons_of_notMem (by simp [again, same]), List.dedup_cons_of_notMem again, ih]
        simp [same]

/-- Lists may change under outputs that are present. -/
theorem order_set {output : String} (there : output ∈ l.lists) (ids : List NodeId) :
    order { l with lists := l.lists.insert output ids } = l.order := by
  refine List.filter_congr fun a _ => ?_
  rw [decide_eq_decide, Finmap.mem_insert, or_iff_right_iff_imp]
  exact fun same => same ▸ there

/-- An output that arrives stands last. Where it stood before it was taken out does not count. -/
theorem order_insert {output : String} (new : output ∉ l.lists) (ids : List NodeId) :
    order ⟨l.lists.insert output ids, l.arrivals ++ [output]⟩ = l.order ++ [output] := by
  have others : ∀ a, (a ∈ l.lists.insert output ids ∧ a ≠ output) ↔ a ∈ l.lists := by
    intro a
    rw [Finmap.mem_insert]
    constructor
    · rintro ⟨same | there, other⟩
      · exact absurd same other
      · exact there
    · exact fun there => ⟨Or.inr there, fun same => new (same ▸ there)⟩
  unfold order
  rw [dedup_concat, List.filter_append, List.filter_filter]
  simp only [← Bool.decide_and, others]
  simp [Finmap.mem_insert]

/-- An output whose list is gone is not in the order any more. -/
theorem order_erase (l : Ledger) (output : String) :
    order { l with lists := l.lists.erase output } = l.order.filter (· ≠ output) := by
  unfold order
  rw [List.filter_filter]
  exact List.filter_congr fun a _ => by simp [Finmap.mem_erase]

end Ledger

namespace Holds

/-- The outputs that have a row are those with a list in the ledger. -/
theorem mem_keys_iff (h : Holds o l) {output : String} : output ∈ o.keys ↔ output ∈ l.lists := by
  rw [OrderedMap.mem_keys_iff, h.get, Finmap.mem_iff]

/-- Each change keeps the correspondence: an insertion -/
theorem insert (h : Holds o l) (output : String) (ids : List NodeId) :
    Holds (o.insert output ids) (l.apply (.insert output ids)).2 := by
  refine ⟨fun a => ?_, ?_⟩
  · rw [OrderedMap.get?_insert]
    split
    · next same => exact same ▸ (Finmap.lookup_insert l.lists).symm
    · next other =>
      exact (h.get a).trans (Finmap.lookup_insert_of_ne l.lists (Ne.symm other)).symm
  · by_cases there : output ∈ l.lists
    · rw [OrderedMap.keys_insert_of_mem (h.mem_keys_iff.2 there), h.keys]
      simp only [Ledger.apply, if_pos there]
      exact (Ledger.order_set there ids).symm
    · rw [OrderedMap.keys_insert_of_not_mem (mt h.mem_keys_iff.1 there), h.keys]
      simp only [Ledger.apply, if_neg there]
      exact (Ledger.order_insert there ids).symm

/-- a removal, -/
theorem remove (h : Holds o l) (output : String) :
    Holds (o.erase output) (l.apply (.remove output)).2 := by
  refine ⟨fun a => ?_, ?_⟩
  · rw [OrderedMap.get?_erase]
    split
    · next same => exact same ▸ (Finmap.lookup_erase output l.lists).symm
    · next other => exact (h.get a).trans (Finmap.lookup_erase_ne (Ne.symm other)).symm
  · rw [OrderedMap.keys_erase_eq_filter, h.keys]
    exact (Ledger.order_erase l output).symm

/-- and one more node on an output, which arrives if it was not there. -/
theorem push (h : Holds o l) (output : String) (node : NodeId) :
    Holds (o.push output node) (l.apply (.push output node)).2 := by
  have keys : (o.push output node).keys = o.keys := OrderedMap.keys_modify o output _
  cases held : l.lists.lookup output with
  | none =>
    simp only [Ledger.apply, held]
    refine ⟨fun a => ?_, keys.trans h.keys⟩
    rw [Outputs.push, OrderedMap.get?_modify, h.get]
    split
    · next same => rw [← same, held, Option.map_none]
    · rfl
  | some ids =>
    simp only [Ledger.apply, held]
    have there : output ∈ l.lists := Finmap.mem_of_lookup_eq_some held
    refine ⟨fun a => ?_, ?_⟩
    · rw [Outputs.push, OrderedMap.get?_modify, h.get]
      split
      · next same => rw [← same, held, Finmap.lookup_insert, Option.map_some]
      · next other => exact (Finmap.lookup_insert_of_ne l.lists (Ne.symm other)).symm
    · rw [keys, h.keys]
      exact (Ledger.order_set there _).symm

/-- It holds at the start. -/
theorem made (start : Option (String × List NodeId)) :
    Holds (Outputs.made start) (Ledger.made start) := by
  cases start with
  | none =>
    refine ⟨fun a => ?_, rfl⟩
    rw [Ledger.made, Finmap.lookup_empty]
    rfl
  | some p =>
    obtain ⟨output, ids⟩ := p
    refine ⟨fun a => ?_, ?_⟩
    · rw [Outputs.made, OrderedMap.get?_single, Ledger.made]
      split
      · next same => rw [← same, Finmap.lookup_singleton_eq]
      · next other =>
        rw [Finmap.lookup_eq_none.2]
        exact fun mem => other ((Finmap.mem_singleton a output ids).1 mem).symm
    · simp [Outputs.made, Ledger.made, Ledger.order, OrderedMap.single, OrderedMap.keys,
        Finmap.mem_singleton]

/-- A change has the same answer, and the outputs hold what the ledger has then. -/
theorem apply (h : Holds o l) (change : Change) :
    (o.apply change).1 = (l.apply change).1 ∧ Holds (o.apply change).2 (l.apply change).2 := by
  cases change with
  | insert output ids => exact ⟨h.get output, h.insert output ids⟩
  | remove output => exact ⟨h.get output, h.remove output⟩
  | push output node => exact ⟨h.get output, h.push output node⟩

/-- The rows of the outputs can be read off from the ledger. -/
theorem toList_eq (h : Holds o l) :
    o.toList = l.order.filterMap fun a => (l.lists.lookup a).map fun ids => (a, ids) := by
  have pairs := o.map_toList
  calc
    o.toList = (o.toList.map (Prod.map id some)).filterMap fun p =>
        p.2.map fun ids => (p.1, ids) := by
      rw [List.filterMap_map]
      exact List.filterMap_some.symm
    _ = l.order.filterMap fun a => (l.lists.lookup a).map fun ids => (a, ids) := by
      rw [pairs, List.filterMap_map, h.keys]
      exact List.filterMap_congr fun a _ => by rw [Function.comp_apply, h.get]

/-- The successors are the lists in the order of arrival. -/
theorem allIds_eq (h : Holds o l) :
    o.allIds = l.order.flatMap fun a => (l.lists.lookup a).getD [] := by
  have pairs := o.map_toList
  calc
    o.allIds = (o.toList.map (Prod.map id some)).flatMap fun p => p.2.getD [] := by
      rw [List.flatMap_map]
      rfl
    _ = l.order.flatMap fun a => (l.lists.lookup a).getD [] := by
      rw [pairs, List.flatMap_map, h.keys]
      simp only [h.get]

end Holds

/-- If each change has the same answer in two ways to apply it and keeps the states in
correspondence, so do all changes that are made one after the other. -/
theorem run_corresponds {σ τ : Type} {R : σ → τ → Prop}
    {step : σ → Change → Option (List NodeId) × σ} {step' : τ → Change → Option (List NodeId) × τ}
    (each : ∀ s t change, R s t → (step s change).1 = (step' t change).1 ∧
      R (step s change).2 (step' t change).2)
    {s : σ} {t : τ} (start : R s t) (changes : List Change) :
    (run step s changes).1 = (run step' t changes).1 ∧
      R (run step s changes).2 (run step' t changes).2 := by
  induction changes generalizing s t with
  | nil => exact ⟨rfl, start⟩
  | cons change changes ih =>
    obtain ⟨answer, related⟩ := each s t change start
    obtain ⟨answers, ends⟩ := ih related
    exact ⟨congrArg₂ List.cons answer answers, ends⟩

/-- Outputs that are a finite map of lists, one row for each, in the order of their arrival. -/
structure Reports (o : Outputs) (l : Ledger) : Prop where
  distinct : (o.toList.map Prod.fst).Nodup
  get : ∀ output, o.get? output = l.lists.lookup output
  search : ∀ output, Rows.get? o.toList output = l.lists.lookup output
  contains : ∀ output, o.contains output = true ↔ output ∈ l.lists
  keys : o.keys = l.order
  rows : o.toList = l.order.filterMap fun a => (l.lists.lookup a).map fun ids => (a, ids)
  allIds : o.allIds = l.order.flatMap fun a => (l.lists.lookup a).getD []

/-- What can be asked of the outputs is then answered from the ledger. -/
theorem Holds.reports (h : Holds o l) : o.Reports l where
  distinct := o.nodup
  get := h.get
  search output := (Rows.get?_eq o.toList output).trans (h.get output)
  contains _ := OrderedMap.contains_iff.trans h.mem_keys_iff
  keys := h.keys
  rows := h.toList_eq
  allIds := h.allIds_eq

/-- Whatever changes are made, the outputs, their rows and the finite map give the same answers, and
the rows stand in the order in which the outputs that are present last arrived. -/
theorem run_keeps_order (start : Option (String × List NodeId)) (changes : List Change) :
    ∃ answers o l, run apply (made start) changes = (answers, o) ∧
      run Rows.apply start.toList changes = (answers, o.toList) ∧
      run Ledger.apply (Ledger.made start) changes = (answers, l) ∧ o.Reports l := by
  have first : (made start).toList = start.toList := by cases start <;> rfl
  -- The rows are those of the outputs after each change, and the outputs hold what the ledger has.
  obtain ⟨vector, rows⟩ := run_corresponds Rows.apply_toList first changes
  obtain ⟨map, holds⟩ :=
    run_corresponds (R := Holds) (fun _ _ change h => h.apply change) (.made start) changes
  refine ⟨_, _, _, rfl, ?_, ?_, holds.reports⟩
  · exact Prod.ext vector.symm rows.symm
  · exact Prod.ext map.symm rfl

/-- An output that comes back stands last. -/
example : (run apply (made (some ("b", [1]))) [.insert "" [2], .insert "b" [3], .push "" 4,
    .remove "b", .insert "b" [5]]).2.toList = [("", [2, 4]), ("b", [5])] := by decide

end Outputs

end Autoflow

import Autoflow.Proofs.Graph.Captioning
import Mathlib.Data.Finset.Card

/-!
# Labels asked for one after the other

A rendering asks for labels of nodes in any order and for the same ones again and again. The search
for a label tries one after the other until it comes to one that no other node has. Those that it
passes over belong to other nodes that were asked for before, to each of them one at most
(`Given.hyphens_le`), so it ends after as many rounds as there are such nodes and one more. What was
passed over once stays taken, which is why a node gets the same label every time (`calls_settle`).
-/

namespace Autoflow.Captions

variable {source : LabelSource} {used : List (String × NodeId)} {ids : List NodeId} {n : NodeId}
  {own : String} {k : Nat}

theorem toList_hyphened (own : String) (k : Nat) :
    (hyphened own k).toList = own.toList ++ List.replicate k '-' := by
  induction k generalizing own with
  | zero => simp [hyphened_zero]
  | succ k ih =>
    rw [hyphened_succ, ih, String.toList_push, List.append_assoc, List.replicate_succ]
    rfl

/-- Different numbers of hyphens make different labels. -/
theorem hyphened_injective (own : String) : Function.Injective (hyphened own) := by
  intro j k same
  have length := congrArg (fun l : String => l.toList.length) same
  simpa [toList_hyphened] using length

/-! ## The search ends -/

/-- The search of `freeLabel`, given up if it has not ended after so many rounds. -/
def freeWithin (used : List (String × NodeId)) (n : NodeId) : Nat → String → Option String
  | 0, _ => none
  | rounds + 1, label =>
    match Assoc.find? label used with
    | none => some label
    | some m => if m = n then some label else freeWithin used n rounds (label.push '-')

/-- The search takes one round for each label that another node has, and one more. -/
theorem freeWithin_eq (taken : ∀ j < k, ∃ m ≠ n, Assoc.find? (hyphened own j) used = some m)
    (last : ∀ m, Assoc.find? (hyphened own k) used = some m → m = n) (rounds : Nat) :
    freeWithin used n rounds own = if k < rounds then some (hyphened own k) else none := by
  induction k generalizing own rounds with
  | zero =>
    cases rounds with
    | zero => rfl
    | succ rounds =>
      rw [if_pos rounds.succ_pos, freeWithin]
      split
      · rfl
      · next m held => exact if_pos (last m held)
  | succ k ih =>
    cases rounds with
    | zero => rfl
    | succ rounds =>
      obtain ⟨m, other, held⟩ := taken 0 k.succ_pos
      have rest := ih (fun j below => taken (j + 1) (Nat.succ_lt_succ below)) last rounds
      rw [hyphened_zero] at held
      simp only [freeWithin, held, if_neg other, rest, Nat.succ_lt_succ_iff]
      rfl

/-- A label has at most as many hyphens as there are other nodes with labels. -/
theorem Given.hyphens_le (given : Given source used) {nodes : Finset NodeId}
    (named : ∀ l m, Assoc.find? l used = some m → m ∈ nodes)
    (taken : ∀ j < k, ∃ m ≠ n, Assoc.find? (hyphened own j) used = some m) :
    k ≤ (nodes.erase n).card := by
  choose! holder other held using taken
  have maps : Set.MapsTo holder (Finset.range k) (nodes.erase n) := by
    intro j below
    have below := Finset.mem_range.1 below
    exact Finset.mem_erase.2 ⟨other j below, named _ _ (held j below)⟩
  have inj : Set.InjOn holder (Finset.range k) := by
    intro i belowi j belowj same
    have heldi := held i (Finset.mem_range.1 belowi)
    have heldj := held j (Finset.mem_range.1 belowj)
    rw [same] at heldi
    exact hyphened_injective own (given.unique heldi heldj)
  simpa using Finset.card_le_card_of_injOn holder maps inj

/-! ## Calls for labels -/

/-- A call for the label of a node, after calls for some nodes. It returns the own label of the node
with as few hyphens as are needed: without any of them it is the label of another node that was
asked for before. The search for it takes one round for each hyphen and one more. -/
def Finds (source : LabelSource) (caption : NodeId → String) (before : List NodeId) (n : NodeId) :
    Prop :=
  ∃ s own k, before.mapM (label source) {} = .ok (before.map caption) s ∧
    source.node n = some own ∧ caption n = hyphened own k ∧
    (∀ j < k, ∃ m ∈ before, m ≠ n ∧ caption m = hyphened own j) ∧
    k ≤ (before.toFinset.erase n).card ∧
    ∀ rounds, freeWithin s.used n rounds own = if k < rounds then some (caption n) else none

/-- Calls for labels are all answered, each node gets one label, and no other node gets it. -/
structure Settles (source : LabelSource) (ids : List NodeId) (caption : NodeId → String) :
    Prop where
  answers : ∃ s, ids.mapM (label source) {} = .ok (ids.map caption) s
  distinct : ∀ n ∈ ids, ∀ m ∈ ids, caption n = caption m → n = m
  finds : ∀ before n after, ids = before ++ n :: after → Finds source caption before n

theorem calls_write (known : ∀ n ∈ ids, (source.node n).isSome) :
    Writes source ids (fun c => ids.map c) (ids.mapM (label source)) := by
  have each := Writes.mapM fun n mem => label_writes (known n mem)
  exact each.congr (by simp) fun _ => rfl

/-- What a run of calls leaves, from the first one on: the labels of the nodes that were asked
for. -/
theorem exists_calls (known : ∀ n ∈ ids, (source.node n).isSome) :
    ∃ texts s, ids.mapM (label source) {} = .ok texts s ∧ Given source s.used ∧
      (∀ n ∈ ids, ∃ l, Assoc.find? l s.used = some n) ∧
      (∀ l n, Assoc.find? l s.used = some n → n ∈ ids) ∧
      ∀ caption, Follows caption s.used → texts = ids.map caption := by
  obtain ⟨texts, s, run, given, _, named, new, text⟩ := calls_write known {} (given_nil source)
  refine ⟨texts, s, run, given, named, fun l n held => ?_, text⟩
  rcases new l n held with mem | held
  · exact mem
  · cases held

section Parts

variable {ι β : Type} {step : ι → Labeling β} {s t u : Captions}

theorem mapM_cons_eq_ok {i : ι} {l : List ι} {b : β} {bs : List β} (first : step i s = .ok b t)
    (rest : l.mapM step t = .ok bs u) : (i :: l).mapM step s = .ok (b :: bs) u := by
  rw [List.mapM_cons]
  simp only [bind, EStateM.bind, first, rest]
  rfl

theorem mapM_append_eq_ok {l l' : List ι} {bs bs' : List β} (first : l.mapM step s = .ok bs t)
    (rest : l'.mapM step t = .ok bs' u) : (l ++ l').mapM step s = .ok (bs ++ bs') u := by
  rw [List.mapM_append]
  simp only [bind, EStateM.bind, first, rest]
  rfl

end Parts

/-- The calls before a call, and what it finds: the labels that were given stay given, so they are
those in the end. -/
theorem finds_of_calls {caption : NodeId → String} {before after : List NodeId}
    {texts : List String} {t : Captions}
    (known : ∀ m ∈ before ++ n :: after, (source.node m).isSome)
    (run : (before ++ n :: after).mapM (label source) {} = .ok texts t)
    (follows : Follows caption t.used) : Finds source caption before n := by
  obtain ⟨knownBefore, knownRest⟩ := List.forall_mem_append.1 known
  obtain ⟨first, s, runBefore, given, named, asked, text⟩ := exists_calls knownBefore
  obtain ⟨own, owned⟩ := Option.isSome_iff_exists.1 (knownRest n List.mem_cons_self)
  -- the call itself, and the calls after it
  have call := label_eq_ok owned s
  obtain ⟨rest, u, runRest, _, kept, _⟩ :=
    calls_write (List.forall_mem_cons.1 knownRest).2
      { s with used := Assoc.put (freeLabel s.used n own) n s.used } (given.put owned)
  have whole := mapM_append_eq_ok runBefore (mapM_cons_eq_ok call runRest)
  obtain rfl : t = u := by
    rw [run] at whole
    cases whole
    rfl
  have keptBefore : Kept s.used t.used := (kept_put s.used n own).trans kept
  have followsBefore : Follows caption s.used := fun l m held => follows l m (keptBefore l m held)
  have found : caption n = freeLabel s.used n own :=
    follows _ n (kept _ n (by rw [Assoc.find?_put, if_pos rfl]))
  obtain ⟨k, free, taken, last⟩ := freeLabel_eq s.used n own
  refine ⟨s, own, k, ?_, owned, found.trans free, fun j below => ?_, ?_, fun rounds => ?_⟩
  · rw [runBefore, text caption followsBefore]
  · obtain ⟨m, other, held⟩ := taken j below
    exact ⟨m, asked _ m held, other, followsBefore _ m held⟩
  · exact given.hyphens_le (fun l m held => List.mem_toFinset.2 (asked l m held)) taken
  · rw [found, free]
    exact freeWithin_eq taken last rounds

/-- Any calls for labels of nodes that have one, in any order and repeated at will, settle on one
label for each node. -/
theorem calls_settle (known : ∀ n ∈ ids, (source.node n).isSome) :
    ∃ caption, Settles source ids caption := by
  obtain ⟨texts, t, run, given, named, _, text⟩ := exists_calls known
  obtain ⟨caption, follows⟩ := given.exists_follows
  have labels : ∀ n ∈ ids, Assoc.find? (caption n) t.used = some n := by
    intro n mem
    obtain ⟨l, held⟩ := named n mem
    rw [follows l n held, held]
  refine ⟨caption, ⟨t, ?_⟩, fun n mem m mem' same => ?_, fun before n after split => ?_⟩
  · rw [run, text caption follows]
  · exact Option.some.inj ((labels n mem).symm.trans (same ▸ labels m mem'))
  · subst split
    exact finds_of_calls known run follows

/-- Labels that end in hyphens and that other nodes have. -/
def dashedTexts : LabelSource where
  node n := if n = 1 ∨ n = 4 then some "A-" else if n = 2 ∨ n = 3 then some "A" else none
  output _ o := some o

/-- The first hyphen behind the label of node 3 makes it the own label of node 1. -/
theorem calls_settle_dashed :
    (∀ n ∈ ([1, 2, 3, 4, 3, 2, 1] : List NodeId), (dashedTexts.node n).isSome) ∧
      ∃ caption, Settles dashedTexts [1, 2, 3, 4, 3, 2, 1] caption ∧
        ([1, 2, 3, 4, 3, 2, 1] : List NodeId).map caption =
          ["A-", "A", "A--", "A---", "A--", "A", "A-"] := by
  have known : ∀ n ∈ ([1, 2, 3, 4, 3, 2, 1] : List NodeId), (dashedTexts.node n).isSome := by decide
  obtain ⟨caption, settles⟩ := calls_settle known
  obtain ⟨s, run⟩ := settles.answers
  have texts : (match ([1, 2, 3, 4, 3, 2, 1] : List NodeId).mapM (label dashedTexts) {} with
      | .ok texts _ => texts
      | .error _ _ => []) = ["A-", "A", "A--", "A---", "A--", "A", "A-"] := by decide +kernel
  rw [run] at texts
  exact ⟨known, caption, settles, texts⟩

end Autoflow.Captions

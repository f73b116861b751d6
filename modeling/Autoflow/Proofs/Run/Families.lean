import Mathlib.Data.List.Forall2
import Mathlib.Data.List.Induction
import Autoflow.Run.Family

/-!
# What a member of a family sees

`context?_modify` and `context?_clone` say what one change of a member does to the view of each
member: it sees the change, the others only that the payload and the history have moved. A run
of a family is a list of events, and `Reaches` says which of them count for a member: its own,
and those that counted for the member it was copied from before it was copied. `Tells` reads
every view off the events, each event keeps it, and `run_tells` is the main result.
-/

namespace Autoflow

namespace Family

variable {f : Family} {m : Member} {i j : Nat} {b c : Context} {results : NodeMap NodeResult}

/-! ## Views -/

/-- Writing the results of a member changes what it sees and what no other one sees. -/
theorem context?_write (h : f.members[i]? = some m) :
    (f.write i m results).context? j =
      if i = j then (f.context? j).map ({ · with results }) else f.context? j := by
  unfold write
  split
  · next same =>
    split
    · next e => subst e; simp [context?, h, same]
    · rfl
  · obtain ⟨bound, rfl⟩ := List.getElem?_eq_some_iff.1 h
    split
    · by_cases e : i = j
      · subst e
        simp [detach, context?, Family.results, bound]
      · simp only [detach, context?, List.getElem?_set_ne e, if_neg e]
        refine Option.map_congr fun o ho => ?_
        have := f.linked o (List.mem_of_getElem? ho)
        simp [Family.results, List.getElem?_append_left this]
    · next alone =>
      have bound := f.linked _ (List.mem_of_getElem? h)
      by_cases e : i = j
      · subst e
        simp [overwrite, context?, Family.results, h, bound]
      · simp only [overwrite, context?, if_neg e]
        refine Option.map_congr fun o ho => ?_
        obtain ⟨hj, rfl⟩ := List.getElem?_eq_some_iff.1 ho
        have other : f.members[i].table ≠ f.members[j].table := fun same =>
          alone ⟨_, List.mem_eraseIdx_iff_getElem.2 ⟨j, hj, Ne.symm e, rfl⟩, same.symm⟩
        simp [Family.results, List.getElem?_set_ne other]

/-- A context that comes back gives its tables to one member; the log and the payload are the
family's. -/
theorem context?_settle :
    (f.settle i c).context? j =
      if i = j then (f.context? j).map fun o => { c with results := o.results }
      else (f.context? j).map (·.resume c) := by
  by_cases e : i = j
  · subst e
    simp [settle, context?, Family.results, Function.comp_def]
  · simp [settle, context?, Family.results, Function.comp_def, e, Context.resume]

/-- Reading the payload is seen by every member. -/
theorem context?_force :
    f.force.2.context? j = (f.context? j).map fun c => { c with payload := c.payload.forced } := by
  simp [force, context?, Family.results, Function.comp_def]

/-- All members see one payload and one history. -/
theorem shared_of_context? (h : f.context? i = some c) :
    c.payload = f.payload ∧ c.history = f.history := by
  obtain ⟨_, _, rfl⟩ := Option.map_eq_some_iff.1 h
  exact ⟨rfl, rfl⟩

/-- A member is one of those that were made. -/
theorem lt_length_of_context? (h : f.context? i = some c) : i < f.members.length := by
  obtain ⟨m, hm, -⟩ := Option.map_eq_some_iff.1 h
  exact (List.getElem?_eq_some_iff.1 hm).1

/-- Each of them has a context. -/
theorem exists_context? (h : i < f.members.length) : ∃ c, f.context? i = some c :=
  ⟨_, by rw [context?, List.getElem?_eq_getElem h]; rfl⟩

/-- A member that changes sees the change; the others go on with the payload and the history
after it. -/
theorem context?_modify {change : Context → Context} (h : f.context? i = some c) :
    (f.modify i change).context? j =
      if i = j then some (change c) else (f.context? j).map (·.resume (change c)) := by
  obtain ⟨m, hm, -⟩ := Option.map_eq_some_iff.1 h
  simp only [modify, h, store, hm]
  rw [context?_settle, context?_write hm]
  by_cases e : i = j
  · subst e
    simp [h]
  · simp [e]

/-- A call of a member makes no new one. -/
theorem length_modify (change : Context → Context) :
    (f.modify i change).members.length = f.members.length := by
  have write (m : Member) (results : NodeMap NodeResult) :
      (f.write i m results).members.length = f.members.length := by
    unfold write
    split
    · rfl
    · split
      · exact List.length_set
      · rfl
  unfold modify
  split
  · unfold store
    split
    · rw [← write]
      exact List.length_modify _ _ _
    · rfl
  · rfl

/-- A clone is one member more. -/
theorem length_clone (h : f.context? i = some c) :
    (f.clone i).members.length = f.members.length + 1 := by
  obtain ⟨m, hm, -⟩ := Option.map_eq_some_iff.1 h
  unfold clone
  split
  · exact List.length_append
  · next hm' => exact nomatch hm'.symm.trans hm

/-- A copy sees what the member it was copied from sees. -/
theorem context?_clone (h : f.context? i = some c) :
    (f.clone i).context? j = if j = f.members.length then some c else f.context? j := by
  obtain ⟨m, hm, rfl⟩ := Option.map_eq_some_iff.1 h
  unfold clone
  split
  · next m' hm' =>
    obtain rfl : m' = m := Option.some.inj (hm'.symm.trans hm)
    rcases Nat.lt_trichotomy j f.members.length with lt | rfl | gt
    · simp [context?, Family.results, List.getElem?_append_left lt, Nat.ne_of_lt lt]
    · simp [context?, Family.results]
    · have bound : (f.members ++ [m']).length ≤ j := by
        rw [List.length_append]
        exact gt
      rw [if_neg (Nat.ne_of_gt gt)]
      simp only [context?, List.getElem?_eq_none bound, List.getElem?_eq_none (Nat.le_of_lt gt),
        Option.map_none]
  · next hm' => exact nomatch hm'.symm.trans hm

/-! ## Events -/

/-- What is done to a member. -/
inductive Event
  | clone (i : Nat)
  | after (i : Nat) (n : NodeId) (r : NodeResult)
  | iterate (i : Nat) (n : NodeId) (index : Nat)
  | read (i : Nat)
deriving DecidableEq

namespace Event

/-- The member it is done to. -/
def caller : Event → Nat
  | clone i | after i _ _ | iterate i _ _ | read i => i

/-- Whether it makes a new member. -/
def makes : Event → Bool
  | clone _ => true
  | _ => false

/-- The result that it stores for a node. -/
def result? (n : NodeId) : Event → Option NodeResult
  | after _ m r => if m = n then some r else none
  | _ => none

/-- The index at which it puts a container. -/
def index? (n : NodeId) : Event → Option Nat
  | iterate _ m index => if m = n then some index else none
  | _ => none

/-- Whether it asks for the payload. -/
def reads : Event → Bool
  | read _ => true
  | _ => false

/-- Whether it is a dispatch. -/
def dispatches : Event → Bool
  | after _ _ _ => true
  | _ => false

/-- The context of the caller after it. -/
def change : Event → Context → Context
  | clone _, c => c
  | after _ n r, c => c.afterDispatch n r
  | iterate _ n index, c => c.setIteration n index
  | read _, c => { c with payload := c.payload.forced }

end Event

/-- A family after an event. -/
def apply (f : Family) : Event → Family
  | .clone i => f.clone i
  | .after i n r => f.modify i (·.afterDispatch n r)
  | .iterate i n index => f.modify i (·.setIteration n index)
  | .read _ => f.force.2

/-- A family after a list of events. -/
def run (f : Family) (es : List Event) : Family := es.foldl apply f

/-- The number of copies that events make. -/
def clones (es : List Event) : Nat := es.countP Event.makes

/-- Every event is done to a member that is there: the first one or a copy. -/
def Valid (es : List Event) : Prop :=
  ∀ k (h : k < es.length), es[k].caller ≤ clones (es.take k)

instance (es : List Event) : Decidable (Valid es) :=
  inferInstanceAs (Decidable (∀ k (h : k < es.length), es[k].caller ≤ clones (es.take k)))

/-- An event counts for a member: it was done to it, or it counted for the member that it was
copied from before it was copied. -/
inductive Reaches (es : List Event) (k : Nat) : Nat → Prop
  | own {e : Event} (at_ : es[k]? = some e) : Reaches es k e.caller
  | copied {p j : Nat} (at_ : es[p]? = some (.clone j)) (before : k < p) (parent : Reaches es k j) :
      Reaches es k (clones (es.take p) + 1)

/-- What a member last got from the events that count for it. -/
def Latest {α : Type} (es : List Event) (i : Nat) (part : Event → Option α) (a : α) : Prop :=
  ∃ k e, es[k]? = some e ∧ Reaches es k i ∧ part e = some a ∧
    ∀ k' e', k < k' → es[k']? = some e' → Reaches es k' i → part e' = none

/-- A record is about the dispatch at a place in the events, with the iterations that the caller
was at. -/
def IsAbout (es : List Event) (k : Nat) (R : Record) : Prop :=
  ∃ i, es[k]? = some (.after i R.node R.result) ∧
    ∀ n index, R.iterations.get? n = some index ↔ Latest (es.take k) i (·.index? n) index

/-- The places of the dispatches. -/
def dispatches (es : List Event) : List Nat :=
  (List.range es.length).filter fun k => es[k]?.any Event.dispatches

/-- What every member sees of a list of events. -/
structure Tells (start : Payload) (es : List Event) (f : Family) : Prop where
  /-- There are the first member and one for each copy. -/
  members : f.members.length = clones es + 1
  /-- Every member sees all dispatches, in order. -/
  history : ∀ i c, f.context? i = some c → List.Forall₂ (IsAbout es) (dispatches es) c.history
  result : ∀ i c, f.context? i = some c → ∀ n r,
    c.result? n = some r ↔ Latest es i (·.result? n) r
  iteration : ∀ i c, f.context? i = some c → ∀ n index,
    c.iteration? n = some index ↔ Latest es i (·.index? n) index
  /-- Whoever asks for the payload gets one value: the one that was known from the start, or else
  what the producer answers when it is called next. -/
  payload : f.force.1 = start.value.getD (start.producer start.calls) ∧
    ∀ i c, f.context? i = some c → c.event = start.value.getD (start.producer start.calls)
  /-- The producer is called for the first one who asks, and only if it is needed. -/
  calls : f.payload.calls =
    start.calls + if start.value = none ∧ es.any Event.reads then 1 else 0

variable {es : List Event} {e : Event} {k : Nat} {start : Payload}

/-- A call may follow if its member has been made by then. -/
theorem valid_snoc : Valid (es ++ [e]) ↔ Valid es ∧ e.caller ≤ clones es := by
  constructor
  · intro h
    constructor
    · intro k hk
      have := h k (by simp; omega)
      rwa [List.getElem_append_left hk, List.take_append_of_le_length (Nat.le_of_lt hk)] at this
    · simpa using h es.length (by simp)
  · rintro ⟨h, last⟩ k hk
    rcases Nat.lt_succ_iff_lt_or_eq.1 (by simpa using hk) with lt | rfl
    · rw [List.getElem_append_left lt, List.take_append_of_le_length (Nat.le_of_lt lt)]
      exact h k lt
    · simpa using last

/-- Fewer events make fewer clones. -/
theorem clones_take_le (es : List Event) (k : Nat) : clones (es.take k) ≤ clones es :=
  (List.take_sublist k es).countP_le

/-- A clone that is made counts from then on. -/
theorem clones_take_lt (h : es[k]? = some (.clone j)) : clones (es.take k) < clones es := by
  have := clones_take_le es (k + 1)
  rw [List.take_add_one, h] at this
  simpa [clones, Event.makes, Nat.succ_le_iff] using this

/-- At each call the member that makes it is there. -/
theorem Valid.caller_le (h : Valid es) (at_ : es[k]? = some e) : e.caller ≤ clones (es.take k) := by
  obtain ⟨hk, rfl⟩ := List.getElem?_eq_some_iff.1 at_
  exact h k hk

namespace Reaches

/-- Only an event that has happened reaches a member. -/
theorem lt_length (h : Reaches es k i) : k < es.length := by
  induction h with
  | own at_ => exact (List.getElem?_eq_some_iff.1 at_).1
  | copied _ _ _ ih => exact ih

/-- It reaches a member that has been made. -/
theorem le_clones (valid : Valid es) (h : Reaches es k i) : i ≤ clones es := by
  cases h with
  | own at_ => exact Nat.le_trans (valid.caller_le at_) (clones_take_le es k)
  | copied at_ => exact clones_take_lt at_

/-- An event that has reached a member goes on reaching it. -/
theorem mono (h : Reaches es k i) : Reaches (es ++ [e]) k i := by
  induction h with
  | own at_ => exact .own (by rw [List.getElem?_append_left (List.getElem?_eq_some_iff.1 at_).1, at_])
  | @copied p j at_ before _ ih =>
    have hp := (List.getElem?_eq_some_iff.1 at_).1
    rw [← List.take_append_of_le_length (Nat.le_of_lt hp)]
    exact .copied (by rw [List.getElem?_append_left hp, at_]) before ih

/-- An earlier event counts for the members for which it counted, and for the copy that the last
event makes of one of them. -/
theorem of_snoc (valid : Valid (es ++ [e])) (h : Reaches (es ++ [e]) k i) (hk : k < es.length) :
    Reaches es k i ∨ ∃ j, e = .clone j ∧ i = clones es + 1 ∧ Reaches es k j := by
  obtain ⟨before, last⟩ := valid_snoc.1 valid
  induction h with
  | own at_ =>
    rw [List.getElem?_append_left hk] at at_
    exact .inl (.own at_)
  | @copied p j at_ lt _ ih =>
    rcases Nat.lt_succ_iff_lt_or_eq.1 (by simpa using (List.getElem?_eq_some_iff.1 at_).1) with hp | rfl
    · rw [List.getElem?_append_left hp] at at_
      rw [List.take_append_of_le_length (Nat.le_of_lt hp)]
      refine .inl (.copied at_ lt (ih.resolve_right ?_))
      rintro ⟨_, _, rfl, _⟩
      exact Nat.not_succ_le_self _ (Nat.le_trans (before.caller_le at_) (clones_take_le es p))
    · obtain rfl : e = .clone j := by simpa using at_
      refine .inr ⟨j, rfl, by simp, ih.resolve_right ?_⟩
      rintro ⟨_, _, rfl, _⟩
      exact Nat.not_succ_le_self _ last

/-- The events that counted for a member which was there count for it as before. -/
theorem old_iff (valid : Valid (es ++ [e])) (hi : i ≤ clones es) (k : Nat) (hk : k < es.length) :
    Reaches (es ++ [e]) k i ↔ Reaches es k i := by
  refine ⟨fun r => (r.of_snoc valid hk).resolve_right ?_, .mono⟩
  rintro ⟨_, _, rfl, _⟩
  exact Nat.not_succ_le_self _ hi

/-- The events that counted for a member count for its copy. -/
theorem copy_iff (valid : Valid (es ++ [.clone j])) (k : Nat) (hk : k < es.length) :
    Reaches (es ++ [.clone j]) k (clones es + 1) ↔ Reaches es k j := by
  constructor
  · intro r
    rcases r.of_snoc valid hk with old | ⟨_, made, _, r⟩
    · exact absurd (old.le_clones (valid_snoc.1 valid).1) (Nat.not_succ_le_self _)
    · cases made
      exact r
  · intro r
    have last : (es ++ [Event.clone j])[es.length]? = some (.clone j) := by simp
    have made := Reaches.copied last hk r.mono
    rwa [List.take_left] at made

/-- The last event reaches its own member only, as no clone has been made since. -/
theorem last_iff : Reaches (es ++ [e]) es.length i ↔ e.caller = i := by
  constructor
  · rintro (at_ | ⟨at_, lt, -⟩)
    · obtain rfl : e = _ := by simpa using at_
      rfl
    · have := (List.getElem?_eq_some_iff.1 at_).1
      simp at this
      omega
  · rintro rfl
    exact .own (by simp)

end Reaches

/-! ## Steps -/

section Latest

variable {α : Type} {part : Event → Option α} {a : α}

/-- An event that gives a member nothing leaves what it last got. -/
theorem latest_snoc (reach : ∀ k < es.length, Reaches (es ++ [e]) k i ↔ Reaches es k j)
    (last : e.caller = i → part e = none) :
    Latest (es ++ [e]) i part a ↔ Latest es j part a := by
  constructor
  · rintro ⟨k, d, at_, r, got, later⟩
    rcases Nat.lt_succ_iff_lt_or_eq.1 (by simpa using r.lt_length) with hk | rfl
    · rw [List.getElem?_append_left hk] at at_
      refine ⟨k, d, at_, (reach k hk).1 r, got, fun k' d' lt at' r' => ?_⟩
      have hk' := r'.lt_length
      exact later k' d' lt (by rw [List.getElem?_append_left hk', at']) ((reach k' hk').2 r')
    · obtain rfl : e = d := by simpa using at_
      simp [last (Reaches.last_iff.1 r)] at got
  · rintro ⟨k, d, at_, r, got, later⟩
    have hk := r.lt_length
    refine ⟨k, d, by rw [List.getElem?_append_left hk, at_], (reach k hk).2 r, got,
      fun k' d' lt at' r' => ?_⟩
    rcases Nat.lt_succ_iff_lt_or_eq.1 (by simpa using r'.lt_length) with hk' | rfl
    · rw [List.getElem?_append_left hk'] at at'
      exact later k' d' lt at' ((reach k' hk').1 r')
    · obtain rfl : e = d' := by simpa using at'
      exact last (Reaches.last_iff.1 r')

/-- What an event gives its caller is what the caller last got. -/
theorem latest_snoc_caller {b : α} (h : part e = some b) :
    Latest (es ++ [e]) e.caller part a ↔ b = a := by
  constructor
  · rintro ⟨k, d, at_, r, got, later⟩
    rcases Nat.lt_succ_iff_lt_or_eq.1 (by simpa using r.lt_length) with hk | rfl
    · have := later es.length e hk (by simp) (Reaches.last_iff.2 rfl)
      exact nomatch h.symm.trans this
    · obtain rfl : e = d := by simpa using at_
      exact Option.some.inj (h.symm.trans got)
  · rintro rfl
    refine ⟨es.length, e, by simp, Reaches.last_iff.2 rfl, h, fun k' d' lt at' _ => ?_⟩
    have := (List.getElem?_eq_some_iff.1 at').1
    simp at this
    omega

end Latest

/-- A dispatch puts a result for its node and leaves the others. -/
theorem Event.result?_change (e : Event) (c : Context) (n : NodeId) :
    (e.change c).result? n = (e.result? n).or (c.result? n) := by
  cases e with
  | after i m r =>
    by_cases h : m = n <;> simp [change, result?, Context.result?, Context.afterDispatch,
      NodeMap.get?_insert, h]
  | _ => rfl

/-- Entering and leaving an iteration touch the index of one node. -/
theorem Event.iteration?_change (e : Event) (c : Context) (n : NodeId) :
    (e.change c).iteration? n = (e.index? n).or (c.iteration? n) := by
  cases e with
  | iterate i m index =>
    by_cases h : m = n <;> simp [change, index?, Context.iteration?, Context.setIteration,
      NodeMap.get?_insert, h]
  | _ => rfl

/-- An event reads the payload or leaves it alone. -/
theorem Event.payload_change (e : Event) (c : Context) :
    (e.change c).payload = if e.reads then c.payload.forced else c.payload := by
  cases e <;> rfl

/-- What a member sees alone is what it last got from the events that count for it. -/
structure Owned (es : List Event) (i : Nat) (c : Context) : Prop where
  result (n : NodeId) (r : NodeResult) : c.result? n = some r ↔ Latest es i (·.result? n) r
  iteration (n : NodeId) (index : Nat) :
    c.iteration? n = some index ↔ Latest es i (·.index? n) index

namespace Owned

/-- A member that does not make the call owns what it owned, whoever's events reach it. -/
theorem keep (h : Owned es j c) (reach : ∀ k < es.length, Reaches (es ++ [e]) k i ↔ Reaches es k j)
    (other : e.caller ≠ i) : Owned (es ++ [e]) i c where
  result n r := (h.result n r).trans (latest_snoc reach fun own => absurd own other).symm
  iteration n index := (h.iteration n index).trans (latest_snoc reach fun own => absurd own other).symm

/-- The one that does owns the change. -/
theorem call (h : Owned es e.caller c)
    (reach : ∀ k < es.length, Reaches (es ++ [e]) k e.caller ↔ Reaches es k e.caller) :
    Owned (es ++ [e]) e.caller (e.change c) where
  result n r := by
    rw [e.result?_change]
    cases got : e.result? n with
    | none => exact (h.result n r).trans (latest_snoc reach fun _ => got).symm
    | some b => simpa using (latest_snoc_caller got).symm
  iteration n index := by
    rw [e.iteration?_change]
    cases got : e.index? n with
    | none => exact (h.iteration n index).trans (latest_snoc reach fun _ => got).symm
    | some b => simpa using (latest_snoc_caller got).symm

end Owned

/-- The records are those of the dispatches, in their order. -/
theorem dispatches_snoc (es : List Event) (e : Event) :
    dispatches (es ++ [e]) = dispatches es ++ if e.dispatches then [es.length] else [] := by
  have before : ∀ k ∈ List.range es.length,
      (es ++ [e])[k]?.any Event.dispatches = es[k]?.any Event.dispatches := fun k hk => by
    rw [List.getElem?_append_left (List.mem_range.1 hk)]
  simp only [dispatches, List.length_append, List.length_singleton, List.range_succ,
    List.filter_append, List.filter_congr before]
  cases h : e.dispatches <;> simp [h]

/-- A record that is about an event goes on being about it. -/
theorem IsAbout.snoc {R : Record} (h : IsAbout es k R) : IsAbout (es ++ [e]) k R := by
  obtain ⟨i, at_, iterations⟩ := h
  have hk := (List.getElem?_eq_some_iff.1 at_).1
  exact ⟨i, by rw [List.getElem?_append_left hk, at_],
    by rwa [List.take_append_of_le_length (Nat.le_of_lt hk)]⟩

/-- What a member sees like every other one. -/
structure Shared (start : Payload) (es : List Event) (c : Context) : Prop where
  history : List.Forall₂ (IsAbout es) (dispatches es) c.history
  payload : c.payload = if es.any Event.reads then start.forced else start

namespace Shared

/-- What all members share moves with each event, whichever member it comes from. -/
theorem step (h : Shared start es c) (own : Owned es e.caller c) :
    Shared start (es ++ [e]) (e.change c) := by
  have earlier := h.history.imp fun k R about => about.snoc (e := e)
  refine ⟨?_, ?_⟩
  · rw [dispatches_snoc]
    cases e with
    | after i n r =>
      refine List.rel_append earlier (.cons ⟨i, by simp, ?_⟩ .nil)
      rw [List.take_left]
      exact own.iteration
    | _ => rw [if_neg (by simp [Event.dispatches]), List.append_nil]; exact earlier
  · simp only [e.payload_change, h.payload, List.any_append, List.any_cons, List.any_nil,
      Bool.or_false]
    cases e.reads <;> cases es.any Event.reads <;> simp [Payload.forced_forced]

/-- Each member reads the one value of the payload. -/
theorem event (h : Shared start es c) : c.event = start.get := by
  rw [Context.event, h.payload]
  split
  · exact start.get_forced
  · rfl

/-- The producer has been called once if any member has read the payload and the value was not
known, and never otherwise. -/
theorem calls (h : Shared start es c) : c.payload.calls =
    start.calls + if start.value = none ∧ es.any Event.reads then 1 else 0 := by
  rw [h.payload]
  cases known : start.value <;> cases es.any Event.reads <;> simp [Payload.forced, known]

/-- What is shared does not depend on the member's own tables. -/
theorem resume (h : Shared start es c) (o : Context) : Shared start es (o.resume c) :=
  ⟨h.history, h.payload⟩

/-- Two members share the same. -/
theorem of_same (h : Shared start es b) (hb : f.context? i = some b) (hc : f.context? j = some c) :
    Shared start es c := by
  obtain ⟨payload, history⟩ := shared_of_context? hb
  obtain ⟨payload', history'⟩ := shared_of_context? hc
  refine ⟨?_, ?_⟩
  · rw [history', ← history]
    exact h.history
  · rw [payload', ← payload]
    exact h.payload

end Shared

/-- An event that makes no member changes the one it is done to; the others only see that the
payload and the history have moved. -/
theorem context?_apply (h : f.context? e.caller = some c) (stays : e.makes = false) :
    (f.apply e).context? j =
      if e.caller = j then some (e.change c) else (f.context? j).map (·.resume (e.change c)) := by
  cases e with
  | clone i => cases stays
  | after i n r => exact context?_modify h
  | iterate i n index => exact context?_modify h
  | read i =>
    rw [apply, context?_force]
    split
    · next e => subst e; rw [h]; rfl
    · refine Option.map_congr fun o ho => ?_
      obtain ⟨hp, hh⟩ := shared_of_context? ho
      obtain ⟨hp', hh'⟩ := shared_of_context? h
      rw [Context.resume, Event.change, hp', hh', ← hp, ← hh]

/-- Only a clone makes a member. -/
theorem length_apply (stays : e.makes = false) :
    (f.apply e).members.length = f.members.length := by
  cases e with
  | clone i => cases stays
  | after i n r => exact length_modify _
  | iterate i n index => exact length_modify _
  | read i => rfl

/-- What holds of a family after a list of events. -/
structure Follows (start : Payload) (es : List Event) (f : Family) : Prop where
  members : f.members.length = clones es + 1
  sees : ∀ i c, f.context? i = some c → Shared start es c ∧ Owned es i c

namespace Follows

/-- The first context follows no events. -/
theorem nil (p : Payload) : Follows p [] (.ofContext (.new p)) where
  members := rfl
  sees i c h := by
    obtain ⟨m, hm, rfl⟩ := Option.map_eq_some_iff.1 h
    obtain rfl : m = { table := 0 } := by
      cases i with
      | zero => exact (Option.some.inj hm).symm
      | succ i => cases hm
    have nothing {α : Type} (part : Event → Option α) (a : α) : ¬ Latest [] i part a := by
      rintro ⟨_, _, at_, _⟩
      cases at_
    exact ⟨⟨.nil, rfl⟩, ⟨fun n r => iff_of_false nofun (nothing _ r),
      fun n index => iff_of_false nofun (nothing _ index)⟩⟩

/-- There is one member more than clones. -/
theorem le_clones (h : Follows start es f) (hc : f.context? i = some c) : i ≤ clones es := by
  have := lt_length_of_context? hc
  rw [h.members] at this
  exact Nat.le_of_lt_succ this

/-- Every clone has a context. -/
theorem exists_context (h : Follows start es f) (hi : i ≤ clones es) :
    ∃ c, f.context? i = some c :=
  exists_context? (by rw [h.members]; exact Nat.lt_succ_of_le hi)

/-- An event that makes no member keeps this: the caller owns the change, and the others see only
what is shared. -/
theorem change (h : Follows start es f) (valid : Valid (es ++ [e])) (stays : e.makes = false) :
    Follows start (es ++ [e]) (f.apply e) := by
  have last := (valid_snoc.1 valid).2
  obtain ⟨b, hb⟩ := h.exists_context last
  obtain ⟨shared, own⟩ := h.sees _ b hb
  refine ⟨?_, fun i c hc => ?_⟩
  · rw [length_apply stays, h.members]
    simp [clones, stays]
  · rw [context?_apply hb stays] at hc
    split at hc
    · next same =>
      subst same
      obtain rfl := Option.some.inj hc
      exact ⟨shared.step own, own.call (Reaches.old_iff valid last)⟩
    · next other =>
      obtain ⟨o, ho, rfl⟩ := Option.map_eq_some_iff.1 hc
      obtain ⟨result, iteration⟩ :=
        (h.sees i o ho).2.keep (Reaches.old_iff valid (h.le_clones ho)) other
      exact ⟨(shared.step own).resume o, ⟨result, iteration⟩⟩

/-- A clone starts with the tables of the one it is made from, so the events that reached that one
reach it as well. -/
theorem clone (h : Follows start es f) (valid : Valid (es ++ [.clone j])) :
    Follows start (es ++ [.clone j]) (f.clone j) := by
  have last : j ≤ clones es := (valid_snoc.1 valid).2
  obtain ⟨b, hb⟩ := h.exists_context last
  obtain ⟨shared, own⟩ := h.sees j b hb
  have moved : Shared start (es ++ [.clone j]) b := shared.step own
  refine ⟨?_, fun i c hc => ?_⟩
  · rw [length_clone hb, h.members]
    simp [clones, Event.makes]
  · rw [context?_clone hb] at hc
    split at hc
    · next new =>
      obtain rfl := Option.some.inj hc
      rw [new, h.members]
      exact ⟨moved, own.keep (Reaches.copy_iff valid) (Nat.ne_of_lt (Nat.lt_succ_of_le last))⟩
    · have reach := Reaches.old_iff valid (h.le_clones hc)
      by_cases same : j = i
      · subst same
        obtain rfl := Option.some.inj (hb.symm.trans hc)
        exact ⟨moved, own.call reach⟩
      · exact ⟨moved.of_same hb hc, (h.sees i c hc).2.keep reach same⟩

/-- The run lemma: the members follow any events that are valid. -/
theorem run (p : Payload) (es : List Event) (valid : Valid es) :
    Follows p es (Family.run (.ofContext (.new p)) es) := by
  induction es using List.reverseRecOn with
  | nil => exact nil p
  | append_singleton es e ih =>
    have before := ih (valid_snoc.1 valid).1
    rw [Family.run, List.foldl_append]
    cases stays : e.makes with
    | false => exact before.change valid stays
    | true =>
      cases e with
      | clone j => exact before.clone valid
      | _ => cases stays

end Follows

/-- After any events on any members, every member sees what the events say: all dispatches, the
results and iterations of its own line of copies, and the one value of the payload, which is
produced once at most. -/
theorem run_tells (start : Payload) (es : List Event) (valid : Valid es) :
    Tells start es (run (.ofContext (.new start)) es) := by
  have follows := Follows.run start es valid
  obtain ⟨c, hc⟩ := follows.exists_context (Nat.zero_le _)
  have first := (follows.sees 0 c hc).1
  have payload := (shared_of_context? hc).1
  exact {
    members := follows.members
    history := fun i c h => (follows.sees i c h).1.history
    result := fun i c h => (follows.sees i c h).2.result
    iteration := fun i c h => (follows.sees i c h).2.iteration
    payload := by
      refine ⟨?_, fun i c h => (follows.sees i c h).1.event⟩
      rw [force, ← payload, Payload.get_forced]
      exact first.event
    calls := payload ▸ first.calls }

/-- A container and its first item, dispatched in a copy that is at that item. -/
def itemEvents : List Event :=
  [.after 0 1 { data := .array [.null] }, .clone 0, .iterate 1 1 0, .read 1,
    .after 1 2 { data := .null }, .read 0]

/-- The copy is at the item when it dispatches, and both contexts read the payload. -/
theorem run_tells_itemEvents :
    Valid itemEvents ∧
      Tells (.lazy fun _ => .null) itemEvents
        (run (.ofContext (.new (.lazy fun _ => .null))) itemEvents) :=
  ⟨by decide, run_tells _ _ (by decide)⟩

/-- The copy sees the result of the container, which does not see what the copy dispatched. -/
example :
    let f := run (.ofContext .empty) itemEvents
    ((f.context? 1).bind (·.result? 1)).isSome ∧ ((f.context? 0).bind (·.result? 2)).isNone := by
  decide

end Family

end Autoflow

import Autoflow.Proofs.Editing.Renumbering
import Autoflow.Proofs.Editing.Stock
import Autoflow.Proofs.Editing.Turns

/-!
# Workflows do not interfere

Several workflows share the trash, the store, the listings and the counter of ids. Steps on one of
them do not change another one, and each is edited as if the others were not there
(`Session.run_undisturbed`): the steps on it, taken alone and with the ids that it would have drawn
then, succeed or fail as they did and leave a mirror image of it.

`Session.Apart` leaves out what breaks that. The trash has one entry for each id, so a node of
another workflow can be in the way there, and a replaced node of another workflow can be taken out
of it (`Session.alike_disturbed`). The counter can come round.
-/

namespace Autoflow

namespace Session

open Desk

variable {σ : Equiv.Perm NodeId} {known : NodeId → Prop} {name : String} {w : WorkflowId}
  {s a : Session} {d d' : Desk} {step : Step} {steps : List Step}

/-! ## The invariant -/

/-- A session in which several workflows are edited, before some steps, beside one in which only the
steps on one of them were taken. Its nodes are known, and so are the ids that it will draw. -/
structure Shadowed (σ : Equiv.Perm NodeId) (known : NodeId → Prop) (name : String)
    (w : WorkflowId) (steps : List Step) (s a : Session) (d d' : Desk) : Prop where
  here : s.desk? name = some d
  here' : a.desk? name = some d'
  filed : s.Filed
  filed' : a.Filed
  id : d.workflow.id = w
  mirrors : d.Mirrors σ d'
  home : ∀ n entry, d'.editor.trash.get? n = some entry → entry.workflow = d'.workflow.id
  sole : ∀ other v, s.workflows.get? other = some v → v.id = w → other = name
  seen : ∀ n, d.Sees n → known n ∧ n < d.editor.nextId ∧ σ n < d'.editor.nextId
  behind : ¬ d.editor.nextId < d'.editor.nextId
  draws : ∀ i n, (s.allotted name steps)[i]? = some n →
    known n ∧ σ n = NodeId.next^[i] d'.editor.nextId

/-- If the trash has nodes of one workflow only, none is in the way. -/
theorem Step.apart_of_home (step : Step)
    (home : ∀ n entry, d.editor.trash.get? n = some entry → entry.workflow = d.workflow.id) :
    step.Apart d := by
  cases step with
  | operate name o => exact fun _ _ _ n _ entry held => home n entry held
  | copy _ _ _ _ | list _ | reserve _ => trivial

/-- After a step no other workflow has the id, either. -/
theorem Shadowed.sole_after (h : Shadowed σ known name w (step :: steps) s a d d')
    (spares : step.Spares name w) (clear : s.StepApart step) (other : String) (v : Workflow)
    (held : (s.after step).workflows.get? other = some v) (is : v.id = w) : other = name := by
  have keeps : ∀ d₁, s.desk? step.subject = some d₁ →
      ((step.edit s.setup).left d₁).workflow.id = d₁.workflow.id := fun d₁ at_subject =>
    (step.minds s.setup (h.filed.desk at_subject) (clear.apart d₁ at_subject)).id
  rcases workflow_after h.filed keeps spares held with new | ⟨v', held', is'⟩
  · exact absurd is new
  · exact h.sole other v' held' (is'.trans is)

/-- A step on another workflow leaves the workflow and its shadow alone. -/
theorem Shadowed.other (h : Shadowed σ known name w (step :: steps) s a d d')
    (ne : step.subject ≠ name) (spares : step.Spares name w) (clear : s.StepApart step) :
    Shadowed σ known name w steps (s.after step) a ⟨(s.after step).editor, d.workflow⟩ d' := by
  obtain ⟨there, editor⟩ := desk?_eq_some.1 h.here
  have rises := clear.rises
  rw [← editor, NodeId.lt_def] at rises
  have own : ∀ n, (s.after step).editor.trash.own? w n = s.editor.trash.own? w n := by
    intro n
    cases at_subject : s.desk? step.subject with
    | none => rw [after_of_none at_subject]
    | some d₁ =>
      obtain ⟨there₁, editor₁⟩ := desk?_eq_some.1 at_subject
      have apart : w ≠ d₁.workflow.id := fun same => ne (h.sole _ _ there₁ same.symm)
      have minds := step.minds s.setup (h.filed.desk at_subject) (clear.apart d₁ at_subject)
      rw [editor_after h.filed at_subject, minds.own_other apart, editor₁]
  have same : ∀ n, Desk.own ⟨(s.after step).editor, d.workflow⟩ n = d.own n := by
    intro n
    rw [Desk.own, Desk.own, h.id, own, editor]
  refine ⟨desk?_eq_some.2 ⟨?_, rfl⟩, h.here', h.filed.after step, h.filed', h.id,
    ⟨h.mirrors.workflow, fun n => ?_⟩, h.home, h.sole_after spares clear, fun n sees => ?_,
    fun lt => ?_, fun i n held => ?_⟩
  · rw [get?_after h.filed ne spares, there]
  · rw [same]
    exact h.mirrors.trash n
  · have seen : d.Sees n := sees.imp_right (Exists.imp fun entry held => (same n).symm.trans held)
    obtain ⟨known, low, low'⟩ := h.seen n seen
    refine ⟨known, ?_, low'⟩
    rw [NodeId.lt_def] at low ⊢
    exact Nat.lt_of_lt_of_le low (Nat.le_of_not_lt rises)
  · have behind := h.behind
    rw [NodeId.lt_def] at behind lt
    exact behind (Nat.lt_of_le_of_lt (Nat.le_of_not_lt rises) lt)
  · refine h.draws i n ?_
    rwa [allotted, if_neg ne]

/-! ## Steps on the workflow -/

section

variable (h : Shadowed σ known name w (step :: steps) s a d d') (subject : step.subject = name)

include h subject

/-- An id that a step on the workflow draws is taken to the one that its shadow draws. -/
theorem Shadowed.fresh (rises : ¬ (s.after step).editor.nextId < d.editor.nextId)
    (drawn : (s.after step).editor.nextId ≠ d.editor.nextId) :
    known d.editor.nextId ∧ σ d.editor.nextId = d'.editor.nextId := by
  refine h.draws 0 d.editor.nextId ?_
  rw [allotted, if_pos subject, ← (desk?_eq_some.1 h.here).2]
  have more : 0 < (s.after step).editor.nextId.toNat - d.editor.nextId.toNat := by
    rw [NodeId.lt_def] at rises
    rw [← NodeId.toNat_inj.ne] at drawn
    omega
  have first : (List.range ((s.after step).editor.nextId.toNat - d.editor.nextId.toNat))[0]? =
      some 0 := List.getElem?_range more
  rw [NodeId.between, List.getElem?_append_left (by simpa using more), List.getElem?_map, first]
  rfl

theorem Shadowed.nextId_after :
    (s.after step).editor.nextId = ((step.edit s.setup).left d).editor.nextId :=
  congrArg Editor.nextId (editor_after h.filed (subject ▸ h.here))

section

variable {k : Nat} {next : NodeId} (room : d.editor.nextId.toNat + k < UInt64.size)
  (now : (s.after step).editor.nextId = NodeId.next^[k] d.editor.nextId)
  (now' : next = NodeId.next^[k] d'.editor.nextId)

include room now now'

/-- The ids that are left to be drawn are counted on by the shadow. -/
theorem Shadowed.draws_on (i : Nat) (n : NodeId)
    (held : ((s.after step).allotted name steps)[i]? = some n) :
    known n ∧ σ n = NodeId.next^[i] next := by
  rw [now', ← Function.iterate_add_apply]
  refine h.draws (i + k) n ?_
  rw [allotted, if_pos subject, ← (desk?_eq_some.1 h.here).2, now, NodeId.between_iterate room,
    List.getElem?_append_right (by simp), List.length_map, List.length_range, Nat.add_sub_cancel]
  exact held

omit subject in
/-- The counter of the shadow stays behind. -/
theorem Shadowed.behind_after : (s.after step).editor.nextId.toNat = d.editor.nextId.toNat + k ∧
    next.toNat = d'.editor.nextId.toNat + k ∧ next.toNat ≤ (s.after step).editor.nextId.toNat := by
  have behind := h.behind
  rw [NodeId.lt_def] at behind
  rw [now, now', NodeId.toNat_iterate_next_of_lt room,
    NodeId.toNat_iterate_next_of_lt (by omega)]
  omega

/-- What is seen after the step is known, and both counters are past it. -/
theorem Shadowed.seen_after {n : NodeId} (minds : d.Minds ((step.edit s.setup).left d))
    (sees : ((step.edit s.setup).left d).Sees n) :
    known n ∧ n < (s.after step).editor.nextId ∧ σ n < next := by
  obtain ⟨count, count', _⟩ := h.behind_after room now now'
  rw [NodeId.lt_def, NodeId.lt_def, count, count']
  rcases minds.sees sees with before | ⟨rfl, drawn⟩
  · obtain ⟨known, low, low'⟩ := h.seen n before
    rw [NodeId.lt_def] at low low'
    exact ⟨known, by omega, by omega⟩
  · have new : (s.after step).editor.nextId ≠ d.editor.nextId := by
      rw [h.nextId_after subject, drawn]
      exact next_ne _
    have some_drawn : k ≠ 0 := by
      rintro rfl
      exact new now
    obtain ⟨known, image⟩ := h.fresh subject (by rw [NodeId.lt_def]; omega) new
    rw [image]
    exact ⟨known, by omega, by omega⟩

end

variable (rising : ∀ n m, known n → known m → n < m → σ n < σ m) (clear : s.StepApart step)

include rising clear

/-- The step does to the workflow what its shadow does to the mirror image. -/
theorem Shadowed.mirrored : Step.Mirrored σ (step.edit s.setup)
    ((step.relabel σ).edit (s.setup.frozen s.editor)) d d' := by
  have editor := (desk?_eq_some.1 h.here).2
  have rises := clear.rises
  rw [← editor] at rises
  have alike : Alike s.setup (s.setup.frozen s.editor) d d' := by
    rw [← editor]
    exact ⟨rfl, rfl, rfl⟩
  have live : ∀ n ∈ d.workflow.nodes.ids, d.Sees n := fun n mem => Or.inl mem
  exact Step.mirrored step alike h.mirrors (h.filed.desk h.here) (h.filed'.desk h.here')
    (clear.apart d (subject ▸ h.here)) ((step.relabel σ).apart_of_home h.home)
    (fun n hn m hm => rising n m (h.seen n (live n hn)).1 (h.seen m (live m hm)).1)
    (fun n hn => (h.seen n (live n hn)).2)
    (fun drawn => (h.fresh subject rises (h.nextId_after subject ▸ drawn)).2)

/-- A step on the workflow goes as the one on its shadow. -/
theorem Shadowed.own (spares : step.Spares name w) :
    (a.under (s.setup.frozen s.editor)).outcome (step.relabel σ) =
        (s.outcome step).map (Option.map σ) ∧
      ∃ e e', Shadowed σ known name w steps (s.after step)
        ((a.under (s.setup.frozen s.editor)).after (step.relabel σ)) e e' := by
  have at_subject : s.desk? step.subject = some d := subject ▸ h.here
  have at_subject' : (a.under (s.setup.frozen s.editor)).desk? (step.relabel σ).subject =
      some d' := by
    rw [Step.subject_relabel, subject]
    exact h.here'
  have filed' : (a.under (s.setup.frozen s.editor)).Filed := ⟨h.filed'.workflows, h.filed'.trash⟩
  have next := h.nextId_after subject
  obtain ⟨outcome, mirrors, k, few, draws, draws'⟩ := h.mirrored subject rising clear
  rw [← next] at draws
  have room : d.editor.nextId.toNat + k < UInt64.size := by
    have rises := clear.rises
    rw [← (desk?_eq_some.1 h.here).2, draws] at rises
    exact NodeId.no_wrap few rises
  have minds := step.minds s.setup (h.filed.desk h.here) (clear.apart d at_subject)
  have minds' := (step.relabel σ).minds (s.setup.frozen s.editor) (h.filed'.desk h.here')
    ((step.relabel σ).apart_of_home h.home)
  have spares' : step.Spares step.subject w := subject ▸ spares
  refine ⟨?_, (step.edit s.setup).left d, ((step.relabel σ).edit (s.setup.frozen s.editor)).left d',
    subject ▸ desk?_after h.filed at_subject spares', ?_, h.filed.after step,
    filed'.after (step.relabel σ), minds.id.trans h.id, mirrors, minds'.home h.home,
    h.sole_after spares clear, fun n sees => ?_, ?_,
    h.draws_on subject room draws draws'⟩
  · rw [Session.outcome, Session.outcome, at_subject, at_subject']
    exact outcome
  · have left := desk?_after filed' at_subject'
      (by rw [Step.subject_relabel]; exact (Step.spares_relabel σ step _ w).2 spares')
    rw [Step.subject_relabel, subject] at left
    exact left
  · rw [← next]
    exact h.seen_after subject room draws draws' minds sees
  · rw [← next, NodeId.lt_def]
    exact Nat.not_lt.2 (h.behind_after room draws draws').2.2

end

/-! ## Runs -/

/-- After some of the steps the session is shadowed by the one in which only the steps on the workflow
were taken. -/
theorem Shadowed.run (rising : ∀ n m, known n → known m → n < m → σ n < σ m)
    (before : List Step) (h : Shadowed σ known name w (before ++ steps) s a d d')
    (spares : ∀ step ∈ before, step.Spares name w) (apart : s.Apart (before ++ steps)) :
    (s.run before).Apart steps ∧ ∃ e e', Shadowed σ known name w steps (s.run before)
      (a.replay (s.share name σ before)) e e' := by
  induction before generalizing s a d d' with
  | nil => exact ⟨apart, d, d', h⟩
  | cons step before ih =>
    obtain ⟨now, later⟩ := apart
    obtain ⟨spares_now, spares⟩ := List.forall_mem_cons.1 spares
    rw [share]
    by_cases subject : step.subject = name
    · obtain ⟨_, e, e', next⟩ := h.own subject rising now spares_now
      rw [if_pos subject]
      exact ih next spares later
    · rw [if_neg subject]
      exact ih (h.other subject spares_now now) spares later

/-- A workflow that mentions only its nodes is its own mirror image if they keep their ids. -/
theorem relabels_self {w : Workflow} (whole : w.Whole) (fixes : ∀ n ∈ w.nodes.ids, σ n = n) :
    w.Relabels σ w where
  graph := (Graph.image_eq_self fun n mem =>
    fixes n ((whole.filed.ids n).1 (whole.mentions n mem))).symm
  nodes n := by
    cases hn : w.nodes.get? n with
    | some node =>
      have live := fixes n (NodeMap.mem_ids_of_get? hn)
      have same : node.relabel σ = node := by
        rw [Node.relabel, whole.filed.id hn, live, ← whole.filed.id hn]
      rw [live, hn, Option.map_some, same]
    | none =>
      cases hn' : w.nodes.get? (σ n) with
      | none => rfl
      | some node =>
        have same := σ.injective (fixes (σ n) (NodeMap.mem_ids_of_get? hn'))
        rw [same, hn] at hn'
        cases hn'
  marker := by
    cases marked : w.simulateUntil with
    | none => rfl
    | some n => rw [Option.map_some, fixes n (whole.marker n marked)]
  id := rfl
  name := rfl

theorem Stock.filed (stock : s.Stock) : s.Filed where
  workflows h := (stock.whole h).filed
  trash {n _} h := by
    have nothing : s.editor.trash.get? n = none := by
      rw [stock.trash]
      rfl
    simp [Trash.node?, nothing] at h

/-- A session to start from is its own shadow. -/
theorem Stock.shadowed {w : Workflow} (stock : s.Stock) (here : s.workflows.get? name = some w)
    (few : ∀ n ∈ w.nodes.ids, n.toNat + 1 < UInt64.size)
    (sole : ∀ other v, s.workflows.get? other = some v → v.id = w.id → other = name)
    (fixes : ∀ n, n < s.editor.nextId → σ n = n)
    (counts : ∀ i n, (s.allotted name steps)[i]? = some n → σ n = NodeId.next^[i] s.editor.nextId) :
    Shadowed σ (fun n => n < s.editor.nextId ∨ n ∈ s.allotted name steps) name w.id steps s s
      ⟨s.editor, w⟩ ⟨s.editor, w⟩ := by
  have at_name : s.desk? name = some ⟨s.editor, w⟩ := desk?_eq_some.2 ⟨here, rfl⟩
  have nothing : ∀ n, s.editor.trash.get? n = none := by
    rw [stock.trash]
    exact fun _ => rfl
  have below : ∀ n ∈ w.nodes.ids, n < s.editor.nextId := stock.below here few
  have own : ∀ n, Desk.own ⟨s.editor, w⟩ n = none := by
    intro n
    rw [Desk.own, Trash.own?, nothing, Option.filter_none]
  refine ⟨at_name, at_name, stock.filed, stock.filed, rfl,
    ⟨relabels_self (stock.whole here) fun n mem => fixes n (below n mem), fun n => ?_⟩,
    fun n entry held => ?_, sole, fun n sees => ?_, NodeId.lt_irrefl _,
    fun i n held => ⟨Or.inr (List.mem_of_getElem? held), counts i n held⟩⟩
  · rw [own, own, Option.map_none]
  · rw [nothing] at held
    cases held
  · rcases sees with live | ⟨entry, held⟩
    · have low := below n live
      exact ⟨Or.inl low, low, by rw [fixes n low]; exact low⟩
    · rw [own] at held
      cases held

/-- Several workflows were loaded or are empty, and one of them has an id of its own. Steps on the
others do not change it. If no step meets nodes of another workflow in the trash and the counter does
not come round, every step on it succeeds or fails as it does if the steps on the others are left
out. What it draws ids for has other ids then, in the same order. -/
theorem run_undisturbed {w : Workflow} (stocked : s.Stocked)
    (here : s.workflows.get? name = some w)
    (sole : ∀ other v, s.workflows.get? other = some v → v.id = w.id → other = name)
    (spares : ∀ step ∈ steps, step.Spares name w.id) :
    (∀ before step rest, steps = before ++ step :: rest → step.subject ≠ name →
      (s.run (before ++ [step])).workflows.get? name = (s.run before).workflows.get? name) ∧
    ((∀ n ∈ w.nodes.ids, n.toNat + 1 < UInt64.size) → s.Apart steps →
      ∃ σ : Equiv.Perm NodeId, (∀ n, n < s.editor.nextId → σ n = n) ∧
        (∀ before rest, steps = before ++ rest → ∃ v v',
          (s.run before).workflows.get? name = some v ∧
          (s.replay (s.share name σ before)).workflows.get? name = some v' ∧ v.Relabels σ v') ∧
        ∀ before step rest, steps = before ++ step :: rest → step.subject = name →
          ((s.replay (s.share name σ before)).under
            (s.setup.frozen (s.run before).editor)).outcome (step.relabel σ) =
          ((s.run before).outcome step).map (Option.map σ)) := by
  have stock := stocked.stock
  refine ⟨fun before step rest same ne => ?_, fun few apart => ?_⟩
  · have mem : step ∈ steps := same ▸ List.mem_append_right _ List.mem_cons_self
    rw [run, List.foldl_append]
    exact get?_after (stock.filed.run before) ne (spares step mem)
  · obtain ⟨sorted, above⟩ := apart.sorted name
    obtain ⟨σ, fixes, counts, rising⟩ := NodeId.exists_renumbering sorted above
    have start := stock.shadowed here few sole fixes counts
    refine ⟨σ, fixes, fun before rest same => ?_, fun before step rest same subject => ?_⟩
    · subst same
      obtain ⟨_, e, e', h⟩ := start.run rising before
        (fun step mem => spares step (List.mem_append_left rest mem)) apart
      exact ⟨e.workflow, e'.workflow, (desk?_eq_some.1 h.here).1, (desk?_eq_some.1 h.here').1,
        h.mirrors.workflow⟩
    · subst same
      obtain ⟨clear, e, e', h⟩ := start.run rising before
        (fun step mem => spares step (List.mem_append_left _ mem)) apart
      have mem : step ∈ before ++ step :: rest := List.mem_append_right _ List.mem_cons_self
      have alike := (h.own subject rising clear.1 (spares step mem)).1
      rwa [setup_run] at alike

/-- A trigger and an action behind it. -/
def pairFixture (id : WorkflowId) (name : String) : Fixture where
  id := id
  name := name
  nodes := [⟨1, "periodic", "", .null⟩, ⟨2, "smtp_email", "", .null⟩]
  graph := .object [
    ("0", NodeId.toJson 1),
    ("1", .object [("next", .object [("", NodeId.listToJson [2])])]),
    ("2", .object [])]

/-- Two workflows whose nodes have the same ids. -/
def neighbours : Session :=
  (opened (.builtin fun _ => "branch") true []).stock
    [("main", pairFixture 1 "Main"), ("other", pairFixture 2 "Other")]

theorem stocked_neighbours : neighbours.Stocked := (Stocked.opened _ true []).stocked _

/-- Both are edited in turns, and the other one is copied. -/
def turns : List Step := [
  .operate "main" (.request (.create "smtp_email" {} (.south 2 ""))),
  .operate "other" (.request (.duplicate 2)),
  .operate "main" (.request (.replace 3 "http_request" none)),
  .copy "other" "copy" 3 "Copy",
  .operate "other" (.request (.delete 2 none)),
  .operate "main" (.undo { undoable := [.replace 5 "http_request" 3 "smtp_email"] }),
  .reserve "main",
  .operate "main" (.request (.duplicate 3)),
  .operate "main" (.request (.delete 3 none))]

/-- The steps on one of them go as they would without those on the other one. -/
theorem run_undisturbed_turns : ∃ w, neighbours.workflows.get? "main" = some w ∧
    neighbours.Apart turns ∧ ∃ σ : Equiv.Perm NodeId,
      (∀ n, n < neighbours.editor.nextId → σ n = n) ∧
      (∃ v v', (neighbours.run turns).workflows.get? "main" = some v ∧
        (neighbours.replay (neighbours.share "main" σ turns)).workflows.get? "main" = some v' ∧
        v.nodes.ids = [1, 2, 9] ∧ v.Relabels σ v') ∧
      ∀ before step rest, turns = before ++ step :: rest → step.subject = "main" →
        ((neighbours.replay (neighbours.share "main" σ before)).under
          (neighbours.setup.frozen (neighbours.run before).editor)).outcome (step.relabel σ) =
        ((neighbours.run before).outcome step).map (Option.map σ) := by
  have facts : (neighbours.workflows.get? "main").map (fun w => (w.id, w.nodes.ids)) =
      some (1, [1, 2]) := by
    decide +kernel
  obtain ⟨w, here, facts⟩ := Option.map_eq_some_iff.1 facts
  obtain ⟨id, ids⟩ := Prod.mk.inj facts
  have distinct : Distinct neighbours.workflows := by decide +kernel
  have apart : neighbours.Apart turns := by decide +kernel
  obtain ⟨σ, fixes, mirrors, alike⟩ := (run_undisturbed stocked_neighbours here
    (fun other v there same => (distinct.eq there here same).1)
    (by rw [id]; decide : ∀ step ∈ turns, step.Spares "main" w.id)).2
    (by rw [ids]; decide) apart
  obtain ⟨v, v', live, live', mirror⟩ := mirrors turns [] rfl
  have left : ((neighbours.run turns).workflows.get? "main").map (fun v => v.nodes.ids) =
      some [1, 2, 9] := by
    decide +kernel
  rw [live] at left
  exact ⟨w, here, apart, σ, fixes, ⟨v, v', live, live', Option.some.inj left, mirror⟩, alike⟩

/-- The node 2 of a workflow is deleted. -/
def clearing (name : String) : Step := .operate name (.request (.delete 2 none))

/-- A node is made and replaced. -/
def swap : List Step := [
  .operate "main" (.request (.create "smtp_email" {} (.south 2 ""))),
  .operate "main" (.request (.replace 3 "http_request" none))]

/-- The replacement is taken back. -/
def swapBack : Step :=
  .operate "main" (.undo { undoable := [.replace 4 "http_request" 3 "smtp_email"] })

/-- The trash has one entry for each id, so a node cannot be deleted if the other workflow has one of
its id there. A node that was replaced cannot come back if the other workflow has taken it out. -/
theorem alike_disturbed : neighbours.Stocked ∧ Distinct neighbours.workflows ∧
    neighbours.outcome (clearing "other") = some none ∧
    (neighbours.run [clearing "main"]).outcome (clearing "other") = none ∧
    (neighbours.run swap).outcome swapBack = some none ∧
    (neighbours.run (swap ++ [.operate "other" (.restoreReplaced 2 3)])).outcome swapBack = none :=
  ⟨stocked_neighbours, by decide +kernel⟩

end Session

end Autoflow

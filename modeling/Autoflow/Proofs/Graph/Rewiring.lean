import Autoflow.Graph.Edits
import Autoflow.Proofs.Graph.Layout
import Mathlib.Data.List.Nodup
import Mathlib.Logic.Equiv.Basic

/-!
# Rewiring a layout

Three changes of a layout, each of which keeps it a tree. `plant` puts a node into a slot, and
what was there follows the node on its default output. `extract` takes a node out of its slot
and lets nodes of its own slots close the gap, all of them or all but those inside it.
`relabel` renames the nodes by a permutation. Planting after extracting moves a node, as long
as the new place is not inside the node (`IsTree.replant_of`).
-/

namespace Autoflow

namespace Graph

theorem splice_perm {n : NodeId} {l : List NodeId} (h : n ∈ l) (r : List NodeId) :
    (splice n r l).Perm (r ++ l.erase n) := by
  induction l with
  | nil => simp at h
  | cons m l ih =>
    by_cases e : m = n
    · simp [splice, e]
    · have mem : n ∈ l := by
        rcases List.mem_cons.1 h with h | h
        · exact absurd h.symm e
        · exact h
      have step : (m :: splice n r l).Perm (m :: (r ++ l.erase n)) := (ih mem).cons m
      simpa [splice, e] using step.trans List.perm_middle.symm

theorem splice_of_not_mem {n : NodeId} {l : List NodeId} (h : n ∉ l) (r : List NodeId) :
    splice n r l = l := by
  induction l with
  | nil => rfl
  | cons m l ih =>
    simp only [List.mem_cons, not_or] at h
    simp [splice, Ne.symm h.1, ih h.2]

theorem mem_splice_iff {n x : NodeId} {l r : List NodeId} (h : n ∈ l) (d : l.Nodup) :
    x ∈ splice n r l ↔ x ∈ r ∨ (x ≠ n ∧ x ∈ l) := by
  rw [(splice_perm h r).mem_iff, List.mem_append, d.mem_erase_iff]

theorem splice_nil_singleton (n : NodeId) (r : List NodeId) : splice n r [n] = r := by
  simp [splice]

end Graph

open Autoflow.Graph

namespace Slot

/-- Whether a slot is one of the outputs of a node. -/
def isSouthOf (n : NodeId) : Slot → Bool
  | south m _ => m = n
  | _ => false

/-- The slot with another name for its owner. -/
def rename (f : NodeId → NodeId) : Slot → Slot
  | root => root
  | south n o => south (f n) o
  | child n => child (f n)

@[simp] theorem rename_rename (f g : NodeId → NodeId) (t : Slot) :
    (t.rename f).rename g = t.rename (g ∘ f) := by
  cases t <;> rfl

@[simp] theorem rename_id (t : Slot) : t.rename id = t := by
  cases t <;> rfl

theorem owner_rename (f : NodeId → NodeId) (t : Slot) :
    (t.rename f).owner? = t.owner?.map f := by
  cases t <;> rfl

theorem owner_of_isSouthOf {n : NodeId} {s : Slot} (h : s.isSouthOf n = true) :
    s.owner? = some n := by
  cases s <;> simp_all [isSouthOf]

theorem isSouthOf_of_owner {n : NodeId} {s : Slot} (h : s.owner? = some n) (ne : s ≠ .child n) :
    s.isSouthOf n = true := by
  cases s <;> simp_all [isSouthOf]

end Slot

namespace Layout

/-- Puts a node into a slot. What was there follows it on its default output. -/
def plant (L : Layout) (s : Slot) (n : NodeId) : Layout := fun t =>
  if t = s then [n]
  else if t = .south n "" then L s
  else if t.isSouthOf n then []
  else L t

/-- Whether a slot of a node is given up when the node is taken out. -/
def givenUp (n : NodeId) (inside : Bool) (t : Slot) : Prop :=
  t.owner? = some n ∧ (inside = true → t ≠ .child n)

instance (n : NodeId) (inside : Bool) (t : Slot) : Decidable (givenUp n inside t) :=
  inferInstanceAs (Decidable (_ ∧ _))

/-- Takes a node out of a slot and lets other nodes close the gap. The slots of the node get
empty, but for the one inside it if that is to stay. -/
def extract (L : Layout) (n : NodeId) (s : Slot) (successors : List NodeId) (inside : Bool) :
    Layout := fun t =>
  if givenUp n inside t then []
  else if t = s then splice n successors (L s)
  else L t

variable {L : Layout} {D : Set NodeId} {n r x : NodeId} {s t : Slot} {successors : List NodeId}
  {inside : Bool}

/-! ## Planting -/

theorem mem_plant_iff (free : ∀ t, t.isSouthOf n = true → L t = []) (own : s.owner? ≠ some n) :
    x ∈ L.plant s n t ↔
      (x = n ∧ t = s) ∨ (t = .south n "" ∧ x ∈ L s) ∨ (t ≠ s ∧ x ∈ L t) := by
  have self : s ≠ .south n "" := fun e => own (by rw [e]; rfl)
  unfold plant
  by_cases ts : t = s
  · subst ts
    simp [self]
  · by_cases tn : t = .south n ""
    · have none_at := free t (by rw [tn]; simp [Slot.isSouthOf])
      rw [none_at]
      simp [tn, Ne.symm self]
    · by_cases south : t.isSouthOf n = true
      · simp [ts, tn, south, free t south]
      · simp [ts, tn, south]

/-- A node that stands nowhere and has no successors can be planted. -/
theorem Orderly.plant (h : L.Orderly D) (out : ∀ t, n ∉ L t)
    (free : ∀ t, t.isSouthOf n = true → L t = []) (own : s.owner? ≠ some n)
    (held : ∀ a, s.owner? = some a → a ∈ D) : (L.plant s n).Orderly (insert n D) := by
  have mem_iff := fun t x => mem_plant_iff (x := x) (t := t) free own
  refine ⟨?_, ?_, ?_, ?_⟩
  · intro t x a hx o
    rcases (mem_iff t x).1 hx with ⟨_, rfl⟩ | ⟨rfl, _⟩ | ⟨_, hx⟩
    · exact Set.mem_insert_of_mem _ (held a o)
    · cases o
      exact Set.mem_insert _ _
    · exact Set.mem_insert_of_mem _ (h.owner_mem hx o)
  · intro t x hx
    rcases (mem_iff t x).1 hx with ⟨rfl, _⟩ | ⟨_, hx⟩ | ⟨_, hx⟩
    · exact Set.mem_insert _ _
    · exact Set.mem_insert_of_mem _ (h.mem hx)
    · exact Set.mem_insert_of_mem _ (h.mem hx)
  · intro t
    unfold Layout.plant
    split
    · exact List.nodup_cons.2 ⟨List.not_mem_nil, List.nodup_nil⟩
    · split
      · exact h.nodup s
      · split
        · exact List.nodup_nil
        · exact h.nodup t
  · intro t u x ht hu
    rw [mem_iff] at ht hu
    rcases ht with ⟨rfl, rfl⟩ | ⟨rfl, ht⟩ | ⟨ts, ht⟩ <;>
      rcases hu with ⟨e, eu⟩ | ⟨rfl, hu⟩ | ⟨us, hu⟩
    · exact eu.symm
    · exact absurd hu (out _)
    · exact absurd hu (out _)
    · exact absurd ht (e ▸ out _)
    · rfl
    · exact absurd (h.slot_unique hu ht) us
    · exact absurd ht (e ▸ out _)
    · exact absurd (h.slot_unique ht hu) ts
    · exact h.slot_unique ht hu

/-- Planting keeps a node reachable from the root if the slot can be reached. -/
theorem Rooted.plant (h : L.Rooted x) (free : ∀ t, t.isSouthOf n = true → L t = [])
    (own : s.owner? ≠ some n) : (L.plant s n).Rooted x := by
  have mem_iff := fun t x => mem_plant_iff (x := x) (t := t) free own
  induction h with
  | @intro t x _ mem ih =>
    by_cases ts : t = s
    · subst ts
      have planted : (L.plant t n).Rooted n := .intro ih ((mem_iff t n).2 (Or.inl ⟨rfl, rfl⟩))
      exact planted.of_edge (.of_mem ((mem_iff _ x).2 (Or.inr (Or.inl ⟨rfl, mem⟩))) rfl)
    · exact .intro ih ((mem_iff t x).2 (Or.inr (Or.inr ⟨ts, mem⟩)))

theorem Rooted.planted (free : ∀ t, t.isSouthOf n = true → L t = []) (own : s.owner? ≠ some n)
    (held : ∀ a, s.owner? = some a → L.Rooted a) : (L.plant s n).Rooted n :=
  .intro (fun a o => (held a o).plant free own)
    ((mem_plant_iff free own).2 (Or.inl ⟨rfl, rfl⟩))

theorem plant_root_unique (free : ∀ t, t.isSouthOf n = true → L t = [])
    (own : s.owner? ≠ some n) (one : ∀ {a b}, a ∈ L .root → b ∈ L .root → a = b) {a b : NodeId}
    (ha : a ∈ L.plant s n .root) (hb : b ∈ L.plant s n .root) : a = b := by
  rcases (mem_plant_iff free own).1 ha with ⟨rfl, e⟩ | ⟨e, _⟩ | ⟨ne, ha⟩ <;>
    rcases (mem_plant_iff free own).1 hb with ⟨rfl, e'⟩ | ⟨e', _⟩ | ⟨ne', hb⟩ <;>
    first
    | rfl
    | exact one ha hb
    | exact absurd e (by simp)
    | exact absurd e' (by simp)
    | exact absurd e ne'
    | exact absurd e' ne

/-- A new node can be planted in any slot of a tree. -/
theorem IsTree.plant (h : L.IsTree D) (new : n ∉ D) (held : ∀ a, s.owner? = some a → a ∈ D) :
    (L.plant s n).IsTree (insert n D) := by
  have out : ∀ t, n ∉ L t := fun t hn => new (h.mem hn)
  have free : ∀ t, t.isSouthOf n = true → L t = [] := fun t south =>
    List.eq_nil_iff_forall_not_mem.2 fun x hx =>
      new (h.owner_mem hx (Slot.owner_of_isSouthOf south))
  have own : s.owner? ≠ some n := fun o => new (held n o)
  refine ⟨h.toOrderly.plant out free own held,
    plant_root_unique free own h.root_unique, fun {x} hx => ?_⟩
  rcases Set.mem_insert_iff.1 hx with rfl | hx
  · exact Rooted.planted free own fun a o => h.rooted (held a o)
  · exact (h.rooted hx).plant free own

/-! ## Taking a node out -/

section Extract

section Orderly

variable (h : L.Orderly D) (hn : n ∈ L s)

include h hn in
theorem mem_extract_iff :
    x ∈ L.extract n s successors inside t ↔
      ¬ givenUp n inside t ∧ ((t = s ∧ x ∈ successors) ∨ (x ≠ n ∧ x ∈ L t)) := by
  unfold extract
  by_cases up : givenUp n inside t
  · simp [up]
  · by_cases ts : t = s
    · subst ts
      simp [up, mem_splice_iff hn (h.nodup t)]
    · have ne : x ∈ L t → x ≠ n := fun hx e => ts (h.slot_unique (e ▸ hx) hn)
      simp only [up, ts, if_false, not_false_eq_true, true_and, false_and, false_or]
      exact ⟨fun hx => ⟨ne hx, hx⟩, And.right⟩

include h hn in
/-- A node that stands in a slot of another one is in none of its own. -/
theorem Orderly.ne_of_givenUp (own : s.owner? ≠ some n) (up : givenUp n inside t) (hx : x ∈ L t) :
    x ≠ n := by
  rintro rfl
  exact own (h.slot_unique hn hx ▸ up.1)

include h hn in
/-- A node can be taken out of a slot of another one, and some of what it leaves can close the
gap. -/
theorem Orderly.extract (own : s.owner? ≠ some n)
    (closes : ∀ x ∈ successors, ∃ t, givenUp n inside t ∧ x ∈ L t) (distinct : successors.Nodup)
    {D' : Set NodeId} (rest : ∀ x ∈ D, x ≠ n → x ∈ D') (stays : inside = true → n ∈ D') :
    (L.extract n s successors inside).Orderly D' := by
  refine ⟨?_, ?_, ?_, ?_⟩
  · intro t x a hx o
    obtain ⟨notUp, hx⟩ := (mem_extract_iff h hn).1 hx
    by_cases e : a = n
    · subst e
      refine stays ?_
      by_contra off
      exact notUp ⟨o, fun on => absurd on off⟩
    · rcases hx with ⟨rfl, _⟩ | ⟨_, hx⟩
      · exact rest a (h.owner_mem hn o) e
      · exact rest a (h.owner_mem hx o) e
  · intro t x hx
    obtain ⟨_, ⟨_, hx⟩ | ⟨ne, hx⟩⟩ := (mem_extract_iff h hn).1 hx
    · obtain ⟨u, up, hx⟩ := closes x hx
      exact rest x (h.mem hx) (h.ne_of_givenUp hn own up hx)
    · exact rest x (h.mem hx) ne
  · intro t
    unfold Layout.extract
    split
    · exact List.nodup_nil
    · split
      · refine (splice_perm hn successors).nodup_iff.2
          (List.nodup_append.2 ⟨distinct, (h.nodup s).erase n, ?_⟩)
        rintro y hy _ hy' rfl
        obtain ⟨u, up, hu⟩ := closes y hy
        have e := h.slot_unique hu (List.mem_of_mem_erase hy')
        exact own (e ▸ up.1)
      · exact h.nodup t
  · intro t u x ht hu
    rw [mem_extract_iff h hn] at ht hu
    obtain ⟨notUp, ht⟩ := ht
    obtain ⟨notUp', hu⟩ := hu
    have apart : ∀ {t}, ¬ givenUp n inside t → x ∈ successors → x ∉ L t := by
      intro t notUp hx ht
      obtain ⟨v, up, hv⟩ := closes x hx
      exact notUp (h.slot_unique hv ht ▸ up)
    rcases ht with ⟨rfl, hx⟩ | ⟨_, ht⟩ <;> rcases hu with ⟨rfl, hx'⟩ | ⟨_, hu⟩
    · rfl
    · exact absurd hu (apart notUp' hx)
    · exact absurd ht (apart notUp hx')
    · exact h.slot_unique ht hu

include h hn in
/-- Nothing is left in the slots that a node gives up, and the node itself is in none. -/
theorem Orderly.vacant_extract (own : s.owner? ≠ some n)
    (closes : ∀ x ∈ successors, ∃ t, givenUp n true t ∧ x ∈ L t) :
    (∀ u, u.isSouthOf n = true → L.extract n s successors true u = []) ∧
      ∀ u, n ∉ L.extract n s successors true u := by
  refine ⟨fun u south => ?_, fun u hu => ?_⟩
  · have up : givenUp n true u :=
      ⟨Slot.owner_of_isSouthOf south, fun _ e => by rw [e] at south; cases south⟩
    simp [Layout.extract, up]
  · obtain ⟨_, ⟨_, hu⟩ | ⟨ne, _⟩⟩ := (mem_extract_iff h hn).1 hu
    · obtain ⟨v, up, hv⟩ := closes n hu
      exact h.ne_of_givenUp hn own up hv rfl
    · exact ne rfl

include h hn in
/-- A node can be moved to a slot that is not its own. -/
theorem Orderly.replant_of (own : s.owner? ≠ some n)
    (closes : ∀ x ∈ successors, ∃ t, givenUp n true t ∧ x ∈ L t) (distinct : successors.Nodup)
    (off : t.owner? ≠ some n) (held : ∀ r, t.owner? = some r → r ∈ D) :
    ((L.extract n s successors true).plant t n).Orderly D := by
  have nD : n ∈ D := h.mem hn
  obtain ⟨free, out⟩ := h.vacant_extract hn own closes
  have left := h.extract hn own closes distinct (fun _ hx _ => hx) fun _ => nD
  exact Set.insert_eq_of_mem nD ▸ left.plant out free off held

include h hn in
/-- A node can be moved to a slot of another node. -/
theorem Orderly.replant (own : s.owner? ≠ some n)
    (closes : ∀ x ∈ successors, ∃ t, givenUp n true t ∧ x ∈ L t) (distinct : successors.Nodup)
    (ot : t.owner? = some r) (hr : r ∈ D) (ne : r ≠ n) :
    ((L.extract n s successors true).plant t n).Orderly D := by
  refine h.replant_of hn own closes distinct (fun o => ?_) fun a o => ?_
  · exact ne (Option.some.inj (ot.symm.trans o))
  · rw [ot] at o
    cases o
    exact hr

end Orderly

variable (h : L.IsTree D) (hn : n ∈ L s)
  (closes : ∀ x, x ∈ successors ↔ ∃ t, givenUp n inside t ∧ x ∈ L t)

include h hn closes in
/-- A node that is neither taken out nor inside the node that is stays reachable, and so does
the owner of the slot that was left. -/
theorem Rooted.extract (hx : L.Rooted x) :
    (x = n → ∀ a, s.owner? = some a → (L.extract n s successors inside).Rooted a) ∧
    (x ≠ n → (inside = true → ¬ L.Inside n x) →
      (L.extract n s successors inside).Rooted x) := by
  have mem_iff : ∀ t x, x ∈ L.extract n s successors inside t ↔ _ := fun _ _ =>
    mem_extract_iff h.toOrderly hn
  have slot_kept : ¬ givenUp n inside s := fun up => h.owner_ne hn up.1
  induction hx with
  | @intro t x _ mem ih =>
    constructor
    · intro e a o
      have ts : t = s := h.slot_unique (e ▸ mem) hn
      refine (ih a (ts ▸ o)).2 (fun e => h.owner_ne hn (e ▸ o)) fun _ below => ?_
      exact h.not_reach_owner hn o below.reach
    · intro ne out
      by_cases up : givenUp n inside t
      · exact .intro ((ih n up.1).1 rfl)
          ((mem_iff s x).2 ⟨slot_kept, Or.inl ⟨rfl, (closes x).2 ⟨t, up, mem⟩⟩⟩)
      · refine .intro (fun a o => (ih a o).2 (fun e => ?_) fun on below => ?_)
          ((mem_iff t x).2 ⟨up, Or.inr ⟨ne, mem⟩⟩)
        · subst e
          refine up ⟨o, fun on e => out on ?_⟩
          subst e
          exact Inside.of_mem mem
        · exact out on (below.of_edge (.of_mem mem o))

include h hn in
theorem extract_root_unique
    (one : s = .root → ∀ {a b}, a ∈ successors → b ∈ successors → a = b) {a b : NodeId}
    (ha : a ∈ L.extract n s successors inside .root)
    (hb : b ∈ L.extract n s successors inside .root) : a = b := by
  rw [mem_extract_iff h.toOrderly hn] at ha hb
  obtain ⟨_, ⟨e, ha⟩ | ⟨ne, ha⟩⟩ := ha <;> obtain ⟨_, ⟨e', hb⟩ | ⟨ne', hb⟩⟩ := hb
  · exact one e.symm ha hb
  · exact absurd (h.root_unique hb (e ▸ hn)) ne'
  · exact absurd (h.root_unique ha (e' ▸ hn)) ne
  · exact h.root_unique ha hb

include h hn closes in
/-- A node can be taken out of a tree, from the root only if at most one node closes the gap. -/
theorem IsTree.extract (all : inside = false) (distinct : successors.Nodup)
    (one : s = .root → ∀ {a b}, a ∈ successors → b ∈ successors → a = b) :
    (L.extract n s successors inside).IsTree (D \ {n}) := by
  refine ⟨h.toOrderly.extract hn (h.owner_ne hn) (fun x => (closes x).1) distinct
    (fun x hx ne => ⟨hx, ne⟩) (fun on => absurd on (by simp [all])),
    extract_root_unique h hn one, ?_⟩
  rintro x ⟨hx, ne⟩
  exact (Rooted.extract h hn closes (h.rooted hx)).2 ne fun on => absurd on (by simp [all])

include h hn closes in
/-- A node can be moved with what is inside it to any slot that is neither its own nor inside it. -/
theorem IsTree.replant_of (keep : inside = true) (distinct : successors.Nodup)
    (one : s = .root → ∀ {a b}, a ∈ successors → b ∈ successors → a = b)
    (own : t.owner? ≠ some n) (there : ∀ r, t.owner? = some r → r ∈ D ∧ ¬ L.Inside n r) :
    ((L.extract n s successors inside).plant t n).IsTree D := by
  subst keep
  have mem_iff : ∀ u x, x ∈ L.extract n s successors true u ↔ _ := fun _ _ =>
    mem_extract_iff h.toOrderly hn
  have closed : ∀ x ∈ successors, ∃ t, givenUp n true t ∧ x ∈ L t := fun x => (closes x).1
  have free := (h.toOrderly.vacant_extract hn (h.owner_ne hn) closed).1
  have held : ∀ a, t.owner? = some a → (L.extract n s successors true).Rooted a := fun a o =>
    (Rooted.extract h hn closes (h.rooted (there a o).1)).2
      (fun e => own (e ▸ o)) fun _ => (there a o).2
  have planted := Rooted.planted free own held
  refine ⟨h.toOrderly.replant_of hn (h.owner_ne hn) closed distinct own fun a o => (there a o).1,
    plant_root_unique free own (extract_root_unique h hn one), fun {x} hx => ?_⟩
  by_cases e : x = n
  · exact e ▸ planted
  by_cases below : L.Inside n x
  · -- the part inside the node is not touched, so it hangs from the node as before
    obtain ⟨d, hd, rd⟩ := below
    have stays : ∀ {u y z}, u.owner? = some y → z ∈ L u → u ≠ t → ¬ givenUp n true u →
        z ≠ n → z ∈ (L.extract n s successors true).plant t n u := fun _ hz ut up zn =>
      (mem_plant_iff free own).2 (Or.inr (Or.inr ⟨ut, (mem_iff _ _).2 ⟨up, Or.inr ⟨zn, hz⟩⟩⟩))
    induction rd with
    | refl =>
      refine planted.of_edge (.of_mem (stays rfl hd ?_ (fun up => up.2 rfl rfl) e) rfl)
      rintro rfl
      exact own rfl
    | @tail y z ry ez ih =>
      have below : L.Inside n y := ⟨d, hd, ry⟩
      have yn : y ≠ n := fun e => h.not_inside_self (e ▸ below)
      obtain ⟨u, ou, hz⟩ := ez
      have rooted_y := ih (h.mem_of_reach (h.mem hn) below.reach) yn
      refine rooted_y.of_edge (.of_mem (stays ou hz ?_ ?_ e) ou)
      · rintro rfl
        exact (there y ou).2 below
      · exact fun up => yn (Option.some.inj (ou.symm.trans up.1))
  · exact ((Rooted.extract h hn closes (h.rooted hx)).2 e fun _ => below).plant free own

include h hn closes in
/-- A node can be moved with what is inside it to any slot of a node that is not inside it. -/
theorem IsTree.replant (keep : inside = true) (distinct : successors.Nodup)
    (one : s = .root → ∀ {a b}, a ∈ successors → b ∈ successors → a = b) (ot : t.owner? = some r)
    (hr : r ∈ D) (ne : r ≠ n) (outside : ¬ L.Inside n r) :
    ((L.extract n s successors inside).plant t n).IsTree D := by
  refine h.replant_of hn closes keep distinct one (fun o => ?_) fun a o => ?_
  · exact ne (Option.some.inj (ot.symm.trans o))
  · rw [ot] at o
    cases o
    exact ⟨hr, outside⟩

end Extract

/-! ## Renaming -/

/-- The layout with nodes renamed by a permutation. -/
def relabel (L : Layout) (σ : Equiv.Perm NodeId) : Layout := fun t =>
  (L (t.rename σ.symm)).map σ

@[simp] theorem mem_relabel_iff {σ : Equiv.Perm NodeId} :
    x ∈ L.relabel σ t ↔ σ.symm x ∈ L (t.rename σ.symm) := by
  simp [relabel, ← Equiv.eq_symm_apply]

theorem Rooted.relabel (hx : L.Rooted x) (σ : Equiv.Perm NodeId) :
    (L.relabel σ).Rooted (σ x) := by
  induction hx with
  | @intro t x _ mem ih =>
    refine .intro (s := t.rename σ) (fun a o => ?_) (by simpa using mem)
    rw [Slot.owner_rename, Option.map_eq_some_iff] at o
    obtain ⟨b, ob, rfl⟩ := o
    exact ih b ob

theorem Orderly.relabel (h : L.Orderly D) (σ : Equiv.Perm NodeId) :
    (L.relabel σ).Orderly {x | σ.symm x ∈ D} := by
  refine ⟨fun {t x a} hx o => ?_, fun hx => h.mem (mem_relabel_iff.1 hx), fun t => ?_,
    fun {t u x} ht hu => ?_⟩
  · have o' : (t.rename σ.symm).owner? = some (σ.symm a) := by rw [Slot.owner_rename, o]; rfl
    exact h.owner_mem (mem_relabel_iff.1 hx) o'
  · exact (List.nodup_map_iff σ.injective).2 (h.nodup _)
  · have e := h.slot_unique (mem_relabel_iff.1 ht) (mem_relabel_iff.1 hu)
    simpa using congrArg (Slot.rename σ) e

/-- Renaming keeps a tree. -/
theorem IsTree.relabel (h : L.IsTree D) (σ : Equiv.Perm NodeId) :
    (L.relabel σ).IsTree {x | σ.symm x ∈ D} := by
  refine ⟨h.toOrderly.relabel σ, fun {a b} ha hb => ?_, fun {x} hx => ?_⟩
  · exact σ.symm.injective (h.root_unique (mem_relabel_iff.1 ha) (mem_relabel_iff.1 hb))
  · simpa using (h.rooted hx).relabel σ

end Layout

end Autoflow

import Autoflow.Proofs.Checks
import Mathlib.Data.List.Forall2

/-!
# Item by item

Two lists, or two optional values, correspond if their items do, one by one
(`List.Forall₂`, `Option.Rel`). Steps that may fail, made for every item of a list, succeed with
the list that corresponds to it (`Except.mapM_eq_ok_iff`).
-/

namespace List.Forall₂

variable {α β : Type} {R S : α → β → Prop} {l : List α} {bs : List β}

/-- A list has a partner if each of its members has one. -/
theorem exists_iff : (∃ bs, List.Forall₂ R l bs) ↔ ∀ a ∈ l, ∃ b, R a b := by
  constructor
  · rintro ⟨bs, all⟩
    induction all with
    | nil => nofun
    | cons first _ ih => exact List.forall_mem_cons.2 ⟨⟨_, first⟩, ih⟩
  · intro each
    induction l with
    | nil => exact ⟨[], .nil⟩
    | cons a l ih =>
      obtain ⟨⟨b, first⟩, rest⟩ := List.forall_mem_cons.1 each
      obtain ⟨bs, all⟩ := ih rest
      exact ⟨b :: bs, .cons first all⟩

/-- What corresponds to an item of the first list may be told apart by that. -/
theorem imp_mem (all : List.Forall₂ R l bs) (each : ∀ a ∈ l, ∀ b, R a b → S a b) :
    List.Forall₂ S l bs := by
  induction all with
  | nil => exact .nil
  | cons first _ ih =>
    obtain ⟨here, rest⟩ := List.forall_mem_cons.1 each
    exact .cons (here _ first) (ih rest)

/-- Each member of the second list is the partner of one of the first. -/
theorem exists_left (all : List.Forall₂ R l bs) : ∀ b ∈ bs, ∃ a ∈ l, R a b := by
  induction all with
  | nil => nofun
  | cons first _ ih =>
    refine List.forall_mem_cons.2 ⟨⟨_, List.mem_cons_self, first⟩, fun b mem => ?_⟩
    obtain ⟨a, mem', same⟩ := ih b mem
    exact ⟨a, List.mem_cons_of_mem _ mem', same⟩

/-- Items that are all different stay so if no two of them correspond to the same one. -/
theorem nodup (all : List.Forall₂ R l bs)
    (apart : ∀ a ∈ l, ∀ a' ∈ l, ∀ b, R a b → R a' b → a = a') (distinct : l.Nodup) :
    bs.Nodup := by
  induction all with
  | nil => exact List.nodup_nil
  | @cons a b l bs first rest ih =>
    obtain ⟨new, distinct⟩ := List.nodup_cons.1 distinct
    obtain ⟨here, later⟩ := List.forall_mem_cons.1 apart
    refine List.nodup_cons.2 ⟨fun again => ?_, ih (fun x mem y mem' =>
      later x mem y (List.mem_cons_of_mem a mem')) distinct⟩
    obtain ⟨a', mem, second⟩ := rest.exists_left b again
    have same : a = a' := here a' (List.mem_cons_of_mem a mem) b first second
    exact new (same ▸ mem)

/-- If the partner is computed, the second list is the image of the first. -/
theorem eq_map {f : α → β} (all : List.Forall₂ (fun a b => b = f a) l bs) : bs = l.map f := by
  induction all with
  | nil => rfl
  | cons first _ ih => rw [first, ih, List.map_cons]

end List.Forall₂

namespace Option.Rel

variable {α β : Type} {R S : α → β → Prop} {a : Option α} {b : Option β}

/-- An optional value has a partner if the value in it has one. -/
theorem exists_iff : (∃ b, Option.Rel R a b) ↔ ∀ x ∈ a, ∃ y, R x y := by
  constructor
  · rintro ⟨_, here | _⟩ x mem
    · cases mem
      exact ⟨_, here⟩
    · cases mem
  · intro each
    cases a with
    | none => exact ⟨Option.none, .none⟩
    | some x =>
      obtain ⟨y, here⟩ := each x rfl
      exact ⟨Option.some y, .some here⟩

theorem imp_mem (here : Option.Rel R a b) (each : ∀ x ∈ a, ∀ y, R x y → S x y) :
    Option.Rel S a b := by
  cases here with
  | some same => exact .some (each _ rfl _ same)
  | none => exact .none

theorem flip (here : Option.Rel R a b) : Option.Rel (fun y x => R x y) b a := by
  cases here with
  | some same => exact .some same
  | none => exact .none

theorem toList (here : Option.Rel R a b) : List.Forall₂ R a.toList b.toList := by
  cases here with
  | some same => exact .cons same .nil
  | none => exact .nil

/-- What is made of two partners is related, if it is for absent and for present values. -/
theorem elim {γ γ' : Type} {T : γ → γ' → Prop} {d : γ} {d' : γ'} {f : α → γ} {f' : β → γ'}
    (here : Option.Rel R a b) (absent : T d d') (present : ∀ x y, R x y → T (f x) (f' y)) :
    T (a.elim d f) (b.elim d' f') := by
  cases here with
  | some same => exact present _ _ same
  | none => exact absent

/-- Partners stay partners when a default stands in for absent ones. -/
theorem getD {d : α} {d' : β} (here : Option.Rel R a b) (absent : R d d') :
    R (a.getD d) (b.getD d') := by
  cases here with
  | some same => exact same
  | none => exact absent

/-- An absent value has no present partner. -/
theorem eq_none (here : Option.Rel R a b) (absent : a = Option.none) : b = Option.none := by
  cases here with
  | some _ => cases absent
  | none => rfl

/-- A present value has a present partner. -/
theorem eq_some (here : Option.Rel R a b) {x : α} (present : a = Option.some x) :
    ∃ y, b = Option.some y ∧ R x y := by
  cases here with
  | some same =>
    cases present
    exact ⟨_, rfl, same⟩
  | none => cases present

end Option.Rel

namespace Except

variable {ε α β : Type} {f : α → Except ε β}

/-- A traversal yields what its steps yield, one by one. -/
theorem mapM_eq_ok_iff {l : List α} {bs : List β} :
    l.mapM f = .ok bs ↔ List.Forall₂ (f · = .ok ·) l bs := by
  induction l generalizing bs with
  | nil => cases bs <;> simp [pure, Except.pure]
  | cons a l ih =>
    rw [List.mapM_cons]
    constructor
    · intro h
      obtain ⟨b, first, h⟩ := bind_eq_ok.1 h
      obtain ⟨rest, later, h⟩ := bind_eq_ok.1 h
      cases h
      exact .cons first (ih.1 later)
    · rintro (_ | ⟨first, later⟩)
      rw [first, ih.2 later]
      rfl

/-- Over an optional value a reading succeeds with a partner of it. -/
theorem mapM_option_eq_ok_iff {o : Option α} {r : Option β} :
    o.mapM f = .ok r ↔ Option.Rel (f · = .ok ·) o r := by
  constructor
  · intro h
    cases o with
    | none =>
      cases h
      exact .none
    | some a =>
      rw [Option.mapM_some] at h
      obtain ⟨b, here, h⟩ := bind_eq_ok.1 h
      cases h
      exact .some here
  · rintro (here | _)
    · rw [Option.mapM_some, here]
      rfl
    · rfl

/-- A fold whose steps succeed or not whatever came before succeeds if all of them do. -/
theorem exists_foldlM_iff {f : β → α → Except ε β} {P : α → Prop}
    (each : ∀ b a, (∃ c, f b a = .ok c) ↔ P a) {l : List α} {b : β} :
    (∃ c, l.foldlM f b = .ok c) ↔ ∀ a ∈ l, P a := by
  constructor
  · rintro ⟨c, run⟩ a mem
    obtain ⟨before, _, step⟩ := step_of_foldlM run a mem
    exact (each before a).1 ⟨_, step⟩
  · exact fun all => exists_foldlM (fun a mem b => (each b a).2 (all a mem)) b

/-- What each step adds to what it read before, the fold says of all that it read. -/
theorem foldlM_reads {f : β → α → Except ε β} {P : List α → β → Prop} {b c : β}
    (start : P [] b) (step : ∀ read a b c, P read b → f b a = .ok c → P (read ++ [a]) c)
    {l : List α} (run : l.foldlM f b = .ok c) : P l c := by
  suffices behind : ∀ (l : List α) read b, P read b → l.foldlM f b = .ok c → P (read ++ l) c from
    behind l [] b start run
  intro l
  induction l with
  | nil =>
    intro read b here run
    cases run
    rwa [List.append_nil]
  | cons a l ih =>
    intro read b here run
    rw [List.foldlM_cons] at run
    obtain ⟨next, first, rest⟩ := bind_eq_ok.1 run
    rw [List.append_cons]
    exact ih (read ++ [a]) next (step read a b next here first) rest

/-- A mapped reading gives the image of what is read. -/
theorem map_eq_ok {x : Except ε α} {g : α → β} {b : β} :
    x.map g = .ok b ↔ ∃ a, x = .ok a ∧ g a = b := by
  cases x <;> simp [Except.map]

/-! ## Faults of one kind -/

/-- A fault, if there is one, is of some kind. -/
def FailsWith (kind : ε → Prop) (x : Except ε α) : Prop := ∀ e, x = .error e → kind e

namespace FailsWith

variable {kind : ε → Prop}

/-- A success is no fault of another kind. -/
theorem ok (a : α) : FailsWith kind (.ok a) := nofun

/-- Two readings in a row only have the faults that each of them has. -/
theorem bind {x : Except ε α} {k : α → Except ε β} (first : FailsWith kind x)
    (then_ : ∀ a, FailsWith kind (k a)) : FailsWith kind (x >>= k) := by
  cases x with
  | error e =>
    intro e' same
    cases same
    exact first e rfl
  | ok a => exact then_ a

theorem map {x : Except ε α} (first : FailsWith kind x) (g : α → β) :
    FailsWith kind (x.map g) := by
  cases x with
  | error e =>
    intro e' same
    cases same
    exact first e rfl
  | ok a => exact ok (g a)

/-- The same goes for one reading after the other, over a list. -/
theorem foldlM {f : β → α → Except ε β} (each : ∀ b a, FailsWith kind (f b a)) (l : List α)
    (b : β) : FailsWith kind (l.foldlM f b) := by
  induction l generalizing b with
  | nil => exact ok b
  | cons a l ih =>
    rw [List.foldlM_cons]
    exact (each b a).bind ih

theorem mapM {f : α → Except ε β} (each : ∀ a, FailsWith kind (f a)) (l : List α) :
    FailsWith kind (l.mapM f) := by
  induction l with
  | nil => exact ok []
  | cons a l ih =>
    rw [List.mapM_cons]
    exact (each a).bind fun b => ih.bind fun bs => ok (b :: bs)

end FailsWith

end Except

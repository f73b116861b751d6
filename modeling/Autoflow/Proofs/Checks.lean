/-!
# Chains of checks

When a chain of checks, or of steps that may fail for every item of a list, succeeds.
-/

namespace Except

variable {ε α β : Type}

/-- Two steps succeed if the first does and the second does with its result. -/
theorem bind_eq_ok {x : Except ε α} {k : α → Except ε β} {b : β} :
    x >>= k = .ok b ↔ ∃ a, x = .ok a ∧ k a = .ok b := by
  cases x <;> simp [bind, Except.bind]

/-- A test and a step succeed if both do. -/
theorem bind_unit_eq_ok {x : Except ε Unit} {k : Unit → Except ε α} {a : α} :
    x >>= k = .ok a ↔ x = .ok () ∧ k () = .ok a := by
  cases x <;> simp [bind, Except.bind]

/-- A test of a list passes if all its members do. -/
theorem forM_eq_ok {l : List α} {test : α → Except ε Unit} :
    l.forM test = .ok () ↔ ∀ a ∈ l, test a = .ok () := by
  induction l with
  | nil => simp [pure, Except.pure]
  | cons a l ih =>
    rw [List.forall_mem_cons, ← ih]
    exact bind_unit_eq_ok

/-- A search that does not fail finds nothing if each member is passed over. -/
theorem anyM_eq_false_iff {l : List α} {test : α → Except ε Bool} :
    l.anyM test = .ok false ↔ ∀ a ∈ l, test a = .ok false := by
  induction l with
  | nil => simp [pure, Except.pure]
  | cons a l ih =>
    rw [List.anyM_cons, List.forall_mem_cons, ← ih]
    rcases test a with f | (_ | _) <;> simp [bind, Except.bind, pure, Except.pure]

/-- A fold succeeds if every step does from wherever it starts. -/
theorem exists_foldlM {l : List α} {f : β → α → Except ε β}
    (each : ∀ a ∈ l, ∀ b, ∃ c, f b a = .ok c) (b : β) : ∃ c, l.foldlM f b = .ok c := by
  induction l generalizing b with
  | nil => exact ⟨b, rfl⟩
  | cons a l ih =>
    obtain ⟨next, first⟩ := each a List.mem_cons_self b
    obtain ⟨last, rest⟩ := ih (fun x mem => each x (List.mem_cons_of_mem a mem)) next
    exact ⟨last, by rw [List.foldlM_cons, first]; exact rest⟩

/-- Every step of a fold that succeeds does. -/
theorem step_of_foldlM {l : List α} {f : β → α → Except ε β} {b c : β}
    (h : l.foldlM f b = .ok c) : ∀ a ∈ l, ∃ b c, f b a = .ok c := by
  induction l generalizing b with
  | nil => nofun
  | cons a l ih =>
    rw [List.foldlM_cons] at h
    obtain ⟨next, first, rest⟩ := bind_eq_ok.1 h
    rw [List.forall_mem_cons]
    exact ⟨⟨b, next, first⟩, ih rest⟩

/-- What each step keeps, the fold keeps. -/
theorem foldlM_invariant {l : List α} {f : β → α → Except ε β} {P : β → Prop}
    (keeps : ∀ b a c, P b → f b a = .ok c → P c) {b c : β} (start : P b)
    (h : l.foldlM f b = .ok c) : P c := by
  induction l generalizing b with
  | nil =>
    cases h
    exact start
  | cons a l ih =>
    rw [List.foldlM_cons] at h
    obtain ⟨next, first, rest⟩ := bind_eq_ok.1 h
    exact ih (keeps b a next start first) rest

/-- What each step yields, if it does, the fold yields. -/
theorem eq_foldl_of_foldlM {l : List α} {f : β → α → Except ε β} {F : β → α → β}
    (each : ∀ b a c, f b a = .ok c → c = F b a) {b c : β} (h : l.foldlM f b = .ok c) :
    c = l.foldl F b := by
  induction l generalizing b with
  | nil =>
    cases h
    rfl
  | cons a l ih =>
    rw [List.foldlM_cons] at h
    obtain ⟨next, first, rest⟩ := bind_eq_ok.1 h
    rw [ih rest, each b a next first, List.foldl_cons]

/-- If each success is the value of a function, the list is the image of the first one. -/
theorem eq_map_of_mapM {f : α → Except ε β} {F : α → β} (each : ∀ a b, f a = .ok b → b = F a)
    {l : List α} {bs : List β} (h : l.mapM f = .ok bs) : bs = l.map F := by
  induction l generalizing bs with
  | nil =>
    cases h
    rfl
  | cons a l ih =>
    rw [List.mapM_cons] at h
    obtain ⟨b, first, h⟩ := bind_eq_ok.1 h
    obtain ⟨rest, later, h⟩ := bind_eq_ok.1 h
    cases h
    rw [each a b first, ih later, List.map_cons]

theorem eq_map_of_mapM_option {f : α → Except ε β} {F : α → β}
    (each : ∀ a b, f a = .ok b → b = F a) {o : Option α} {r : Option β} (h : o.mapM f = .ok r) :
    r = o.map F := by
  cases o with
  | none =>
    cases h
    rfl
  | some a =>
    rw [Option.mapM_some] at h
    obtain ⟨b, first, h⟩ := bind_eq_ok.1 h
    cases h
    rw [each a b first, Option.map_some]

/-- Over an optional value a step succeeds if it does on the value in it. -/
theorem exists_mapM_option {o : Option α} {f : α → Except ε β}
    (each : ∀ a, o = some a → ∃ b, f a = .ok b) : ∃ r, o.mapM f = .ok r := by
  cases o with
  | none => exact ⟨none, rfl⟩
  | some a =>
    obtain ⟨b, h⟩ := each a rfl
    exact ⟨some b, by rw [Option.mapM_some, h]; rfl⟩

variable {ε' α' β' : Type}

/-- What succeeds for each item under another name succeeds for all. -/
theorem exists_mapM_map {f : α → Except ε β} {f' : α' → Except ε' β'} {v : α → α'}
    (each : ∀ a b, f a = .ok b → ∃ b', f' (v a) = .ok b') {l : List α} {bs : List β}
    (h : l.mapM f = .ok bs) : ∃ bs', (l.map v).mapM f' = .ok bs' := by
  induction l generalizing bs with
  | nil => exact ⟨[], rfl⟩
  | cons a l ih =>
    rw [List.mapM_cons] at h
    obtain ⟨_, first, h⟩ := bind_eq_ok.1 h
    obtain ⟨_, later, _⟩ := bind_eq_ok.1 h
    obtain ⟨b', first'⟩ := each a _ first
    obtain ⟨rest, later'⟩ := ih later
    exact ⟨b' :: rest, by rw [List.map_cons, List.mapM_cons, first', later']; rfl⟩

theorem exists_mapM_option_map {f : α → Except ε β} {f' : α' → Except ε' β'} {v : α → α'}
    (each : ∀ a b, f a = .ok b → ∃ b', f' (v a) = .ok b') {o : Option α} {r : Option β}
    (h : o.mapM f = .ok r) : ∃ r', (o.map v).mapM f' = .ok r' := by
  refine exists_mapM_option fun x mem => ?_
  obtain ⟨a, rfl, rfl⟩ := Option.map_eq_some_iff.1 mem
  rw [Option.mapM_some] at h
  obtain ⟨b, run, _⟩ := bind_eq_ok.1 h
  exact each a b run

end Except

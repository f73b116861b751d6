/-!
# Association lists

A list of key and value pairs read as a finite map: the first pair with a key decides.
`put` keeps the place of a key that is already there and appends a new one, `drop` takes
the pair of a key out, and `change` replaces its value in place. The lemmas say what each
operation does to `find?` and to the list of keys.
-/

namespace Autoflow.Assoc

variable {κ : Type} {ν : Type}

/-- The keys, in order. -/
def keys (l : List (κ × ν)) : List κ := l.map Prod.fst

@[simp] theorem keys_nil : keys ([] : List (κ × ν)) = [] := rfl

@[simp] theorem keys_cons (p : κ × ν) (l : List (κ × ν)) : keys (p :: l) = p.1 :: keys l := rfl

variable [DecidableEq κ]

/-- The value stored under a key. -/
def find? (k : κ) : List (κ × ν) → Option ν
  | [] => none
  | (k', v) :: rest => if k' = k then some v else find? k rest

/-- Stores a value, in the place of the key if it is there and at the end otherwise. -/
def put (k : κ) (v : ν) : List (κ × ν) → List (κ × ν)
  | [] => [(k, v)]
  | (k', v') :: rest => if k' = k then (k', v) :: rest else (k', v') :: put k v rest

/-- Takes a key out, the others keep their order. -/
def drop (k : κ) : List (κ × ν) → List (κ × ν)
  | [] => []
  | (k', v) :: rest => if k' = k then rest else (k', v) :: drop k rest

/-- Changes the value of a key in place. -/
def change (k : κ) (f : ν → ν) : List (κ × ν) → List (κ × ν)
  | [] => []
  | (k', v) :: rest => if k' = k then (k', f v) :: rest else (k', v) :: change k f rest

/-- Adds a pair right behind the key `anchor`, or at the end if that key is missing. -/
def putAfter (anchor : κ) (k : κ) (v : ν) : List (κ × ν) → List (κ × ν)
  | [] => [(k, v)]
  | (k', v') :: rest =>
    if k' = anchor then (k', v') :: (k, v) :: rest else (k', v') :: putAfter anchor k v rest

/-- Reads a list of pairs from left to right: a repeated key keeps its first place and
takes its last value. -/
def ofPairs (l : List (κ × ν)) : List (κ × ν) := l.foldl (fun acc p => put p.1 p.2 acc) []

@[simp] theorem find?_nil (k : κ) : find? k ([] : List (κ × ν)) = none := rfl

theorem find?_eq_none_iff {k : κ} {l : List (κ × ν)} : find? k l = none ↔ k ∉ keys l := by
  induction l with
  | nil => simp
  | cons p l ih =>
    obtain ⟨k', v⟩ := p
    by_cases h : k' = k
    · simp [find?, h]
    · have h' : ¬ k = k' := fun e => h e.symm
      simp [find?, h, h', ih]

theorem find?_isSome_iff {k : κ} {l : List (κ × ν)} : (find? k l).isSome ↔ k ∈ keys l := by
  have := find?_eq_none_iff (k := k) (l := l)
  cases h : find? k l <;> simp_all

theorem mem_of_find? {k : κ} {v : ν} {l : List (κ × ν)} (h : find? k l = some v) :
    (k, v) ∈ l := by
  induction l with
  | nil => simp at h
  | cons p l ih =>
    obtain ⟨k', v'⟩ := p
    by_cases e : k' = k
    · simp_all [find?]
    · simp only [find?, e, if_false] at h
      exact List.mem_cons_of_mem _ (ih h)

/-- A look-up takes the first entry, so those in front go before those behind. -/
theorem find?_append (k : κ) (l m : List (κ × ν)) :
    find? k (l ++ m) = (find? k l).or (find? k m) := by
  induction l with
  | nil => rfl
  | cons p l ih =>
    obtain ⟨a, b⟩ := p
    by_cases h : a = k
    · simp [find?, h]
    · simp [find?, h, ih]

theorem find?_toList {α : Type} (k name : κ) (f : α → ν) (o : Option α) :
    find? k (o.map fun a => (name, f a)).toList = if name = k then o.map f else none := by
  cases o <;> simp [find?]

/-- Under the key that was put there is the value, and under all others what was there. -/
theorem find?_put (k k' : κ) (v : ν) (l : List (κ × ν)) :
    find? k' (put k v l) = if k = k' then some v else find? k' l := by
  induction l with
  | nil => simp [put, find?]
  | cons p l ih =>
    obtain ⟨a, b⟩ := p
    by_cases h : a = k
    · subst h
      by_cases h' : a = k' <;> simp [put, find?, h']
    · by_cases h' : a = k'
      · subst h'
        have : ¬ k = a := fun e => h e.symm
        simp [put, find?, h, this]
      · simp [put, find?, h, h', ih]

/-- A change is applied under its own key alone, if that is there. -/
theorem find?_change (k k' : κ) (f : ν → ν) (l : List (κ × ν)) :
    find? k' (change k f l) = if k = k' then (find? k' l).map f else find? k' l := by
  induction l with
  | nil => simp [change]
  | cons p l ih =>
    obtain ⟨a, b⟩ := p
    by_cases h : a = k
    · subst h
      by_cases h' : a = k' <;> simp [change, find?, h']
    · by_cases h' : a = k'
      · subst h'
        have : ¬ k = a := fun e => h e.symm
        simp [change, find?, h, this]
      · simp [change, find?, h, h', ih]

/-- A key that is there keeps its place. -/
theorem keys_put_of_mem {k : κ} {v : ν} {l : List (κ × ν)} (h : k ∈ keys l) :
    keys (put k v l) = keys l := by
  induction l with
  | nil => simp at h
  | cons p l ih =>
    obtain ⟨a, b⟩ := p
    by_cases e : a = k
    · simp [put, e]
    · have : k ∈ keys l := by
        rcases List.mem_cons.1 h with h | h
        · exact absurd h.symm e
        · exact h
      simp [put, e, ih this]

/-- A new key comes last. -/
theorem put_of_not_mem {k : κ} {v : ν} {l : List (κ × ν)} (h : k ∉ keys l) :
    put k v l = l ++ [(k, v)] := by
  induction l with
  | nil => rfl
  | cons p l ih =>
    obtain ⟨a, b⟩ := p
    simp only [keys_cons, List.mem_cons, not_or] at h
    have : ¬ a = k := fun e => h.1 e.symm
    simp [put, this, ih h.2]

@[simp] theorem keys_change (k : κ) (f : ν → ν) (l : List (κ × ν)) :
    keys (change k f l) = keys l := by
  induction l with
  | nil => rfl
  | cons p l ih =>
    obtain ⟨a, b⟩ := p
    by_cases h : a = k <;> simp [change, h, ih]

@[simp] theorem keys_drop (k : κ) (l : List (κ × ν)) : keys (drop k l) = (keys l).erase k := by
  induction l with
  | nil => rfl
  | cons p l ih =>
    obtain ⟨a, b⟩ := p
    by_cases h : a = k
    · simp [drop, h]
    · simp [drop, h, ih]

/-- Putting a key leaves no key twice. -/
theorem nodup_keys_put {k : κ} {v : ν} {l : List (κ × ν)} (h : (keys l).Nodup) :
    (keys (put k v l)).Nodup := by
  by_cases m : k ∈ keys l
  · rwa [keys_put_of_mem m]
  · rw [put_of_not_mem m]
    simp only [keys, List.map_append, List.map_cons, List.map_nil]
    refine List.nodup_append.2 ⟨h, by simp, ?_⟩
    rintro a ha b hb rfl
    simp only [List.mem_singleton] at hb
    exact m (hb ▸ ha)

/-- A key put behind another one is one more key, wherever it comes to stand. -/
theorem keys_putAfter_perm (anchor k : κ) (v : ν) (l : List (κ × ν)) :
    (keys (putAfter anchor k v l)).Perm (k :: keys l) := by
  induction l with
  | nil => exact List.Perm.refl _
  | cons p l ih =>
    obtain ⟨a, b⟩ := p
    by_cases h : a = anchor
    · simp only [putAfter, h, if_true, keys_cons]
      exact List.Perm.swap _ _ _
    · simp only [putAfter, h, if_false, keys_cons]
      exact (List.Perm.cons a ih).trans (List.Perm.swap _ _ _)

theorem nodup_keys_putAfter {anchor k : κ} {v : ν} {l : List (κ × ν)} (h : (keys l).Nodup)
    (m : k ∉ keys l) : (keys (putAfter anchor k v l)).Nodup :=
  (keys_putAfter_perm anchor k v l).nodup_iff.2 (List.nodup_cons.2 ⟨m, h⟩)

/-- A dropped key is gone if it was there once only. -/
theorem find?_drop {l : List (κ × ν)} (h : (keys l).Nodup) (k k' : κ) :
    find? k' (drop k l) = if k = k' then none else find? k' l := by
  induction l with
  | nil => simp [drop]
  | cons p l ih =>
    obtain ⟨a, b⟩ := p
    obtain ⟨ha, hl⟩ := List.nodup_cons.1 h
    by_cases e : a = k
    · subst e
      by_cases e' : a = k'
      · subst e'
        simpa [drop] using find?_eq_none_iff.2 ha
      · simp [drop, find?, e']
    · by_cases e' : a = k'
      · subst e'
        simp [drop, find?, e, Ne.symm e]
      · simp [drop, find?, e, e', ih hl]

theorem find?_putAfter {anchor k : κ} {v : ν} {l : List (κ × ν)} (m : k ∉ keys l) (k' : κ) :
    find? k' (putAfter anchor k v l) = if k = k' then some v else find? k' l := by
  induction l with
  | nil => rfl
  | cons p l ih =>
    obtain ⟨a, b⟩ := p
    simp only [keys_cons, List.mem_cons, not_or] at m
    by_cases e : a = anchor
    · by_cases e' : a = k'
      · subst e'
        simp [putAfter, find?, e]
        simp [← e, m.1]
      · simp [putAfter, find?, e]
        simp [← e, e']
    · by_cases e' : a = k'
      · subst e'
        simp [putAfter, find?, e, m.1]
      · simp [putAfter, find?, e, e', ih m.2]

/-- If no key is there twice, the entries are what look-ups find. -/
theorem mem_iff_find? {l : List (κ × ν)} (h : (keys l).Nodup) {k : κ} {v : ν} :
    (k, v) ∈ l ↔ find? k l = some v := by
  refine ⟨fun m => ?_, mem_of_find?⟩
  induction l with
  | nil => simp at m
  | cons p l ih =>
    obtain ⟨a, b⟩ := p
    obtain ⟨ha, hl⟩ := List.nodup_cons.1 h
    rcases List.mem_cons.1 m with e | m
    · cases e
      simp [find?]
    · have : ¬ a = k := by
        rintro rfl
        exact ha (List.mem_map.2 ⟨_, m, rfl⟩)
      simp [find?, this, ih hl m]

end Autoflow.Assoc

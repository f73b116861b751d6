/-!
# Counting down

A list of which fewer elements satisfy a test than before gives a measure that goes down. The
walks of a graph and the search for a free label stop by `countP_lt_countP`.
-/

namespace Autoflow.List

/-- A stronger test that fails on an element which passes the weaker one has fewer hits. -/
theorem countP_lt_countP {α : Type} {p q : α → Bool} {l : List α} {a : α} (mem : a ∈ l)
    (imp : ∀ x, p x = true → q x = true) (hq : q a = true) (hp : p a = false) :
    l.countP p < l.countP q := by
  induction l with
  | nil => simp at mem
  | cons b l ih =>
    have le : l.countP p ≤ l.countP q := List.countP_mono_left fun x _ => imp x
    simp only [List.countP_cons]
    rcases List.mem_cons.1 mem with rfl | h
    · simp only [hp, hq]
      simp
      omega
    · have lt := ih h
      have hb : (if p b = true then 1 else 0) ≤ (if q b = true then 1 else 0) := by
        by_cases hpb : p b = true
        · simp [hpb, imp b hpb]
        · simp [hpb]
      omega

end Autoflow.List

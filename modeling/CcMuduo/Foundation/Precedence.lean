import Mathlib.Data.List.Basic

/-!
# What comes first in a log

A log grows at its end. `Preceded a P l` says that `a` stands in front of every entry with the property
`P`; to keep it, an entry with the property is only added behind an `a`.
-/

namespace Foundation

variable {α : Type*}

/-- Every entry with the property has an `a` in front of it. -/
def Preceded (a : α) (P : α → Prop) (l : List α) : Prop :=
  ∀ pre e post, l = pre ++ e :: post → P e → a ∈ pre

variable {a e : α} {P : α → Prop} {l : List α}

/-- An empty log has no entries. -/
theorem Preceded.nil : Preceded a P [] :=
  fun pre _ _ h => absurd h.symm (List.append_ne_nil_of_right_ne_nil pre (List.cons_ne_nil _ _))

/-- Adding an entry. -/
theorem Preceded.concat (h : Preceded a P l) (hmay : P e → a ∈ l) : Preceded a P (l ++ [e]) := by
  intro pre e' post heq hP
  rcases List.eq_nil_or_concat post with rfl | ⟨post, last, rfl⟩
  · obtain ⟨rfl, hlast⟩ := List.append_inj' heq rfl
    obtain rfl := List.singleton_inj.mp hlast
    exact hmay hP
  · have hsplit : l ++ [e] = (pre ++ e' :: post) ++ [last] := by
      rw [heq, List.append_assoc, List.cons_append, List.concat_eq_append]
    exact h pre e' post (List.append_inj' hsplit rfl).1 hP

end Foundation

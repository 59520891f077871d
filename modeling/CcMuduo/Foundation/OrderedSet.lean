import Mathlib.Data.List.Basic

/-!
# Ordered sets as lists

A set ordered by a strict order, as the list of its elements in order. Two elements of which
neither is below the other are the same element to the set, and the one that was there first stays.
-/

namespace Foundation

variable {α : Type*} (lt : α → α → Bool)

/-- Insert in front of the first element above, unless an equivalent element is there. -/
def insertOrdered (a : α) : List α → List α
  | [] => [a]
  | x :: rest =>
    if lt a x then a :: x :: rest else if lt x a then x :: insertOrdered a rest else x :: rest

variable {lt}

/-- An insertion adds nothing but the new element. -/
theorem mem_of_mem_insertOrdered {a x : α} {l : List α} (h : x ∈ insertOrdered lt a l) :
    x = a ∨ x ∈ l := by
  induction l with
  | nil => exact .inl (List.mem_singleton.mp h)
  | cons y rest ih =>
    unfold insertOrdered at h
    split at h
    · exact List.mem_cons.mp h
    · split at h
      · rcases List.mem_cons.mp h with rfl | hrest
        · exact .inr List.mem_cons_self
        · exact (ih hrest).imp id (List.mem_cons_of_mem y)
      · exact .inr h

/-- An insertion removes nothing. -/
theorem mem_insertOrdered_of_mem {a x : α} {l : List α} (h : x ∈ l) : x ∈ insertOrdered lt a l := by
  induction l with
  | nil => contradiction
  | cons y rest ih =>
    unfold insertOrdered
    split
    · exact List.mem_cons_of_mem a h
    · split
      · rcases List.mem_cons.mp h with rfl | hrest
        · exact List.mem_cons_self
        · exact List.mem_cons_of_mem y (ih hrest)
      · exact h

/-- After an insertion an element equivalent to the new one is in the set. -/
theorem exists_mem_insertOrdered (lt : α → α → Bool) (a : α) (l : List α) (hirrefl : lt a a = false) :
    ∃ x ∈ insertOrdered lt a l, lt a x = false ∧ lt x a = false := by
  induction l with
  | nil => exact ⟨a, List.mem_cons_self, hirrefl, hirrefl⟩
  | cons y rest ih =>
    unfold insertOrdered
    split
    · exact ⟨a, List.mem_cons_self, hirrefl, hirrefl⟩
    · rename_i hay
      split
      · obtain ⟨x, hx, heq⟩ := ih
        exact ⟨x, List.mem_cons_of_mem y hx, heq⟩
      · rename_i hya
        exact ⟨y, List.mem_cons_self, Bool.not_eq_true _ ▸ hay, Bool.not_eq_true _ ▸ hya⟩

/-- An insertion adds at most one element of a kind, and only of the kind of the new element. -/
theorem countP_insertOrdered_le (lt : α → α → Bool) (p : α → Bool) (a : α) (l : List α) :
    (insertOrdered lt a l).countP p ≤ l.countP p + if p a then 1 else 0 := by
  induction l with
  | nil => simp [insertOrdered, List.countP_cons]
  | cons y rest ih =>
    unfold insertOrdered
    split
    · exact Nat.le_of_eq List.countP_cons
    · split
      · rw [List.countP_cons, List.countP_cons]
        omega
      · omega

/-- Inserting an element that is comparable with all others adds exactly it. -/
theorem insertOrdered_perm {a : α} {l : List α}
    (h : ∀ x ∈ l, lt a x = true ∨ lt x a = true) : (insertOrdered lt a l).Perm (a :: l) := by
  induction l with
  | nil => exact List.Perm.refl _
  | cons y rest ih =>
    obtain ⟨hy, hrest⟩ := List.forall_mem_cons.mp h
    unfold insertOrdered
    split
    · exact List.Perm.refl _
    · rename_i hay
      rw [if_pos (hy.resolve_left hay)]
      exact ((ih hrest).cons y).trans (List.Perm.swap a y rest)

/-- An insertion keeps the set in order. -/
theorem insertOrdered_pairwise {a : α} {l : List α}
    (htrans : ∀ x y z, lt x y = true → lt y z = true → lt x z = true)
    (h : l.Pairwise fun x y => lt x y = true) :
    (insertOrdered lt a l).Pairwise fun x y => lt x y = true := by
  induction l with
  | nil => exact List.pairwise_singleton _ _
  | cons y rest ih =>
    obtain ⟨hy, hrest⟩ := List.pairwise_cons.mp h
    unfold insertOrdered
    split
    · rename_i hay
      refine List.pairwise_cons.mpr ⟨fun x hx => ?_, h⟩
      rcases List.mem_cons.mp hx with rfl | hx
      · exact hay
      · exact htrans a y x hay (hy x hx)
    · split
      · rename_i hya
        refine List.pairwise_cons.mpr ⟨fun x hx => ?_, ih hrest⟩
        rcases mem_of_mem_insertOrdered hx with rfl | hx
        · exact hya
        · exact hy x hx
      · exact h

/-- In an ordered list the elements of a set that is closed downwards come first. -/
theorem takeWhile_eq_filter {p : α → Bool} {l : List α} (h : l.Pairwise fun x y => lt x y = true)
    (hdown : ∀ x y, lt x y = true → p y = true → p x = true) : l.takeWhile p = l.filter p := by
  induction l with
  | nil => rfl
  | cons y rest ih =>
    obtain ⟨hy, hrest⟩ := List.pairwise_cons.mp h
    cases hp : p y with
    | true => rw [List.takeWhile_cons_of_pos hp, List.filter_cons_of_pos hp, ih hrest]
    | false =>
      have hnone : rest.filter p = [] := List.filter_eq_nil_iff.mpr fun x hx hpx =>
        Bool.false_ne_true (hp.symm.trans (hdown y x (hy x hx) hpx))
      rw [List.takeWhile_cons_of_neg (by simp [hp]), List.filter_cons_of_neg (by simp [hp]), hnone]

end Foundation

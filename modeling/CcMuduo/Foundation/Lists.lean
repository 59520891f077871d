import Mathlib.Data.List.DropRight
import Mathlib.Data.List.Nodup

/-!
# Lists as queues and as tables with keys

What is behind the last element of a kind, and what removing the first element with a key does when no
two elements share one.
-/

namespace Foundation

variable {α β : Type*}

/-- What stands behind the last element outside a set does not count. -/
theorem rdropWhile_append_of_forall {p : α → Bool} (l : List α) {back : List α}
    (h : ∀ a ∈ back, p a = true) : (l ++ back).rdropWhile p = l.rdropWhile p := by
  induction back using List.reverseRecOn with
  | nil => rw [List.append_nil]
  | append_singleton back a ih =>
    rw [← List.append_assoc, List.rdropWhile_concat_pos _ _ _ (h a (by simp))]
    exact ih fun b hb => h b (by simp [hb])

/-- With distinct keys, removing the first element with a key removes just that one. -/
theorem eraseP_eq_filter_of_nodup [DecidableEq β] {key : α → β} {l : List α}
    (h : (l.map key).Nodup) (k : β) :
    (l.eraseP fun a => key a == k) = l.filter fun a => key a != k := by
  induction l with
  | nil => rfl
  | cons a rest ih =>
    obtain ⟨ha, hrest⟩ := List.nodup_cons.mp h
    by_cases heq : key a = k
    · have hkept : rest.filter (fun b => key b != k) = rest :=
        List.filter_eq_self.mpr fun b hb => by
          have hne : key b ≠ k := fun hk => ha (heq ▸ hk ▸ List.mem_map_of_mem hb)
          simpa using hne
      rw [List.eraseP_cons_of_pos (by simp [heq]), List.filter_cons_of_neg (by simp [heq]), hkept]
    · rw [List.eraseP_cons_of_neg (by simp [heq]), List.filter_cons_of_pos (by simp [heq]), ih hrest]

end Foundation

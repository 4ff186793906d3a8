namespace Calque.Text

variable {α : Type} [BEq α] [LawfulBEq α]

/-- Induction over the stretches between separators. -/
@[elab_as_elim]
theorem split_induction (sep : α) {motive : List α → Prop}
    (last : ∀ as, sep ∉ as → motive as)
    (next : ∀ as rest, sep ∉ as → motive rest → motive (as ++ sep :: rest)) (as : List α) :
    motive as := by
  by_cases h : sep ∈ as
  · obtain ⟨before, rest, has, hbefore⟩ := List.eq_append_cons_of_mem h
    have hlt : rest.length < as.length := by
      rw [has, List.length_append, List.length_cons]
      omega
    rw [has]
    exact next before rest hbefore (split_induction sep last next rest)
  · exact last as h
termination_by as.length

theorem length_splitOn (sep : α) (as : List α) : (as.splitOn sep).length = as.count sep + 1 := by
  induction as using split_induction sep with
  | last as has => rw [List.splitOn_eq_singleton has, List.count_eq_zero_of_not_mem has]; rfl
  | next as rest has ih =>
      rw [List.splitOn_append_cons_self_of_not_mem has, List.length_cons, ih, List.count_append,
        List.count_cons_self, List.count_eq_zero_of_not_mem has, Nat.zero_add]

theorem not_mem_splitOn {sep : α} {as part : List α} (h : part ∈ as.splitOn sep) :
    sep ∉ part := by
  induction as using split_induction sep with
  | last as has =>
      rw [List.splitOn_eq_singleton has, List.mem_singleton] at h
      rwa [h]
  | next as rest has ih =>
      rw [List.splitOn_append_cons_self_of_not_mem has, List.mem_cons] at h
      rcases h with rfl | h
      · exact has
      · exact ih h

end Calque.Text

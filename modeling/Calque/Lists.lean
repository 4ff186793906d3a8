import Mathlib.Algebra.BigOperators.Group.List.Basic
import Mathlib.Algebra.GroupWithZero.Nat
import Mathlib.Data.List.Nodup

namespace Calque

variable {α β : Type}

theorem intercalate_cons (a : α) (xs : List α) (xss : List (List α)) :
    [a].intercalate (xs :: xss) = xs ++ xss.flatMap (a :: ·) := by
  induction xss generalizing xs with
  | nil => simp
  | cons ys xss ih => rw [List.intercalate_cons_cons, ih, List.flatMap_cons]; simp

theorem find?_of_nodup {key : α → String} {as : List α} (hnodup : (as.map key).Nodup) {a : α}
    (ha : a ∈ as) : as.find? (key · = key a) = some a := by
  cases hfind : as.find? (key · = key a) with
  | none => simpa using List.find?_eq_none.mp hfind a ha
  | some a' =>
      have hkey : key a' = key a := by simpa using List.find?_some hfind
      rw [List.inj_on_of_nodup_map hnodup (List.mem_of_find?_eq_some hfind) ha hkey]

theorem countP_eq_sum (p : α → Bool) (as : List α) :
    as.countP p = (as.map fun a => if p a then 1 else 0).sum := by
  induction as with
  | nil => rfl
  | cons a as ih => rw [List.countP_cons, ih, List.map_cons, List.sum_cons, Nat.add_comm]

/-- Where every `b` is counted for one `a` at most, and only if `q` says so. -/
theorem sum_countP_le {p : α → β → Bool} {q : β → Bool} {as : List α} {bs : List β}
    (h : ∀ b ∈ bs, as.countP (p · b) ≤ if q b then 1 else 0) :
    (as.map fun a => bs.countP (p a)).sum ≤ bs.countP q := by
  induction bs with
  | nil => simp
  | cons b bs ih =>
      have hb := h b (List.mem_cons_self ..)
      have ih := ih fun b hb => h b (List.mem_cons_of_mem _ hb)
      simp only [List.countP_cons, List.sum_map_add, ← countP_eq_sum]
      omega

end Calque

import Calque.Text.Bytes

namespace Calque

def takeBytes : Nat → List Char → List Char
  | _, [] => []
  | pos, c :: text => if c.utf8Size ≤ pos then c :: takeBytes (pos - c.utf8Size) text else []

def dropBytes : Nat → List Char → List Char
  | _, [] => []
  | pos, c :: text => if c.utf8Size ≤ pos then dropBytes (pos - c.utf8Size) text else c :: text

def slice (start stop : Nat) (text : List Char) : List Char := dropBytes start (takeBytes stop text)

theorem takeBytes_append_dropBytes (pos : Nat) (text : List Char) :
    takeBytes pos text ++ dropBytes pos text = text := by
  induction text generalizing pos with
  | nil => rfl
  | cons c text ih =>
      rw [takeBytes, dropBytes]
      split
      · rw [List.cons_append, ih]
      · rfl

theorem takeBytes_append (a b : List Char) : takeBytes (width a) (a ++ b) = a := by
  induction a with
  | nil =>
      cases b with
      | nil => rfl
      | cons c b =>
          have := c.utf8Size_pos
          rw [List.nil_append, takeBytes, if_neg (by simp; omega)]
  | cons c a ih =>
      rw [List.cons_append, takeBytes, width_cons, if_pos (Nat.le_add_right _ _),
        Nat.add_sub_cancel_left, ih]

theorem dropBytes_append (a b : List Char) : dropBytes (width a) (a ++ b) = b := by
  induction a with
  | nil =>
      cases b with
      | nil => rfl
      | cons c b =>
          have := c.utf8Size_pos
          rw [List.nil_append, dropBytes, if_neg (by simp; omega)]
  | cons c a ih =>
      rw [List.cons_append, dropBytes, width_cons, if_pos (Nat.le_add_right _ _),
        Nat.add_sub_cancel_left, ih]

theorem takeBytes_within (a b : List Char) {c : Char} {k : Nat} (hk : k < c.utf8Size) :
    takeBytes (width a + k) (a ++ c :: b) = a := by
  induction a with
  | nil => rw [List.nil_append, takeBytes, if_neg (by simp; omega)]
  | cons d a ih =>
      have hsub : d.utf8Size + width a + k - d.utf8Size = width a + k := by omega
      rw [List.cons_append, takeBytes, width_cons, if_pos (by omega), hsub, ih]

/-- Every byte of a text belongs to a character. -/
theorem exists_char {text : List Char} {pos : Nat} (h : pos < width text) :
    ∃ a c b k, text = a ++ c :: b ∧ k < c.utf8Size ∧ pos = width a + k := by
  induction text generalizing pos with
  | nil => cases h
  | cons d text ih =>
      rcases Nat.lt_or_ge pos d.utf8Size with hlt | hge
      · exact ⟨[], d, text, pos, rfl, hlt, by simp⟩
      · have hrest : pos - d.utf8Size < width text := by
          rw [width_cons] at h
          omega
        obtain ⟨a, c, b, k, rfl, hk, hpos⟩ := ih hrest
        exact ⟨d :: a, c, b, k, rfl, hk, by rw [width_cons]; omega⟩

theorem slice_append (a b c : List Char) :
    slice (width a) (width a + width b) (a ++ b ++ c) = b := by
  rw [slice, ← width_append, takeBytes_append, dropBytes_append]

end Calque

import Calque.Text.Word

namespace Calque

/-- Blocks of word characters with one other character between two of them. A block may be empty;
the runs of a text are the blocks that are not. -/
inductive Runs
  | last (w : List Char)
  | next (w : List Char) (c : Char) (rest : Runs)
  deriving DecidableEq, Repr

namespace Runs

def text : Runs → List Char
  | .last w => w
  | .next w c rest => w ++ c :: rest.text

def push (c : Char) : Runs → Runs
  | .last w => .last (c :: w)
  | .next w d rest => .next (c :: w) d rest

def ofText : List Char → Runs
  | [] => .last []
  | c :: cs => if isWordChar c then (ofText cs).push c else .next [] c (ofText cs)

def blocks : Runs → List (List Char)
  | .last w => [w]
  | .next w _ rest => w :: rest.blocks

def Proper : Runs → Prop
  | .last w => ∀ d ∈ w, isWordChar d = true
  | .next w c rest => (∀ d ∈ w, isWordChar d = true) ∧ isWordChar c = false ∧ rest.Proper

def join : Runs → Char → Runs → Runs
  | .last w, c, after => .next w c after
  | .next w d rest, c, after => .next w d (rest.join c after)

@[simp] theorem text_last (w : List Char) : (last w).text = w := rfl

@[simp] theorem text_next (w : List Char) (c : Char) (rest : Runs) :
    (next w c rest).text = w ++ c :: rest.text := rfl

theorem text_push (c : Char) (rs : Runs) : (rs.push c).text = c :: rs.text := by
  cases rs <;> rfl

theorem text_ofText (cs : List Char) : (ofText cs).text = cs := by
  induction cs with
  | nil => rfl
  | cons c cs ih =>
      rw [ofText]
      split
      · rw [text_push, ih]
      · rw [text_next, ih, List.nil_append]

theorem push_proper {c : Char} {rs : Runs} (hc : isWordChar c = true) (h : rs.Proper) :
    (rs.push c).Proper := by
  cases rs with
  | last w => simpa [push, Proper, hc] using h
  | next w d rest => simpa [push, Proper, hc] using h

theorem ofText_proper (cs : List Char) : (ofText cs).Proper := by
  induction cs with
  | nil => simp [ofText, Proper]
  | cons c cs ih =>
      rw [ofText]
      cases hc : isWordChar c with
      | true => exact push_proper hc ih
      | false => exact ⟨by simp, hc, ih⟩

theorem ofText_block (w : List Char) (hw : ∀ d ∈ w, isWordChar d = true) (cs : List Char) :
    ofText (w ++ cs) = w.foldr push (ofText cs) := by
  induction w with
  | nil => rfl
  | cons d w ih =>
      rw [List.cons_append, ofText, if_pos (hw d (by simp)), ih fun e he => hw e (by simp [he])]
      rfl

theorem foldr_push_last (w v : List Char) : w.foldr push (last v) = last (w ++ v) := by
  induction w with
  | nil => rfl
  | cons d w ih => rw [List.foldr_cons, ih]; rfl

theorem foldr_push_next (w v : List Char) (c : Char) (rest : Runs) :
    w.foldr push (next v c rest) = next (w ++ v) c rest := by
  induction w with
  | nil => rfl
  | cons d w ih => rw [List.foldr_cons, ih]; rfl

theorem ofText_last {w : List Char} (hw : ∀ d ∈ w, isWordChar d = true) : ofText w = last w := by
  have h := ofText_block w hw []
  rwa [List.append_nil, ofText, foldr_push_last, List.append_nil] at h

theorem ofText_next {w : List Char} (hw : ∀ d ∈ w, isWordChar d = true) {c : Char}
    (hc : isWordChar c = false) (cs : List Char) :
    ofText (w ++ c :: cs) = next w c (ofText cs) := by
  rw [ofText_block w hw, ofText, if_neg (by simp [hc]), foldr_push_next, List.append_nil]

theorem ofText_text {rs : Runs} (h : rs.Proper) : ofText rs.text = rs := by
  induction rs with
  | last w => exact ofText_last h
  | next w c rest ih => rw [text_next, ofText_next h.1 h.2.1, ih h.2.2]

/-- Where two texts begin with a block and the same character behind it, they begin with one. -/
theorem block_inj {w v : List Char} (hw : ∀ d ∈ w, isWordChar d = true)
    (hv : ∀ d ∈ v, isWordChar d = true) {c : Char} (hc : isWordChar c = false)
    {cs ds : List Char} : w ++ c :: cs = v ++ c :: ds ↔ w = v ∧ cs = ds := by
  constructor
  · intro h
    have hruns := congrArg ofText h
    rw [ofText_next hw hc, ofText_next hv hc] at hruns
    injection hruns with hblock _ hrest
    exact ⟨hblock, by rw [← text_ofText cs, ← text_ofText ds, hrest]⟩
  · rintro ⟨rfl, rfl⟩
    rfl

theorem text_join (rs : Runs) (c : Char) (after : Runs) :
    (rs.join c after).text = rs.text ++ c :: after.text := by
  induction rs with
  | last w => rfl
  | next w d rest ih => simp [join, ih]

theorem join_proper {rs after : Runs} (h : rs.Proper) {c : Char} (hc : isWordChar c = false)
    (ha : after.Proper) : (rs.join c after).Proper := by
  induction rs with
  | last w => exact ⟨h, hc, ha⟩
  | next w d rest ih => exact ⟨h.1, h.2.1, ih h.2.2⟩

theorem ofText_append (cs : List Char) {c : Char} (hc : isWordChar c = false) (ds : List Char) :
    ofText (cs ++ c :: ds) = (ofText cs).join c (ofText ds) := by
  have h := ofText_text (join_proper (ofText_proper cs) hc (ofText_proper ds))
  rwa [text_join, text_ofText, text_ofText] at h

end Runs

/-- The runs of a text, from left to right. -/
def runsOf (text : String) : List (List Char) :=
  (Runs.ofText text.toList).blocks.filter (· ≠ [])

end Calque

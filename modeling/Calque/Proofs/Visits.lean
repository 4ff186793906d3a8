import Calque.Proofs.Openings
import Calque.Proofs.Places
import Mathlib.Data.List.Chain
import Mathlib.Data.List.Forall2

namespace Calque

open Lexical

def Visit.text (v : Visit) : List Char := v.block ++ v.after.toList

def Visit.content (v : Visit) : List (UInt8 × Nat) := (bytes v.text).zipIdx v.state.offset

theorem state_next (s : State) (w : List Char) (c : Char) :
    (s.run (marks (w ++ [c]))).offset = s.offset + (width w + c.utf8Size) := by
  simp [State.offset_run]

theorem content_ne_nil {v : Visit} (h : v.text ≠ []) : v.content ≠ [] := by
  obtain ⟨c, cs, hc⟩ := List.exists_cons_of_ne_nil h
  intro hn
  have hlen := congrArg List.length hn
  have hpos := c.utf8Size_pos
  rw [Visit.content, List.length_zipIdx, length_bytes, hc, width_cons, List.length_nil] at hlen
  omega

theorem start_mem_content {v : Visit} (h : v.text ≠ []) : ∃ b, (b, v.state.offset) ∈ v.content := by
  obtain ⟨p, ps, hp⟩ := List.exists_cons_of_ne_nil (content_ne_nil h)
  rw [Visit.content] at hp
  cases hb : bytes v.text with
  | nil => simp [hb] at hp
  | cons b bs => exact ⟨b, by simp [Visit.content, hb]⟩

theorem mem_content {v : Visit} {p : UInt8 × Nat} (hp : p ∈ v.content) :
    v.state.offset ≤ p.2 ∧ p.2 < v.state.offset + width v.text := by
  have hlt := List.snd_lt_add_of_mem_zipIdx hp
  rw [length_bytes] at hlt
  exact ⟨List.le_snd_of_mem_zipIdx hp, hlt⟩

theorem content_visits (s : State) (rs : Runs) :
    (rs.visits s).flatMap Visit.content = (bytes rs.text).zipIdx s.offset := by
  induction rs generalizing s with
  | last w => simp [Runs.visits, Visit.content, Visit.text]
  | next w c rest ih =>
      have htext : bytes (Runs.next w c rest).text = bytes (w ++ [c]) ++ bytes rest.text := by
        rw [← bytes_append]
        simp
      rw [Runs.visits, List.flatMap_cons, ih, htext, List.zipIdx_append, state_next, length_bytes,
        width_append]
      rfl

theorem visits_offset {s : State} {rs : Runs} {v : Visit} (hv : v ∈ rs.visits s) :
    s.offset ≤ v.state.offset := by
  induction rs generalizing s with
  | last w =>
      rw [List.mem_singleton.mp hv]
  | next w c rest ih =>
      rcases List.mem_cons.mp hv with rfl | hv
      · exact le_refl _
      · have h := ih hv
        rw [state_next] at h
        omega

def Visit.Before (u v : Visit) : Prop :=
  u.after.isSome ∧ u.state.offset + width u.text ≤ v.state.offset

theorem visits_before (s : State) (rs : Runs) : (rs.visits s).Pairwise Visit.Before := by
  induction rs generalizing s with
  | last w => exact List.pairwise_singleton _ _
  | next w c rest ih =>
      refine List.pairwise_cons.mpr ⟨fun v hv => ?_, ih _⟩
      have h := visits_offset hv
      rw [state_next] at h
      exact ⟨rfl, by simpa [Visit.text] using h⟩

theorem visits_apart {s : State} {rs : Runs} {u v : Visit} (hu : u ∈ rs.visits s)
    (hv : v ∈ rs.visits s) : u = v ∨ u.Before v ∨ v.Before u := by
  have hbefore := visits_before s rs
  have hflip : (rs.visits s).Pairwise (flip fun u v => u = v ∨ u.Before v ∨ v.Before u) :=
    hbefore.imp fun h => .inr (.inr h)
  exact (hbefore.imp fun h => .inr (.inl h)).forall_of_forall_of_flip (fun _ _ => .inl rfl) hflip
    hu hv

theorem width_text {v : Visit} (h : v.after.isSome) : width v.block < width v.text := by
  obtain ⟨c, hc⟩ := Option.isSome_iff_exists.mp h
  have hpos := c.utf8Size_pos
  simp only [Visit.text, hc, Option.toList_some, width_append, width_cons, width_nil]
  omega

theorem visits_end {s : State} {rs : Runs} {u v : Visit} (hu : u ∈ rs.visits s)
    (hv : v ∈ rs.visits s)
    (h : u.state.offset + width u.block = v.state.offset + width v.block) : u = v := by
  rcases visits_apart hu hv with he | ⟨ha, hle⟩ | ⟨ha, hle⟩
  · exact he
  · have hlt := width_text ha
    omega
  · have hlt := width_text ha
    omega

/-- A visit before and after its block is replaced by `f`, in scans that `I` relates. -/
structure Visit.Matches (I : State → State → Prop) (f : Visit → List Char) (v v' : Visit) :
    Prop where
  state : I v.state v'.state
  block : v'.block = f v
  after : v'.after = v.after

/-- What relates two scans from visit to visit matches the visits of a text with those of the text
that a replacement leaves. -/
theorem visits_replace {I : State → State → Prop} {f : Visit → List Char} {rs : Runs} {s t : State}
    (hst : I s t)
    (hstep : ∀ v ∈ rs.visits s, ∀ c, v.after = some c → ∀ t, I v.state t →
      I (v.state.run (marks (v.block ++ [c]))) (t.run (marks (f v ++ [c])))) :
    List.Forall₂ (Visit.Matches I f) (rs.visits s) ((rs.replace f s).visits t) := by
  induction rs generalizing s t with
  | last w => exact .cons ⟨hst, rfl, rfl⟩ .nil
  | next w c rest ih =>
      refine .cons ⟨hst, rfl, rfl⟩ (ih ?_ fun v hv => hstep v (List.mem_cons_of_mem _ hv))
      exact hstep ⟨s, w, some c⟩ (List.mem_cons_self ..) c rfl t hst

section Candidates

variable {word : List Char} (cls : WordClass)

theorem foundOffsets_block (word w : List Char) (pos : Nat) (ps : List Piece) :
    foundOffsets word pos (w.map .other ++ ps) = foundOffsets word (pos + width w) ps := by
  induction w generalizing pos with
  | nil => rfl
  | cons c w ih =>
      rw [List.map_cons, List.cons_append, foundOffsets, ih, width_cons, Nat.add_assoc]

def Visit.holds (word : List Char) (v : Visit) : Bool := v.block = word && cls.fits none v.after

theorem foundOffsets_visit (word : List Char) (v : Visit) (pos : Nat) (ps : List Piece) :
    foundOffsets word pos (blockPieces cls word none v.after v.block ++ ps) =
      (if v.holds cls word then [pos] else []) ++ foundOffsets word (pos + width v.block) ps := by
  cases h : v.holds cls word with
  | true =>
      have hv : v.block = word ∧ cls.fits none v.after = true := by simpa [Visit.holds] using h
      rw [blockPieces, if_pos hv, hv.1]
      rfl
  | false =>
      have hv : ¬(v.block = word ∧ cls.fits none v.after = true) := by simpa [Visit.holds] using h
      rw [blockPieces, if_neg hv]
      exact foundOffsets_block ..

theorem foundOffsets_pieces (s : State) (rs : Runs) :
    foundOffsets word s.offset (rs.pieces cls word) =
      ((rs.visits s).filter (·.holds cls word)).map (·.state.offset) := by
  induction rs generalizing s with
  | last w =>
      have h := foundOffsets_visit cls word ⟨s, w, none⟩ s.offset []
      rw [List.append_nil] at h
      rw [Runs.pieces, Runs.visits, h, List.filter_cons]
      split <;> rfl
  | next w c rest ih =>
      have hnext : s.offset + width w + c.utf8Size = (s.run (marks (w ++ [c]))).offset := by
        rw [state_next, Nat.add_assoc]
      rw [Runs.pieces, Runs.visits, foundOffsets_visit cls word ⟨s, w, some c⟩, foundOffsets, hnext,
        ih, List.filter_cons]
      split <;> rfl

/-- The candidates of a search are the visits that hold the word. -/
theorem candidates_visits (hword : isWord word = true) (text : List Char) :
    candidates cls word text =
      (((Runs.ofText text).visits .start).filter (·.holds cls word)).map (·.state.offset) := by
  rw [candidates, ← foundOffsets_pieces cls State.start, ← pieces_text hword cls
    (Runs.ofText_proper text), Runs.text_ofText]
  rfl

theorem mem_candidates (hword : isWord word = true) {text : List Char} {pos : Nat} :
    pos ∈ candidates cls word text ↔ ∃ v ∈ (Runs.ofText text).visits .start,
      v.block = word ∧ cls.fits none v.after = true ∧ v.state.offset = pos := by
  rw [candidates_visits cls hword, List.mem_map]
  simp only [List.mem_filter, Visit.holds, Bool.and_eq_true, decide_eq_true_eq, and_assoc]

end Candidates

section Literals

def Visit.start? (v : Visit) : Option Nat := v.state.mode.start?

theorem inert_take {v : Visit} (hw : ∀ d ∈ v.block, isWordChar d = true)
    (ha : isWordChar? v.after = false) {i : Nat} (hi : i < width v.text) :
    ∀ m ∈ (marks v.text).take i, m.Inert := by
  intro m hm
  rcases v with ⟨s, w, _ | c⟩
  · have htext : (⟨s, w, none⟩ : Visit).text = w := List.append_nil w
    rw [htext] at hm
    exact marks_block hw (List.mem_of_mem_take hm)
  · have htext : marks (⟨s, w, some c⟩ : Visit).text = marks w ++ marks [c] := marks_append w [c]
    rcases marks_gap (c := c) ha with hp | ⟨n, hn, -⟩
    · rw [htext] at hm
      rcases List.mem_append.mp (List.mem_of_mem_take hm) with hm | hm
      · exact marks_block hw hm
      · exact .inl (hp m hm)
    · -- The byte after the block is the last one of the visit.
      have hlen : i ≤ (marks w).length := by
        rw [← length_marks, htext, hn, List.length_append, List.length_singleton] at hi
        omega
      rw [htext, List.take_append_of_le_length hlen] at hm
      exact marks_block hw (List.mem_of_mem_take hm)

/-- The place of a byte of a visit is told by the state at the start of the visit. -/
theorem place_within {text : String} {v : Visit}
    (hv : v ∈ (Runs.ofText text.toList).visits .start) {i : Nat} (hi : i < width v.text) :
    ∃ m, (marks v.text)[i]? = some m ∧ (Index.ofText text).place (v.state.offset + i) =
      (v.state.run ((marks v.text).take i)).place m := by
  obtain ⟨pre, post, ht, hafter, hs, hoff⟩ := visit_offset hv
  have htext : marks text.toList = marks pre ++ (marks v.text ++ marks post.tail) := by
    rw [ht, Visit.text, hafter, ← marks_append, ← marks_append]
    cases post <;> simp
  have hpre : v.state.offset = (marks pre).length := by rw [hoff, length_marks]
  have hi : i < (marks v.text).length := by rwa [length_marks]
  refine ⟨(marks v.text)[i], List.getElem?_eq_getElem hi, ?_⟩
  rw [Index.ofText, Index.place_ofChars, getElem?_places, hpre, htext, List.take_length_add_append,
    List.take_append_of_le_length (Nat.le_of_lt hi), State.run_append, ← hs,
    List.getElem?_append_right (Nat.le_add_right _ _), Nat.add_sub_cancel_left,
    List.getElem?_append_left hi, List.getElem?_eq_getElem hi]
  rfl

theorem start_content {text : String} {v : Visit}
    (hv : v ∈ (Runs.ofText text.toList).visits .start) {p : UInt8 × Nat} (hp : p ∈ v.content) :
    (Index.ofText text).stringStart? p.2 = v.start? := by
  obtain ⟨i, hi, hlt⟩ : ∃ i, p.2 = v.state.offset + i ∧ i < width v.text := by
    obtain ⟨hle, hlt⟩ := mem_content hp
    exact ⟨p.2 - v.state.offset, by omega, by omega⟩
  obtain ⟨m, -, hm⟩ := place_within hv hlt
  rw [Index.stringStart?, hi, hm, start_place,
    start_inert (inert_take (visit_block hv) (visit_after hv) hlt), Visit.start?]

/-- The visits that stand for some characters. Only the last visit of a text may stand for none. -/
def Runs.filled (s : State) (rs : Runs) : List Visit := (rs.visits s).filter (·.text ≠ [])

theorem content_filled (s : State) (rs : Runs) :
    (rs.filled s).flatMap Visit.content = (bytes rs.text).zipIdx s.offset := by
  rw [← content_visits, Runs.filled]
  induction rs.visits s with
  | nil => rfl
  | cons v vs ih =>
      rw [List.filter_cons, List.flatMap_cons, ← ih]
      by_cases h : v.text = []
      · simp [h, Visit.content]
      · simp [h]

theorem filled_next (s : State) (w : List Char) (c : Char) (rest : Runs) :
    (Runs.next w c rest).filled s = ⟨s, w, some c⟩ :: rest.filled (s.run (marks (w ++ [c]))) := by
  rw [Runs.filled, Runs.visits, List.filter_cons, if_pos]
  · rfl
  · simp [Visit.text]

theorem head_filled {s : State} {rs : Runs} {v : Visit} (hv : v ∈ (rs.filled s).head?) :
    v.state = s := by
  cases rs with
  | last w =>
      have hv := List.mem_of_mem_head? hv
      rw [List.mem_singleton.mp (List.mem_of_mem_filter hv)]
  | next w c rest =>
      rw [filled_next] at hv
      cases hv
      rfl

def Steady {α : Type} (key : α → Option Nat) (as : List α) : Prop :=
  as.IsChain fun a b => ∀ p ∈ key a, ∀ q ∈ key b, p = q

/-- Between two literals there is code. -/
theorem start_steady {s : State} (hs : s.mode ≠ .code true) {rs : Runs} (h : rs.Proper) :
    Steady Visit.start? (rs.filled s) := by
  induction rs generalizing s with
  | last w =>
      rw [Runs.filled, Runs.visits, List.filter_cons]
      split
      · exact List.isChain_singleton _
      · exact List.isChain_nil
  | next w c rest ih =>
      rw [filled_next]
      refine List.isChain_cons.mpr ⟨fun v hv => ?_, ih (letter_gap h.2.1) h.2.2⟩
      intro p hp q hq
      rw [Visit.start?, head_filled hv] at hq
      cases hl : (s.run (marks (w ++ [c]))).mode with
      | code a =>
          rw [hl] at hq
          cases hq
      | literal l =>
          rw [hl] at hq
          cases hq
          rcases opened_block h.1 h.2.1 hs hl with ⟨l₀, hl₀, hstart, -⟩ | ⟨hnone, -⟩
          · rw [Visit.start?, hl₀] at hp
            cases hp
            exact hstart.symm
          · rw [Visit.start?, hnone] at hp
            cases hp

end Literals

end Calque

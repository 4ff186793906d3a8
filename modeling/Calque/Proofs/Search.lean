import Calque.Proofs.Runs
import Calque.Substitution.Piece

namespace Calque

def blockPieces (cls : WordClass) (word : List Char) (before after : Option Char)
    (w : List Char) : List Piece :=
  if w = word ∧ cls.fits before after then [.found] else w.map .other

def Runs.pieces (cls : WordClass) (word : List Char) : Runs → List Piece
  | .last w => blockPieces cls word none none w
  | .next w c rest => blockPieces cls word none (some c) w ++ .other c :: rest.pieces cls word

theorem blockPieces_refused {cls : WordClass} {word : List Char} {before after : Option Char}
    {w : List Char} (h : w = word → cls.fits before after = false) :
    blockPieces cls word before after w = w.map .other := by
  rw [blockPieces, if_neg]
  rintro ⟨he, hf⟩
  rw [h he] at hf
  cases hf

theorem fits_of_gap {before : Option Char} (h : isWordChar? before = false) (cls : WordClass)
    (after : Option Char) : cls.fits before after = cls.fits none after := by
  simp [WordClass.fits, h, isWordChar?_none]

theorem blockPieces_gap {before : Option Char} (h : isWordChar? before = false) (cls : WordClass)
    (word : List Char) (after : Option Char) (w : List Char) :
    blockPieces cls word before after w = blockPieces cls word none after w := by
  simp only [blockPieces, fits_of_gap h]

theorem not_fits_before {before : Option Char} (h : isWordChar? before = true) (cls : WordClass)
    (after : Option Char) : cls.fits before after = false := by
  simp [WordClass.fits, h]

theorem paren_not_word : isWordChar '(' = false := by decide

theorem not_fits_after {c : Char} (h : isWordChar c = true) (cls : WordClass)
    (before : Option Char) : cls.fits before (some c) = false := by
  have hc : c ≠ '(' := by
    rintro rfl
    rw [paren_not_word] at h
    cases h
  cases cls <;> simp [WordClass.fits, isWordChar?_some, h, hc]

theorem getLast_block {w : List Char} (hw : ∀ d ∈ w, isWordChar d = true) (hne : w ≠ []) :
    isWordChar? w.getLast? = true := by
  rw [List.getLast?_eq_some_getLast hne, isWordChar?_some]
  exact hw _ (List.getLast_mem hne)

theorem prefix_of_block {ws : List Char} (hws : ∀ d ∈ ws, isWordChar d = true) {rest : List Char}
    (hrest : isWordChar? rest.head? = false) :
    ∀ {b : List Char}, ws <+: b ++ rest → ws <+: b := by
  induction ws with
  | nil => simp
  | cons d ws ih =>
      intro b h
      cases b with
      | nil =>
          obtain ⟨t, ht⟩ := h
          rw [List.nil_append] at ht
          rw [← ht, List.cons_append, List.head?_cons, isWordChar?_some, hws d (by simp)] at hrest
          cases hrest
      | cons e b =>
          rw [List.cons_append, List.cons_prefix_cons] at h
          rw [List.cons_prefix_cons]
          exact ⟨h.1, ih (fun e he => hws e (by simp [he])) h.2⟩

section Greedy

variable {v : Char} {vs : List Char} (hword : ∀ d ∈ v :: vs, isWordChar d = true)
  (cls : WordClass)
include hword

/-- The search uses up a block as a whole. An occurrence inside a longer block is refused for one of
its neighbours, and so is every later one in the block. -/
theorem piecesFrom_block {rest : List Char} (hrest : isWordChar? rest.head? = false)
    (b : List Char) (hb : ∀ d ∈ b, isWordChar d = true) (before : Option Char) :
    ∃ last, piecesFrom v vs cls before (b ++ rest) =
      blockPieces cls (v :: vs) before rest.head? b ++ piecesFrom v vs cls last rest := by
  induction hn : b.length using Nat.strongRecOn generalizing b before with
  | ind n ih =>
      cases b with
      | nil => exact ⟨before, by simp [blockPieces]⟩
      | cons c b =>
          have hb' : ∀ d ∈ b, isWordChar d = true := fun d hd => hb d (by simp [hd])
          rw [List.cons_append, piecesFrom]
          split
          · rename_i hp
            obtain ⟨rfl, hp⟩ := hp
            have hvs : ∀ d ∈ vs, isWordChar d = true := fun d hd => hword d (by simp [hd])
            obtain ⟨t, rfl⟩ := prefix_of_block hvs hrest (List.isPrefixOf_iff_prefix.mp hp)
            simp only [List.append_assoc, List.drop_left]
            cases t with
            | nil =>
                refine ⟨(v :: vs).getLast?, ?_⟩
                simp only [List.append_nil, List.nil_append, blockPieces, true_and]
                split <;> rfl
            | cons d t =>
                have hd : isWordChar d = true := hb' d (by simp)
                have hlast := getLast_block hword (by simp)
                obtain ⟨last, hl⟩ := ih (d :: t).length (by simp at hn ⊢; omega) (d :: t)
                  (fun e he => hb' e (by simp [he])) (v :: vs).getLast? rfl
                refine ⟨last, ?_⟩
                rw [List.cons_append, List.head?_cons, not_fits_after hd, if_neg (by simp),
                  ← List.cons_append, hl, blockPieces_refused fun _ => not_fits_before hlast cls _,
                  blockPieces_refused (by simp)]
                simp
          · rename_i hp
            have hne : c :: b ≠ v :: vs := by
              rintro he
              cases he
              exact hp ⟨rfl, List.isPrefixOf_iff_prefix.mpr (List.prefix_append _ _)⟩
            obtain ⟨last, hl⟩ := ih b.length (by simp at hn; omega) b hb' (some c) rfl
            have hc : isWordChar? (some c) = true := hb c (by simp)
            rw [blockPieces_refused fun _ => not_fits_before hc cls _] at hl
            refine ⟨last, ?_⟩
            rw [hl, blockPieces_refused fun he => absurd he hne]
            rfl

theorem piecesFrom_gap {c : Char} (hc : isWordChar c = false) (before : Option Char)
    (rest : List Char) :
    piecesFrom v vs cls before (c :: rest) = .other c :: piecesFrom v vs cls (some c) rest := by
  rw [piecesFrom, if_neg]
  rintro ⟨rfl, -⟩
  rw [hword v (by simp)] at hc
  cases hc

theorem piecesFrom_text {rs : Runs} (h : rs.Proper) {before : Option Char}
    (hbefore : isWordChar? before = false) :
    piecesFrom v vs cls before rs.text = rs.pieces cls (v :: vs) := by
  induction rs generalizing before with
  | last w =>
      have hnil : isWordChar? ([] : List Char).head? = false := rfl
      obtain ⟨last, hl⟩ := piecesFrom_block hword cls hnil w h before
      rw [blockPieces_gap hbefore, piecesFrom, List.append_nil, List.append_nil] at hl
      exact hl
  | next w c rest ih =>
      have hc : isWordChar? (some c) = false := h.2.1
      have hrest : isWordChar? (c :: rest.text).head? = false := hc
      obtain ⟨last, hl⟩ := piecesFrom_block hword cls hrest w h.1 before
      rw [blockPieces_gap hbefore, piecesFrom_gap hword cls h.2.1, ih h.2.2 hc] at hl
      exact hl

end Greedy

/-- The search for a word finds the blocks that are the word and whose end suits its class. -/
theorem pieces_text {word : List Char} (hword : isWord word = true) (cls : WordClass) {rs : Runs}
    (h : rs.Proper) : pieces cls word rs.text = rs.pieces cls word := by
  obtain ⟨hne, hw⟩ := isWord_iff.mp hword
  cases word with
  | nil => exact absurd rfl hne
  | cons v vs => exact piecesFrom_text hw cls h rfl

end Calque

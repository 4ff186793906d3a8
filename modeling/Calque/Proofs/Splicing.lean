import Calque.Proofs.Delimiters
import Calque.Proofs.Visits
import Calque.Substitution.Pass
import Calque.Substitution.Rescan

namespace Calque

open Lexical

section Occurrences

variable {w : Char} {ws : List Char}

theorem standsAt_append (cls : WordClass) (pre word post : List Char) :
    standsAt cls word (pre ++ word ++ post) (width pre) = cls.fits pre.getLast? post.head? := by
  rw [standsAt, ← width_append, dropBytes_append, List.append_assoc, takeBytes_append]

/-- The pieces of a search are its occurrences, less those whose neighbours do not suit the word. -/
theorem foundOffsets_occurrences (cls : WordClass) (pre text : List Char) :
    foundOffsets (w :: ws) (width pre) (piecesFrom w ws cls pre.getLast? text) =
      (occurrencesFrom w ws (width pre) text).filter (standsAt cls (w :: ws) (pre ++ text)) := by
  generalize hpos : width pre = pos
  fun_induction occurrencesFrom w ws pos text generalizing pre with
  | case1 pos => rw [piecesFrom]; rfl
  | case2 pos c text h ih =>
      obtain ⟨rfl, hpre⟩ := h
      obtain ⟨post, rfl⟩ := List.isPrefixOf_iff_prefix.mp hpre
      have hlast : (pre ++ w :: ws).getLast? = (w :: ws).getLast? := by
        rw [List.getLast?_append]
        cases hl : (w :: ws).getLast? with
        | none => simp at hl
        | some d => rfl
      have hih := ih (pre ++ w :: ws) (by rw [width_append, hpos])
      rw [List.drop_left, hlast] at hih
      have htext : pre ++ w :: (ws ++ post) = pre ++ w :: ws ++ post := by simp
      have hstands : standsAt cls (w :: ws) (pre ++ w :: ws ++ post) pos =
          cls.fits pre.getLast? post.head? := by rw [← hpos, standsAt_append]
      rw [piecesFrom, if_pos ⟨rfl, hpre⟩, List.drop_left, List.filter_cons, htext, hstands]
      dsimp only
      by_cases hfits : cls.fits pre.getLast? post.head? = true
      · rw [if_pos hfits, if_pos hfits, foundOffsets, hih]
      · rw [if_neg hfits, if_neg hfits, foundOffsets_block, hih]
  | case3 pos c text h ih =>
      have hih := ih (pre ++ [c]) (by simp [hpos])
      rw [List.getLast?_concat, List.append_assoc, List.singleton_append] at hih
      rw [piecesFrom, if_neg h, foundOffsets, hih]

theorem candidates_occurrences (cls : WordClass) (word text : List Char) :
    candidates cls word text = (occurrences word text).filter (standsAt cls word text) := by
  cases word with
  | nil =>
      have h := foundOffsets_block [] text 0 []
      rw [List.append_nil] at h
      exact h
  | cons w ws => exact foundOffsets_occurrences cls [] text

theorem mem_occurrencesFrom (pre : List Char) {text : List Char} {pos : Nat}
    (h : pos ∈ occurrencesFrom w ws (width pre) text) :
    ∃ a b, pre ++ text = a ++ w :: ws ++ b ∧ pos = width a := by
  generalize hstart : width pre = start at h
  fun_induction occurrencesFrom w ws start text generalizing pre with
  | case1 => cases h
  | case2 start c text hc ih =>
      obtain ⟨rfl, hpre⟩ := hc
      obtain ⟨post, rfl⟩ := List.isPrefixOf_iff_prefix.mp hpre
      rcases List.mem_cons.mp h with rfl | h
      · exact ⟨pre, post, by simp, hstart.symm⟩
      · obtain ⟨a, b, hab, hpos⟩ := ih (pre ++ w :: ws) (by rw [width_append, hstart]) h
        rw [List.drop_left] at hab
        exact ⟨a, b, by rw [← hab]; simp, hpos⟩
  | case3 start c text hc ih =>
      obtain ⟨a, b, hab, hpos⟩ := ih (pre ++ [c]) (by simp [hstart]) h
      exact ⟨a, b, by rw [← hab]; simp, hpos⟩

/-- The offsets of the occurrences are offsets at which the word stands. -/
theorem mem_occurrences {word text : List Char} {pos : Nat} (h : pos ∈ occurrences word text) :
    word ≠ [] ∧ ∃ a b, text = a ++ word ++ b ∧ pos = width a := by
  cases word with
  | nil => cases h
  | cons w ws => exact ⟨by simp, mem_occurrencesFrom [] h⟩

end Occurrences

section Splice

variable (verdict : Nat → Option Reason) (old new : List Char)

/-- The characters of `b` are not copied yet when the pieces begin. -/
theorem splice_settle (a b : List Char) (ps : List Piece) :
    splice old new (a ++ b ++ ps.flatMap (Piece.chars old)) (width a)
        ((foundOffsets old (width (a ++ b)) ps).filter fun pos => (verdict pos).isNone) =
      b ++ (settle verdict old new (width (a ++ b)) ps).text := by
  induction ps generalizing a b with
  | nil =>
      rw [foundOffsets, List.filter_nil, splice, settle, List.flatMap_nil, List.append_nil,
        List.append_nil, dropBytes_append]
  | cons p ps ih =>
      cases p with
      | other c =>
          have hih := ih a (b ++ [c])
          rw [← List.append_assoc, width_append (a ++ b)] at hih
          simpa [foundOffsets, settle, Piece.chars] using hih
      | found =>
          rw [foundOffsets, List.filter_cons, settle, List.flatMap_cons, Piece.chars]
          cases hv : verdict (width (a ++ b)) with
          | none =>
              have hih := ih (a ++ b ++ old) []
              have hslice := slice_append a b (old ++ ps.flatMap (Piece.chars old))
              rw [List.append_nil, List.nil_append, width_append (a ++ b)] at hih
              rw [← width_append] at hslice
              rw [if_pos (by simp), splice, hslice, ← List.append_assoc, hih]
              simp
          | some reason =>
              have hih := ih a (b ++ old)
              rw [← List.append_assoc, width_append (a ++ b)] at hih
              simpa using hih

/-- A pass copies the text around the occurrences that it replaces. -/
theorem text_substitute_splice (o : Options) (cls : WordClass) (text : List Char) :
    (substitute o cls old new text).text =
      splice old new text 0 (replacedOffsets o cls old text) := by
  have h := splice_settle (fun pos => o.protects cls ((Index.ofChars text).place pos)) old new [] []
    (pieces cls old text)
  rw [flatten_pieces] at h
  exact h.symm

theorem replaceAs_unchanged {o : Options} {cls : WordClass} {source old : String}
    (h : replacedOffsets o cls old.toList source.toList = []) (new : String) :
    replaceAs cls source old new o = source := by
  have hwhole : dropBytes 0 source.toList = source.toList := dropBytes_append [] source.toList
  rw [← String.toList_inj, toList_replaceAs, text_substitute_splice, h, splice, hwhole]

end Splice

section Verdicts

variable {text : String} {pos : Nat}

theorem lastOutside?_eq_some {q : Nat} (hlt : q < pos) (hq : insideString text q = false)
    (hin : ∀ r, q < r → r < pos → insideString text r = true) :
    lastOutside? text pos = some q := by
  induction pos with
  | zero => exact absurd hlt (Nat.not_lt_zero q)
  | succ pos ih =>
      rw [lastOutside?]
      rcases Nat.lt_or_eq_of_le (Nat.le_of_lt_succ hlt) with hlt' | rfl
      · rw [if_pos (hin pos hlt' (Nat.lt_succ_self pos))]
        exact ih hlt' fun r hqr hr => hin r hqr (by omega)
      · rw [if_neg (by simp [hq])]

/-- The last offset outside of all literals is the opening quote. -/
theorem lastOutside?_start {q : Nat} (h : (Index.ofText text).stringStart? pos = some q) :
    lastOutside? text pos = some q := by
  obtain ⟨hlt, hquote, hcode⟩ := opening_quote h
  have hinside (r : Nat) : insideString text r = ((Index.ofText text).stringStart? r).isSome :=
    (inString_agrees text r).symm
  refine lastOutside?_eq_some hlt (by rw [hinside, hcode]; rfl) fun r hqr hr => ?_
  obtain ⟨-, hp, hclose⟩ := (stringStart?_eq_some_iff hquote hcode).mp h
  have hopen : (Index.ofText text).stringStart? r = some q :=
    (stringStart?_eq_some_iff hquote hcode).mpr
      ⟨hqr, by omega, fun e he => Nat.le_trans (Nat.le_of_lt hr) (hclose e he)⟩
  rw [hinside, hopen]
  rfl

theorem template_lastOutside (h : insideString text pos = true) :
    ((Index.ofText text).place pos).template =
      (lastOutside? text pos).any (templateQuote text) := by
  rw [← inString_agrees] at h
  obtain ⟨q, hq⟩ := Option.isSome_iff_exists.mp h
  have hq : (Index.ofText text).stringStart? pos = some q := hq
  rw [lastOutside?_start hq, Option.any_some, Bool.eq_iff_iff]
  have htemplate := inTemplate_agrees text pos
  simp only [hq, Option.some.injEq, exists_eq_left'] at htemplate
  exact htemplate

theorem protects_at {o : Options} (ho : o.templateScope = .wholeLiteral) (cls : WordClass)
    (hpos : pos < width text.toList) :
    (o.protects cls ((Index.ofText text).place pos)).isNone = !o.protectsAt cls text pos := by
  have hstring : ((Index.ofText text).place pos).inString = insideString text pos :=
    inString_agrees text pos
  have hcomment : ((Index.ofText text).place pos).comment = insideComment text pos :=
    inComment_agrees hpos
  unfold Options.protectsAt
  cases cls with
  | structural => rw [protects_structural, hstring, hcomment, Bool.and_true, Bool.or_comm]
  | callable =>
      rw [protects_callable, hstring, hcomment, ho, TemplateScope.live]
      cases hin : insideString text pos with
      | false => simp
      | true => rw [template_lastOutside hin]

end Verdicts

theorem replacedOffsets_kept {o : Options} (ho : o.templateScope = .wholeLiteral) (cls : WordClass)
    (old source : String) :
    replacedOffsets o cls old.toList source.toList = keptOffsets o cls old source := by
  rw [replacedOffsets, candidates_occurrences, List.filter_filter, keptOffsets]
  apply List.filter_congr
  intro pos hpos
  obtain ⟨hne, a, b, htext, rfl⟩ := mem_occurrences hpos
  have hlt : width a < width source.toList := by
    obtain ⟨c, w, hc⟩ := List.exists_cons_of_ne_nil hne
    have := c.utf8Size_pos
    rw [htext, hc]
    simp only [width_append, width_cons]
    omega
  have hprotects := protects_at ho cls hlt
  rw [Index.ofText] at hprotects
  rw [hprotects, Bool.and_comm]

/-- A pass does what looking at the occurrences one by one does, whatever the words are. -/
theorem replaceAs_rescan {o : Options} (ho : o.templateScope = .wholeLiteral) (cls : WordClass)
    (source old new : String) :
    replaceAs cls source old new o = rescan o cls source old new ∧
      (keptOffsets o cls old source = [] → replaceAs cls source old new o = source) := by
  have hrescan : replaceAs cls source old new o = rescan o cls source old new := by
    rw [← String.toList_inj, toList_replaceAs, text_substitute_splice, replacedOffsets_kept ho,
      rescan, String.toList_ofList]
  exact ⟨hrescan, fun hnone => replaceAs_unchanged (by rw [replacedOffsets_kept ho, hnone]) new⟩

theorem replaceAs_rescan_calls :
    ({ } : Options).templateScope = .wholeLiteral ∧
      replaceAs .callable "e(f\"e(\"'e(' #e(" "e" "and" { } = "and(f\"and(\"'e(' #e(" ∧
      keptOffsets { } .callable "e" "'e('" = [] ∧
      replaceAs .callable "'e('" "e" "and" { } = "'e('" := by
  have hfound : occurrences "e".toList "e(f\"e(\"'e(' #e(".toList = [0, 4, 8, 13] := by
    simp [occurrences, occurrencesFrom]
    decide
  have hfound' : occurrences "e".toList "'e('".toList = [1] := by
    simp [occurrences, occurrencesFrom]
    decide
  have hkept : keptOffsets { } .callable "e" "e(f\"e(\"'e(' #e(" = [0, 4] := by
    rw [keptOffsets, hfound]
    decide
  have hnone : keptOffsets { } .callable "e" "'e('" = [] := by
    rw [keptOffsets, hfound']
    decide
  refine ⟨rfl, ?_, hnone, (replaceAs_rescan rfl .callable "'e('" "e" "and").2 hnone⟩
  rw [(replaceAs_rescan rfl .callable _ "e" "and").1, rescan, hkept]
  decide

end Calque

import Calque.Bounded.Lexical
import Calque.Proofs.Delimiters

namespace Calque.Bounded

open Lexical

section Marks

variable {text : String} {i : Nat} {b : UInt8}

theorem ofByte_letter : Mark.ofByte b = .templateLetter ↔ b = 0x66 ∨ b = 0x46 := by
  unfold Mark.ofByte
  (repeat' split) <;> simp_all

theorem ofByte_hash : Mark.ofByte b = .hash ↔ b = 0x23 := ofByte_eq_iff rfl

theorem ofByte_newline : Mark.ofByte b = .newline ↔ b = 0x0A := ofByte_eq_iff rfl

theorem ofByte_openBrace : Mark.ofByte b = .openBrace ↔ b = 0x7B := ofByte_eq_iff rfl

theorem ofByte_closeBrace : Mark.ofByte b = .closeBrace ↔ b = 0x7D := ofByte_eq_iff rfl

def modeBefore (text : String) (i : Nat) : Mode :=
  (State.start.run ((marks text.toList).take i)).mode

variable (hb : (bytes text.toList)[i]? = some b)
include hb

theorem mark_of_byte : (marks text.toList)[i]? = some (Mark.ofByte b) := by
  rw [marks, List.getElem?_map, hb, Option.map_some]

theorem lt_of_byte : i < width text.toList := by
  obtain ⟨hi, -⟩ := List.getElem?_eq_some_iff.mp hb
  simpa using hi

theorem take_succ_marks :
    (marks text.toList).take (i + 1) = (marks text.toList).take i ++ [Mark.ofByte b] := by
  rw [List.take_add_one, mark_of_byte hb, Option.toList_some]

theorem modeBefore_succ :
    modeBefore text (i + 1) = (modeBefore text i).step i (Mark.ofByte b) := by
  have hi := lt_of_byte hb
  have hoff : (State.start.run ((marks text.toList).take i)).offset = i := by
    rw [State.offset_run, List.length_take, length_marks, Nat.min_eq_left (by omega)]
    exact Nat.zero_add _
  rw [modeBefore, take_succ_marks hb, State.run_append, State.run_cons, State.run_nil, State.step,
    hoff, modeBefore]

theorem outlineBefore_succ : (modeBefore text (i + 1)).outline =
    outlineStep (modeBefore text i).outline (Mark.ofByte b) := by
  rw [modeBefore_succ hb, outline_modeStep]

end Marks

section Quotes

theorem isQuote_iff {b : UInt8} : isQuote b = true ↔ ∃ q : Quote, b = q.byte := by
  simp only [isQuote, Bool.or_eq_true, decide_eq_true_eq]
  constructor
  · rintro (rfl | rfl)
    · exact ⟨.double, rfl⟩
    · exact ⟨.single, rfl⟩
  · rintro ⟨_ | _, rfl⟩
    · exact .inr rfl
    · exact .inl rfl

theorem byte_inj {q r : Quote} : q.byte = r.byte ↔ q = r := by
  cases q <;> cases r <;> decide

theorem quoteAfter_none (b : UInt8) : ∃ o : Option Quote, quoteAfter none b = o.map Quote.byte ∧
    outlineStep none (Mark.ofByte b) = o.map (·, false) := by
  by_cases hb : isQuote b = true
  · obtain ⟨q, rfl⟩ := isQuote_iff.mp hb
    exact ⟨some q, if_pos hb, by rw [ofByte_quote.mpr rfl]; rfl⟩
  · refine ⟨none, if_neg hb, ?_⟩
    cases hm : Mark.ofByte b with
    | quote q => exact absurd (isQuote_iff.mpr ⟨q, ofByte_quote.mp hm⟩) hb
    | backslash | hash | newline | openBrace | closeBrace | templateLetter | plain => rfl

theorem quoteAfter_some (q : Quote) {b : UInt8} (hb : b ≠ 0x5C) :
    ∃ o : Option Quote, quoteAfter (some q.byte) b = o.map Quote.byte ∧
      outlineStep (some (q, false)) (Mark.ofByte b) = o.map (·, false) := by
  cases hm : Mark.ofByte b with
  | quote r =>
      obtain rfl := ofByte_quote.mp hm
      have hr : isQuote r.byte = true := isQuote_iff.mpr ⟨r, rfl⟩
      rw [quoteAfter, if_pos hr]
      simp only [outlineStep, byte_inj]
      by_cases hqr : r = q
      · exact ⟨none, by simp [hqr], by simp [hqr]⟩
      · exact ⟨some q, by simp [Ne.symm hqr], by simp [hqr]⟩
  | backslash => exact absurd (ofByte_backslash.mp hm) hb
  | hash | newline | openBrace | closeBrace | templateLetter | plain =>
      refine ⟨some q, if_neg fun hq => ?_, rfl⟩
      obtain ⟨r, rfl⟩ := isQuote_iff.mp hq
      rw [ofByte_quote.mpr rfl] at hm
      cases hm

end Quotes

section Lines

theorem lastIdx?_snoc {α : Type} (p : α → Bool) (xs : List α) (x : α) :
    lastIdx? p (xs ++ [x]) = if p x then some xs.length else lastIdx? p xs := by
  rw [lastIdx?, List.reverse_append, List.reverse_singleton, List.singleton_append,
    List.findIdx?_cons]
  cases hx : p x with
  | true => simp
  | false =>
      rw [lastIdx?]
      cases List.findIdx? p xs.reverse with
      | none => rfl
      | some k => simp; omega

theorem lineStart_lastIdx (bs : List UInt8) : Lexical.lineStart (bs.map Mark.ofByte) =
    match lastIdx? (· = 0x0A) bs with
    | some newline => newline + 1
    | none => 0 := by
  induction bs using List.reverseRecOn with
  | nil => rfl
  | append_singleton bs b ih =>
      rw [List.map_append, List.map_singleton, lastIdx?_snoc]
      by_cases hb : b = 0x0A
      · rw [ofByte_newline.mpr hb, lineStart_newline, List.length_map, if_pos (by simp [hb])]
      · rw [lineStart_snoc (mt ofByte_newline.mp hb), ih, if_neg (by simp [hb])]

theorem lineStart_eq {bs : List UInt8} (h : bs.length < 2 ^ 63) :
    lineStart bs = pure (Lexical.lineStart (bs.map Mark.ofByte)) := by
  have hle := lineStart_le (bs.map Mark.ofByte)
  rw [List.length_map, lineStart_lastIdx] at hle
  rw [lineStart, lineStart_lastIdx]
  cases hk : lastIdx? (· = 0x0A) bs with
  | none => rfl
  | some newline =>
      rw [hk] at hle
      exact add_eq (Nat.lt_of_le_of_lt hle (by omega))

end Lines

section Text

variable {text : String} (hlen : width text.toList < 2 ^ 63)

/-- A scan in step with the scanner; it may have jumped over the offset `pos`, but then the same
literal is open there. -/
structure QuoteScan.InStep (text : String) (pos : Nat) (s : QuoteScan) (o : Option Quote) :
    Prop where
  opened : s.opened = o.map Quote.byte
  outline : (modeBefore text s.offset).outline = o.map (·, false)
  near : s.offset ≤ pos + 1
  jumped : pos < s.offset → (modeBefore text pos).outline.isSome = o.isSome

include hlen

theorem escapes_eq {i : Nat} (hi : i < width text.toList) (b : UInt8) :
    escapes (bytes text.toList) i b = pure (decide (b = 0x5C ∧ i + 1 < width text.toList)) := by
  rw [escapes]
  by_cases hb : b = 0x5C
  · rw [if_pos hb, add_eq (by omega), pure_bind, length_bytes]
    simp [hb]
  · rw [if_neg hb]
    simp [hb]

/-- Only inside a literal a backslash escapes; before `pos` a byte follows it. -/
theorem quoteEscapes_eq {pos : Nat} (hpos : pos < width text.toList) {s : QuoteScan}
    {o : Option Quote} (h : s.InStep text pos o) (hs : s.offset < pos) (b : UInt8) :
    s.escapes (bytes text.toList) b = pure (o.isSome && decide (b = 0x5C)) := by
  rw [QuoteScan.escapes, h.opened, Option.isSome_map]
  cases o with
  | none => rfl
  | some q =>
      have hin : s.offset + 1 < width text.toList := by omega
      rw [Option.isSome_some, if_pos rfl, escapes_eq hlen (by omega)]
      simp [hin]

omit hlen in
theorem QuoteScan.InStep.read {pos : Nat} {s : QuoteScan} {o : Option Quote} {b : UInt8}
    (h : s.InStep text pos o) (hs : s.offset < pos)
    (hb : (bytes text.toList)[s.offset]? = some b) (hescape : o = none ∨ b ≠ 0x5C) :
    ∃ o', QuoteScan.InStep text pos ⟨s.offset + 1, quoteAfter s.opened b⟩ o' := by
  have hnext := outlineBefore_succ hb
  rw [h.outline] at hnext
  obtain ⟨o', hafter, houtline⟩ : ∃ o' : Option Quote,
      quoteAfter s.opened b = o'.map Quote.byte ∧
        outlineStep (o.map (·, false)) (Mark.ofByte b) = o'.map (·, false) := by
    rw [h.opened]
    cases o with
    | none => exact quoteAfter_none b
    | some q => exact quoteAfter_some q (hescape.resolve_left (by simp))
  exact ⟨o', hafter, hnext.trans houtline, by simp; omega, fun hjump => by simp at hjump; omega⟩

omit hlen in
/-- A backslash in a literal takes the byte after it along, which may be the byte at `pos`. -/
theorem QuoteScan.InStep.jump {pos : Nat} (hpos : pos < width text.toList) {s : QuoteScan}
    {q : Quote} (h : s.InStep text pos (some q)) (hs : s.offset < pos)
    (hb : (bytes text.toList)[s.offset]? = some 0x5C) :
    QuoteScan.InStep text pos { s with offset := s.offset + 2 } (some q) := by
  have hcovered : (modeBefore text (s.offset + 1)).outline = some (q, true) := by
    rw [outlineBefore_succ hb, h.outline]
    rfl
  have hlt : s.offset + 1 < (bytes text.toList).length := by rw [length_bytes]; omega
  have hnext := outlineBefore_succ (List.getElem?_eq_getElem hlt)
  rw [hcovered] at hnext
  refine ⟨h.opened, hnext, by simp; omega, fun hjump => ?_⟩
  have hpos : pos = s.offset + 1 := by simp at hjump; omega
  rw [hpos, hcovered]
  rfl

theorem quoteStep_ends {pos : Nat} (hpos : pos < width text.toList) {s : QuoteScan}
    {o : Option Quote} (h : s.InStep text pos o) (hs : s.offset < pos) :
    ∃ s', quoteStep (bytes text.toList) s = pure s' ∧ (∃ o', s'.InStep text pos o') ∧
      pos + 1 - s'.offset < pos + 1 - s.offset := by
  have hlt : s.offset < (bytes text.toList).length := by rw [length_bytes]; omega
  have hb := List.getElem?_eq_getElem hlt
  generalize (bytes text.toList)[s.offset] = b at hb
  rw [quoteStep, read_eq hb, pure_bind, quoteEscapes_eq hlen hpos h hs, pure_bind]
  cases hcase : o.isSome && decide (b = 0x5C) with
  | true =>
      obtain ⟨hsome, hbackslash⟩ := Bool.and_eq_true_iff.mp hcase
      obtain rfl := of_decide_eq_true hbackslash
      obtain ⟨q, rfl⟩ := Option.isSome_iff_exists.mp hsome
      rw [if_pos rfl, add_eq (by omega), pure_bind]
      exact ⟨_, rfl, ⟨_, h.jump hpos hs hb⟩, by simp; omega⟩
  | false =>
      have hescape : o = none ∨ b ≠ 0x5C := by
        cases o with
        | none => exact .inl rfl
        | some q => exact .inr (by simpa using hcase)
      rw [if_neg (by simp), add_eq (by omega), pure_bind]
      exact ⟨_, rfl, h.read hs hb hescape, by simp; omega⟩

theorem insideString_ends (pos : Nat) :
    insideString text pos = pure (Lexical.insideString text pos) := by
  rw [insideString, insideString_eq, length_bytes]
  by_cases hpos : pos < width text.toList
  · rw [if_neg (by omega), decide_eq_true hpos, Bool.true_and]
    obtain ⟨s, hloop, ⟨o, h⟩, hend⟩ := loop_ends
      (fun s : QuoteScan => ∃ o, s.InStep text pos o) (fun s => pos + 1 - s.offset)
      (fun s ⟨o, h⟩ hs => quoteStep_ends hlen hpos h (of_decide_eq_true hs))
      (s := ⟨0, none⟩) ⟨none, rfl, rfl, Nat.zero_le _, fun h => by cases h⟩
    have hreached : pos ≤ s.offset := by simpa using hend
    -- The last round may have jumped over `pos`; the literal that is open there is still open.
    have hopen : (modeBefore text pos).outline.isSome = o.isSome := by
      rcases Nat.lt_or_eq_of_le hreached with hlt | heq
      · exact h.jumped hlt
      · rw [heq, h.outline, Option.isSome_map]
    rw [hloop, pure_bind, h.opened, Option.isSome_map, ← hopen]
    rfl
  · rw [if_pos (by omega), decide_eq_false hpos, Bool.false_and]

omit hlen in
theorem templateQuote_ends (pos : Nat) :
    templateQuote text pos = pure (Lexical.templateQuote text pos) := by
  rw [templateQuote, Lexical.templateQuote]
  by_cases hpos : 0 < pos
  · rw [if_pos hpos, sub_eq hpos, pure_bind, decide_eq_true hpos, Bool.true_and, marks,
      List.getElem?_map]
    cases (bytes text.toList)[pos - 1]? with
    | none => rfl
    | some b => simp [ofByte_letter]
  · rw [if_neg hpos, decide_eq_false hpos, Bool.false_and]

theorem insideComment_ends (pos : Nat) :
    insideComment text pos = pure (Lexical.insideComment text pos) := by
  rw [insideComment, Lexical.insideComment]
  generalize hstop : min pos (bytes text.toList).length = stop
  have hle : stop ≤ width text.toList := by
    rw [← hstop, length_bytes]
    exact Nat.min_le_right ..
  have hle' : stop ≤ (bytes text.toList).length := by rwa [length_bytes]
  have hseen : (marks text.toList).take pos = ((bytes text.toList).take stop).map Mark.ofByte := by
    rw [← hstop, ← List.take_eq_take_min, List.map_take, marks]
  have hlength : ((bytes text.toList).take stop).length = stop := by simpa using hle
  have hstart := lineStart_le (((bytes text.toList).take stop).map Mark.ofByte)
  rw [List.length_map, hlength] at hstart
  have hline := lineStart_eq (Nat.lt_of_le_of_lt (Nat.le_of_eq hlength) (by omega))
  rw [window_eq (Nat.zero_le _) hle', pure_bind, List.drop_zero, hline, pure_bind, hseen]
  generalize Lexical.lineStart (((bytes text.toList).take stop).map Mark.ofByte) = start at hstart
  rw [window_eq hstart hle', pure_bind, ← List.map_drop, List.findIdx?_map]
  simp only [Function.comp_def, ofByte_hash]
  cases hk : (((bytes text.toList).take stop).drop start).findIdx? (fun b => decide (b = 0x23)) with
  | none => rfl
  | some k =>
      have hlt := (List.findIdx?_eq_some_iff_getElem.mp hk).1
      rw [List.length_drop, hlength] at hlt
      have hadd := add_eq (a := start) (b := k) (by omega)
      simp only [hadd, pure_bind, insideString_ends hlen]

end Text

section Boundaries

theorem boundary_within (a b : List Char) {c : Char} {k : Nat} (hk : k < c.utf8Size) :
    boundary (a ++ c :: b) (width a + k) = decide (k = 0) := by
  rw [boundary, takeBytes_within a b hk, decide_eq_decide]
  omega

theorem boundary_end (text : List Char) : boundary text (width text) = true := by
  have h := boundary_append text []
  rwa [List.append_nil] at h

theorem boundary_zero (text : List Char) : boundary text 0 = true := boundary_append [] text

theorem cut_before (a b : List Char) : cut (a ++ b) 0 (width a) = pure a := by
  rw [cut_eq (Nat.zero_le _) (boundary_zero _) (boundary_append a b)]
  have h := slice_append [] a b
  rw [width_nil, Nat.zero_add] at h
  exact congrArg pure h

theorem cut_behind (a b : List Char) : cut (a ++ b) (width a) (width (a ++ b)) = pure b := by
  have hle : width a ≤ width (a ++ b) := by simp
  rw [cut_eq hle (boundary_append a b) (boundary_end _)]
  have h := slice_append a b []
  rw [List.append_nil, ← width_append] at h
  exact congrArg pure h

theorem cut_rest {text : List Char} {pos : Nat} (h : boundary text pos = true) :
    cut text pos (width text) = pure (dropBytes pos text) := by
  have hsplit := takeBytes_append_dropBytes pos text
  have hcut := cut_behind (takeBytes pos text) (dropBytes pos text)
  rwa [hsplit, of_decide_eq_true h] at hcut

theorem boundaryAt_append (before : Option Char) (a b : List Char) {c : Char} {k : Nat}
    (hk : k < c.utf8Size) : boundaryAt before (width a + k) (a ++ c :: b) =
      (isWordChar c != isWordChar? (a.getLast?.or before) ||
        isWordChar c != isWordChar? b.head?) := by
  induction a generalizing before with
  | nil => rw [List.nil_append, boundaryAt, if_pos (by simpa using hk)]; rfl
  | cons d a ih =>
      have hsub : d.utf8Size + width a + k - d.utf8Size = width a + k := by omega
      have hlast : ((d :: a).getLast?.or before) = a.getLast?.or (some d) := by
        rw [List.getLast?_cons]
        cases a.getLast? <;> rfl
      rw [List.cons_append, boundaryAt, width_cons, if_neg (by omega), hsub, ih, hlast]

/-- From inside a character the way back leads to its start. -/
theorem charStart_ends (a b : List Char) {c : Char} {k : Nat} (hk : k < c.utf8Size) :
    charStart (a ++ c :: b) (width a + k) = pure (width a) := by
  have hback (s : Nat) (hs : ∃ j < c.utf8Size, s = width a + j)
      (hgoes : (!boundary (a ++ c :: b) s) = true) :
      ∃ s', sub s 1 = pure s' ∧ (∃ j < c.utf8Size, s' = width a + j) ∧ s' < s := by
    obtain ⟨j, hj, rfl⟩ := hs
    rw [boundary_within a b hj, Bool.not_eq_true', decide_eq_false_iff_not] at hgoes
    exact ⟨_, sub_eq (by omega), ⟨j - 1, by omega, by omega⟩, by omega⟩
  obtain ⟨s, hloop, ⟨j, hj, rfl⟩, hend⟩ := loop_ends _ id hback ⟨k, hk, rfl⟩
  rw [boundary_within a b hj, Bool.not_eq_false', decide_eq_true_eq] at hend
  rw [charStart, hloop, hend, Nat.add_zero]

theorem boundaryAt_past (before : Option Char) {text : List Char} {pos : Nat}
    (h : width text ≤ pos) : boundaryAt before pos text = true := by
  induction text generalizing before pos with
  | nil => rfl
  | cons c text ih =>
      rw [width_cons] at h
      rw [boundaryAt, if_neg (by omega)]
      exact ih _ (by omega)

theorem wordBoundary_ends {text : String} (hlen : width text.toList < 2 ^ 63) (pos : Nat) :
    wordBoundary text pos = pure (Lexical.wordBoundary text pos) := by
  rw [wordBoundary, Lexical.wordBoundary]
  rcases Nat.lt_or_ge pos (width text.toList) with hpos | hpos
  · obtain ⟨a, c, b, k, htext, hk, rfl⟩ := exists_char hpos
    rw [htext] at hlen hpos ⊢
    simp only [width_append, width_cons] at hlen
    have hstop : add (width a) c.utf8Size = pure (width (a ++ [c])) := by
      rw [add_eq (by omega)]
      simp
    have hafter := cut_behind (a ++ [c]) b
    rw [List.append_assoc, List.singleton_append] at hafter
    rw [if_neg (by omega), charStart_ends a b hk, pure_bind, cut_behind, pure_bind,
      boundaryAt_append none a b hk, Option.or_none, cut_before]
    simp only [List.head?_cons, pure_bind, hstop, hafter]
  · rw [if_pos hpos, boundaryAt_past none hpos]

end Boundaries

end Calque.Bounded

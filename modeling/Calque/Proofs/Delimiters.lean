import Calque.Proofs.Queries
import Mathlib.Order.Bounds.Basic

namespace Calque.Lexical

def Quote.byte : Quote → UInt8
  | .single => 0x27
  | .double => 0x22

def Mark.byte? : Mark → Option UInt8
  | .quote q => some q.byte
  | .backslash => some 0x5C
  | .hash => some 0x23
  | .newline => some 0x0A
  | .openBrace => some 0x7B
  | .closeBrace => some 0x7D
  | .templateLetter | .plain => none

theorem byte?_ofByte {b k : UInt8} (h : (Mark.ofByte b).byte? = some k) : b = k := by
  unfold Mark.ofByte at h
  (repeat' split at h) <;> simp_all [Mark.byte?, Quote.byte]

theorem ofByte_byte {m : Mark} {k : UInt8} (h : m.byte? = some k) : Mark.ofByte k = m := by
  cases m with
  | quote q => cases q <;> cases h <;> rfl
  | backslash | hash | newline | openBrace | closeBrace => cases h; rfl
  | templateLetter | plain => cases h

theorem ofByte_eq_iff {b k : UInt8} {m : Mark} (h : m.byte? = some k) :
    Mark.ofByte b = m ↔ b = k := by
  constructor
  · rintro rfl
    exact byte?_ofByte h
  · rintro rfl
    exact ofByte_byte h

theorem ofByte_quote {b : UInt8} {q : Quote} : Mark.ofByte b = .quote q ↔ b = q.byte :=
  ofByte_eq_iff rfl

theorem ofByte_backslash {b : UInt8} : Mark.ofByte b = .backslash ↔ b = 0x5C := ofByte_eq_iff rfl

theorem getElem?_marks {text : List Char} {pos : Nat} {q : Quote} :
    (marks text)[pos]? = some (.quote q) ↔ (bytes text)[pos]? = some q.byte := by
  rw [marks, List.getElem?_map]
  cases (bytes text)[pos]? with
  | none => simp
  | some b => simp [ofByte_quote]

def backslashes (ms : List Mark) : Nat := (ms.reverse.takeWhile (· = .backslash)).length

theorem backslashes_snoc (ms : List Mark) (m : Mark) :
    backslashes (ms ++ [m]) = if m = .backslash then backslashes ms + 1 else 0 := by
  unfold backslashes
  split <;> simp_all

def Unclosed (q : Quote) (ms : List Mark) : Prop :=
  ∀ k, ms[k]? = some (.quote q) → backslashes (ms.take k) % 2 = 1

theorem Unclosed.take {q : Quote} {ms : List Mark} (h : Unclosed q ms) (n : Nat) :
    Unclosed q (ms.take n) := by
  intro k hk
  obtain ⟨hlt, -⟩ := List.getElem?_eq_some_iff.mp hk
  rw [List.length_take] at hlt
  rw [List.getElem?_take_of_lt (by omega)] at hk
  rw [List.take_take, Nat.min_eq_left (by omega)]
  exact h k hk

theorem literal_of_start {mode : Mode} {k : Nat} (h : mode.start? = some k) :
    ∃ l, mode = .literal l ∧ l.start = k := by
  cases mode with
  | code a => cases h
  | literal l => exact ⟨l, rfl, Option.some.inj h⟩

theorem outlineStep_open {q : Quote} {covered : Bool} {m : Mark}
    (h : m = .quote q → covered = true) :
    outlineStep (some (q, covered)) m = some (q, !covered && decide (m = .backslash)) := by
  cases covered with
  | true => rfl
  | false =>
      cases m with
      | quote r =>
          have hr : r ≠ q := by
            rintro rfl
            cases h rfl
          simp [outlineStep, hr]
      | backslash | hash | newline | openBrace | closeBrace | templateLetter | plain => rfl

/-- In an unclosed literal a byte is covered after an odd number of backslashes. -/
theorem outline_unclosed {q : Quote} {ms : List Mark} (h : Unclosed q ms) :
    ms.foldl outlineStep (some (q, false)) = some (q, decide (backslashes ms % 2 = 1)) := by
  induction ms using List.reverseRecOn with
  | nil => rfl
  | append_singleton ms m ih =>
      have hms : Unclosed q ms := by
        have := h.take ms.length
        rwa [List.take_left] at this
      have hlast : m = .quote q → decide (backslashes ms % 2 = 1) = true := by
        rintro rfl
        have := h ms.length (by simp)
        simpa using this
      rw [List.foldl_append, ih hms, List.foldl_cons, List.foldl_nil, outlineStep_open hlast,
        backslashes_snoc]
      by_cases hm : m = .backslash
      · simp only [hm, decide_true, Bool.and_true, if_true, Option.some.injEq, Prod.mk.injEq,
          true_and]
        rw [← decide_not, decide_eq_decide]
        omega
      · simp [hm]

theorem unclosed_of_open {q : Quote} {ms : List Mark}
    (h : ∀ j, ((ms.take j).foldl outlineStep (some (q, false))).isSome) : Unclosed q ms := by
  induction ms using List.reverseRecOn with
  | nil => intro k hk; cases hk
  | append_singleton ms m ih =>
      have hms : Unclosed q ms := by
        refine ih fun j => ?_
        have := h (min j ms.length)
        rwa [List.take_append_of_le_length (Nat.min_le_right ..), ← List.take_eq_take_min] at this
      intro k hk
      rcases Nat.lt_or_ge k ms.length with hlt | hge
      · rw [List.getElem?_append_left hlt] at hk
        rw [List.take_append_of_le_length (by omega)]
        exact hms k hk
      · obtain ⟨rfl, rfl⟩ : k = ms.length ∧ m = .quote q := by
          rw [List.getElem?_append_right hge] at hk
          have hzero : k - ms.length = 0 := by
            obtain ⟨hlt, -⟩ := List.getElem?_eq_some_iff.mp hk
            simpa using hlt
          rw [hzero] at hk
          exact ⟨by omega, by simpa using hk⟩
        have hlast := h (ms ++ [Mark.quote q]).length
        rw [List.take_length, List.foldl_append, outline_unclosed hms] at hlast
        rw [List.take_left]
        by_contra hodd
        simp [outlineStep, hodd] at hlast

/-- An open literal has been open ever since its opening quote, and that stood in code. -/
theorem open_since {ms : List Mark} {l : Literal} (h : (State.start.run ms).mode = .literal l) :
    l.start < ms.length ∧ (∃ q, ms[l.start]? = some (.quote q)) ∧
      (State.start.run (ms.take l.start)).mode.start? = none ∧
      ∀ r, l.start < r → r ≤ ms.length →
        (State.start.run (ms.take r)).mode.start? = some l.start := by
  induction ms using List.reverseRecOn generalizing l with
  | nil => cases h
  | append_singleton ms m ih =>
      have hwhole : (State.start.run (ms ++ [m])).mode.start? = some l.start := by rw [h]; rfl
      rw [State.run_append] at h
      have h : (State.start.run ms).mode.step (State.start.run ms).offset m = .literal l := h
      -- After code, `m` is the opening quote; in a literal the quote is an earlier mark.
      cases hs : (State.start.run ms).mode with
      | code a =>
          rw [hs, State.offset_run] at h
          obtain ⟨q, rfl⟩ : ∃ q, m = .quote q := by
            cases m <;> first | exact ⟨_, rfl⟩ | cases h
          have hstart : l.start = ms.length := by
            cases h
            exact Nat.zero_add _
          rw [hstart] at hwhole ⊢
          refine ⟨by simp, ⟨q, by simp⟩, by rw [List.take_left, hs]; rfl, fun r hr hle => ?_⟩
          rw [List.take_of_length_le (by simp; omega), hwhole]
      | literal l₀ =>
          rw [hs] at h
          obtain ⟨hlt, ⟨q, hq⟩, hcode, hopen⟩ := ih hs
          rw [(kept_step h).1] at hwhole ⊢
          refine ⟨by simp; omega, ⟨q, ?_⟩, ?_, fun r hr hle => ?_⟩
          · rw [List.getElem?_append_left hlt, hq]
          · rw [List.take_append_of_le_length (by omega), hcode]
          · rcases Nat.lt_or_ge ms.length r with hr' | hr'
            · rw [List.take_of_length_le (by simp; omega), hwhole]
            · rw [List.take_append_of_le_length hr', hopen r hr hr']

theorem start_unclosed {s : State} {l : Literal} (hs : s.mode = .literal l)
    (hheld : l.held = .nothing) {ms : List Mark} (h : Unclosed l.quote ms) :
    (s.run ms).mode.start? = some l.start := by
  induction ms using List.reverseRecOn with
  | nil => rw [State.run_nil, hs]; rfl
  | append_singleton ms m ih =>
      have hms : Unclosed l.quote ms := by
        have := h.take ms.length
        rwa [List.take_left] at this
      have houtline : s.mode.outline = some (l.quote, false) := by simp [hs, Mode.outline, hheld]
      have hopen : (s.run (ms ++ [m])).mode.outline.isSome := by
        rw [outline_modeRun, houtline, outline_unclosed h]
        rfl
      obtain ⟨l₁, hl, hstart⟩ := literal_of_start (ih hms)
      rw [State.run_append] at hopen ⊢
      cases hl' : ((s.run ms).run [m]).mode with
      | code a =>
          rw [hl'] at hopen
          cases hopen
      | literal l₂ =>
          have hstep : (s.run ms).mode.step (s.run ms).offset m = .literal l₂ := hl'
          rw [hl] at hstep
          rw [Mode.start?, (kept_step hstep).1, hstart]

theorem mode_opened {ms : List Mark} {k : Nat} {q : Quote} (hq : ms[k]? = some (.quote q))
    (hcode : (State.start.run (ms.take k)).mode.start? = none) :
    ∃ t, (State.start.run (ms.take (k + 1))).mode = .literal ⟨k, q, t, 0, .nothing⟩ := by
  obtain ⟨hk, -⟩ := List.getElem?_eq_some_iff.mp hq
  have hoff : (State.start.run (ms.take k)).offset = k := by
    rw [State.offset_run, List.length_take, Nat.min_eq_left (by omega)]
    exact Nat.zero_add _
  rw [List.take_add_one, hq, Option.toList_some, State.run_append, State.run_cons, State.run_nil,
    State.step, hoff]
  cases hm : (State.start.run (ms.take k)).mode with
  | code t => exact ⟨t, rfl⟩
  | literal l =>
      rw [hm] at hcode
      cases hcode

/-- Behind a quote in code the literal that it opened is open as long as nothing closes it. -/
theorem start_iff {ms : List Mark} {k p : Nat} {q : Quote} (hq : ms[k]? = some (.quote q))
    (hcode : (State.start.run (ms.take k)).mode.start? = none) (hp : p ≤ ms.length) :
    (State.start.run (ms.take p)).mode.start? = some k ↔
      k < p ∧ Unclosed q ((ms.drop (k + 1)).take (p - (k + 1))) := by
  obtain ⟨hk, -⟩ := List.getElem?_eq_some_iff.mp hq
  obtain ⟨t, hopened⟩ := mode_opened hq hcode
  have hsplit (r : Nat) (hr : k < r) : ms.take r =
      ms.take (k + 1) ++ (ms.drop (k + 1)).take (r - (k + 1)) := by
    rw [← List.take_add]
    congr 1
    omega
  constructor
  · intro h
    obtain ⟨l, hl, hstart⟩ := literal_of_start h
    obtain ⟨hlt, -, -, hopen⟩ := open_since hl
    rw [List.length_take, Nat.min_eq_left hp, hstart] at hlt hopen
    refine ⟨hlt, unclosed_of_open fun j => ?_⟩
    have hr := hopen (k + 1 + min j (p - (k + 1))) (by omega) (by omega)
    rw [List.take_take, Nat.min_eq_left (by omega), hsplit _ (by omega), State.run_append] at hr
    have houtline : (State.start.run (ms.take (k + 1))).mode.outline = some (q, false) := by
      rw [hopened]
      rfl
    rw [← houtline, ← outline_modeRun, ← start_outline, List.take_take]
    rw [Nat.add_sub_cancel_left] at hr
    rw [hr]
    rfl
  · rintro ⟨hlt, hunclosed⟩
    rw [hsplit p hlt, State.run_append]
    exact start_unclosed hopened rfl hunclosed

section Text

variable (text : String)

def QuoteAt (q : Nat) : Prop := ∃ b, (bytes text.toList)[q]? = some b ∧ (b = 0x22 ∨ b = 0x27)

/-- The number of backslashes right before offset `e`, counted back to offset `start` at most. -/
def backslashesBefore (start e : Nat) : Nat :=
  ((((bytes text.toList).take e).drop start).reverse.takeWhile (· = 0x5C)).length

/-- Offset `e` holds the quote of offset `q` again, and no backslash covers it. -/
structure Closes (q e : Nat) : Prop where
  after : q < e
  inText : e < width text.toList
  same : (bytes text.toList)[e]? = (bytes text.toList)[q]?
  uncovered : backslashesBefore text (q + 1) e % 2 = 0

variable {text}

instance (q e : Nat) : Decidable (Closes text q e) :=
  decidable_of_iff (q < e ∧ e < width text.toList ∧
      (bytes text.toList)[e]? = (bytes text.toList)[q]? ∧ backslashesBefore text (q + 1) e % 2 = 0)
    ⟨fun ⟨h₁, h₂, h₃, h₄⟩ => ⟨h₁, h₂, h₃, h₄⟩, fun h => ⟨h.after, h.inText, h.same, h.uncovered⟩⟩

theorem quoteAt_iff {k : Nat} :
    QuoteAt text k ↔ ∃ q, (marks text.toList)[k]? = some (.quote q) := by
  simp only [getElem?_marks, QuoteAt]
  constructor
  · rintro ⟨b, hb, rfl | rfl⟩
    · exact ⟨.double, hb⟩
    · exact ⟨.single, hb⟩
  · rintro ⟨_ | _, hq⟩
    · exact ⟨_, hq, .inr rfl⟩
    · exact ⟨_, hq, .inl rfl⟩

theorem backslashes_marks (bs : List UInt8) : backslashes (bs.map Mark.ofByte) =
    (bs.reverse.takeWhile (· = 0x5C)).length := by
  rw [backslashes, ← List.map_reverse, List.takeWhile_map, List.length_map]
  simp only [Function.comp_def, ofByte_backslash]

theorem closes_iff {k e : Nat} {q : Quote} (hq : (marks text.toList)[k]? = some (.quote q)) :
    Closes text k e ↔ k < e ∧ (marks text.toList)[e]? = some (.quote q) ∧
      backslashes (((marks text.toList).drop (k + 1)).take (e - (k + 1))) % 2 = 0 := by
  have hcount : backslashes (((marks text.toList).drop (k + 1)).take (e - (k + 1))) =
      backslashesBefore text (k + 1) e := by
    rw [backslashesBefore, ← backslashes_marks, List.drop_take, marks]
    simp
  rw [hcount, getElem?_marks]
  rw [getElem?_marks] at hq
  constructor
  · rintro ⟨hlt, -, hsame, hcovered⟩
    exact ⟨hlt, hsame.trans hq, hcovered⟩
  · rintro ⟨hlt, hsame, hcovered⟩
    obtain ⟨hin, -⟩ := List.getElem?_eq_some_iff.mp hsame
    exact ⟨hlt, by simpa using hin, hsame.trans hq.symm, hcovered⟩

theorem unclosed_iff {k p : Nat} {q : Quote} (hq : (marks text.toList)[k]? = some (.quote q))
    (hkp : k < p) :
    Unclosed q (((marks text.toList).drop (k + 1)).take (p - (k + 1))) ↔
      ∀ e, Closes text k e → p ≤ e := by
  constructor
  · intro h e he
    obtain ⟨hlt, hsame, hcovered⟩ := (closes_iff hq).mp he
    by_contra hp
    have hodd := h (e - (k + 1)) (by
      rw [List.getElem?_take_of_lt (by omega), List.getElem?_drop, ← hsame]
      congr 1
      omega)
    rw [List.take_take, Nat.min_eq_left (by omega)] at hodd
    omega
  · intro h j hj
    obtain ⟨hlt, -⟩ := List.getElem?_eq_some_iff.mp hj
    rw [List.length_take] at hlt
    rw [List.getElem?_take_of_lt (by omega), List.getElem?_drop] at hj
    rw [List.take_take, Nat.min_eq_left (by omega)]
    by_contra heven
    have hclose : Closes text k (k + 1 + j) :=
      (closes_iff hq).mpr ⟨by omega, hj, by rw [Nat.add_sub_cancel_left]; omega⟩
    have := h _ hclose
    omega

theorem stringStart?_run (pos : Nat) : (Index.ofText text).stringStart? pos =
    if pos < width text.toList then
      (State.start.run ((marks text.toList).take pos)).mode.start? else none := by
  rw [Index.stringStart?]
  rcases place_cases text pos with ⟨hlt, m, hm⟩ | ⟨hge, houtside⟩
  · rw [hm, start_place, if_pos hlt]
  · rw [houtside, if_neg (by omega)]
    rfl

/-- The literal of an opening quote stands up to the first quote that closes it, that included. -/
theorem stringStart?_eq_some_iff {k p : Nat} (hquote : QuoteAt text k)
    (hcode : (Index.ofText text).stringStart? k = none) :
    (Index.ofText text).stringStart? p = some k ↔
      k < p ∧ p < width text.toList ∧ ∀ e, Closes text k e → p ≤ e := by
  obtain ⟨q, hq⟩ := quoteAt_iff.mp hquote
  have hk : k < width text.toList := by
    obtain ⟨hlt, -⟩ := List.getElem?_eq_some_iff.mp hq
    simpa using hlt
  rw [stringStart?_run, if_pos hk] at hcode
  rw [stringStart?_run]
  by_cases hp : p < width text.toList
  · rw [if_pos hp, start_iff hq hcode (by simpa using Nat.le_of_lt hp)]
    constructor
    · rintro ⟨hkp, hunclosed⟩
      exact ⟨hkp, hp, (unclosed_iff hq hkp).mp hunclosed⟩
    · rintro ⟨hkp, -, hclose⟩
      exact ⟨hkp, (unclosed_iff hq hkp).mpr hclose⟩
  · rw [if_neg hp]
    constructor
    · intro h
      cases h
    · rintro ⟨-, hp', -⟩
      exact absurd hp' hp

theorem opening_quote {p k : Nat} (h : (Index.ofText text).stringStart? p = some k) :
    k < p ∧ QuoteAt text k ∧ (Index.ofText text).stringStart? k = none := by
  rw [stringStart?_run] at h
  split at h
  · rename_i hp
    obtain ⟨l, hl, rfl⟩ := literal_of_start h
    obtain ⟨hlt, ⟨q, hq⟩, hcode, -⟩ := open_since hl
    rw [List.length_take] at hlt
    rw [List.getElem?_take_of_lt (by omega)] at hq
    rw [List.take_take, Nat.min_eq_left (by omega)] at hcode
    refine ⟨by omega, quoteAt_iff.mpr ⟨q, hq⟩, ?_⟩
    rw [stringStart?_run, hcode, ite_self]
  · cases h

/-- Literals are the blocks from a quote in code to the quote that closes it, or to the end of the
text where none does. -/
theorem literals_delimited (text : String) :
    (∀ p q, (Index.ofText text).stringStart? p = some q →
      q < p ∧ QuoteAt text q ∧ (Index.ofText text).stringStart? q = none) ∧
    ∀ q, QuoteAt text q → (Index.ofText text).stringStart? q = none →
      (∀ e, IsLeast {e | Closes text q e} e →
        ∀ p, (Index.ofText text).stringStart? p = some q ↔ q < p ∧ p ≤ e) ∧
      ((∀ e, ¬Closes text q e) →
        ∀ p, (Index.ofText text).stringStart? p = some q ↔ q < p ∧ p < width text.toList) := by
  refine ⟨fun p q => opening_quote, fun q hquote hcode => ⟨fun e he p => ?_, fun hopen p => ?_⟩⟩
  · rw [stringStart?_eq_some_iff hquote hcode]
    have hin := he.1.inText
    constructor
    · rintro ⟨hqp, -, hclose⟩
      exact ⟨hqp, hclose e he.1⟩
    · rintro ⟨hqp, hpe⟩
      exact ⟨hqp, by omega, fun e' he' => Nat.le_trans hpe (he.2 he')⟩
  · rw [stringStart?_eq_some_iff hquote hcode]
    constructor
    · rintro ⟨hqp, hp, -⟩
      exact ⟨hqp, hp⟩
    · rintro ⟨hqp, hp⟩
      exact ⟨hqp, hp, fun e he => absurd he (hopen e)⟩

/-- A literal closed after a covered backslash, and one whose second quote is covered. -/
theorem literals_delimited_escapes :
    QuoteAt "'\\\\'\"\\\"" 0 ∧ (Index.ofText "'\\\\'\"\\\"").stringStart? 0 = none ∧
      IsLeast {e | Closes "'\\\\'\"\\\"" 0 e} 3 ∧
      (∀ p, (Index.ofText "'\\\\'\"\\\"").stringStart? p = some 0 ↔ 0 < p ∧ p ≤ 3) ∧
      QuoteAt "'\\\\'\"\\\"" 4 ∧ (Index.ofText "'\\\\'\"\\\"").stringStart? 4 = none ∧
      (∀ e, ¬Closes "'\\\\'\"\\\"" 4 e) ∧
      ∀ p, (Index.ofText "'\\\\'\"\\\"").stringStart? p = some 4 ↔ 4 < p ∧ p < 7 := by
  have hquote : QuoteAt "'\\\\'\"\\\"" 0 := ⟨0x27, by decide, by decide⟩
  have hquote' : QuoteAt "'\\\\'\"\\\"" 4 := ⟨0x22, by decide, by decide⟩
  have hcode : (Index.ofText "'\\\\'\"\\\"").stringStart? 0 = none := by decide
  have hcode' : (Index.ofText "'\\\\'\"\\\"").stringStart? 4 = none := by decide
  have hclose : Closes "'\\\\'\"\\\"" 0 3 := by decide
  have hearlier : ∀ e < 3, ¬Closes "'\\\\'\"\\\"" 0 e := by decide
  have hnone : ∀ e < 7, ¬Closes "'\\\\'\"\\\"" 4 e := by decide
  have hleast : IsLeast {e | Closes "'\\\\'\"\\\"" 0 e} 3 :=
    ⟨hclose, fun e he => Nat.le_of_not_lt fun hlt => hearlier e hlt he⟩
  have hopen : ∀ e, ¬Closes "'\\\\'\"\\\"" 4 e := fun e he => hnone e he.inText he
  obtain ⟨-, hliterals⟩ := literals_delimited "'\\\\'\"\\\""
  exact ⟨hquote, hcode, hleast, (hliterals 0 hquote hcode).1 3 hleast, hquote', hcode', hopen,
    (hliterals 4 hquote' hcode').2 hopen⟩

end Text

end Calque.Lexical

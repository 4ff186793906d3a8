import Calque.Lexical.Index
import Calque.Text.Word

namespace Calque.Lexical

def Mark.Inert (m : Mark) : Prop := m = .plain ∨ m = .templateLetter

theorem marks_cons (c : Char) (text : List Char) : marks (c :: text) = marks [c] ++ marks text := by
  rw [← marks_append]
  rfl

theorem ofByte_high {b : UInt8} (h : 128 ≤ b.toNat) : Mark.ofByte b = .plain := by
  have hne (k : UInt8) (hk : k.toNat < 128) : b ≠ k := by
    rintro rfl
    omega
  simp only [Mark.ofByte, hne 0x22 (by decide), hne 0x27 (by decide), hne 0x5C (by decide),
    hne 0x23 (by decide), hne 0x0A (by decide), hne 0x7B (by decide), hne 0x7D (by decide),
    hne 0x66 (by decide), hne 0x46 (by decide), if_false, or_self]

theorem byte_high {c : Char} (h : 128 ≤ c.toNat) {b : UInt8} (hb : b ∈ String.utf8EncodeChar c) :
    128 ≤ b.toNat := by
  have h : 128 ≤ c.val.toNat := h
  unfold String.utf8EncodeChar at hb
  simp only at hb
  split at hb
  · omega
  split at hb
  · simp only [List.mem_cons, List.not_mem_nil, or_false] at hb
    rcases hb with rfl | rfl <;> simp <;> omega
  split at hb
  · simp only [List.mem_cons, List.not_mem_nil, or_false] at hb
    rcases hb with rfl | rfl | rfl <;> simp <;> omega
  · simp only [List.mem_cons, List.not_mem_nil, or_false] at hb
    rcases hb with rfl | rfl | rfl | rfl <;> simp <;> omega

theorem marks_high {c : Char} (h : 128 ≤ c.toNat) {m : Mark} (hm : m ∈ marks [c]) : m = .plain := by
  simp only [marks, bytes_cons, bytes_nil, List.append_nil, List.mem_map] at hm
  obtain ⟨b, hb, rfl⟩ := hm
  exact ofByte_high (byte_high h hb)

theorem marks_low {c : Char} (h : c.toNat < 128) :
    marks [c] = [Mark.ofByte (UInt8.ofNat c.toNat)] := by
  have h : c.val.toNat ≤ 127 := Nat.le_of_lt_succ h
  simp only [marks, bytes_cons, bytes_nil, List.append_nil, String.utf8EncodeChar, if_pos h]
  rfl

theorem marks_ne_nil (c : Char) : marks [c] ≠ [] := by
  intro h
  have hl : (marks [c]).length = 0 := by rw [h]; rfl
  have hc := c.utf8Size_pos
  simp only [length_marks, width_cons, width_nil] at hl
  omega

theorem ofByte_low_word : ∀ n < 128, isWordChar (Char.ofNat n) = true →
    Mark.ofByte (UInt8.ofNat n) =
      if Char.ofNat n = 'f' ∨ Char.ofNat n = 'F' then .templateLetter else .plain := by
  decide

theorem ofByte_low_gap : ∀ n < 128, isWordChar (Char.ofNat n) = false →
    Mark.ofByte (UInt8.ofNat n) ≠ .templateLetter := by
  decide

theorem marks_word {c : Char} (h : isWordChar c = true) :
    (∀ m ∈ marks [c], m.Inert) ∧
      ((marks [c]).getLast? = some .templateLetter ↔ c = 'f' ∨ c = 'F') := by
  by_cases hc : c.toNat < 128
  · have ho := ofByte_low_word c.toNat hc
    rw [Char.ofNat_toNat] at ho
    rw [marks_low hc, ho h]
    split <;> simp_all [Mark.Inert]
  · have hm {m : Mark} (hm : m ∈ marks [c]) : m = .plain := marks_high (by omega) hm
    refine ⟨fun m h => .inl (hm h), ⟨fun hl => ?_, ?_⟩⟩
    · cases hm (List.mem_of_getLast? hl)
    · rintro (rfl | rfl) <;> exact absurd (by decide) hc

/-- A character between two words is a single byte, unless it means nothing to the scanner. -/
theorem marks_gap {c : Char} (h : isWordChar c = false) :
    (∀ m ∈ marks [c], m = .plain) ∨ ∃ m, marks [c] = [m] ∧ m ≠ .templateLetter := by
  by_cases hc : c.toNat < 128
  · have ho := ofByte_low_gap c.toNat hc
    rw [Char.ofNat_toNat] at ho
    exact .inr ⟨_, marks_low hc, ho h⟩
  · exact .inl fun m hm => marks_high (by omega) hm

def endsInLetter (w : List Char) : Bool := w.getLast?.any fun c => c = 'f' ∨ c = 'F'

theorem marks_block {w : List Char} (hw : ∀ d ∈ w, isWordChar d = true) {m : Mark}
    (hm : m ∈ marks w) : m.Inert := by
  induction w with
  | nil => cases hm
  | cons c w ih =>
      rw [marks_cons, List.mem_append] at hm
      rcases hm with hm | hm
      · exact (marks_word (hw c (by simp))).1 m hm
      · exact ih (fun d hd => hw d (by simp [hd])) hm

theorem getLast_marks {w : List Char} (hw : ∀ d ∈ w, isWordChar d = true) :
    (marks w).getLast? = some .templateLetter ↔ endsInLetter w = true := by
  rcases List.eq_nil_or_concat w with rfl | ⟨v, c, rfl⟩
  · simp [endsInLetter, marks]
  · have hc := (marks_word (hw c (by simp))).2
    rw [List.getLast?_eq_some_getLast (marks_ne_nil c)] at hc
    rw [List.concat_eq_append, marks_append, List.getLast?_append,
      List.getLast?_eq_some_getLast (marks_ne_nil c), Option.some_or, hc]
    simp [endsInLetter]

def Mode.afterWord (letter : Bool) : Mode → Mode
  | .code _ => .code letter
  | .literal l =>
    .literal { l with depth := if l.held = .brace then 1 else l.depth, held := .nothing }

theorem step_inert {m : Mark} (hm : m.Inert) (offset : Nat) (mode : Mode) :
    mode.step offset m = mode.afterWord (m = .templateLetter) := by
  rcases hm with rfl | rfl <;> cases mode with
  | code a => rfl
  | literal l =>
      rcases l with ⟨start, q, template, depth, held⟩
      cases held <;> rfl

theorem afterWord_afterWord (a b : Bool) (mode : Mode) :
    (mode.afterWord a).afterWord b = mode.afterWord b := by
  cases mode <;> simp [Mode.afterWord]

theorem lineStep_inert {m : Mark} (hm : m.Inert) (mode : Mode) (line : LineMark) :
    line.step mode m = line := by
  rcases hm with rfl | rfl <;> cases line <;> rfl

theorem run_inert {ms : List Mark} (hms : ∀ m ∈ ms, m.Inert) (hne : ms ≠ []) (s : State) :
    s.run ms = ⟨s.offset + ms.length, s.mode.afterWord (ms.getLast? = some .templateLetter),
      s.line⟩ := by
  induction ms generalizing s with
  | nil => exact absurd rfl hne
  | cons m ms ih =>
      have hm := hms m (by simp)
      have hs : s.step m = ⟨s.offset + 1, s.mode.afterWord (m = .templateLetter), s.line⟩ := by
        rw [State.step, step_inert hm, lineStep_inert hm]
      rw [State.run_cons, hs]
      cases ms with
      | nil => simp
      | cons n ms =>
          rw [ih (fun k hk => hms k (by simp [hk])) (by simp)]
          simp only [afterWord_afterWord, List.length_cons, List.getLast?_cons_cons, State.mk.injEq,
            and_true]
          omega

theorem run_word {w : List Char} (hw : ∀ d ∈ w, isWordChar d = true) (hne : w ≠ [])
    (s : State) :
    s.run (marks w) = ⟨s.offset + width w, s.mode.afterWord (endsInLetter w), s.line⟩ := by
  have hm : marks w ≠ [] := by
    cases w with
    | nil => exact absurd rfl hne
    | cons c w =>
        rw [marks_cons]
        exact List.append_ne_nil_of_left_ne_nil (marks_ne_nil c) _
  rw [run_inert (fun m => marks_block hw) hm, length_marks]
  simp only [getLast_marks hw, Bool.decide_eq_true]

/-- The open literal, as far as it says where literals and comments are: its quote, and whether a
backslash covers the next byte. -/
def Mode.outline : Mode → Option (Quote × Bool)
  | .code _ => none
  | .literal l => some (l.quote, l.held = .backslash)

def State.outline (s : State) : Option (Quote × Bool) × LineMark := (s.mode.outline, s.line)

def Mode.bare : Mode → Mode
  | .code a => .code a
  | .literal l => .literal { l with start := 0 }

def State.bare (s : State) : Mode × LineMark := (s.mode.bare, s.line)

theorem Mode.outline_bare (mode : Mode) : mode.bare.outline = mode.outline := by
  cases mode <;> rfl

theorem outline_of_bare {s t : State} (h : s.bare = t.bare) : s.outline = t.outline := by
  obtain ⟨hm, hl⟩ := Prod.mk.inj h
  rw [State.outline, State.outline, ← s.mode.outline_bare, ← t.mode.outline_bare, hm, hl]

def outlineStep : Option (Quote × Bool) → Mark → Option (Quote × Bool)
  | none, .quote q => some (q, false)
  | none, _ => none
  | some (q, true), _ => some (q, false)
  | some (q, false), .backslash => some (q, true)
  | some (q, false), .quote r => if r = q then none else some (q, false)
  | some (q, false), _ => some (q, false)

theorem outline_read {l : Literal} (h : l.held = .nothing) (m : Mark) :
    (l.read m).outline = outlineStep (some (l.quote, false)) m := by
  cases m with
  | quote r => by_cases hr : r = l.quote <;> simp [Literal.read, Mode.outline, outlineStep, hr, h]
  | openBrace =>
      simp only [Literal.read]
      split
      · simp [Mode.outline, outlineStep, h]
      · split <;> simp [Mode.outline, outlineStep, h]
  | backslash | hash | newline | closeBrace | templateLetter | plain =>
      simp [Literal.read, Mode.outline, outlineStep, h]

theorem step_brace {l : Literal} (h : l.held = .brace) {m : Mark} (hm : m ≠ .openBrace) :
    l.step m = Literal.read { l with depth := 1, held := .nothing } m := by
  cases m with
  | openBrace => exact absurd rfl hm
  | quote | backslash | hash | newline | closeBrace | templateLetter | plain =>
      simp only [Literal.step, h]

theorem outline_modeStep (offset : Nat) (mode : Mode) (m : Mark) :
    (mode.step offset m).outline = outlineStep mode.outline m := by
  cases mode with
  | code a => cases m <;> rfl
  | literal l =>
      rcases l with ⟨start, q, template, depth, held⟩
      cases held with
      | nothing => exact outline_read rfl m
      | backslash => rfl
      | brace =>
          by_cases hm : m = .openBrace
          · subst hm
            rfl
          · rw [Mode.step, step_brace rfl hm, outline_read rfl]
            rfl

theorem lineStep_congr {mode mode' : Mode} (h : mode.outline = mode'.outline) (line : LineMark)
    (m : Mark) : line.step mode m = line.step mode' m := by
  cases line <;> cases m <;> cases mode <;> cases mode' <;>
    simp_all [LineMark.step, Mode.outline]

theorem outline_step {s t : State} (h : s.outline = t.outline) (m : Mark) :
    (s.step m).outline = (t.step m).outline := by
  obtain ⟨hm, hl⟩ := Prod.mk.inj h
  simp only [State.outline, State.step, outline_modeStep, hm, hl, lineStep_congr hm]

theorem outline_run {s t : State} (h : s.outline = t.outline) (ms : List Mark) :
    (s.run ms).outline = (t.run ms).outline := by
  induction ms generalizing s t with
  | nil => exact h
  | cons m ms ih => exact ih (outline_step h m)

theorem bare_modeStep {mode mode' : Mode} (h : mode.bare = mode'.bare) (a b : Nat) (m : Mark) :
    (mode.step a m).bare = (mode'.step b m).bare := by
  cases mode with
  | code x =>
      cases mode' with
      | code y => cases h; cases m <;> rfl
      | literal l => cases h
  | literal l =>
      cases mode' with
      | code y => cases h
      | literal l' =>
          rcases l with ⟨start, q, template, depth, held⟩
          rcases l' with ⟨start', q', template', depth', held'⟩
          simp only [Mode.bare, Mode.literal.injEq, Literal.mk.injEq, true_and] at h
          obtain ⟨rfl, rfl, rfl, rfl⟩ := h
          cases held <;> cases m <;>
            simp only [Mode.step, Literal.step, Literal.read] <;>
            (repeat' split) <;> rfl

theorem bare_step {s t : State} (h : s.bare = t.bare) (m : Mark) :
    (s.step m).bare = (t.step m).bare := by
  have ho := (Prod.mk.inj (outline_of_bare h)).1
  obtain ⟨hm, hl⟩ := Prod.mk.inj h
  simp only [State.bare, State.step, bare_modeStep hm s.offset t.offset m, hl, lineStep_congr ho]

theorem bare_run {s t : State} (h : s.bare = t.bare) (ms : List Mark) :
    (s.run ms).bare = (t.run ms).bare := by
  induction ms generalizing s t with
  | nil => exact h
  | cons m ms ih => exact ih (bare_step h m)

theorem outline_afterWord (letter : Bool) (mode : Mode) :
    (mode.afterWord letter).outline = mode.outline.map fun p => (p.1, false) := by
  cases mode <;> rfl

theorem bare_afterWord (letter : Bool) (mode : Mode) :
    (mode.afterWord letter).bare = mode.bare.afterWord letter := by
  cases mode <;> rfl

section Words

variable {w v : List Char} (hw : ∀ d ∈ w, isWordChar d = true) (hv : ∀ d ∈ v, isWordChar d = true)
include hw hv

theorem outline_words (hwn : w ≠ []) (hvn : v ≠ []) {s t : State} (h : s.outline = t.outline) :
    (s.run (marks w)).outline = (t.run (marks v)).outline := by
  obtain ⟨hm, hl⟩ := Prod.mk.inj h
  rw [run_word hw hwn, run_word hv hvn]
  simp only [State.outline, outline_afterWord, hm, hl]

theorem bare_letters (hwn : w ≠ []) (hvn : v ≠ []) (he : endsInLetter w = endsInLetter v)
    {s t : State} (h : s.bare = t.bare) : (s.run (marks w)).bare = (t.run (marks v)).bare := by
  obtain ⟨hm, hl⟩ := Prod.mk.inj h
  rw [run_word hw hwn, run_word hv hvn]
  simp only [State.bare, bare_afterWord, hm, hl, he]

/-- Which letter a word ends in is forgotten after a parenthesis. -/
theorem bare_words {s t : State} (h : s.bare = t.bare) :
    (s.run (marks (w ++ ['(']))).bare = (t.run (marks (v ++ ['(']))).bare := by
  have call {u : List Char} (hu : ∀ d ∈ u, isWordChar d = true) (r : State) :
      (r.run (marks (u ++ ['(']))).bare = (r.mode.bare.afterWord false, r.line) := by
    have hp : marks ['('] = [.plain] := by decide
    have hi : ∀ m ∈ marks u ++ [.plain], m.Inert := by
      intro m hm
      rcases List.mem_append.mp hm with hm | hm
      · exact marks_block hu hm
      · exact .inl (List.mem_singleton.mp hm)
    rw [marks_append, hp, run_inert hi (by simp)]
    simp [State.bare, bare_afterWord]
  obtain ⟨hm, hl⟩ := Prod.mk.inj h
  rw [call hw, call hv, hm, hl]

end Words

end Calque.Lexical

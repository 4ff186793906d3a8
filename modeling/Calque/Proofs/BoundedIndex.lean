import Calque.Proofs.BoundedReading

namespace Calque

open Lexical

namespace Lexical

def Mode.inTemplate : Mode → Bool
  | .code _ => false
  | .literal l => l.template

def Mode.holeDepth : Mode → Nat
  | .code _ => 0
  | .literal l => if l.held = .brace then 1 else l.depth

def Mode.Ready (m : Mark) : Mode → Prop
  | .code _ => True
  | .literal l => l.held ≠ .backslash ∧ (l.held = .brace → m ≠ .openBrace)

def Literal.settled (l : Literal) : Literal :=
  { l with depth := (Mode.literal l).holeDepth, held := .nothing }

theorem step_settled {l : Literal} {m : Mark} (h : (Mode.literal l).Ready m) :
    l.step m = l.settled.read m := by
  rcases l with ⟨start, q, template, depth, held⟩
  cases held with
  | nothing => rfl
  | backslash => exact absurd rfl h.1
  | brace => exact step_brace rfl (h.2 rfl)

theorem template_place (s : State) (m : Mark) : (s.place m).template = s.mode.inTemplate := by
  cases hs : s.mode <;> simp [State.place, hs, Mode.inTemplate]

theorem hole_literal {s : State} {l : Literal} (hs : s.mode = .literal l) {m : Mark}
    (h : l.held = .brace → m ≠ .openBrace) :
    (s.place m).hole = decide (0 < s.mode.holeDepth) := by
  by_cases hb : l.held = .brace
  · simp [State.place, hs, Mode.holeDepth, hb, h hb]
  · simp [State.place, hs, Mode.holeDepth, hb]

theorem hole_ready {s : State} {m : Mark} (h : s.mode.Ready m) :
    (s.place m).hole = decide (0 < s.mode.holeDepth) := by
  cases hs : s.mode with
  | code a => simp [State.place, hs, Mode.holeDepth]
  | literal l =>
      rw [hs] at h
      rw [hole_literal hs h.2, hs]

/-- Two modes between which a scan that looks ahead makes no difference. -/
structure Mode.Alike (mode mode' : Mode) : Prop where
  start : mode.start? = mode'.start?
  template : mode.inTemplate = mode'.inTemplate
  depth : mode.holeDepth = mode'.holeDepth

theorem ready_nothing {l : Literal} (h : l.held = .nothing) (m : Mark) :
    (Mode.literal l).Ready m := by
  simp [Mode.Ready, h]

theorem alike_settled (l : Literal) (held : Held) (h : held ≠ .brace) :
    (Mode.literal l).Alike (.literal { l.settled with held }) := by
  refine ⟨rfl, rfl, ?_⟩
  rw [Mode.holeDepth, Mode.holeDepth, if_neg h]
  rfl

/-- A byte that neither closes the literal nor counts as a brace of it changes what is held back
at most. -/
theorem read_alike {l : Literal} {m : Mark} (hquote : m ≠ .quote l.quote)
    (hopen : m = .openBrace → l.template = false) (hclose : m = .closeBrace → l.depth = 0)
    (hheld : l.held = .nothing) :
    l.read m = .literal { l with held := if m = .backslash then .backslash else .nothing } := by
  have hsame : l = { l with held := .nothing } := by rw [← hheld]
  cases m with
  | quote q =>
      rw [Literal.read, if_neg fun h => hquote (congrArg Mark.quote h)]
      exact congrArg Mode.literal hsame
  | backslash => rfl
  | openBrace =>
      rw [Literal.read, if_pos (by rw [hopen rfl]; rfl)]
      exact congrArg Mode.literal hsame
  | closeBrace =>
      have hdepth : l.depth - 1 = l.depth := by rw [hclose rfl]
      rw [Literal.read, hdepth]
      exact congrArg Mode.literal hsame
  | hash | newline | templateLetter | plain => exact congrArg Mode.literal hsame

def Mode.braces : Mode → Nat
  | .code _ => 0
  | .literal l => l.depth + if l.held = .brace then 1 else 0

theorem holeDepth_le_braces (mode : Mode) : mode.holeDepth ≤ mode.braces := by
  cases mode with
  | code a => exact Nat.le_refl _
  | literal l =>
      rw [Mode.holeDepth, Mode.braces]
      split <;> omega

theorem braces_step (offset : Nat) (mode : Mode) (m : Mark) :
    (mode.step offset m).braces ≤ mode.braces + 1 := by
  cases mode with
  | code a => cases m <;> simp [Mode.step, Mode.braces]
  | literal l =>
      rcases l with ⟨start, q, template, depth, held⟩
      cases held <;> cases m <;>
        simp only [Mode.step, Literal.step, Literal.read] <;>
        (repeat' split) <;> simp [Mode.braces] <;> omega

theorem braces_run (s : State) (ms : List Mark) :
    (s.run ms).mode.braces ≤ s.mode.braces + ms.length := by
  induction ms generalizing s with
  | nil => exact Nat.le_refl _
  | cons m ms ih =>
      have hstep : (s.step m).mode.braces ≤ s.mode.braces + 1 := braces_step ..
      have hrest := ih (s.step m)
      rw [State.run_cons, List.length_cons]
      omega

theorem quote_step {l l' : Literal} {m : Mark} (h : l.step m = .literal l') :
    l'.quote = l.quote := by
  have houtline := outline_modeStep 0 (.literal l) m
  rw [Mode.step, h] at houtline
  cases hc : decide (l.held = .backslash) with
  | true =>
      simp only [Mode.outline, hc, outlineStep, Option.some.injEq, Prod.mk.injEq] at houtline
      exact houtline.1
  | false =>
      simp only [Mode.outline, hc] at houtline
      cases m <;> simp only [outlineStep] at houtline <;> (try split at houtline) <;>
        simp_all

theorem opened_quote {ms : List Mark} {l : Literal}
    (h : (State.start.run ms).mode = .literal l) : ms[l.start]? = some (.quote l.quote) := by
  induction ms using List.reverseRecOn generalizing l with
  | nil => cases h
  | append_singleton ms m ih =>
      rw [State.run_append] at h
      have h : (State.start.run ms).mode.step (State.start.run ms).offset m = .literal l := h
      cases hs : (State.start.run ms).mode with
      | code a =>
          rw [hs, State.offset_run] at h
          obtain ⟨q, rfl⟩ : ∃ q, m = .quote q := by
            cases m <;> first | exact ⟨_, rfl⟩ | cases h
          cases h
          have hoff : State.start.offset + ms.length = ms.length := Nat.zero_add _
          rw [hoff, List.getElem?_concat_length]
      | literal l₀ =>
          rw [hs] at h
          have hlt := (opened_run hs).1
          rw [(kept_step h).1, quote_step h, List.getElem?_append_left hlt, ih hs]

end Lexical

namespace Bounded

section Tables

variable {β : Type} {f : Place → β} {d : β} {ps : List Place} {i : Nat} {p : Place}

def table (f : Place → β) (d : β) (ps : List Place) (i : Nat) : List β :=
  (ps.take i).map f ++ .replicate (ps.length - i) d

theorem length_table (h : i ≤ ps.length) : (table f d ps i).length = ps.length := by
  rw [table, List.length_append, List.length_map, List.length_take, List.length_replicate]
  omega

theorem table_succ (h : ps[i]? = some p) : table f d ps (i + 1) = (table f d ps i).set i (f p) := by
  obtain ⟨hi, -⟩ := List.getElem?_eq_some_iff.mp h
  have hlen : ((ps.take i).map f).length = i := by
    rw [List.length_map, List.length_take]
    omega
  have hrest : ps.length - i = ps.length - (i + 1) + 1 := by omega
  rw [table, table, List.set_append_right _ _ (by omega), hlen, Nat.sub_self, hrest,
    List.replicate_succ, List.set_cons_zero, List.take_add_one, h]
  simp

theorem write_table (h : ps[i]? = some p) {x : β} (hx : f p = x) :
    write (table f d ps i) i x = pure (table f d ps (i + 1)) := by
  obtain ⟨hi, -⟩ := List.getElem?_eq_some_iff.mp h
  rw [write_eq (by rw [length_table (by omega)]; exact hi), table_succ h, hx]

theorem table_skip (h : ps[i]? = some p) (hd : f p = d) :
    table f d ps (i + 1) = table f d ps i := by
  obtain ⟨hi, -⟩ := List.getElem?_eq_some_iff.mp h
  have hrest : ps.length - i = ps.length - (i + 1) + 1 := by omega
  rw [table, table, hrest, List.replicate_succ, List.take_add_one, h]
  simp [hd]

theorem table_zero (f : Place → β) (d : β) (ps : List Place) :
    table f d ps 0 = .replicate ps.length d := rfl

theorem table_length (f : Place → β) (d : β) (ps : List Place) :
    table f d ps ps.length = ps.map f := by
  rw [table, List.take_length, Nat.sub_self, List.replicate_zero, List.append_nil]

end Tables

section Scan

variable (text : String)

def placesOf : List Place := State.start.places (marks text.toList)

def scan (offset : Nat) (mode : Mode) (filled : Nat) : IndexScan :=
  ⟨offset, mode.start?, mode.inTemplate, mode.holeDepth,
    table Place.stringStart none (placesOf text) filled,
    table Place.template false (placesOf text) filled,
    table Place.hole false (placesOf text) filled⟩

def ReadyAt (i : Nat) : Prop :=
  ∀ b, (bytes text.toList)[i]? = some b → (modeBefore text i).Ready (Mark.ofByte b)

variable {text} {i : Nat} {b : UInt8}

theorem length_placesOf : (placesOf text).length = width text.toList := by simp [placesOf]

theorem getElem?_placesOf (hb : (bytes text.toList)[i]? = some b) :
    ∃ p, (placesOf text)[i]? = some p ∧ p.stringStart = (modeBefore text i).start? ∧
      ∃ s : State, s.mode = modeBefore text i ∧ p = s.place (Mark.ofByte b) := by
  rw [placesOf, getElem?_places, mark_of_byte hb]
  exact ⟨_, rfl, start_place _ _, _, rfl, rfl⟩

theorem enter_scan {offset : Nat} {mode : Mode} {p : Place} (hp : (placesOf text)[i]? = some p)
    (hstart : p.stringStart = mode.start?) (htemplate : p.template = mode.inTemplate)
    (hhole : p.hole = decide (0 < mode.holeDepth)) :
    (scan text offset mode i).enter i = pure (scan text offset mode (i + 1)) := by
  rw [IndexScan.enter, scan, write_table hp hstart, pure_bind, write_table hp htemplate, pure_bind,
    write_table hp hhole, pure_bind]
  rfl

theorem skip_scan {count offset filled : Nat} (h : offset + count < 2 ^ 64) (mode : Mode) :
    (scan text offset mode filled).skip count =
      pure (scan text (offset + count) mode filled) := by
  rw [IndexScan.skip, scan, add_eq h, pure_bind]
  rfl

/-- One round of the scan leads from offset `i` to a later one that is ready. -/
def Advances (text : String) (round : Bounded IndexScan) (i : Nat) : Prop :=
  ∃ j, i < j ∧ j ≤ width text.toList ∧ ReadyAt text j ∧
    round = pure (scan text j (modeBefore text j) j)

section Rounds

variable (hlen : width text.toList < 2 ^ 63)
include hlen

theorem advances_skip {mode mode' : Mode} {count : Nat} (hcount : 0 < count)
    (hle : i + count ≤ width text.toList) (hnext : modeBefore text (i + count) = mode')
    (halike : mode.Alike mode')
    (hready : ∀ b, (bytes text.toList)[i + count]? = some b → mode'.Ready (Mark.ofByte b)) :
    Advances text ((scan text i mode (i + count)).skip count) i := by
  refine ⟨i + count, by omega, hle, fun b hb => hnext ▸ hready b hb, ?_⟩
  rw [skip_scan (by omega), hnext, scan, scan, halike.start, halike.template, halike.depth]

variable (hb : (bytes text.toList)[i]? = some b)
include hb

theorem readCode_advances {a : Bool} (hmode : modeBefore text i = .code a) :
    Advances text ((scan text i (.code a) (i + 1)).readCode text b) i := by
  have hi := lt_of_byte hb
  have hnext := modeBefore_succ hb
  rw [hmode] at hnext
  rw [IndexScan.readCode]
  by_cases hq : isQuote b = true
  · obtain ⟨q, rfl⟩ := isQuote_iff.mp hq
    rw [ofByte_quote.mpr rfl, Mode.step] at hnext
    have hopened := advances_skip hlen Nat.zero_lt_one hi hnext ⟨rfl, rfl, rfl⟩
      fun _ _ => ready_nothing rfl _
    have htemplate : Lexical.templateQuote text i = a := templateQuote_opened hnext
    rw [if_pos hq, templateQuote_ends, pure_bind]
    rw [← htemplate] at hopened ⊢
    exact hopened
  · have hstep : (Mode.code a).step i (Mark.ofByte b) =
        .code (Mark.ofByte b = .templateLetter) := by
      cases hm : Mark.ofByte b with
      | quote q => exact absurd (isQuote_iff.mpr ⟨q, ofByte_quote.mp hm⟩) hq
      | backslash | hash | newline | openBrace | closeBrace | templateLetter | plain => rfl
    rw [if_neg hq]
    exact advances_skip hlen Nat.zero_lt_one hi (hnext.trans hstep) ⟨rfl, rfl, rfl⟩
      fun _ _ => trivial

section Literals

variable {l : Literal} (hmode : modeBefore text i = .literal l)
  (hready : (Mode.literal l).Ready (Mark.ofByte b))
include hmode hready

omit hlen in
theorem modeBefore_literal : modeBefore text (i + 1) = l.settled.read (Mark.ofByte b) := by
  rw [modeBefore_succ hb, hmode, Mode.step, step_settled hready]

theorem escape_advances (hbackslash : b = 0x5C) (hi : i + 1 < width text.toList) :
    Advances text (do
      let s ← (scan text i (.literal l) (i + 1)).enter (i + 1)
      s.skip 2) i := by
  have hnext := modeBefore_literal hb hmode hready
  rw [ofByte_backslash.mpr hbackslash, Literal.read] at hnext
  obtain ⟨b', hb'⟩ : ∃ b', (bytes text.toList)[i + 1]? = some b' :=
    ⟨_, List.getElem?_eq_getElem (by simpa using hi)⟩
  have hlast := modeBefore_succ hb'
  rw [hnext] at hlast
  obtain ⟨p, hp, hstart, s, hs, rfl⟩ := getElem?_placesOf hb'
  rw [hnext] at hstart hs
  have halike := alike_settled l .backslash (by simp)
  have hhole := hole_literal hs (m := Mark.ofByte b') fun h => by cases h
  rw [hs] at hhole
  rw [enter_scan hp (hstart.trans halike.start.symm)
    ((template_place _ _).trans (by rw [hs]; exact halike.template.symm))
    (by rw [hhole, halike.depth]), pure_bind]
  refine advances_skip hlen Nat.zero_lt_two (by omega) hlast (alike_settled l .nothing (by simp))
    fun _ _ => ready_nothing rfl _

omit hlen hb hready in
theorem depth_le : (Mode.literal l).holeDepth ≤ i := by
  have hbraces := braces_run State.start ((marks text.toList).take i)
  have hdepth := holeDepth_le_braces (modeBefore text i)
  rw [modeBefore] at hdepth hmode
  rw [hmode] at hbraces hdepth
  have hlength : ((marks text.toList).take i).length ≤ i := List.length_take_le ..
  have hzero : State.start.mode.braces = 0 := rfl
  omega

omit hlen hb hready in
theorem depth_plain (htemplate : l.template = false) : (Mode.literal l).holeDepth = 0 := by
  have hholes : (modeBefore text i).HolesInTemplates := holes_run (s := State.start) trivial _
  rw [hmode] at hholes
  have hnone : ¬(0 < l.depth ∨ l.held = .brace) := fun h => by
    rw [hholes h] at htemplate
    cases htemplate
  rw [Mode.holeDepth, if_neg fun h => hnone (.inr h)]
  exact Nat.eq_zero_of_not_pos fun h => hnone (.inl h)

/-- Any byte that changes nothing but, perhaps, what is held back. -/
theorem rest_advances (hquote : b ≠ l.quote.byte)
    (hopen : b = 0x7B → l.template = false) (hclose : b = 0x7D → (Mode.literal l).holeDepth = 0)
    (hescape : ¬(b = 0x5C ∧ i + 1 < width text.toList)) :
    Advances text ((scan text i (.literal l) (i + 1)).skip 1) i := by
  have hnext := modeBefore_literal hb hmode hready
  rw [read_alike (l := l.settled) (mt ofByte_quote.mp hquote)
    (fun hm => hopen (ofByte_openBrace.mp hm)) (fun hm => hclose (ofByte_closeBrace.mp hm)) rfl]
    at hnext
  have hi := lt_of_byte hb
  refine advances_skip hlen Nat.zero_lt_one hi hnext
    (alike_settled l _ (by split <;> simp)) fun b' hb' => ?_
  have hlt := lt_of_byte hb'
  rw [if_neg fun hm => hescape ⟨ofByte_backslash.mp hm, hlt⟩]
  exact ready_nothing rfl _

omit hmode hready in
theorem doubled_scan : (scan text i (.literal l) (i + 1)).doubled (bytes text.toList) =
    pure (decide ((Mode.literal l).holeDepth = 0 ∧ (bytes text.toList)[i + 1]? = some 0x7B)) := by
  have hi := lt_of_byte hb
  have hadd : add i 1 = pure (i + 1) := add_eq (by omega)
  rw [IndexScan.doubled]
  by_cases hd : (scan text i (.literal l) (i + 1)).depth = 0
  · have hd' : (Mode.literal l).holeDepth = 0 := hd
    rw [if_pos hd]
    simp [scan, hadd, hd']
  · have hd' : (Mode.literal l).holeDepth ≠ 0 := hd
    rw [if_neg hd]
    simp [hd']

/-- The first of two opening braces outside a hole takes the second along. -/
theorem doubled_advances (htemplate : l.template = true) (hopen : b = 0x7B)
    (hdepth : (Mode.literal l).holeDepth = 0) (hb' : (bytes text.toList)[i + 1]? = some 0x7B) :
    Advances text (do
      let openQuotes ← write (scan text i (.literal l) (i + 1)).openQuotes (i + 1) (some l.start)
      let templates ← write (scan text i (.literal l) (i + 1)).templates (i + 1) true
      IndexScan.skip 2 { scan text i (.literal l) (i + 1) with openQuotes, templates }) i := by
  have hnext := modeBefore_literal hb hmode hready
  have hset : l.settled.template = true := htemplate
  have hdepth' : l.settled.depth = 0 := hdepth
  have hread : l.settled.read .openBrace = .literal { l.settled with held := .brace } := by
    rw [Literal.read, if_neg (by rw [hset]; simp), if_pos hdepth']
  rw [ofByte_openBrace.mpr hopen, hread] at hnext
  have hlast := modeBefore_succ hb'
  rw [hnext] at hlast
  obtain ⟨p, hp, hstart, s, hs, rfl⟩ := getElem?_placesOf hb'
  rw [hnext] at hstart hs
  have hmark : Mark.ofByte 0x7B = .openBrace := by decide
  have hhole : (s.place (Mark.ofByte 0x7B)).hole = false := by
    simp [State.place, hs, hmark, hdepth']
  have htemplate' : (s.place (Mark.ofByte 0x7B)).template = true := by
    rw [template_place, hs]
    exact htemplate
  have hround : Advances text ((scan text i (.literal l) (i + 2)).skip 2) i :=
    advances_skip hlen Nat.zero_lt_two (lt_of_byte hb') hlast (alike_settled l .nothing (by simp))
      fun _ _ => ready_nothing rfl _
  have hquotes : write (scan text i (.literal l) (i + 1)).openQuotes (i + 1) (some l.start) =
      pure (scan text i (.literal l) (i + 2)).openQuotes := write_table hp hstart
  have htemplates : write (scan text i (.literal l) (i + 1)).templates (i + 1) true =
      pure (scan text i (.literal l) (i + 2)).templates := write_table hp htemplate'
  -- The round writes no hole for the second brace: the table denies it from the start.
  have hholes : (scan text i (.literal l) (i + 2)).holes =
      (scan text i (.literal l) (i + 1)).holes := table_skip hp hhole
  rw [hquotes, pure_bind, htemplates, pure_bind]
  dsimp only
  rw [← hholes]
  exact hround

theorem hole_advances (htemplate : l.template = true) (hopen : b = 0x7B)
    (hsingle : ¬((Mode.literal l).holeDepth = 0 ∧ (bytes text.toList)[i + 1]? = some 0x7B)) :
    Advances text (IndexScan.skip 1
      { scan text i (.literal l) (i + 1) with depth := (Mode.literal l).holeDepth + 1 }) i := by
  have hi := lt_of_byte hb
  have hnext := modeBefore_literal hb hmode hready
  have hset : l.settled.template = true := htemplate
  rw [ofByte_openBrace.mpr hopen, Literal.read, if_neg (by rw [hset]; simp)] at hnext
  by_cases hdepth : (Mode.literal l).holeDepth = 0
  -- Outside a hole the scanner holds the brace back, and counts it when no second one follows.
  · have hdepth' : l.settled.depth = 0 := hdepth
    rw [if_pos hdepth'] at hnext
    have halike : (Mode.literal { l.settled with depth := l.settled.depth + 1 }).Alike
        (.literal { l.settled with held := .brace }) :=
      ⟨rfl, rfl, congrArg (· + 1) hdepth⟩
    refine advances_skip hlen Nat.zero_lt_one hi hnext halike
      fun b' hb' => ⟨by simp, fun _ hm => ?_⟩
    rw [ofByte_openBrace.mp hm] at hb'
    exact hsingle ⟨hdepth, hb'⟩
  · have hdepth' : l.settled.depth ≠ 0 := hdepth
    rw [if_neg hdepth'] at hnext
    exact advances_skip hlen Nat.zero_lt_one hi hnext ⟨rfl, rfl, rfl⟩
      fun _ _ => ready_nothing rfl _

theorem readTemplate_advances (htemplate : l.template = true) (hquote : b ≠ l.quote.byte)
    (hescape : ¬(b = 0x5C ∧ i + 1 < width text.toList)) :
    Advances text ((scan text i (.literal l) (i + 1)).readTemplate (bytes text.toList) b) i := by
  have hnext := modeBefore_literal hb hmode hready
  have hi := lt_of_byte hb
  have hdepth := depth_le hmode
  rw [IndexScan.readTemplate]
  by_cases hopen : b = 0x7B
  · rw [if_pos hopen, doubled_scan hlen hb, pure_bind]
    by_cases hdouble : (Mode.literal l).holeDepth = 0 ∧ (bytes text.toList)[i + 1]? = some 0x7B
    · have hadd : add (scan text i (.literal l) (i + 1)).offset 1 = pure (i + 1) :=
        add_eq (Nat.lt_of_le_of_lt hi (by omega))
      rw [decide_eq_true hdouble, if_pos rfl, hadd, pure_bind]
      exact doubled_advances hlen hb hmode hready htemplate hopen hdouble.1 hdouble.2
    · have hadd : add (scan text i (.literal l) (i + 1)).depth 1 =
          pure ((Mode.literal l).holeDepth + 1) := add_eq (by rw [scan]; dsimp only; omega)
      rw [decide_eq_false hdouble, if_neg (by simp), hadd, pure_bind]
      exact hole_advances hlen hb hmode hready htemplate hopen hdouble
  · rw [if_neg hopen]
    by_cases hclose : b = 0x7D ∧ 0 < (scan text i (.literal l) (i + 1)).depth
    · have hsub : sub (scan text i (.literal l) (i + 1)).depth 1 =
          pure ((Mode.literal l).holeDepth - 1) := sub_eq hclose.2
      rw [ofByte_closeBrace.mpr hclose.1, Literal.read] at hnext
      rw [if_pos hclose, hsub, pure_bind]
      exact advances_skip hlen Nat.zero_lt_one hi hnext ⟨rfl, rfl, rfl⟩
        fun _ _ => ready_nothing rfl _
    · rw [if_neg hclose]
      refine rest_advances hlen hb hmode hready hquote (fun h => absurd h hopen) (fun h => ?_)
        hescape
      exact Nat.eq_zero_of_not_pos fun hpos => hclose ⟨h, hpos⟩

omit hlen hb hready in
theorem byte_opened : (bytes text.toList)[l.start]? = some l.quote.byte := by
  rw [modeBefore] at hmode
  have hquote := opened_quote hmode
  obtain ⟨hlt, -⟩ := List.getElem?_eq_some_iff.mp hquote
  rw [List.length_take] at hlt
  rw [List.getElem?_take_of_lt (by omega)] at hquote
  exact getElem?_marks.mp hquote

theorem readLiteral_advances :
    Advances text ((scan text i (.literal l) (i + 1)).readLiteral (bytes text.toList) l.start b)
      i := by
  have hi := lt_of_byte hb
  have hescapes : escapes (bytes text.toList) (scan text i (.literal l) (i + 1)).offset b =
      pure (decide (b = 0x5C ∧ i + 1 < width text.toList)) := escapes_eq hlen hi b
  rw [IndexScan.readLiteral, hescapes, pure_bind]
  by_cases hescape : b = 0x5C ∧ i + 1 < width text.toList
  · have hadd : add (scan text i (.literal l) (i + 1)).offset 1 = pure (i + 1) :=
      add_eq (Nat.lt_of_le_of_lt hi (by omega))
    rw [decide_eq_true hescape, if_pos rfl, hadd, pure_bind]
    exact escape_advances hlen hb hmode hready hescape.1 hescape.2
  · rw [decide_eq_false hescape, if_neg (by simp), read_eq (byte_opened hmode), pure_bind]
    by_cases hquote : b = l.quote.byte
    · have hnext := modeBefore_literal hb hmode hready
      have hsame : l.settled.quote = l.quote := rfl
      rw [ofByte_quote.mpr hquote, Literal.read, if_pos hsame.symm] at hnext
      rw [if_pos hquote]
      exact advances_skip hlen Nat.zero_lt_one hi hnext ⟨rfl, rfl, rfl⟩ fun _ _ => trivial
    · rw [if_neg hquote]
      cases htemplate : l.template with
      | true =>
          have hopen : (scan text i (.literal l) (i + 1)).template = true := htemplate
          rw [if_pos hopen]
          exact readTemplate_advances hlen hb hmode hready htemplate hquote hescape
      | false =>
          have hopen : (scan text i (.literal l) (i + 1)).template = false := htemplate
          rw [if_neg (by rw [hopen]; simp)]
          exact rest_advances hlen hb hmode hready hquote (fun _ => htemplate)
            (fun _ => depth_plain hmode htemplate) hescape

end Literals

theorem step_advances (hready : ReadyAt text i) :
    Advances text (IndexScan.step text (scan text i (modeBefore text i) i)) i := by
  obtain ⟨p, hp, hstart, s, hs, rfl⟩ := getElem?_placesOf hb
  have hhole := hole_ready (hs ▸ hready b hb : s.mode.Ready (Mark.ofByte b))
  rw [hs] at hhole
  have henter : (scan text i (modeBefore text i) i).enter
      (scan text i (modeBefore text i) i).offset = pure (scan text i (modeBefore text i) (i + 1)) :=
    enter_scan hp hstart ((template_place _ _).trans (by rw [hs])) hhole
  have hread : read (bytes text.toList) (scan text i (modeBefore text i) (i + 1)).offset = pure b :=
    read_eq hb
  have hready := hready b hb
  rw [IndexScan.step, henter, pure_bind, hread, pure_bind]
  cases hmode : modeBefore text i with
  | code a => exact readCode_advances hlen hb hmode
  | literal l => exact readLiteral_advances hlen hb hmode (hmode ▸ hready)

end Rounds

theorem literalTables_ends (hlen : width text.toList < 2 ^ 63) :
    loop (·.offset < (bytes text.toList).length) (IndexScan.step text)
        (.start (bytes text.toList).length) =
      pure (scan text (width text.toList) (modeBefore text (width text.toList))
        (width text.toList)) := by
  have hround (s : IndexScan)
      (hs : ∃ j ≤ width text.toList, ReadyAt text j ∧ s = scan text j (modeBefore text j) j)
      (hgoes : decide (s.offset < (bytes text.toList).length) = true) :
      ∃ s', IndexScan.step text s = pure s' ∧
        (∃ j ≤ width text.toList, ReadyAt text j ∧ s' = scan text j (modeBefore text j) j) ∧
        width text.toList - s'.offset < width text.toList - s.offset := by
    obtain ⟨i, -, hready, rfl⟩ := hs
    have hi : i < (bytes text.toList).length := of_decide_eq_true hgoes
    obtain ⟨j, hlt, hle, hready', hstep⟩ :=
      step_advances hlen (List.getElem?_eq_getElem hi) hready
    rw [length_bytes] at hi
    exact ⟨_, hstep, ⟨j, hle, hready', rfl⟩, by simp only [scan]; omega⟩
  have hstart : ReadyAt text 0 := fun b _ => by
    rw [modeBefore, List.take_zero, State.run_nil]
    trivial
  have hzero : IndexScan.start (bytes text.toList).length = scan text 0 (modeBefore text 0) 0 := by
    rw [scan, table_zero, table_zero, table_zero, length_placesOf, length_bytes]
    rfl
  obtain ⟨s, hloop, ⟨j, hle, -, rfl⟩, hend⟩ :=
    loop_ends _ _ hround ⟨0, Nat.zero_le _, hstart, hzero⟩
  have hj : j = width text.toList := by
    rw [length_bytes] at hend
    have hge : ¬j < width text.toList := of_decide_eq_false hend
    omega
  rw [hloop, hj]

end Scan

section Build

variable {text : String}

/-- The comment of a byte is told by the first `#` of its line, and by whether that is in a
literal. -/
theorem comment_hash {i : Nat} {p : Place}
    (hp : (placesOf text)[i]? = some p) : p.comment =
      match firstHash? ((marks text.toList).take i) with
      | none => false
      | some hash => (modeBefore text hash).start?.isNone := by
  rw [placesOf, getElem?_places, Option.map_eq_some_iff] at hp
  obtain ⟨m, -, rfl⟩ := hp
  rw [comment_place, line_run]
  cases hhash : firstHash? ((marks text.toList).take i) with
  | none => rfl
  | some hash =>
      have hlt := firstHash?_lt hhash
      rw [List.length_take] at hlt
      have hmode : (State.start.run (((marks text.toList).take i).take hash)).mode =
          modeBefore text hash := by
        rw [List.take_take, Nat.min_eq_left (by omega), modeBefore]
      simp only [hmode]
      cases modeBefore text hash <;> rfl

def commentScan (text : String) (i : Nat) : CommentScan :=
  ⟨firstHash? ((marks text.toList).take i), table Place.comment false (placesOf text) i⟩

theorem firstHash_succ {i : Nat} {b : UInt8} (hb : (bytes text.toList)[i]? = some b) :
    firstHash? ((marks text.toList).take (i + 1)) =
      if b = 0x0A then none
      else if b = 0x23 ∧ (firstHash? ((marks text.toList).take i)).isNone then some i
      else firstHash? ((marks text.toList).take i) := by
  have hi := lt_of_byte hb
  have hlength : ((marks text.toList).take i).length = i := by
    rw [List.length_take, length_marks]
    omega
  rw [take_succ_marks hb]
  by_cases hnewline : b = 0x0A
  · rw [ofByte_newline.mpr hnewline, firstHash?_newline, if_pos hnewline]
  · rw [firstHash?_snoc (mt ofByte_newline.mp hnewline), hlength, if_neg hnewline]
    simp only [ofByte_hash]
    cases firstHash? ((marks text.toList).take i) with
    | none => by_cases hhash : b = 0x23 <;> simp [hhash]
    | some hash => simp

theorem inside_ends {i : Nat} {p : Place} (hp : (placesOf text)[i]? = some p) :
    (commentScan text i).inside ((placesOf text).map Place.stringStart) = pure p.comment := by
  rw [comment_hash hp, CommentScan.inside, commentScan]
  cases hhash : firstHash? ((marks text.toList).take i) with
  | none => rfl
  | some hash =>
      have hlt := firstHash?_lt hhash
      rw [List.length_take] at hlt
      obtain ⟨q, hq, hstart, -⟩ := getElem?_placesOf
        (List.getElem?_eq_getElem (l := bytes text.toList) (i := hash) (by simp at hlt ⊢; omega))
      have hread : read ((placesOf text).map Place.stringStart) hash =
          pure (modeBefore text hash).start? :=
        read_eq (by rw [List.getElem?_map, hq, Option.map_some, hstart])
      simp only [hread, pure_bind]

theorem commentStep_ends {i : Nat} {b : UInt8} (hb : (bytes text.toList)[i]? = some b) :
    CommentScan.step ((placesOf text).map Place.stringStart) (commentScan text i) (b, i) =
      pure (commentScan text (i + 1)) := by
  obtain ⟨p, hp, -⟩ := getElem?_placesOf hb
  have hwrite : write (commentScan text i).comments i p.comment =
      pure (commentScan text (i + 1)).comments := write_table hp rfl
  rw [CommentScan.step, inside_ends hp, pure_bind, hwrite, pure_bind, commentScan, commentScan,
    firstHash_succ hb]

theorem comments_ends : (bytes text.toList).zipIdx.foldlM
    (CommentScan.step ((placesOf text).map Place.stringStart))
      ⟨none, .replicate (bytes text.toList).length false⟩ =
        pure (commentScan text (width text.toList)) := by
  have hstep (i : Nat) (x : UInt8 × Nat) (hx : (bytes text.toList).zipIdx[i]? = some x) :
      CommentScan.step ((placesOf text).map Place.stringStart) (commentScan text i) x =
        pure (commentScan text (i + 1)) := by
    rw [List.getElem?_zipIdx, Option.map_eq_some_iff] at hx
    obtain ⟨b, hb, rfl⟩ := hx
    rw [Nat.zero_add]
    exact commentStep_ends hb
  have h := foldlM_eq (commentScan text) hstep
  rw [List.length_zipIdx, length_bytes] at h
  rw [← h, commentScan, table_zero, length_placesOf, length_bytes]
  rfl

def tablesOf (text : String) : Tables :=
  ⟨(placesOf text).map Place.stringStart, (placesOf text).map Place.template,
    (placesOf text).map Place.hole, (placesOf text).map Place.comment⟩

theorem build_ends (hlen : width text.toList < 2 ^ 63) : build text = pure (tablesOf text) := by
  have hfull {β : Type} (f : Place → β) (d : β) :
      table f d (placesOf text) (width text.toList) = (placesOf text).map f := by
    rw [← length_placesOf, table_length]
  rw [build, literalTables_ends hlen, pure_bind, scan, hfull, hfull, hfull, comments_ends,
    pure_bind, commentScan, hfull]
  rfl

theorem place_tablesOf (pos : Nat) : (tablesOf text).place pos = (Index.ofText text).place pos := by
  rw [Index.ofText, Index.place_ofChars, ← placesOf, Tables.place, Tables.stringStart?,
    Tables.inTemplate, Tables.inHole, Tables.inComment]
  simp only [tablesOf, List.getElem?_map]
  cases (placesOf text)[pos]? <;> rfl

end Build

end Bounded

end Calque

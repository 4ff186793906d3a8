import Calque.Proofs.Delimiters
import Mathlib.Data.List.Infix

namespace Calque.Lexical

def Quote.char : Quote → Char
  | .single => '\''
  | .double => '"'

theorem Quote.utf8Size_char (q : Quote) : q.char.utf8Size = 1 := by cases q <;> rfl

theorem marks_quote (q : Quote) : marks [q.char] = [.quote q] := by cases q <;> decide

theorem marks_openBrace : marks ['{'] = [.openBrace] := by decide

theorem marks_closeBrace : marks ['}'] = [.closeBrace] := by decide

/-- A text that may stand between the two braces of a hole: it closes every brace that it opens and
no other one. -/
structure Enclosed (q : Quote) (e : List Char) : Prop where
  unquoted : q.char ∉ e
  unescaped : '\\' ∉ e
  undoubled : e.head? ≠ some '{'
  opened : ∀ pre, pre <+: e → pre.count '}' ≤ pre.count '{'
  closed : e.count '}' = e.count '{'

instance (q : Quote) (e : List Char) : Decidable (Enclosed q e) :=
  decidable_of_iff (q.char ∉ e ∧ '\\' ∉ e ∧ e.head? ≠ some '{' ∧
      (∀ pre ∈ e.inits, pre.count '}' ≤ pre.count '{') ∧ e.count '}' = e.count '{')
    ⟨fun ⟨h₁, h₂, h₃, h₄, h₅⟩ => ⟨h₁, h₂, h₃, fun pre h => h₄ pre ((List.mem_inits ..).mpr h), h₅⟩,
      fun h => ⟨h.unquoted, h.unescaped, h.undoubled,
        fun pre hpre => h.opened pre ((List.mem_inits ..).mp hpre), h.closed⟩⟩

/-- A part of the body of a template with the quote `q`. -/
inductive Segment (q : Quote)
  | char (c : Char) (bare : c ∉ [q.char, '\\', '{', '}'])
  | openBraces
  | closeBraces
  | hole (e : List Char) (enclosed : Enclosed q e)

namespace Segment

variable {q : Quote}

def text : Segment q → List Char
  | .char c _ => [c]
  | .openBraces => ['{', '{']
  | .closeBraces => ['}', '}']
  | .hole e _ => '{' :: (e ++ ['}'])

def holes : Segment q → List Bool
  | .char c _ => .replicate c.utf8Size false
  | .openBraces | .closeBraces => [false, false]
  | .hole e _ => false :: .replicate (width e + 1) true

theorem length_holes (g : Segment q) : g.holes.length = width g.text := by
  cases g with
  | char c bare => simp [holes, text]
  | openBraces | closeBraces => rfl
  | hole e enclosed =>
      have hbrace : ('{').utf8Size = 1 ∧ ('}').utf8Size = 1 := ⟨rfl, rfl⟩
      simp [holes, text, hbrace]
      omega

theorem getElem?_holes (g : Segment q) (k : Nat) : g.holes[k]? = some true ↔
    ∃ e enclosed, g = .hole e enclosed ∧ 0 < k ∧ k ≤ 1 + width e := by
  constructor
  · intro h
    cases g with
    | char c bare =>
        have hfalse := List.eq_of_mem_replicate (List.mem_of_getElem? h)
        cases hfalse
    | openBraces | closeBraces =>
        have hfalse : true ∈ [false, false] := List.mem_of_getElem? h
        simp at hfalse
    | hole e enclosed =>
        obtain ⟨hlt, -⟩ := List.getElem?_eq_some_iff.mp h
        cases k with
        | zero => cases h
        | succ k =>
            simp only [holes, List.length_cons, List.length_replicate] at hlt
            exact ⟨e, enclosed, rfl, Nat.succ_pos k, by omega⟩
  · rintro ⟨e, enclosed, rfl, hpos, hle⟩
    obtain ⟨k, rfl⟩ := Nat.exists_eq_add_of_lt hpos
    rw [holes, Nat.zero_add, List.getElem?_cons_succ, List.getElem?_replicate_of_lt (by omega)]

end Segment

variable {q : Quote}

def bodyText (body : List (Segment q)) : List Char := body.flatMap Segment.text

/-- Offset `k` of a body is in the text of a hole, or is that of its closing brace. -/
def InHole (body : List (Segment q)) (k : Nat) : Prop :=
  ∃ pre e enclosed post, body = pre ++ .hole e enclosed :: post ∧
    width (bodyText pre) < k ∧ k ≤ width (bodyText pre) + 1 + width e

theorem length_holes (body : List (Segment q)) :
    (body.flatMap Segment.holes).length = width (bodyText body) := by
  induction body with
  | nil => rfl
  | cons g body ih => simp [bodyText, Segment.length_holes] at ih ⊢; omega

theorem inHole_cons (g : Segment q) (body : List (Segment q)) (k : Nat) :
    InHole (g :: body) k ↔ g.holes[k]? = some true ∨
      width g.text ≤ k ∧ InHole body (k - width g.text) := by
  rw [Segment.getElem?_holes]
  constructor
  · rintro ⟨pre, e, enclosed, post, hbody, hlt, hle⟩
    rcases List.cons_eq_append_iff.mp hbody with ⟨rfl, hg⟩ | ⟨pre, rfl, rfl⟩
    · cases hg
      exact .inl ⟨e, enclosed, rfl, hlt, by simpa [bodyText] using hle⟩
    · have hwidth : width (bodyText (g :: pre)) = width g.text + width (bodyText pre) := by
        simp [bodyText]
      exact .inr ⟨by omega, pre, e, enclosed, post, rfl, by omega, by omega⟩
  · rintro (⟨e, enclosed, rfl, hpos, hle⟩ | ⟨hge, pre, e, enclosed, post, rfl, hlt, hle⟩)
    · exact ⟨[], e, enclosed, body, rfl, hpos, by simpa [bodyText] using hle⟩
    · have hwidth : width (bodyText (g :: pre)) = width g.text + width (bodyText pre) := by
        simp [bodyText]
      exact ⟨g :: pre, e, enclosed, post, rfl, by omega, by omega⟩

theorem getElem?_holes (body : List (Segment q)) (k : Nat) :
    (body.flatMap Segment.holes)[k]? = some true ↔ InHole body k := by
  induction body generalizing k with
  | nil => simp [InHole]
  | cons g body ih =>
      rw [inHole_cons, List.flatMap_cons, List.getElem?_append, Segment.length_holes]
      split
      · rename_i hlt
        simp [Nat.not_le.mpr hlt]
      · rename_i hge
        have hnone : g.holes[k]? = none :=
          List.getElem?_eq_none (by rw [Segment.length_holes]; omega)
        rw [ih, hnone]
        simp [Nat.not_lt.mp hge]

instance (body : List (Segment q)) (k : Nat) : Decidable (InHole body k) :=
  decidable_of_iff _ (getElem?_holes body k)

theorem char_of_mark {c : Char} {m : Mark} {b : UInt8} (hb : m.byte? = some b)
    (hm : m ∈ marks [c]) : c.toNat = b.toNat := by
  by_cases hc : c.toNat < 128
  · rw [marks_low hc, List.mem_singleton] at hm
    rw [hm] at hb
    rw [← byte?_ofByte hb]
    simp
    omega
  · rw [marks_high (by omega) hm] at hb
    cases hb

structure Mark.Bare (q : Quote) (m : Mark) : Prop where
  quote : m ≠ .quote q
  backslash : m ≠ .backslash
  openBrace : m ≠ .openBrace
  closeBrace : m ≠ .closeBrace

theorem bare_marks {c : Char} (h : c ∉ [q.char, '\\', '{', '}']) {m : Mark} (hm : m ∈ marks [c]) :
    m.Bare q := by
  have differs {d : Char} {b : UInt8} (hd : d ∈ [q.char, '\\', '{', '}']) (hb : m.byte? = some b)
      (hdb : b.toNat = d.toNat) : False := by
    have hc : c = d := Char.toNat_inj.mp ((char_of_mark hb hm).trans hdb)
    exact h (hc ▸ hd)
  refine ⟨?_, ?_, ?_, ?_⟩ <;> rintro rfl
  · exact differs (d := q.char) (by simp) rfl (by cases q <;> rfl)
  · exact differs (d := '\\') (by simp) rfl rfl
  · exact differs (d := '{') (by simp) rfl rfl
  · exact differs (d := '}') (by simp) rfl rfl

def Mode.template (start : Nat) (q : Quote) (depth : Nat) : Mode :=
  .literal ⟨start, q, true, depth, .nothing⟩

variable {start depth : Nat}

theorem step_bare {m : Mark} (hm : m.Bare q) (offset : Nat) :
    (Mode.template start q depth).step offset m = .template start q depth := by
  obtain ⟨hquote, hbackslash, hopen, hclose⟩ := hm
  cases m with
  | quote r =>
      have hr : r ≠ q := fun h => hquote (congrArg Mark.quote h)
      exact if_neg hr
  | backslash => exact absurd rfl hbackslash
  | openBrace => exact absurd rfl hopen
  | closeBrace => exact absurd rfl hclose
  | hash | newline | templateLetter | plain => rfl

def State.holes (s : State) (ms : List Mark) : List Bool := (s.places ms).map (·.hole)

theorem State.holes_append (s : State) (ms ns : List Mark) :
    s.holes (ms ++ ns) = s.holes ms ++ (s.run ms).holes ns := by
  simp [State.holes, State.places_append]

theorem hole_template {s : State} (hs : s.mode = .template start q depth) (m : Mark) :
    (s.place m).hole = decide (0 < depth) := by
  simp [State.place, hs, Mode.template]

theorem holes_bare {ms : List Mark} (hms : ∀ m ∈ ms, m.Bare q) {s : State}
    (hs : s.mode = .template start q depth) :
    (s.run ms).mode = .template start q depth ∧
      s.holes ms = .replicate ms.length (decide (0 < depth)) := by
  induction ms generalizing s with
  | nil => exact ⟨hs, rfl⟩
  | cons m ms ih =>
      have hstep : (s.step m).mode = .template start q depth := by
        rw [State.step, hs]
        exact step_bare (hms m (by simp)) s.offset
      obtain ⟨hrun, hholes⟩ := ih (fun n hn => hms n (by simp [hn])) hstep
      refine ⟨hrun, ?_⟩
      rw [List.length_cons, List.replicate_succ, ← hholes, ← hole_template hs m]
      rfl

/-- A character of a text in a hole opens a hole in it, closes one, or does neither. -/
theorem holes_char {c : Char} (hquote : c ≠ q.char) (hbackslash : c ≠ '\\') (hdepth : 0 < depth)
    {s : State} (hs : s.mode = .template start q depth) :
    (s.run (marks [c])).mode =
        .template start q (depth + [c].count '{' - [c].count '}') ∧
      s.holes (marks [c]) = .replicate (width [c]) true := by
  have hd : depth ≠ 0 := Nat.ne_of_gt hdepth
  by_cases hopen : c = '{'
  · subst hopen
    rw [marks_openBrace]
    refine ⟨?_, congrArg (· :: []) ((hole_template hs _).trans (decide_eq_true hdepth))⟩
    rw [State.run_cons, State.run_nil, State.step, hs]
    simp [Mode.template, Mode.step, Literal.step, Literal.read, hd]
  · by_cases hclose : c = '}'
    · subst hclose
      rw [marks_closeBrace]
      refine ⟨?_, congrArg (· :: []) ((hole_template hs _).trans (decide_eq_true hdepth))⟩
      rw [State.run_cons, State.run_nil, State.step, hs]
      simp [Mode.template, Mode.step, Literal.step, Literal.read]
    · have hbare : c ∉ [q.char, '\\', '{', '}'] := by simp [hquote, hbackslash, hopen, hclose]
      obtain ⟨hrun, hholes⟩ := holes_bare (fun m => bare_marks hbare) hs
      rw [length_marks, decide_eq_true hdepth] at hholes
      refine ⟨?_, hholes⟩
      rw [hrun, List.count_singleton, List.count_singleton]
      simp [hopen, hclose]

/-- As long as not all holes are closed, every byte is in a hole. -/
theorem holes_enclosed {e : List Char} (hquote : q.char ∉ e) (hbackslash : '\\' ∉ e)
    (hopen : ∀ pre, pre <+: e → pre.count '}' < depth + pre.count '{') {s : State}
    (hs : s.mode = .template start q depth) :
    (s.run (marks e)).mode = .template start q (depth + e.count '{' - e.count '}') ∧
      s.holes (marks e) = .replicate (width e) true := by
  induction e generalizing s depth with
  | nil => exact ⟨hs, rfl⟩
  | cons c e ih =>
      rw [List.mem_cons, not_or] at hquote hbackslash
      have hfirst : [c].count '}' < depth + [c].count '{' :=
        hopen [c] (List.prefix_append [c] e)
      have hdepth : 0 < depth := by simpa using hopen [] (List.nil_prefix)
      obtain ⟨hchar, hholes⟩ := holes_char (Ne.symm hquote.1) (Ne.symm hbackslash.1) hdepth hs
      have hcount (d : Char) (pre : List Char) :
          (c :: pre).count d = [c].count d + pre.count d := by
        rw [← List.count_append, List.singleton_append]
      have hrest (pre : List Char) (hpre : pre <+: e) : pre.count '}' <
          depth + [c].count '{' - [c].count '}' + pre.count '{' := by
        have h := hopen (c :: pre) ((List.prefix_cons_inj c).mpr hpre)
        rw [hcount '}' pre, hcount '{' pre] at h
        omega
      obtain ⟨hrun, htail⟩ := ih hquote.2 hbackslash.2 hrest hchar
      rw [marks_cons, State.run_append, hrun, State.holes_append, hholes, htail, hcount '{' e,
        hcount '}' e]
      refine ⟨by congr 1; omega, ?_⟩
      rw [List.replicate_append_replicate, width_cons, width_cons, width_nil, Nat.add_zero]

/-- A single brace outside a hole has opened one, as the byte after it shows. -/
theorem held_brace {m : Mark} (hm : m ≠ .openBrace) (ms : List Mark) {s t : State}
    (hs : s.mode = .literal ⟨start, q, true, 0, .brace⟩) (ht : t.mode = .template start q 1)
    (hoffset : s.offset = t.offset) (hline : s.line = t.line) :
    s.run (m :: ms) = t.run (m :: ms) ∧ s.holes (m :: ms) = t.holes (m :: ms) := by
  have hplace : (s.place m).hole = (t.place m).hole := by
    simp [State.place, hs, ht, Mode.template, hm]
  have hmode : s.mode.step s.offset m = t.mode.step t.offset m := by
    rw [hs, ht]
    exact step_brace rfl hm
  have hlineStep : s.line.step s.mode m = t.line.step t.mode m := by
    rw [hs, ht, hline]
    exact lineStep_congr rfl t.line m
  have hstep : s.step m = t.step m := by
    rw [State.step, State.step, hmode, hlineStep, hoffset]
  refine ⟨by rw [State.run_cons, State.run_cons, hstep], ?_⟩
  rw [State.holes, State.places, List.map_cons, hplace, hstep]
  rfl

theorem Enclosed.first {e : List Char} (h : Enclosed q e) :
    ∃ m ms, marks (e ++ ['}']) = m :: ms ∧ m ≠ .openBrace := by
  cases e with
  | nil => exact ⟨.closeBrace, [], marks_closeBrace, by simp⟩
  | cons c e =>
      obtain ⟨m, ms, hms⟩ := List.exists_cons_of_ne_nil (marks_ne_nil c)
      refine ⟨m, ms ++ marks (e ++ ['}']), by rw [List.cons_append, marks_cons, hms]; rfl, ?_⟩
      rintro rfl
      have hc : c = '{' := Char.toNat_inj.mp (char_of_mark (m := .openBrace) rfl (by simp [hms]))
      exact h.undoubled (congrArg some hc)

theorem holes_segment (g : Segment q) {s : State} (hs : s.mode = .template start q 0) :
    (s.run (marks g.text)).mode = .template start q 0 ∧ s.holes (marks g.text) = g.holes := by
  cases g with
  | char c bare =>
      have h := holes_bare (fun m => bare_marks bare) hs
      rw [length_marks, width_cons, width_nil, Nat.add_zero] at h
      exact h
  | openBraces =>
      rw [Segment.text, marks_cons, marks_openBrace]
      simp [State.holes, State.places, State.place, State.step, hs, Mode.template, Mode.step,
        Literal.step, Literal.read, Segment.holes]
  | closeBraces =>
      rw [Segment.text, marks_cons, marks_closeBrace]
      simp [State.holes, State.places, State.place, State.step, hs, Mode.template, Mode.step,
        Literal.step, Literal.read, Segment.holes]
  | hole e enclosed =>
      -- Behind the first brace the scan goes on as if the hole were open already.
      obtain ⟨m, ms, hms, hm⟩ := enclosed.first
      let t : State := ⟨s.offset + 1, .template start q 1, s.line.step s.mode .openBrace⟩
      have hheld : (s.step .openBrace).mode = .literal ⟨start, q, true, 0, .brace⟩ := by
        rw [State.step, hs]
        rfl
      obtain ⟨hrun, hholes⟩ := held_brace hm ms hheld (t := t) rfl rfl rfl
      have hinside (pre : List Char) (hpre : pre <+: e) :
          pre.count '}' < 1 + pre.count '{' := by
        have := enclosed.opened pre hpre
        omega
      obtain ⟨hmode, htext⟩ :=
        holes_enclosed enclosed.unquoted enclosed.unescaped hinside (s := t) rfl
      rw [enclosed.closed, Nat.add_sub_cancel] at hmode
      have hlast : (t.run (marks e)).holes [.closeBrace] = [true] :=
        congrArg (· :: []) (hole_template hmode _)
      rw [Segment.text, marks_cons, marks_openBrace, List.singleton_append, State.run_cons, hms]
      refine ⟨?_, ?_⟩
      · rw [hrun, ← hms, marks_append, State.run_append, marks_closeBrace, State.run_cons,
          State.run_nil, State.step, hmode]
        rfl
      · have hbrace : (s.place .openBrace).hole = false := hole_template hs _
        rw [State.holes, State.places, List.map_cons, hbrace, ← State.holes, hholes, ← hms,
          marks_append, State.holes_append, htext, marks_closeBrace, hlast, Segment.holes,
          List.replicate_succ']

theorem holes_body (body : List (Segment q)) {s : State} (hs : s.mode = .template start q 0) :
    (s.run (marks (bodyText body))).mode = .template start q 0 ∧
      s.holes (marks (bodyText body)) = body.flatMap Segment.holes := by
  induction body generalizing s with
  | nil => exact ⟨hs, rfl⟩
  | cons g body ih =>
      obtain ⟨hmode, hholes⟩ := holes_segment g hs
      obtain ⟨hrun, hrest⟩ := ih hmode
      have htext : bodyText (g :: body) = g.text ++ bodyText body := List.flatMap_cons
      rw [htext, marks_append, State.run_append, State.holes_append, hholes, hrest]
      exact ⟨hrun, rfl⟩

theorem inHole_ofText (text : String) (pos : Nat) : (Index.ofText text).inHole pos =
    ((State.start.holes (marks text.toList))[pos]?).getD false := by
  rw [Index.inHole, Index.ofText, Index.place_ofChars, State.holes, List.getElem?_map]
  cases (State.start.places (marks text.toList))[pos]? <;> rfl

/-- Behind the body no hole is open, whatever stands there. -/
theorem holes_behind (body : List (Segment q)) {s : State} (hs : s.mode = .template start q 0)
    (ms : List Mark) {k : Nat} (hk : k ≤ width (bodyText body)) :
    ((s.holes (marks (bodyText body) ++ ms))[k]?).getD false = true ↔ InHole body k := by
  obtain ⟨hmode, hholes⟩ := holes_body body hs
  rw [State.holes_append, hholes, ← getElem?_holes]
  rcases Nat.lt_or_eq_of_le hk with hlt | rfl
  · rw [List.getElem?_append_left (by rwa [length_holes])]
    cases (body.flatMap Segment.holes)[k]? <;> simp
  · have hbehind : ((s.run (marks (bodyText body))).holes ms).head?.getD false = false := by
      cases ms with
      | nil => rfl
      | cons m ms => exact hole_template hmode m
    rw [List.getElem?_append_right (by rw [length_holes]), length_holes, Nat.sub_self,
      ← List.head?_eq_getElem?, hbehind, List.getElem?_eq_none (by rw [length_holes])]
    simp

/-- The scan has just opened the template. -/
theorem template_opened {text : String} {before after : List Char}
    (htext : text.toList = before ++ q.char :: after)
    (hcode : (Index.ofText text).stringStart? (width before) = none)
    (htemplate : templateQuote text (width before) = true) :
    (State.start.run (marks (before ++ [q.char]))).mode = .template (width before) q 0 := by
  have hmarks : marks text.toList = marks before ++ .quote q :: marks after := by
    rw [htext, marks_append, marks_cons, marks_quote]
    rfl
  have hwidth : width before < width text.toList := by
    rw [htext, width_append, width_cons, q.utf8Size_char]
    omega
  have hat : (marks text.toList)[width before]? = some (.quote q) := by
    rw [hmarks, List.getElem?_append_right (by simp)]
    simp
  rw [stringStart?_run, if_pos hwidth] at hcode
  obtain ⟨t, ht⟩ := mode_opened hat hcode
  have htake : (marks text.toList).take (width before + 1) = marks (before ++ [q.char]) := by
    rw [hmarks, marks_append, marks_quote, ← length_marks, List.take_length_add_append]
    rfl
  have hletter : templateQuote text (width before) = t := templateQuote_opened ht
  rw [← htake, ht, ← hletter, htemplate]
  rfl

/-- The holes of a template are told by its segments, from its opening quote up to the byte behind
its body. That byte is its closing quote, if `rest` starts with one. -/
theorem inHole_iff {text : String} {before rest : List Char} {body : List (Segment q)}
    (htext : text.toList = before ++ q.char :: (bodyText body ++ rest))
    (hcode : (Index.ofText text).stringStart? (width before) = none)
    (htemplate : templateQuote text (width before) = true) :
    (Index.ofText text).inHole (width before) = false ∧
      ∀ k ≤ width (bodyText body),
        (Index.ofText text).inHole (width before + 1 + k) = true ↔ InHole body k := by
  have hopened := template_opened htext hcode htemplate
  have hmarks : marks text.toList =
      marks (before ++ [q.char]) ++ (marks (bodyText body) ++ marks rest) := by
    rw [htext, ← marks_append, ← marks_append, List.append_assoc]
    rfl
  have hlength : (State.start.holes (marks (before ++ [q.char]))).length = width before + 1 := by
    simp [State.holes, q.utf8Size_char]
  constructor
  · refine Bool.eq_false_iff.mpr fun h => ?_
    obtain ⟨k, hk, -⟩ := (inTemplate_agrees text (width before)).mp (inTemplate_of_inHole h)
    rw [hcode] at hk
    cases hk
  · intro k hk
    rw [inHole_ofText, hmarks, State.holes_append, List.getElem?_append_right (by omega), hlength,
      Nat.add_sub_cancel_left]
    exact holes_behind body hopened _ hk

/-- Doubled braces around a hole, and a hole with braces of its own. -/
theorem inHole_nested : ∃ body : List (Segment .double),
    "f\"{{{x}}}é{y{}}\"".toList = ['f'] ++ Quote.double.char :: (bodyText body ++ ['"']) ∧
    (Index.ofText "f\"{{{x}}}é{y{}}\"").stringStart? (width ['f']) = none ∧
    templateQuote "f\"{{{x}}}é{y{}}\"" (width ['f']) = true ∧
    (Index.ofText "f\"{{{x}}}é{y{}}\"").inHole (width ['f']) = false ∧
    14 ≤ width (bodyText body) ∧ InHole body 12 ∧ ¬InHole body 14 ∧
    (Index.ofText "f\"{{{x}}}é{y{}}\"").inHole (width ['f'] + 1 + 12) = true ∧
    ¬(Index.ofText "f\"{{{x}}}é{y{}}\"").inHole (width ['f'] + 1 + 14) = true := by
  let body : List (Segment .double) := [.openBraces, .hole ['x'] (by decide), .closeBraces,
    .char 'é' (by decide), .hole ['y', '{', '}'] (by decide)]
  have htext : "f\"{{{x}}}é{y{}}\"".toList =
      ['f'] ++ Quote.double.char :: (bodyText body ++ ['"']) := by decide
  have hcode : (Index.ofText "f\"{{{x}}}é{y{}}\"").stringStart? (width ['f']) = none := by decide
  have htemplate : templateQuote "f\"{{{x}}}é{y{}}\"" (width ['f']) = true := by decide
  have hwidth : width (bodyText body) = 14 := by decide
  have hinside : InHole body 12 := by decide
  have hquote : ¬InHole body 14 := by decide
  obtain ⟨hopening, hholes⟩ := inHole_iff htext hcode htemplate
  exact ⟨body, htext, hcode, htemplate, hopening, hwidth.ge, hinside, hquote,
    (hholes 12 (by omega)).mpr hinside, mt (hholes 14 hwidth.ge).mp hquote⟩

end Calque.Lexical

import Calque.Json.Skip
import Calque.Lists
import Calque.Proofs.Lexemes

namespace Calque.Json

/-- Before anything that does not go on with it, a text makes tokens of its own, of which `P`
holds. -/
def Lexes (P : List Token → Prop) (text : List Char) : Prop :=
  ∀ rest, Closed rest → ∃ ts, P ts ∧ lex (text ++ rest) = ts ++ lex rest

section Lexing

variable {P Q : List Token → Prop} {text : List Char}

theorem Lexes.mono (h : Lexes P text) (hPQ : ∀ ts, P ts → Q ts) : Lexes Q text := by
  intro rest hrest
  obtain ⟨ts, hts, hlex⟩ := h rest hrest
  exact ⟨ts, hPQ ts hts, hlex⟩

theorem lexes_of_token {t : Token} (h : ∀ rest, Closed rest → lex (text ++ rest) = t :: lex rest) :
    Lexes (· = [t]) text :=
  fun rest hrest => ⟨[t], rfl, h rest hrest⟩

theorem closed_cons {c : Char} (h : c.isDigit = false ∧ c ≠ '.' ∧ c ≠ 'e' ∧ c ≠ 'E')
    (rest : List Char) : Closed (c :: rest) := by
  intro c' hc'
  obtain rfl := Option.some.inj hc'
  exact h

theorem closed_blank {c : Char} (hc : isBlank c = true) (rest : List Char) :
    Closed (c :: rest) := by
  apply closed_cons
  simp only [isBlank, Bool.or_eq_true, decide_eq_true_eq] at hc
  rcases hc with ((rfl | rfl) | rfl) | rfl <;> decide

theorem closed_gap {gap rest : List Char} (hgap : Blank gap) (hrest : Closed rest) :
    Closed (gap ++ rest) := by
  cases gap with
  | nil => exact hrest
  | cons c gap => exact closed_blank (hgap c (List.mem_cons_self ..)) (gap ++ rest)

theorem Lexes.padded {core : List Char} (h : Lexes P core) (htext : Padded core text) :
    Lexes P text := by
  obtain ⟨before, after, hbefore, hafter, rfl⟩ := htext
  intro rest hrest
  obtain ⟨ts, hts, hlex⟩ := h (after ++ rest) (closed_gap hafter hrest)
  refine ⟨ts, hts, ?_⟩
  rw [List.append_assoc, List.append_assoc, lex_gap hbefore, hlex, lex_gap hafter]

/-- The text of the parts of a list or an object, in brackets. -/
theorem Lexes.enclosed {o c : Char} {opens closes : Token} {gap : List Char} (h : Lexes P text)
    (ho : punctuation? o = some opens) (hc : punctuation? c = some closes) (hgap : Blank gap)
    (hend : c.isDigit = false ∧ c ≠ '.' ∧ c ≠ 'e' ∧ c ≠ 'E') :
    Lexes (fun ts => ∃ us, P us ∧ ts = opens :: (us ++ [closes])) (o :: (gap ++ text ++ [c])) := by
  intro rest hrest
  obtain ⟨us, hus, hlex⟩ := h (c :: rest) (closed_cons hend rest)
  refine ⟨_, ⟨us, hus, rfl⟩, ?_⟩
  rw [lex_mark hc] at hlex
  simp only [List.cons_append, List.append_assoc, List.nil_append, lex_mark ho, lex_gap hgap, hlex]

/-- Parts with commas between them. -/
theorem lexes_between {α : Type} {P : α → List Token → Prop} {text : α → List Char} {as : List α}
    (h : ∀ a ∈ as, Lexes (P a) (text a)) :
    Lexes (fun ts => ∃ parts : List (α × List Token), parts.map (·.1) = as ∧
        (∀ p ∈ parts, P p.1 p.2) ∧ ts = [Token.comma].intercalate (parts.map (·.2)))
      ([','].intercalate (as.map text)) := by
  induction as with
  | nil => exact fun rest _ => ⟨[], ⟨[], rfl, by simp, rfl⟩, rfl⟩
  | cons a as ih =>
      obtain ⟨ha, has⟩ := List.forall_mem_cons.mp h
      -- A part that others follow stands before a comma, the last one before the rest.
      cases as with
      | nil =>
          intro rest hrest
          obtain ⟨ts, hts, hlex⟩ := ha rest hrest
          exact ⟨ts, ⟨[(a, ts)], rfl, by simpa using hts, by simp⟩, by simpa using hlex⟩
      | cons b as =>
          intro rest hrest
          obtain ⟨us, ⟨parts, hparts, hall, rfl⟩, hrest⟩ := ih has rest hrest
          obtain ⟨ts, hts, hlex⟩ := ha (',' :: ([','].intercalate ((b :: as).map text) ++ rest))
            (closed_cons (by decide) _)
          rw [lex_mark rfl, hrest] at hlex
          refine ⟨_, ⟨(a, ts) :: parts, by simp [hparts], ?_, rfl⟩, ?_⟩
          · exact List.forall_mem_cons.mpr ⟨hts, hall⟩
          · cases parts with
            | nil => simp at hparts
            | cons p parts =>
                simpa [List.intercalate_cons_cons] using hlex

end Lexing

theorem lex_member {m : Member} (hspaced : m.Spaced) (rest : List Char) {t : Token}
    (hname : lex (quoted m.name ++ (m.after ++ ':' :: (m.value ++ rest))) =
      t :: lex (m.after ++ ':' :: (m.value ++ rest))) :
    lex (m.text ++ rest) = t :: .colon :: lex (m.value ++ rest) := by
  rw [lex_gap hspaced.2, lex_mark (c := ':') rfl] at hname
  rw [← hname, Member.text, List.append_assoc, lex_gap hspaced.1]
  simp only [List.append_assoc, List.cons_append]

section Passing

def Passes (ts : List Token) : Prop :=
  ∀ frames us, skipFrom ⟨.value false, frames⟩ (ts ++ us) = skipFrom ⟨.more, frames⟩ us

theorem skip_passes {ts : List Token} (h : Passes ts) (us : List Token) :
    skip (ts ++ us) = .ok us := by
  rw [skip, h]
  cases us <;> rfl

theorem skipFrom_step {s s' : Skipping} {t : Token} (hover : s.isOver = false)
    (h : s.step t = .ok s') (ts : List Token) : skipFrom s (t :: ts) = skipFrom s' ts := by
  simp only [skipFrom, hover, h]
  rfl

theorem passes_scalar (read : Except Fault Scalar) : Passes [.scalar read (.ok ())] :=
  fun _ us => skipFrom_step rfl rfl us

theorem passes_string (read : Except Fault String) : Passes [.string read (.ok ())] :=
  fun _ us => skipFrom_step rfl rfl us

namespace Frame

def opening : Frame → Token
  | .list => .openBracket
  | .object => .openBrace

def closing : Frame → Token
  | .list => .closeBracket
  | .object => .closeBrace

def Passes (f : Frame) (ts : List Token) : Prop :=
  ∀ frames us, skipFrom ⟨f.entry, f :: frames⟩ (ts ++ us) = skipFrom ⟨.more, f :: frames⟩ us

theorem passes_item {ts : List Token} (h : Json.Passes ts) : list.Passes ts :=
  fun frames us => h (.list :: frames) us

theorem passes_member {read : Except Fault String} {ts : List Token} (h : Json.Passes ts) :
    object.Passes (.string read (.ok ()) :: .colon :: ts) := by
  intro frames us
  rw [List.cons_append, List.cons_append]
  exact (skipFrom_step rfl rfl _).trans ((skipFrom_step rfl rfl _).trans (h _ us))

theorem skip_close (f : Frame) (frames : List Frame) (us : List Token) :
    skipFrom ⟨.more, f :: frames⟩ (f.closing :: us) = skipFrom ⟨.more, frames⟩ us := by
  cases f <;> exact skipFrom_step rfl rfl us

theorem skip_comma (f : Frame) (frames : List Frame) (us : List Token) :
    skipFrom ⟨.more, f :: frames⟩ (.comma :: us) = skipFrom ⟨f.entry, f :: frames⟩ us := by
  cases f <;> exact skipFrom_step rfl rfl us

/-- No entry starts with the end of its container, so the first entry can be told from none. -/
theorem Passes.head {f : Frame} {ts : List Token} (h : f.Passes ts) :
    ∃ t ts', ts = t :: ts' ∧ f.closes t = false := by
  -- With the closing bracket right after it the entry has to be over, and the container with it.
  have hwhole := (h [] [f.closing]).trans (f.skip_close [] [])
  cases ts with
  | nil => cases f <;> cases hwhole
  | cons t ts =>
      refine ⟨t, ts, rfl, ?_⟩
      cases f <;> cases t <;> first | rfl | cases hwhole

theorem Passes.first {f : Frame} {ts : List Token} (h : f.Passes ts) (frames : List Frame)
    (us : List Token) :
    skipFrom ⟨.value true, f :: frames⟩ (ts ++ us) = skipFrom ⟨.more, f :: frames⟩ us := by
  obtain ⟨t, ts, rfl, ht⟩ := h.head
  rw [← h frames us]
  cases f <;> simp [skipFrom, Skipping.step, Skipping.isOver, Skipping.passEntry, entry, ht]

theorem passes_rest {f : Frame} {tss : List (List Token)} (h : ∀ ts ∈ tss, f.Passes ts)
    (frames : List Frame) (us : List Token) :
    skipFrom ⟨.more, f :: frames⟩ (tss.flatMap (.comma :: ·) ++ f.closing :: us) =
      skipFrom ⟨.more, frames⟩ us := by
  induction tss with
  | nil => exact f.skip_close frames us
  | cons ts tss ih =>
      obtain ⟨hts, htss⟩ := List.forall_mem_cons.mp h
      rw [List.flatMap_cons, List.cons_append, List.cons_append, skip_comma, List.append_assoc, hts,
        ih htss]

theorem passes_container {f : Frame} {tss : List (List Token)} (h : ∀ ts ∈ tss, f.Passes ts) :
    Json.Passes (f.opening :: ([Token.comma].intercalate tss ++ [f.closing])) := by
  intro frames us
  have hopen (ts : List Token) :
      skipFrom ⟨.value false, frames⟩ (f.opening :: ts) =
        skipFrom ⟨.value true, f :: frames⟩ ts := by
    cases f <;> exact skipFrom_step rfl rfl ts
  rw [List.cons_append, hopen, List.append_assoc, List.singleton_append]
  cases tss with
  | nil => cases f <;> exact skipFrom_step rfl rfl us
  | cons ts tss =>
      obtain ⟨hts, htss⟩ := List.forall_mem_cons.mp h
      rw [intercalate_cons, List.append_assoc, hts.first, passes_rest htss]

end Frame

theorem passes_list {tss : List (List Token)} (h : ∀ ts ∈ tss, Passes ts) :
    Passes (.openBracket :: ([Token.comma].intercalate tss ++ [.closeBracket])) :=
  Frame.passes_container (f := .list) fun ts hts => Frame.passes_item (h ts hts)

/-- A well-formed value is passed over as a whole, wherever it stands. -/
theorem WellFormed.passes {text : List Char} (h : WellFormed text) : Lexes Passes text := by
  induction h with
  | null h =>
      have hlexes := lexes_of_token fun rest _ => lex_null rest
      refine (hlexes.padded h).mono ?_
      rintro _ rfl
      exact passes_scalar _
  | bool b h =>
      have hlexes := lexes_of_token fun rest _ => lex_bool b rest
      refine (hlexes.padded h).mono ?_
      rintro _ rfl
      exact passes_scalar _
  | number hx h =>
      have hlexes := lexes_of_token fun rest hrest => lex_number hx hrest
      refine (hlexes.padded h).mono ?_
      rintro _ rfl
      exact passes_scalar _
  | string hbody h =>
      have hlexes : Lexes Passes (quoted _) := fun rest _ =>
        ⟨_, passes_string _, lex_literal hbody rest⟩
      exact hlexes.padded h
  | array hgap _ h ih =>
      have hitems := lexes_between ih
      rw [List.map_id'] at hitems
      refine ((hitems.enclosed rfl rfl hgap (by decide)).padded h).mono ?_
      rintro _ ⟨_, ⟨parts, -, hparts, rfl⟩, rfl⟩
      refine passes_list fun ts hts => ?_
      obtain ⟨p, hp, rfl⟩ := List.mem_map.mp hts
      exact hparts p hp
  | @object _ _ members hgap hspaced hnames _ h ih =>
      have hmember : ∀ m ∈ members, Lexes Frame.object.Passes m.text := by
        intro m hm rest hrest
        obtain ⟨ts, hts, hlex⟩ := ih m hm rest hrest
        have htext := lex_member (hspaced m hm) rest (lex_literal (hnames m hm) _)
        rw [hlex] at htext
        exact ⟨_, Frame.passes_member hts, htext⟩
      refine (((lexes_between hmember).enclosed rfl rfl hgap (by decide)).padded h).mono ?_
      rintro _ ⟨_, ⟨parts, -, hparts, rfl⟩, rfl⟩
      refine Frame.passes_container (f := .object) fun ts hts => ?_
      obtain ⟨p, hp, rfl⟩ := List.mem_map.mp hts
      exact hparts p hp

end Passing

end Calque.Json

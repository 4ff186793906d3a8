import Calque.Json.Laws
import Calque.Json.Standard
import Calque.Proofs.Written

namespace Calque.Json

/-- The tokens of a text stand before those of a rest that does not go on with it. -/
def Precedes (ts : List Token) (text : List Char) (us : List Token) : Prop :=
  ∃ rest, Closed rest ∧ ts = lex (text ++ rest) ∧ us = lex rest

section Scalars

variable {α : Type} {text : List Char}

theorem reads_of_lexes {reader : Parser α} {ts : List Token} {a : α} (h : Lexes (· = ts) text)
    (hread : ∀ us, reader (ts ++ us) = .ok (a, us)) : Reads Precedes reader text a := by
  rintro _ _ ⟨rest, hrest, rfl, rfl⟩
  obtain ⟨_, rfl, hlex⟩ := h rest hrest
  rw [hlex]
  exact hread _

theorem lexes_bool {b : Bool} (h : Writes (.bool b) text) :
    Lexes (· = [.scalar (.ok (.bool b)) (.ok ())]) text := by
  cases h with
  | bool _ h => exact (lexes_of_token fun rest _ => lex_bool b rest).padded h

theorem lexes_string {s : String} (h : Writes (.string s) text) :
    Lexes (· = [.string (.ok s) (.ok ())]) text := by
  cases h with
  | string hbody h => exact (lexes_of_token fun rest _ => lex_said hbody rest).padded h

theorem lexes_ofNat {n : Nat} (h : Writes (.ofNat n) text) :
    Lexes (· = [.scalar (.ok (.number (.integer n))) (.ok ())]) text := by
  cases h with
  | natural hn h =>
      refine Lexes.padded (lexes_of_token fun rest hrest => ?_) h
      rw [lex_number (written_toDigits n) hrest, toNumber_toDigits hn]
      rfl

theorem readWord_word (n : UInt64) (us : List Token) :
    readWord (.scalar (.ok (.number (.integer n.toNat))) (.ok ()) :: us) = .ok (n, us) := by
  simp [readWord]

theorem readVariant_string {variants : List (String × α)} {name : String} {a : α}
    (hnodup : (variants.map (·.1)).Nodup) (ha : (name, a) ∈ variants) (us : List Token) :
    readVariant variants (.string (.ok name) (.ok ()) :: us) = .ok (a, us) := by
  simp only [readVariant, bind, Except.bind, find?_of_nodup hnodup ha]

end Scalars

section Members

variable {σ : Type} {step : String → σ → Parser σ}

def Takes (step : String → σ → Parser σ) (m : String × List Char) (s s' : σ) : Prop :=
  ∀ rest, Closed rest → step m.1 s (.colon :: lex (m.2 ++ rest)) = .ok (s', lex rest)

theorem takes_member {member : String → σ → Parser σ} {m : String × List Char} {s s' : σ}
    (h : Reads Precedes (member m.1 s) m.2 s') :
    Takes (fun name s ts => do member name s (← readColon ts)) m s s' :=
  fun rest hrest => h _ _ ⟨rest, hrest, rfl, rfl⟩

theorem length_lex_rest {text rest : List Char} (h : WellFormed text) (hrest : Closed rest) :
    (lex rest).length ≤ (lex (text ++ rest)).length := by
  obtain ⟨ts, -, hlex⟩ := h.passes rest hrest
  simp [hlex]

def moreMembers (members : List (String × Member)) (rest : List Char) : List Char :=
  members.flatMap (fun m => ',' :: m.2.text) ++ '\x7d' :: rest

theorem closed_moreMembers (members : List (String × Member)) (rest : List Char) :
    Closed (moreMembers members rest) := by
  cases members <;> exact closed_cons (by decide) _

theorem readMembers_last {s s' : σ} {name : String} {pass : Except Fault Unit}
    {ts us : List Token} (h : step name s ts = .ok (s', .closeBrace :: us)) (n : Nat) :
    readMembers step (n + 1) s (.string (.ok name) pass :: ts) = .ok (s', us) := by
  rw [readMembers]
  simp only [bind, Except.bind, h]

theorem readMembers_next {s s' : σ} {name : String} {pass : Except Fault Unit} {t : Token}
    {ts us : List Token} (ht : t ≠ .closeBrace) (h : step name s ts = .ok (s', .comma :: t :: us))
    (n : Nat) :
    readMembers step (n + 1) s (.string (.ok name) pass :: ts) =
      readMembers step n s' (t :: us) := by
  rw [readMembers]
  simp only [bind, Except.bind, h]
  cases t <;> first | exact absurd rfl ht | rfl

theorem lex_entry {name : String} {m : Member} (hspaced : m.Spaced)
    (hname : Says m.name name.toList) (rest : List Char) :
    lex (m.text ++ rest) = .string (.ok name) (.ok ()) :: .colon :: lex (m.value ++ rest) :=
  lex_member hspaced rest (lex_said hname _)

theorem readMembers_walk {m : String × Member} {members : List (String × Member)}
    (hspaced : ∀ e ∈ m :: members, e.2.Spaced)
    (hnames : ∀ e ∈ m :: members, Says e.2.name e.1.toList)
    (hvalues : ∀ e ∈ m :: members, WellFormed e.2.value) {s s' : σ}
    (h : Walk (Takes step) ((m :: members).map fun m => (m.1, m.2.value)) s s') (rest : List Char)
    {n : Nat} (hn : (lex (m.2.text ++ moreMembers members rest)).length ≤ n) :
    readMembers step n s (lex (m.2.text ++ moreMembers members rest)) = .ok (s', lex rest) := by
  induction members generalizing m s n with
  | nil =>
      have hm := List.forall_mem_singleton.mp hspaced
      have hname := List.forall_mem_singleton.mp hnames
      have hend : lex (moreMembers [] rest) = .closeBrace :: lex rest := lex_mark rfl rest
      cases h with
      | cons h hwalk =>
          cases hwalk
          have hstep := h _ (closed_moreMembers [] rest)
          rw [lex_entry hm hname] at hn ⊢
          rw [hend] at hstep
          obtain ⟨n, rfl⟩ := Nat.exists_eq_add_one_of_ne_zero (Nat.ne_zero_of_lt hn)
          exact readMembers_last hstep n
  | cons m' members ih =>
      obtain ⟨hm, hspaced'⟩ := List.forall_mem_cons.mp hspaced
      obtain ⟨hname, hnames'⟩ := List.forall_mem_cons.mp hnames
      obtain ⟨hvalue, hvalues'⟩ := List.forall_mem_cons.mp hvalues
      have hclosed := closed_moreMembers (m' :: members) rest
      have hmore : lex (moreMembers (m' :: members) rest) =
          .comma :: lex (m'.2.text ++ moreMembers members rest) := by
        simp only [moreMembers, List.flatMap_cons, List.cons_append, List.append_assoc]
        exact lex_mark rfl _
      cases h with
      | cons h hwalk =>
          have hstep := h _ hclosed
          have hlength := length_lex_rest hvalue hclosed
          rw [lex_entry hm hname] at hn ⊢
          rw [hmore] at hstep hlength
          obtain ⟨n, rfl⟩ := Nat.exists_eq_add_one_of_ne_zero (Nat.ne_zero_of_lt hn)
          -- The bound goes down by one a member, the tokens by at least its name.
          have hbound : (lex (m'.2.text ++ moreMembers members rest)).length ≤ n := by
            simp only [List.length_cons] at hn hlength
            omega
          have hrun := ih hspaced' hnames' hvalues' hwalk hbound
          rw [lex_entry (hspaced' m' (by simp)) (hnames' m' (by simp))] at hstep hrun
          exact (readMembers_next (by simp) hstep n).trans hrun

/-- The members of an object, whose opening brace has been read. -/
theorem readOpened_walk {members : List (String × Member)} (hspaced : ∀ e ∈ members, e.2.Spaced)
    (hnames : ∀ e ∈ members, Says e.2.name e.1.toList)
    (hvalues : ∀ e ∈ members, WellFormed e.2.value) {s s' : σ}
    (h : Walk (Takes step) (members.map fun m => (m.1, m.2.value)) s s') (rest : List Char) :
    readOpened step s
        (lex ([','].intercalate (members.map fun m => m.2.text) ++ '\x7d' :: rest)) =
      .ok (s', lex rest) := by
  cases members with
  | nil =>
      cases h
      have hend : lex ('\x7d' :: rest) = .closeBrace :: lex rest := lex_mark rfl rest
      exact congrArg (readOpened step s) hend
  | cons m members =>
      have htext : [','].intercalate ((m :: members).map fun m => m.2.text) ++ '\x7d' :: rest =
          m.2.text ++ moreMembers members rest := by
        rw [List.map_cons, intercalate_cons, List.flatMap_map, List.append_assoc]
        rfl
      have hrun := readMembers_walk hspaced hnames hvalues h rest (Nat.le_refl _)
      rw [htext]
      rw [lex_entry (hspaced m (by simp)) (hnames m (by simp))] at hrun ⊢
      exact hrun

/-- An object that a text holds, with whatever follows it. -/
theorem lex_object {gap : List Char} {members : List Member} (hgap : Blank gap) (rest : List Char) :
    lex (objectText gap members ++ rest) =
      .openBrace :: lex ([','].intercalate (members.map Member.text) ++ '\x7d' :: rest) := by
  rw [objectText, List.cons_append, lex_mark rfl]
  simp only [List.append_assoc, lex_gap hgap]
  rfl

theorem ObjectText.opened {members : List (String × List Char)} {text : List Char}
    (htext : ObjectText members text) {s s' : σ} (h : Walk (Takes step) members s s')
    (rest : List Char) :
    ∃ us, lex (text ++ rest) = .openBrace :: us ∧ readOpened step s us = .ok (s', lex rest) := by
  cases htext with
  | mk hgap hspaced hnames hvalues htext =>
      obtain ⟨before, after, hbefore, hafter, rfl⟩ := htext
      refine ⟨_, ?_, readOpened_walk hspaced hnames hvalues h (after ++ rest) |>.trans ?_⟩
      · rw [List.append_assoc, List.append_assoc, lex_gap hbefore, lex_object hgap, List.map_map]
        rfl
      · rw [lex_gap hafter]

end Members

section Items

variable {σ α : Type} {r : Record Fault (List Token) σ α}

/-- A value does not start with the end of the list it stands in. -/
theorem WellFormed.head {text rest : List Char} (h : WellFormed text) (hrest : Closed rest) :
    ∃ t us, lex (text ++ rest) = t :: us ∧ t ≠ .closeBracket := by
  obtain ⟨ts, hts, hlex⟩ := h.passes rest hrest
  obtain ⟨t, ts, rfl, ht⟩ := (Frame.passes_item hts).head
  refine ⟨t, ts ++ lex rest, hlex, ?_⟩
  rintro rfl
  cases ht

def moreItems (items : List (List Char)) (rest : List Char) : List Char :=
  items.flatMap (',' :: ·) ++ ']' :: rest

theorem closed_moreItems (items : List (List Char)) (rest : List Char) :
    Closed (moreItems items rest) := by
  cases items <;> exact closed_cons (by decide) _

theorem readFields_first (f : Field Fault (List Token) σ) (fs : List (Field Fault (List Token) σ))
    {t : Token} (ht : t ≠ .closeBracket) (s : σ) (ts : List Token) :
    r.readFields 0 s (f :: fs) (t :: ts) =
      (f.read s (t :: ts)).bind fun p => r.readFields 1 p.1 fs p.2 := by
  cases t <;> first | exact absurd rfl ht | rfl

theorem readFields_next (n : Nat) (f : Field Fault (List Token) σ)
    (fs : List (Field Fault (List Token) σ)) {t : Token} (ht : t ≠ .closeBracket) (s : σ)
    (ts : List Token) :
    r.readFields (n + 1) s (f :: fs) (.comma :: t :: ts) =
      (f.read s (t :: ts)).bind fun p => r.readFields (n + 2) p.1 fs p.2 := by
  cases t <;> first | exact absurd rfl ht | rfl

theorem readFields_more {fs : List (Field Fault (List Token) σ)} {items : List (List Char)}
    (hlength : items.length = fs.length) (hitems : ∀ item ∈ items, WellFormed item) {s s' : σ}
    (h : Walk (fun p s => Reads Precedes (p.1.read s) p.2) (fs.zip items) s s') (n : Nat)
    (rest : List Char) :
    r.readFields (n + 1) s fs (lex (moreItems items rest)) = .ok (s', lex rest) := by
  induction fs generalizing items s n with
  | nil =>
      obtain rfl := List.eq_nil_of_length_eq_zero hlength
      cases h
      have hend : lex (moreItems [] rest) = .closeBracket :: lex rest := lex_mark rfl rest
      exact congrArg (r.readFields (n + 1) _ []) hend
  | cons f fs ih =>
      cases items with
      | nil => cases hlength
      | cons item items =>
          obtain ⟨hitem, hitems⟩ := List.forall_mem_cons.mp hitems
          have hclosed := closed_moreItems items rest
          have hmore : lex (moreItems (item :: items) rest) =
              .comma :: lex (item ++ moreItems items rest) := by
            simp only [moreItems, List.flatMap_cons, List.cons_append, List.append_assoc]
            exact lex_mark rfl _
          obtain ⟨t, us, hhead, ht⟩ := hitem.head hclosed
          cases h with
          | cons h hwalk =>
              have hread := h _ _ ⟨_, hclosed, rfl, rfl⟩
              rw [hhead] at hread
              rw [hmore, hhead, readFields_next n f fs ht, hread]
              exact ih (Nat.succ.inj hlength) hitems hwalk (n + 1)

theorem readFields_walk {fs : List (Field Fault (List Token) σ)} {items : List (List Char)}
    (hlength : items.length = fs.length) (hitems : ∀ item ∈ items, WellFormed item) {s s' : σ}
    (h : Walk (fun p s => Reads Precedes (p.1.read s) p.2) (fs.zip items) s s')
    (rest : List Char) :
    r.readFields 0 s fs (lex ([','].intercalate items ++ ']' :: rest)) = .ok (s', lex rest) := by
  cases fs with
  | nil =>
      obtain rfl := List.eq_nil_of_length_eq_zero hlength
      cases h
      have hend : lex (']' :: rest) = .closeBracket :: lex rest := lex_mark rfl rest
      exact congrArg (r.readFields 0 _ []) hend
  | cons f fs =>
      cases items with
      | nil => cases hlength
      | cons item items =>
          obtain ⟨hitem, hitems⟩ := List.forall_mem_cons.mp hitems
          have hclosed := closed_moreItems items rest
          have htext : [','].intercalate (item :: items) ++ ']' :: rest =
              item ++ moreItems items rest := by
            rw [intercalate_cons, List.append_assoc]
            rfl
          obtain ⟨t, us, hhead, ht⟩ := hitem.head hclosed
          cases h with
          | cons h hwalk =>
              have hread := h _ _ ⟨_, hclosed, rfl, rfl⟩
              rw [hhead] at hread
              rw [htext, hhead, readFields_first f fs ht, hread]
              exact readFields_more (Nat.succ.inj hlength) hitems hwalk 0 rest

theorem ListText.opened {items : List (List Char)} {text : List Char} (htext : ListText items text)
    {fs : List (Field Fault (List Token) σ)} (hlength : items.length = fs.length) {s s' : σ}
    (h : Walk (fun p s => Reads Precedes (p.1.read s) p.2) (fs.zip items) s s') (rest : List Char) :
    ∃ us, lex (text ++ rest) = .openBracket :: us ∧
      r.readFields 0 s fs us = .ok (s', lex rest) := by
  cases htext with
  | mk hgap hitems htext =>
      obtain ⟨before, after, hbefore, hafter, rfl⟩ := htext
      refine ⟨_, ?_, readFields_walk hlength hitems h (after ++ rest) |>.trans ?_⟩
      · rw [List.append_assoc, List.append_assoc, lex_gap hbefore, listText, List.cons_append,
          lex_mark rfl]
        simp only [List.append_assoc, lex_gap hgap]
        rfl
      · rw [lex_gap hafter]

end Items

section Records

variable {σ α : Type} {r : Record Fault (List Token) σ α}

theorem takes_readMember (hnodup : (r.fields.map (·.name)).Nodup) {m : String × List Char}
    (hvalue : WellFormed m.2) {s s' : σ} (h : r.Step Precedes m s s') :
    Takes r.readMember m s s' := by
  intro rest hrest
  cases h with
  | field hf hnew h =>
      rw [Record.readMember, find?_of_nodup hnodup hf]
      simp only [hnew, readColon, bind, Except.bind]
      exact h _ _ ⟨rest, hrest, rfl, rfl⟩
  | @other name text s hopen hother =>
      obtain ⟨ts, hts, hlex⟩ := hvalue.passes rest hrest
      have hfind : r.fields.find? (·.name = name) = none := by simpa using hother
      rw [Record.readMember, hfind, hlex]
      simp only [hopen, readColon, skip_passes hts, bind, Except.bind]
      rfl

theorem read_of_draft {ts us : List Token} {s : σ} {a : α}
    (h : r.readDraft ts = .ok (s, us)) (hfinish : r.finish s = .ok a) :
    r.read ts = .ok (a, us) := by
  rw [Record.read, h]
  simp only [bind, Except.bind, hfinish]

end Records

/-- The reader in this library does what is asked of any library. -/
theorem standard_laws : standard.Laws fun _ => Precedes where
  start text h := ⟨_, ⟨[], nofun, by rw [List.append_nil]; rfl, rfl⟩, by rw [lex]; rfl⟩
  bool _ b text h := reads_of_lexes (lexes_bool h) fun us => rfl
  text _ s text h := reads_of_lexes (lexes_string h) fun us => rfl
  word _ n text h := reads_of_lexes (lexes_ofNat h) (readWord_word n)
  variant _ variants name a text hnodup ha h :=
    reads_of_lexes (lexes_string h) (readVariant_string hnodup ha)
  object _ wanted member members text s s' htext h := by
    rintro _ _ ⟨rest, hrest, rfl, rfl⟩
    obtain ⟨us, hlex, hread⟩ := htext.opened (h.mono fun m _ _ _ => takes_member) rest
    rw [hlex]
    exact hread
  record_object _ r members text s a hnodup htext h hfinish := by
    rintro _ _ ⟨rest, hrest, rfl, rfl⟩
    have hwalk := h.mono fun m hm s s' => takes_readMember hnodup (htext.wellFormed_value m hm)
    obtain ⟨us, hlex, hread⟩ := htext.opened hwalk rest
    refine read_of_draft ?_ hfinish
    rw [hlex]
    exact hread
  record_list _ r items text s a hlength htext h hfinish := by
    rintro _ _ ⟨rest, hrest, rfl, rfl⟩
    obtain ⟨us, hlex, hread⟩ := htext.opened hlength h rest
    refine read_of_draft ?_ hfinish
    rw [hlex]
    exact hread
  record_finish r ts a us h := by
    obtain ⟨⟨s, ts⟩, -, h⟩ := bind_eq_ok.mp h
    cases hfinish : r.finish s with
    | error name =>
        simp only [hfinish] at h
        cases h
    | ok a' =>
        simp only [hfinish] at h
        cases h
        exact ⟨s, hfinish⟩
  write j text h := by
    have htext : (standard.write j).toList = j.write := String.toList_ofList
    rw [htext]
    exact h.write

end Calque.Json

import Calque.Dictionary.Document
import Calque.Proofs.Records
import Calque.Proofs.Standard
import Calque.Substitution.Document

namespace Calque

open Json

namespace Json

/-- The texts of a record: its members in any order, others of any names among them, or the values
of its fields in a list. -/
inductive Forms : Json → List Char → Prop
  | object {fields : List (String × Json)} {members : List (String × List Char)}
      {text : List Char}
      (horder : ((members.map (·.1)).filter (· ∈ fields.map (·.1))).Perm (fields.map (·.1)))
      (hown : ∀ m ∈ members, ∀ j, (m.1, j) ∈ fields → Writes j m.2)
      (h : ObjectText members text) : Forms (.object fields) text
  | list {fields : List (String × Json)} {items : List (List Char)} {text : List Char}
      (hvalues : List.Forall₂ (fun f item => Writes f.2 item) fields items)
      (h : ListText items text) : Forms (.object fields) text

theorem Forms.wellFormed {j : Json} {text : List Char} (h : Forms j text) : WellFormed text := by
  cases h with
  | object _ _ h => exact h.wellFormed
  | list _ h => exact h.wellFormed

theorem Writes.forms {fields : List (String × Json)} {text : List Char}
    (h : Writes (.object fields) text) (hnodup : (fields.map (·.1)).Nodup) :
    Forms (.object fields) text := by
  obtain ⟨members, rfl, hvalues, h⟩ := h.members
  refine .object ?_ ?_ h
  · have hnames : (members.map fun m => (m.1, m.2.2)).map (·.1) =
        (members.map fun m => (m.1, m.2.1)).map (·.1) := by
      rw [List.map_map, List.map_map]
      rfl
    rw [hnames, List.filter_eq_self.mpr fun name hname => by simpa using hname]
  · intro m hm j hj
    obtain ⟨m, hmember, rfl⟩ := List.mem_map.mp hm
    have hj' : (m.1, m.2.1) ∈ members.map fun m => (m.1, m.2.1) := List.mem_map_of_mem hmember
    cases List.inj_on_of_nodup_map hnodup hj hj' rfl
    exact hvalues m hmember

section Records

variable {ε α σ : Type} (lib : Library ε)

/-- The document of a value is read as that value: as it is printed, and in every other form. -/
def ReadsBack (reader : Reader ε lib.Source α) (j : Json) (a : α) : Prop :=
  lib.decode reader (lib.write j) = .ok a ∧
    ∀ text : String, Forms j text.toList → lib.decode reader text = .ok a

variable {lib} {Before : Nat → lib.Source → List Char → lib.Source → Prop} (laws : lib.Laws Before)
include laws

theorem Record.Fills.readsBack {r : Record ε lib.Source σ α} {fields : List (String × Json)}
    {part : List String → σ} (h : r.Fills (Before 126) fields part) (hopen : r.closed = false)
    {a : α}
    (hfinish : ∀ done, (∀ f ∈ fields, f.1 ∈ done) → r.finish (part done) = .ok a)
    {text : List Char} (hwrites : Writes (.object fields) text) :
    ReadsBack lib (lib.readRecord r) (.object fields) a := by
  have hforms : ∀ text : String, Forms (.object fields) text.toList →
      lib.decode (lib.readRecord r) text = .ok a := by
    intro text hform
    refine laws.decode hform.wellFormed ?_
    cases hform with
    | @object _ members _ horder hown htext =>
        have hwalk := h.walk hown (fun _ _ _ => hopen) (horder.nodup_iff.mpr h.nodup)
          (fun _ _ _ => List.not_mem_nil)
        rw [h.start, List.append_nil] at hwalk
        refine laws.record_object _ r members _ _ a h.nodup_names htext hwalk (hfinish _ ?_)
        intro f hf
        exact List.mem_reverse.mpr (horder.mem_iff.mpr (List.mem_map_of_mem hf))
    | @list _ items _ hvalues htext =>
        have hwalk := Fills.walk_list h.takes hvalues []
        rw [h.start, List.append_nil] at hwalk
        refine laws.record_list _ r items _ _ a ?_ htext hwalk (hfinish _ ?_)
        · rw [← hvalues.length_eq, h.takes.length_eq]
        · exact fun f hf => List.mem_reverse.mpr (List.mem_map_of_mem hf)
  exact ⟨hforms _ ((laws.write _ _ hwrites).forms h.nodup), hforms⟩

end Records

end Json

section Types

variable {ε : Type} {lib : Library ε} {Before : Nat → lib.Source → List Char → lib.Source → Prop}
  (laws : lib.Laws Before)
include laws

namespace WordPair

def part (p : WordPair) (done : List String) : Draft :=
  ⟨given? done "dialect" p.dialect, given? done "host" p.host⟩

theorem fills (p : WordPair) {depth : Nat} :
    (record lib).Fills (Before depth) [("dialect", .string p.dialect), ("host", .string p.host)]
      p.part where
  takes :=
    .cons (takes_of (laws.text _ p.dialect) (fun _ => rfl) fun done => by simp [part, given?])
      (.cons (takes_of (laws.text _ p.host) (fun _ => rfl) fun done => by simp [part, given?]) .nil)
  nodup := by simp
  start := rfl

theorem readsBack (p : WordPair) : ReadsBack lib (reader lib) p.toJson p := by
  refine (fills laws p).readsBack laws rfl (fun done hdone => ?_) (writes_object ?_)
  · simp only [List.forall_mem_cons] at hdone
    simp [record, part, given?, hdone, demand, bind, Except.bind]
  · simp only [List.forall_mem_cons]
    exact ⟨writes_string _, writes_string _, nofun⟩

end WordPair

namespace Counts

def part (structural callable : UInt64) (done : List String) : Draft :=
  ⟨given? done "structural" structural, given? done "callable" callable⟩

theorem fills (m n : UInt64) {depth : Nat} :
    (record lib).Fills (Before depth) [("structural", .ofNat m.toNat), ("callable", .ofNat n.toNat)]
      (part m n) where
  takes :=
    .cons (takes_of (laws.word _ m) (fun _ => rfl) fun done => by simp [part, given?])
      (.cons (takes_of (laws.word _ n) (fun _ => rfl) fun done => by simp [part, given?]) .nil)
  nodup := by simp
  start := rfl

theorem readsBack {c : Counts} (hstructural : c.structural < wordSize)
    (hcallable : c.callable < wordSize) : ReadsBack lib (reader lib) c.toJson c := by
  obtain ⟨m, hm⟩ : ∃ m : UInt64, m.toNat = c.structural :=
    ⟨.ofNat c.structural, UInt64.toNat_ofNat_of_lt' hstructural⟩
  obtain ⟨n, hn⟩ : ∃ n : UInt64, n.toNat = c.callable :=
    ⟨.ofNat c.callable, UInt64.toNat_ofNat_of_lt' hcallable⟩
  have hc : c = ⟨m.toNat, n.toNat⟩ := by rw [hm, hn]
  rw [← hm] at hstructural
  rw [← hn] at hcallable
  rw [hc]
  refine (fills laws m n).readsBack laws rfl (fun done hdone => ?_) (writes_object ?_)
  · simp only [List.forall_mem_cons] at hdone
    simp [record, part, given?, hdone, demand, bind, Except.bind]
  · simp only [List.forall_mem_cons]
    exact ⟨writes_ofNat hstructural, writes_ofNat hcallable, nofun⟩

/-- Counts that have been read fit a word each. -/
theorem lt_of_decode {text : String} {c : Counts} (h : lib.decode (reader lib) text = .ok c) :
    c.structural < wordSize ∧ c.callable < wordSize := by
  obtain ⟨⟨c', rest⟩, hread, h⟩ := bind_eq_ok.mp h
  obtain ⟨-, -, h⟩ := bind_eq_ok.mp h
  cases h
  obtain ⟨s, hfinish⟩ := laws.record_finish (record lib) _ c rest hread
  obtain ⟨m, -, hfinish⟩ := bind_eq_ok.mp hfinish
  obtain ⟨n, -, hfinish⟩ := bind_eq_ok.mp hfinish
  cases hfinish
  exact ⟨m.toNat_lt, n.toNat_lt⟩

end Counts

namespace TemplateScope

theorem reads (scope : TemplateScope) {depth : Nat} (text : List Char)
    (h : Writes scope.toJson text) : Reads (Before depth) (reader lib) text scope := by
  have hmem : (scope.name, scope) ∈ variants := by cases scope <;> decide
  exact laws.variant depth variants scope.name scope text (by decide) hmem h

end TemplateScope

namespace Options

def part (o : Options) (done : List String) : Draft :=
  ⟨given? done "avoid_strings" o.avoidStrings, given? done "avoid_comments" o.avoidComments,
    given? done "template_scope" o.templateScope⟩

theorem fills (o : Options) {depth : Nat} :
    (record lib).Fills (Before depth) [("avoid_strings", .bool o.avoidStrings),
      ("avoid_comments", .bool o.avoidComments), ("template_scope", o.templateScope.toJson)]
      o.part where
  takes :=
    .cons (takes_of (laws.bool _ _) (fun _ => rfl) fun done => by simp [part, given?])
      (.cons (takes_of (laws.bool _ _) (fun _ => rfl) fun done => by simp [part, given?])
        (.cons (takes_of (TemplateScope.reads laws _) (fun _ => rfl) fun done => by
          simp [part, given?]) .nil))
  nodup := by simp
  start := rfl

theorem readsBack (o : Options) : ReadsBack lib (reader lib) o.toJson o := by
  refine (fills laws o).readsBack laws rfl (fun done hdone => ?_) (writes_object ?_)
  · simp only [List.forall_mem_cons] at hdone
    simp [record, part, given?, hdone, Draft.finish]
  · simp only [List.forall_mem_cons]
    exact ⟨writes_bool _, writes_bool _, writes_string _, nofun⟩

end Options

/-- Pairs, counts and options are read back from every form of their documents, and so is whatever
is read from any document. -/
theorem records_read_back :
    (∀ p : WordPair, ReadsBack lib (WordPair.reader lib) p.toJson p) ∧
    (∀ c : Counts, c.structural < wordSize → c.callable < wordSize →
      ReadsBack lib (Counts.reader lib) c.toJson c) ∧
    (∀ o : Options, ReadsBack lib (Options.reader lib) o.toJson o) ∧
    (∀ text p, lib.decode (WordPair.reader lib) text = .ok p →
      lib.decode (WordPair.reader lib) (lib.write p.toJson) = .ok p) ∧
    (∀ text c, lib.decode (Counts.reader lib) text = .ok c →
      lib.decode (Counts.reader lib) (lib.write c.toJson) = .ok c) ∧
    ∀ text o, lib.decode (Options.reader lib) text = .ok o →
      lib.decode (Options.reader lib) (lib.write o.toJson) = .ok o := by
  refine ⟨WordPair.readsBack laws, fun c => Counts.readsBack laws, Options.readsBack laws, ?_, ?_,
    ?_⟩
  · exact fun text p _ => (WordPair.readsBack laws p).1
  · intro text c h
    obtain ⟨hstructural, hcallable⟩ := Counts.lt_of_decode laws h
    exact (Counts.readsBack laws hstructural hcallable).1
  · exact fun text o _ => (Options.readsBack laws o).1

end Types

def unreadable : List Char :=
  ['[', '1', 'e', '4', '0', '0', ',', ' ', '\x7b', '"', '\\', 'u', 'd', '8', '0', '0', '"', ':',
    'n', 'u', 'l', 'l', '\x7d', ']']

theorem wellFormed_unreadable : WellFormed unreadable := by
  have hnumeral : Numeral.Written ⟨false, ['1'], [], some (false, ['4', '0', '0'])⟩
      ([] ++ (['1'] ++ ([] ++ 'e' :: ([] ++ ['4', '0', '0'])))) :=
    .mk (by decide) ⟨⟨nofun, List.all_eq_true.mp rfl⟩, nofun⟩ .none
      (.some (.inl rfl) (by decide) ⟨nofun, List.all_eq_true.mp rfl⟩)
  have hname : Literal ['\\', 'u', 'd', '8', '0', '0'] := .unit rfl .nil
  have hobject : WellFormed (' ' :: objectText []
      [⟨[], ['\\', 'u', 'd', '8', '0', '0'], [], "null".toList⟩]) := by
    refine .object blank_nil ?_ ?_ ?_
      ⟨[' '], [], blank_space, blank_nil, (List.append_nil _).symm⟩ <;>
        rw [List.forall_mem_singleton]
    · exact ⟨blank_nil, blank_nil⟩
    · exact hname
    · exact .null (padded_self _)
  have hlist : WellFormed (listText [] [_, _]) :=
    .array blank_nil (List.forall_mem_cons.mpr ⟨.number hnumeral (padded_self _),
      List.forall_mem_singleton.mpr hobject⟩) (padded_self _)
  exact hlist

def reordered : List (String × Member) :=
  [("x", ⟨[], "x".toList.flatMap writeChar, [], unreadable⟩),
    ("callable", ⟨[], "callable".toList.flatMap writeChar, [], ['9']⟩),
    ("structural", ⟨[], ['\\', 'u', '0', '0', '7', '3'] ++ "tructural".toList.flatMap writeChar, [],
      [' ', '3']⟩)]

theorem forms_reordered :
    Forms (Counts.toJson ⟨3, 9⟩) (objectText [] (reordered.map (·.2))) := by
  have hcallable : Writes (.ofNat 9) ['9'] := .natural (by decide) (padded_self _)
  have hstructural : Writes (.ofNat 3) [' ', '3'] :=
    .natural (by decide) ⟨[' '], [], blank_space, blank_nil, by decide⟩
  have hname : Says (['\\', 'u', '0', '0', '7', '3'] ++ "tructural".toList.flatMap writeChar)
      ('s' :: "tructural".toList) := .cons (.unit rfl) (says_writeChar _)
  have htext : ObjectText (reordered.map fun m => (m.1, m.2.value))
      (objectText [] (reordered.map (·.2))) := by
    refine .mk blank_nil ?_ ?_ ?_ (padded_self _) <;> simp only [reordered, List.forall_mem_cons]
    · exact ⟨⟨blank_nil, blank_nil⟩, ⟨blank_nil, blank_nil⟩, ⟨blank_nil, blank_nil⟩, nofun⟩
    · exact ⟨says_writeChar _, says_writeChar _, hname, nofun⟩
    · exact ⟨wellFormed_unreadable, hcallable.wellFormed, hstructural.wellFormed, nofun⟩
  refine .object (by decide) ?_ htext
  simp only [reordered, List.map_cons, List.forall_mem_cons]
  refine ⟨fun j hj => ?_, fun j hj => ?_, fun j hj => ?_, nofun⟩
  · simp at hj
  · obtain rfl : j = .ofNat 9 := by simpa using hj
    exact hcallable
  · obtain rfl : j = .ofNat 3 := by simpa using hj
    exact hstructural

theorem records_read_back_reordered :
    (standard.Laws fun _ => Precedes) ∧ (3 < wordSize ∧ 9 < wordSize) ∧
    standard.decode (Counts.reader standard) "\x7b\"structural\":3,\"callable\":9\x7d" =
      .ok ⟨3, 9⟩ ∧
    standard.decode (Counts.reader standard) ("\x7b\"x\":[1e400, \x7b\"\\ud800\":null\x7d]," ++
        "\"callable\":9,\"\\u0073tructural\": 3\x7d") = .ok ⟨3, 9⟩ := by
  have hstructural : 3 < wordSize := by decide
  have hcallable : 9 < wordSize := by decide
  obtain ⟨hcompact, hforms⟩ :=
    (records_read_back standard_laws).2.1 ⟨3, 9⟩ hstructural hcallable
  refine ⟨standard_laws, ⟨hstructural, hcallable⟩, hcompact, hforms _ ?_⟩
  have htext : ("\x7b\"x\":[1e400, \x7b\"\\ud800\":null\x7d]," ++
      "\"callable\":9,\"\\u0073tructural\": 3\x7d").toList =
        objectText [] (reordered.map (·.2)) := by decide
  rw [htext]
  exact forms_reordered

end Calque

import Calque.Dictionary.Document
import Calque.Proofs.Records
import Calque.Proofs.Standard

namespace Calque.Dictionary

open Json

def sectionJson (ps : List WordPair) : Json := .object (ps.map fun p => (p.dialect, .string p.host))

def fileJson (lists : WordClass → List WordPair) (order : List WordClass) : Json :=
  .object (order.map fun cls => (cls.name, sectionJson (lists cls)))

theorem writes_section (ps : List WordPair) : Writes (sectionJson ps) (sectionJson ps).write := by
  apply writes_object
  simp only [List.forall_mem_map]
  exact fun p _ => writes_string p.host

theorem writes_file (lists : WordClass → List WordPair) (order : List WordClass) :
    Writes (fileJson lists order) (fileJson lists order).write := by
  apply writes_object
  simp only [List.forall_mem_map]
  exact fun cls _ => writes_section (lists cls)

theorem name_injective : Function.Injective WordClass.name := by
  intro cls cls' hname
  cases cls <;> cases cls' <;> first | rfl | simp [WordClass.name] at hname

def sections (lists : WordClass → List WordPair) : List (String × Json) :=
  [("structural", sectionJson (lists .structural)), ("callable", sectionJson (lists .callable))]

theorem mem_sections {lists : WordClass → List WordPair} {cls : WordClass} {j : Json} :
    (cls.name, j) ∈ sections lists ↔ j = sectionJson (lists cls) := by
  cases cls <;> simp [sections, WordClass.name]

/-- The members of a file are the sections of its classes. -/
theorem file_members {lists : WordClass → List WordPair} {order : List WordClass}
    {text : List Char} (h : Writes (fileJson lists order) text) :
    ∃ members, ObjectText members text ∧ members.map (·.1) = order.map WordClass.name ∧
      ∀ m ∈ members, ∀ j, (m.1, j) ∈ sections lists → Writes j m.2 := by
  obtain ⟨members, hmembers, hvalues, htext⟩ := h.members
  refine ⟨_, htext, ?_, ?_⟩
  · have hfirst := congrArg (List.map (·.1)) hmembers
    simpa [Function.comp_def] using hfirst
  · simp only [List.forall_mem_map]
    intro m hm j hj
    have hmem : (m.1, m.2.1) ∈ order.map fun cls => (cls.name, sectionJson (lists cls)) := by
      rw [← hmembers]
      exact List.mem_map_of_mem hm
    obtain ⟨cls, -, hcls⟩ := List.mem_map.mp hmem
    obtain ⟨hname, hjson⟩ := Prod.mk.inj hcls
    rw [← hname, mem_sections] at hj
    rw [hj, hjson]
    exact hvalues m hm

def part (lists : WordClass → List WordPair) (done : List String) : Draft :=
  ⟨given? done "structural" (lists .structural), given? done "callable" (lists .callable)⟩

section Reading

variable {ε : Type} {lib : Library ε} {Before : Nat → lib.Source → List Char → lib.Source → Prop}
  {depth : Nat} (laws : lib.Laws Before)
include laws

theorem readPair_reads {host : String} {text : List Char}
    (h : Writes (.string host) text) (dialect : String) (done : List WordPair) :
    Reads (Before depth) (readPair lib dialect done) text (⟨dialect, host⟩ :: done) := by
  intro src rest hsrc
  rw [readPair, laws.text _ host text h src rest hsrc]
  rfl

/-- The pairs of a section are kept in their order, repeated words included. -/
theorem walk_pairs (depth : Nat) {ps : List WordPair}
    {members : List (String × Json × List Char)}
    (hmembers : (members.map fun m => (m.1, m.2.1)) = ps.map fun p => (p.dialect, .string p.host))
    (hvalues : ∀ m ∈ members, Writes m.2.1 m.2.2) (done : List WordPair) :
    Walk (fun m s => Reads (Before depth) (readPair lib m.1 s) m.2)
      (members.map fun m => (m.1, m.2.2)) done (ps.reverse ++ done) := by
  induction ps generalizing members done with
  | nil =>
      obtain rfl := List.map_eq_nil_iff.mp hmembers
      exact .nil done
  | cons p ps ih =>
      cases members with
      | nil => cases hmembers
      | cons m members =>
          obtain ⟨hvalue, hvalues'⟩ := List.forall_mem_cons.mp hvalues
          obtain ⟨dialect, host, text⟩ := m
          rw [List.map_cons, List.map_cons] at hmembers
          obtain ⟨hm, hrest⟩ := List.cons.inj hmembers
          obtain ⟨rfl, rfl⟩ := Prod.mk.inj hm
          rw [List.map_cons, List.reverse_cons, List.append_assoc]
          exact .cons (readPair_reads laws hvalue p.dialect done) (ih hrest hvalues' _)

theorem section_reads (ps : List WordPair) (text : List Char) (h : Writes (sectionJson ps) text) :
    Reads (Before (depth + 1)) (sectionReader lib) text ps := by
  obtain ⟨members, hmembers, hvalues, htext⟩ := h.members
  have hwalk := walk_pairs laws depth hmembers hvalues []
  intro src rest hsrc
  rw [sectionReader]
  simp only [bind, Except.bind, laws.object _ _ (readPair lib) _ _ _ _ htext hwalk src rest hsrc,
    List.append_nil, List.reverse_reverse]

theorem file_fills (lists : WordClass → List WordPair) :
    (fileRecord lib).Fills (Before (depth + 1)) (sections lists) (part lists) where
  takes :=
    .cons (takes_of (section_reads laws _) (fun _ => rfl) fun done => by simp [part, given?])
      (.cons (takes_of (section_reads laws _) (fun _ => rfl) fun done => by simp [part, given?])
        .nil)
  nodup := by simp [sections]
  start := rfl

variable {lists : WordClass → List WordPair} {order : List WordClass} (hnodup : order.Nodup)
  (hleft : ∀ cls, cls ∉ order → lists cls = [])
include hnodup hleft

theorem file_reads {text : List Char} (h : Writes (fileJson lists order) text) :
    Reads (Before (depth + 2)) (lib.readRecord (fileRecord lib)) text
      (lists .structural, lists .callable) := by
  obtain ⟨members, htext, hnames, hown⟩ := file_members h
  have hfills : (fileRecord lib).Fills (Before (depth + 1)) (sections lists) (part lists) :=
    file_fills laws lists
  have hknown : ∀ name ∈ members.map (·.1), name ∈ (sections lists).map (·.1) := by
    intro name hname
    rw [hnames] at hname
    obtain ⟨cls, -, rfl⟩ := List.mem_map.mp hname
    exact List.mem_map_of_mem (mem_sections.mpr rfl)
  have hall : (members.map (·.1)).filter (· ∈ (sections lists).map (·.1)) =
      order.map WordClass.name := by
    rw [← hnames, List.filter_eq_self]
    simpa only [decide_eq_true_eq] using hknown
  have hothers : ∀ m ∈ members, m.1 ∉ (sections lists).map (·.1) →
      (fileRecord lib).closed = false :=
    fun m hm hother => absurd (hknown _ (List.mem_map_of_mem hm)) hother
  have hwalk := hfills.walk hown hothers (hall ▸ hnodup.map name_injective)
    (fun _ _ _ => List.not_mem_nil)
  rw [hfills.start, List.append_nil, hall] at hwalk
  refine laws.record_object _ _ _ _ _ _ hfills.nodup_names htext hwalk ?_
  have hlist (cls : WordClass) :
      (given? (order.map WordClass.name).reverse cls.name (lists cls)).getD [] = lists cls := by
    by_cases hcls : cls ∈ order
    · have hdone : cls.name ∈ (order.map WordClass.name).reverse :=
        List.mem_reverse.mpr (List.mem_map_of_mem hcls)
      rw [given?, if_pos hdone]
      rfl
    · rw [hleft cls hcls, given?]
      split <;> rfl
  exact congrArg Except.ok (Prod.ext (hlist .structural) (hlist .callable))

theorem ofDocument_writes {text : String} (h : Writes (fileJson lists order) text.toList) :
    ofDocument lib text = (ofLists (lists .structural) (lists .callable)).mapError .words := by
  rw [ofDocument, laws.decode h.wellFormed (file_reads laws hnodup hleft h)]
  simp only
  cases ofLists (lists .structural) (lists .callable) <;> rfl

/-- A file says what its lists say: it holds the dictionary that they make, or has the fault that is
found in them. -/
theorem ofDocument_lists :
    ofDocument lib (lib.write (fileJson lists order)) =
        (ofLists (lists .structural) (lists .callable)).mapError .words ∧
      ∀ text : String, Writes (fileJson lists order) text.toList →
        ofDocument lib text = (ofLists (lists .structural) (lists .callable)).mapError .words :=
  ⟨ofDocument_writes laws hnodup hleft (laws.write _ _ (writes_file lists order)),
    fun _ h => ofDocument_writes laws hnodup hleft h⟩

end Reading

def flawed : WordClass → List WordPair
  | .structural => [⟨"\"", "if"⟩]
  | .callable => [⟨"", "sum"⟩]

def spotless : WordClass → List WordPair
  | .structural => [⟨"se", "if"⟩]
  | .callable => [⟨"soma", "sum"⟩]

def swapped : List (WordClass × Member) :=
  [(.callable, ⟨[], "callable".toList.flatMap writeChar, [' '],
      (sectionJson (spotless .callable)).write⟩),
    (.structural, ⟨[' '], ['\\', 'u', '0', '0', '7', '3'] ++ "tructural".toList.flatMap writeChar,
      [], (sectionJson (spotless .structural)).write⟩)]

theorem writes_swapped :
    Writes (fileJson spotless [.callable, .structural]) (objectText [] (swapped.map (·.2))) := by
  have hname : Says (['\\', 'u', '0', '0', '7', '3'] ++ "tructural".toList.flatMap writeChar)
      ('s' :: "tructural".toList) := .cons (.unit rfl) (says_writeChar _)
  have hwrites : Writes (.object (swapped.map fun m => (m.1.name, sectionJson (spotless m.1))))
      (objectText [] (swapped.map (·.2))) := by
    refine writes_object_map blank_nil ?_ ?_ ?_ (padded_self _) <;>
      simp only [swapped, List.forall_mem_cons]
    · exact ⟨⟨blank_nil, blank_space⟩, ⟨blank_space, blank_nil⟩, nofun⟩
    · exact ⟨says_writeChar _, hname, nofun⟩
    · exact ⟨writes_section _, writes_section _, nofun⟩
  exact hwrites

/-- The fault of the structural word is named, although the file begins with the other section; and
a file without a fault holds the words of its lists. -/
theorem ofDocument_lists_swapped :
    (standard.Laws fun _ => Precedes) ∧ [WordClass.callable, .structural].Nodup ∧
    (∀ cls, cls ∉ [WordClass.callable, .structural] → flawed cls = []) ∧
    ofDocument standard
        "\x7b\"callable\":\x7b\"\":\"sum\"\x7d,\"structural\":\x7b\"\\\"\":\"if\"\x7d\x7d" =
      .error (.words (.notAWord "\"")) ∧
    ∃ d, ofDocument standard ("\x7b\"callable\" :\x7b\"soma\":\"sum\"\x7d," ++
        " \"\\u0073tructural\":\x7b\"se\":\"if\"\x7d\x7d") = .ok d ∧
      d.entries = [⟨.structural, ⟨"se", "if"⟩⟩, ⟨.callable, ⟨"soma", "sum"⟩⟩] := by
  have hnodup : [WordClass.callable, .structural].Nodup := by decide
  have hleft (lists : WordClass → List WordPair) :
      ∀ cls, cls ∉ [WordClass.callable, .structural] → lists cls = [] := by
    intro cls hcls
    cases cls <;> simp at hcls
  have hfault : firstFault? [] (flawed .structural ++ flawed .callable) =
      some (.notAWord "\"") := by decide
  have hsound : Sound (spotless .structural ++ spotless .callable) := sound_iff.mp (by decide)
  have htext : standard.write (fileJson flawed [.callable, .structural]) =
      "\x7b\"callable\":\x7b\"\":\"sum\"\x7d,\"structural\":\x7b\"\\\"\":\"if\"\x7d\x7d" := by
    decide
  have hspelt : ("\x7b\"callable\" :\x7b\"soma\":\"sum\"\x7d," ++
      " \"\\u0073tructural\":\x7b\"se\":\"if\"\x7d\x7d").toList =
        objectText [] (swapped.map (·.2)) := by decide
  have hrefused := (ofDocument_lists standard_laws hnodup (hleft flawed)).1
  have haccepted := (ofDocument_lists standard_laws hnodup (hleft spotless)).2 _
    (hspelt ▸ writes_swapped)
  rw [htext, ofLists_eq_error_iff.mpr hfault] at hrefused
  rw [ofLists_eq_ok hsound] at haccepted
  exact ⟨standard_laws, hnodup, hleft flawed, hrefused, _, haccepted, rfl⟩

end Calque.Dictionary

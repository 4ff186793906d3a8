import Calque.Proofs.Registration

namespace Calque.Dictionary

instance (w : String) : Decidable (∃ c ∈ w.toList, isWordChar c = false) :=
  List.decidableBEx (isWordChar · = false) w.toList

/-- The flaws of a pair, in the order in which they are looked for. -/
inductive Flaw
  | dialectEmpty
  | dialectNotAWord
  | hostEmpty
  | hostNotAWord
  | dialectTaken
  | hostTaken

namespace Flaw

def all : List Flaw :=
  [dialectEmpty, dialectNotAWord, hostEmpty, hostNotAWord, dialectTaken, hostTaken]

theorem mem_all (flaw : Flaw) : flaw ∈ all := by cases flaw <;> simp [all]

def In (earlier : List WordPair) (p : WordPair) : Flaw → Prop
  | dialectEmpty => p.dialect = ""
  | dialectNotAWord => ∃ c ∈ p.dialect.toList, isWordChar c = false
  | hostEmpty => p.host = ""
  | hostNotAWord => ∃ c ∈ p.host.toList, isWordChar c = false
  | dialectTaken => p.dialect ∈ earlier.map (·.dialect)
  | hostTaken => p.host ∈ earlier.map (·.host)

def fault (p : WordPair) : Flaw → Fault
  | dialectEmpty | hostEmpty => .emptyWord
  | dialectNotAWord => .notAWord p.dialect
  | hostNotAWord => .notAWord p.host
  | dialectTaken => .duplicateDialect p.dialect
  | hostTaken => .duplicateHost p.host

instance (earlier : List WordPair) (p : WordPair) : DecidablePred (In earlier p)
  | dialectEmpty => inferInstanceAs (Decidable (p.dialect = ""))
  | dialectNotAWord => inferInstanceAs (Decidable (∃ c ∈ p.dialect.toList, isWordChar c = false))
  | hostEmpty => inferInstanceAs (Decidable (p.host = ""))
  | hostNotAWord => inferInstanceAs (Decidable (∃ c ∈ p.host.toList, isWordChar c = false))
  | dialectTaken => inferInstanceAs (Decidable (p.dialect ∈ earlier.map (·.dialect)))
  | hostTaken => inferInstanceAs (Decidable (p.host ∈ earlier.map (·.host)))

end Flaw

def PairFault (earlier : List WordPair) (p : WordPair) (fault : Fault) : Prop :=
  ∃ before flaw after, Flaw.all = before ++ flaw :: after ∧ flaw.In earlier p ∧
    (∀ other ∈ before, ¬other.In earlier p) ∧ flaw.fault p = fault

/-- `fault` is that of the first pair with a flaw. -/
def FirstFault (ps : List WordPair) (fault : Fault) : Prop :=
  ∃ earlier p later, ps = earlier ++ p :: later ∧ PairFault earlier p fault ∧
    ∀ before q after, earlier = before ++ q :: after → ∀ flaw : Flaw, ¬flaw.In before q

theorem wordFault?_eq (w : String) : wordFault? w =
    ((if w = "" then some .emptyWord else none) <|>
      if ∃ c ∈ w.toList, isWordChar c = false then some (.notAWord w) else none) := by
  rw [wordFault?]
  by_cases hempty : w = ""
  · rw [if_pos hempty, if_pos hempty]
    rfl
  · have hword : isWord w.toList = true ↔ ¬∃ c ∈ w.toList, isWordChar c = false := by
      rw [isWord_iff]
      simp [hempty]
    rw [if_neg hempty, if_neg hempty]
    by_cases hchars : ∃ c ∈ w.toList, isWordChar c = false
    · rw [if_neg (mt hword.mp (not_not_intro hchars)), if_pos hchars]
      rfl
    · rw [if_pos (hword.mpr hchars), if_neg hchars]
      rfl

theorem findSome?_orElse {α β : Type} (f : α → Option β) (x : α) (xs : List α) :
    (x :: xs).findSome? f = (f x <|> xs.findSome? f) := by
  rw [List.findSome?_cons]
  cases f x <;> rfl

theorem pairFault?_eq (earlier : List WordPair) (p : WordPair) : pairFault? earlier p =
    Flaw.all.findSome? fun flaw => if flaw.In earlier p then some (flaw.fault p) else none := by
  rw [pairFault?, wordFault?_eq, wordFault?_eq]
  simp only [Flaw.all, findSome?_orElse, List.findSome?_nil, Option.orElse_eq_orElse,
    Option.orElse_eq_or, Option.or_assoc, Option.or_none]
  rfl

theorem pairFault?_eq_some_iff {earlier : List WordPair} {p : WordPair} {fault : Fault} :
    pairFault? earlier p = some fault ↔ PairFault earlier p fault := by
  rw [pairFault?_eq, List.findSome?_eq_some_iff, PairFault]
  constructor
  · rintro ⟨before, flaw, after, hall, hflaw, hbefore⟩
    split at hflaw
    · rename_i hin
      have hothers (other : Flaw) (hother : other ∈ before) : ¬other.In earlier p := by
        simpa using hbefore other hother
      exact ⟨before, flaw, after, hall, hin, hothers, Option.some.inj hflaw⟩
    · cases hflaw
  · rintro ⟨before, flaw, after, hall, hin, hbefore, rfl⟩
    exact ⟨before, flaw, after, hall, if_pos hin, fun other hother => if_neg (hbefore other hother)⟩

theorem pairFault?_eq_none_flaw {earlier : List WordPair} {p : WordPair} :
    pairFault? earlier p = none ↔ ∀ flaw : Flaw, ¬flaw.In earlier p := by
  rw [pairFault?_eq, List.findSome?_eq_none_iff]
  constructor
  · intro h flaw
    simpa using h flaw flaw.mem_all
  · intro h flaw _
    exact if_neg (h flaw)

section Cuts

variable {α : Type} {x : α} {xs : List α}

theorem exists_cut_cons {P : List α → α → List α → Prop} :
    (∃ pre y post, x :: xs = pre ++ y :: post ∧ P pre y post) ↔
      P [] x xs ∨ ∃ pre y post, xs = pre ++ y :: post ∧ P (x :: pre) y post := by
  constructor
  · rintro ⟨pre, y, post, hcut, hP⟩
    rcases List.cons_eq_append_iff.mp hcut with ⟨rfl, hy⟩ | ⟨pre, rfl, rfl⟩
    · cases hy
      exact .inl hP
    · exact .inr ⟨pre, y, post, rfl, hP⟩
  · rintro (hP | ⟨pre, y, post, rfl, hP⟩)
    · exact ⟨[], x, xs, rfl, hP⟩
    · exact ⟨x :: pre, y, post, rfl, hP⟩

theorem forall_cut_cons {P : List α → α → Prop} :
    (∀ pre y post, x :: xs = pre ++ y :: post → P pre y) ↔
      P [] x ∧ ∀ pre y post, xs = pre ++ y :: post → P (x :: pre) y := by
  constructor
  · intro h
    exact ⟨h [] x xs rfl, fun pre y post hcut => h (x :: pre) y post (congrArg (x :: ·) hcut)⟩
  · rintro ⟨hhead, htail⟩ pre y post hcut
    rcases List.cons_eq_append_iff.mp hcut with ⟨rfl, hy⟩ | ⟨pre, rfl, hrest⟩
    · cases hy
      exact hhead
    · exact htail pre y post hrest

end Cuts

/-- The fault of a list is that of the first pair that has one. -/
theorem firstFault?_eq_some {earlier ps : List WordPair} {fault : Fault} :
    firstFault? earlier ps = some fault ↔ ∃ before p after, ps = before ++ p :: after ∧
      pairFault? (before.reverse ++ earlier) p = some fault ∧
      ∀ pre q post, before = pre ++ q :: post → pairFault? (pre.reverse ++ earlier) q = none := by
  induction ps generalizing earlier with
  | nil => simp [firstFault?]
  | cons p ps ih =>
      rw [firstFault?, exists_cut_cons]
      simp only [forall_cut_cons, List.reverse_nil, List.nil_append]
      cases hp : pairFault? earlier p with
      | some f => simp
      | none => simp [@ih (p :: earlier)]

theorem firstFault?_eq_some_iff {ps : List WordPair} {fault : Fault} :
    firstFault? [] ps = some fault ↔ FirstFault ps fault := by
  simp only [firstFault?_eq_some, FirstFault, List.append_nil, pairFault?_reverse,
    pairFault?_eq_some_iff, pairFault?_eq_none_flaw]

theorem sound_words {ps : List WordPair} : Sound ps ↔
    (∀ p ∈ ps, ∀ w ∈ [p.dialect, p.host], w ≠ "" ∧ ∀ c ∈ w.toList, isWordChar c = true) ∧
      ps.Pairwise (·.dialect ≠ ·.dialect) ∧ ps.Pairwise (·.host ≠ ·.host) := by
  have hword (w : String) :
      isWord w.toList = true ↔ w ≠ "" ∧ ∀ c ∈ w.toList, isWordChar c = true := by
    rw [isWord_iff]
    simp
  constructor
  · intro h
    refine ⟨fun p hp w hw => ?_, List.pairwise_map.mp h.dialect_nodup,
      List.pairwise_map.mp h.host_nodup⟩
    rcases List.mem_pair.mp hw with rfl | rfl
    · exact (hword _).mp (h.dialect_isWord p hp)
    · exact (hword _).mp (h.host_isWord p hp)
  · rintro ⟨hwords, hdialect, hhost⟩
    exact ⟨fun p hp => (hword _).mpr (hwords p hp p.dialect (by simp)),
      fun p hp => (hword _).mpr (hwords p hp p.host (by simp)),
      List.pairwise_map.mpr hdialect, List.pairwise_map.mpr hhost⟩

theorem ofLists_lists {structural callable : List WordPair} {d : Dictionary}
    (h : ofLists structural callable = .ok d) :
    d.structural = structural ∧ d.callable = callable := by
  unfold ofLists at h
  split at h
  · cases h
    exact ⟨rfl, rfl⟩
  · cases h

/-- Filling the tables accepts the same lists, and stops at the same fault. -/
theorem registry_agrees (structural callable : List WordPair) :
    (Bounded.Registry.ofLists structural callable).map (fun r => (r.structural, r.callable)) =
      (ofLists structural callable).map fun d => (d.structural, d.callable) := by
  rcases Bounded.ofLists_cases structural callable with
    ⟨fault, hfault, herror⟩ | ⟨hnone, slots, hok, -⟩
  · rw [herror, ofLists_eq_error_iff.mpr hfault]
    rfl
  · rw [hok, ofLists_eq_ok (sound_iff.mp hnone)]
    rfl

/-- Lists make a dictionary if and only if they are sound, and it keeps them; otherwise the fault is
that of the first flaw of the first pair with one. Filling the tables comes to the same. -/
theorem ofLists_validates (structural callable : List WordPair) :
    ((∃ d, ofLists structural callable = .ok d) ↔
      (∀ p ∈ structural ++ callable, ∀ w ∈ [p.dialect, p.host],
        w ≠ "" ∧ ∀ c ∈ w.toList, isWordChar c = true) ∧
      (structural ++ callable).Pairwise (·.dialect ≠ ·.dialect) ∧
      (structural ++ callable).Pairwise (·.host ≠ ·.host)) ∧
    (∀ d, ofLists structural callable = .ok d →
      d.structural = structural ∧ d.callable = callable ∧
      d.entries = structural.map (⟨.structural, ·⟩) ++ callable.map (⟨.callable, ·⟩)) ∧
    (∀ fault, ofLists structural callable = .error fault ↔
      FirstFault (structural ++ callable) fault) ∧
    (Bounded.Registry.ofLists structural callable).map (fun r => (r.structural, r.callable)) =
      (ofLists structural callable).map fun d => (d.structural, d.callable) := by
  refine ⟨?_, fun d hd => ?_, fun fault => ?_, registry_agrees structural callable⟩
  · rw [← sound_words]
    constructor
    · rintro ⟨d, hd⟩
      obtain ⟨rfl, rfl⟩ := ofLists_lists hd
      exact d.sound
    · exact fun h => ⟨_, ofLists_eq_ok h⟩
  · obtain ⟨rfl, rfl⟩ := ofLists_lists hd
    exact ⟨rfl, rfl, rfl⟩
  · rw [ofLists_eq_error_iff, firstFault?_eq_some_iff]

/-- Two sound lists, and two of which a pair has two flaws and a later one has another. -/
theorem ofLists_validates_taken :
    (∃ d, ofLists [⟨"se", "if"⟩] [⟨"soma", "sum"⟩] = .ok d ∧
      d.structural = [⟨"se", "if"⟩] ∧ d.callable = [⟨"soma", "sum"⟩] ∧
      d.entries = [⟨.structural, ⟨"se", "if"⟩⟩, ⟨.callable, ⟨"soma", "sum"⟩⟩]) ∧
    ofLists [⟨"se", "if"⟩] [⟨"se", "s m"⟩, ⟨"", "if"⟩] = .error (.notAWord "s m") ∧
    FirstFault ([⟨"se", "if"⟩] ++ [⟨"se", "s m"⟩, ⟨"", "if"⟩]) (.notAWord "s m") := by
  obtain ⟨haccepts, hkeeps, -, -⟩ := ofLists_validates [⟨"se", "if"⟩] [⟨"soma", "sum"⟩]
  obtain ⟨-, -, hrefuses, -⟩ := ofLists_validates [⟨"se", "if"⟩] [⟨"se", "s m"⟩, ⟨"", "if"⟩]
  have hsound : Sound ([⟨"se", "if"⟩] ++ [⟨"soma", "sum"⟩]) := sound_iff.mp (by decide)
  obtain ⟨d, hd⟩ := haccepts.mpr (sound_words.mp hsound)
  have herror : ofLists [⟨"se", "if"⟩] [⟨"se", "s m"⟩, ⟨"", "if"⟩] = .error (.notAWord "s m") :=
    ofLists_eq_error_iff.mpr (by decide)
  exact ⟨⟨d, hd, hkeeps d hd⟩, herror, (hrefuses _).mp herror⟩

end Calque.Dictionary

import Calque.Lists
import Calque.Proofs.Visits
import Calque.Proofs.Passes
import Calque.Substitution.Event

namespace Calque

open Lexical

section Sums

variable {α : Type}

theorem foldl_add (cls : α → WordClass) (f : α → Nat) (as : List α) (n : Counts) :
    as.foldl (fun n a => n.add (cls a) (f a)) n =
      ⟨n.structural + ((as.filter (cls · = .structural)).map f).sum,
        n.callable + ((as.filter (cls · = .callable)).map f).sum⟩ := by
  induction as generalizing n with
  | nil => rfl
  | cons a as ih =>
      rw [List.foldl_cons, ih]
      cases ha : cls a <;> simp [ha, Counts.add, Nat.add_assoc]

theorem total_foldl_add (cls : α → WordClass) (f : α → Nat) (as : List α) (n : Counts) :
    (as.foldl (fun n a => n.add (cls a) (f a)) n).total = n.total + (as.map f).sum := by
  induction as generalizing n with
  | nil => rfl
  | cons a as ih =>
      rw [List.foldl_cons, ih, Counts.total_add, List.map_cons, List.sum_cons, Nat.add_assoc]

end Sums

theorem met_substitute (e : Entry) (o : Options) (text : List Char) :
    (e.substitute o text).met = e.count text := by
  rw [Entry.count, candidates, length_foundOffsets]
  exact met_settle ..

/-- What is counted of the blocks and the characters after them is the same before and after a
replacement that does not change it. -/
theorem countP_replace {p : List Char → Option Char → Bool} {f : Visit → List Char} {rs : Runs}
    {s : State} (h : ∀ v ∈ rs.visits s, p (f v) v.after = p v.block v.after) (t : State) :
    ((rs.replace f s).visits t).countP (fun v => p v.block v.after) =
      (rs.visits s).countP fun v => p v.block v.after := by
  induction rs generalizing s t with
  | last w =>
      have hw := h ⟨s, w, none⟩ (List.mem_cons_self ..)
      simp only [Runs.replace, Runs.visits, List.countP_cons, hw]
  | next w c rest ih =>
      have hw := h ⟨s, w, some c⟩ (List.mem_cons_self ..)
      have hrest := ih fun v hv => h v (List.mem_cons_of_mem _ hv)
      simp only [Runs.replace, Runs.visits, List.countP_cons, hw, hrest]

section Entries

variable {e e' : Entry} (he : isWord e.pair.dialect.toList = true)
include he

theorem count_visits (text : List Char) : e.count text =
    ((Runs.ofText text).visits .start).countP (·.holds e.wordClass e.pair.dialect.toList) := by
  rw [Entry.count, candidates_visits e.wordClass he, List.length_map, List.countP_eq_length_filter]

/-- A pass keeps the occurrences of a word that it neither reads nor makes. -/
theorem count_substitute (he' : isWord e'.pair.dialect.toList = true)
    (hhost : isWord e'.pair.host.toList = true) (hread : e.pair.dialect ≠ e'.pair.dialect)
    (hmade : e.pair.dialect ≠ e'.pair.host) (o : Options) (text : List Char) :
    e.count (e'.substitute o text).text = e.count text := by
  have hwords := swap_keepsWords he' hhost
  have hstays (w : List Char) : swap e'.pair.dialect.toList e'.pair.host.toList w =
      e.pair.dialect.toList ↔ w = e.pair.dialect.toList := by
    unfold swap
    split
    · subst w
      rw [String.toList_inj, String.toList_inj]
      exact ⟨fun h => absurd h.symm hmade, fun h => absurd h.symm hread⟩
    · rfl
  rw [count_visits he, count_visits he, Entry.substitute, text_substitute o e'.wordClass he',
    ofText_phase hwords]
  refine countP_replace
    (p := fun w after => decide (w = e.pair.dialect.toList) && e.wordClass.fits none after)
    (fun v _ => ?_) .start
  rw [rename]
  split
  · simp only [hstays]
  · rfl

end Entries

theorem holds_block {cls : WordClass} {word : List Char} {v : Visit}
    (h : v.holds cls word = true) : v.block = word := by
  simpa using (Bool.and_eq_true_iff.mp h).1

/-- No pass reads or makes the words of the passes after it. -/
def Undisturbed (es : List Entry) : Prop :=
  es.Pairwise fun e e' => e'.pair.dialect ≠ e.pair.dialect ∧ e'.pair.dialect ≠ e.pair.host

theorem met_passes {es : List Entry} (hwords : AllWords (es.map (·.pair))) (h : Undisturbed es)
    (o : Options) (text : List Char) :
    (passes o es text).map (fun s => (s.1, s.2.met)) = es.map fun e => (e, e.count text) := by
  induction es generalizing text with
  | nil => rfl
  | cons e es ih =>
      obtain ⟨he, h⟩ := List.pairwise_cons.mp h
      rw [List.map_cons] at hwords
      have hrest : AllWords (es.map (·.pair)) := fun p hp => hwords p (List.mem_cons_of_mem _ hp)
      have hpair := hwords e.pair (List.mem_cons_self ..)
      rw [passes, List.map_cons, List.map_cons, met_substitute, ih hrest h]
      -- The first pass leaves as many occurrences of every other word as it finds.
      congr 1
      refine List.map_congr_left fun e' he' => ?_
      have hdialect := (hrest e'.pair (List.mem_map_of_mem he')).1
      rw [count_substitute hdialect hpair.1 hpair.2 (he e' he').1 (he e' he').2]

def metIn (cls : WordClass) (ps : List (Entry × Pass)) : Nat :=
  ((ps.filter (·.1.wordClass = cls)).map (·.2.met)).sum

theorem metIn_count {es : List Entry} {text : List Char} {ps : List (Entry × Pass)}
    (h : ps.map (fun s => (s.1, s.2.met)) = es.map fun e => (e, e.count text)) (cls : WordClass) :
    metIn cls ps = ((es.filter (·.wordClass = cls)).map (·.count text)).sum := by
  have hfilter := congrArg (fun ms => ((ms.filter (·.1.wordClass = cls)).map (·.2)).sum) h
  simp only [List.filter_map, List.map_map] at hfilter
  exact hfilter

theorem skippedIn_eq_sum (ps : List (Entry × Pass)) :
    skippedIn ps = (ps.map (·.2.skipped.length)).sum := by
  rw [skippedIn, List.sum_eq_foldl_nat, List.foldl_map]

theorem met_count {es : List Entry} {text : List Char} {ps : List (Entry × Pass)}
    (h : ps.map (fun s => (s.1, s.2.met)) = es.map fun e => (e, e.count text)) :
    (replacedIn ps).total + skippedIn ps = (countAll es text).total := by
  have hmet := congrArg (fun ms => (ms.map (·.2)).sum) h
  simp only [List.map_map] at hmet
  rw [replacedIn, skippedIn_eq_sum, countAll, total_foldl_add, total_foldl_add, Nat.add_assoc,
    ← List.sum_map_add]
  exact congrArg (Counts.zero.total + ·) hmet

def Event.isLeftAlone : Event → Bool
  | .leftAlone .. => true
  | _ => false

theorem countP_events (word : String) (p : Pass) :
    (p.events word).countP Event.isLeftAlone = p.skipped.length := by
  have hskipped : (p.skipped.map fun s => Event.leftAlone word s.1 s.2).countP
      Event.isLeftAlone = p.skipped.length := by
    rw [List.countP_map]
    exact List.countP_eq_length.mpr fun _ _ => rfl
  rw [Pass.events, List.countP_append, hskipped]
  split <;> rfl

theorem countP_journal (ps : List (Entry × Pass)) :
    (ps.flatMap fun s => s.2.events s.1.pair.dialect).countP Event.isLeftAlone = skippedIn ps := by
  rw [List.countP_flatMap, skippedIn_eq_sum]
  exact congrArg List.sum (List.map_congr_left fun s _ => countP_events ..)

namespace Dictionary

variable {d : Dictionary}

theorem entries_words (d : Dictionary) : AllWords (d.entries.map (·.pair)) := by
  rw [map_pair_entries]
  exact d.sound.allWords

theorem Separated.undisturbed (h : d.Separated) : Undisturbed d.entries := by
  have hnodup := d.sound.dialect_nodup
  rw [← map_pair_entries, List.map_map, List.Nodup, List.pairwise_map] at hnodup
  refine hnodup.imp_of_mem fun {e e'} he he' hne => ?_
  have hmem {e : Entry} (he : e ∈ d.entries) : e.pair ∈ d.structural ++ d.callable := by
    rw [← map_pair_entries]
    exact List.mem_map_of_mem he
  exact ⟨Ne.symm hne, (h _ (hmem he) _ (hmem he')).symm⟩

theorem holds_le (d : Dictionary) (v : Visit) :
    d.entries.countP (fun e => v.holds e.wordClass e.pair.dialect.toList) ≤
      if decide (v.block ≠ []) = true then 1 else 0 := by
  by_cases hv : v.block = []
  · rw [if_neg (by simp [hv]), Nat.le_zero, List.countP_eq_zero]
    intro e he hholds
    have hword := (d.entries_words e.pair (List.mem_map_of_mem he)).1
    exact (isWord_iff.mp hword).1 ((holds_block hholds).symm.trans hv)
  · have hcount := List.nodup_iff_count_le_one.mp d.sound.dialect_nodup (.ofList v.block)
    rw [← map_pair_entries, List.map_map, List.count, List.countP_map] at hcount
    rw [if_pos (by simp [hv])]
    refine le_trans (List.countP_mono_left fun e _ hholds => ?_) hcount
    simp [holds_block hholds]

/-- No run is counted twice. -/
theorem count_le (d : Dictionary) (source : String) :
    (d.count source).total ≤ (runsOf source).length := by
  have hcounts : d.entries.map (·.count source.toList) = d.entries.map fun e =>
      ((Runs.ofText source.toList).visits .start).countP
        (·.holds e.wordClass e.pair.dialect.toList) :=
    List.map_congr_left fun e he =>
      count_visits (d.entries_words e.pair (List.mem_map_of_mem he)).1 _
  have hruns : (runsOf source).length =
      ((Runs.ofText source.toList).visits .start).countP (·.block ≠ []) := by
    rw [runsOf, ← Runs.map_block_visits .start, ← List.countP_eq_length_filter, List.countP_map]
    rfl
  rw [count, countAll, total_foldl_add, hcounts, hruns]
  exact le_of_eq_of_le (Nat.zero_add _) (sum_countP_le fun v _ => d.holds_le v)

/-- The passes that make a translation meet what the counter finds in the source, class by class,
and the journal tells it: its totals add up to the counts, and every occurrence left alone is an
event. -/
theorem journal_count (h : d.Separated) (o : Options) (source : String) :
    ((d.passes o source).getLast?.map (·.2.text)).getD source.toList = (d.toHost o source).toList ∧
      metIn .structural (d.passes o source) = (d.count source).structural ∧
      metIn .callable (d.passes o source) = (d.count source).callable ∧
      (∃ events replaced skipped,
        d.journal o source = events ++ [.finished replaced skipped (width source.toList)] ∧
        replaced.structural + replaced.callable + skipped = (d.count source).total ∧
        events.countP Event.isLeftAlone = skipped) ∧
      (d.count source).total ≤ (runsOf source).length := by
  have hmet := met_passes d.entries_words h.undisturbed o source.toList
  have hcount (cls : WordClass) := metIn_count hmet cls
  have hcounts := foldl_add (·.wordClass) (·.count source.toList) d.entries .zero
  refine ⟨?_, ?_, ?_, ⟨_, _, _, rfl, met_count hmet, countP_journal _⟩, d.count_le source⟩
  · rw [toHost, String.toList_ofList]
    exact getLast?_passes o d.entries source.toList
  · rw [count, countAll, hcounts]
    exact (hcount .structural).trans (Nat.zero_add _).symm
  · rw [count, countAll, hcounts]
    exact (hcount .callable).trans (Nat.zero_add _).symm

/-- One word in the code, one call, and one word that the comment protects. -/
theorem journal_count_builtin : builtin.Separated ∧
    metIn .structural (builtin.passes { } "se soma(1): # e") =
      (builtin.count "se soma(1): # e").structural ∧
    metIn .callable (builtin.passes { } "se soma(1): # e") =
      (builtin.count "se soma(1): # e").callable ∧
    (∃ events, builtin.journal { } "se soma(1): # e" = events ++ [.finished ⟨1, 1⟩ 1 15] ∧
      1 + 1 + 1 = (builtin.count "se soma(1): # e").total ∧
      events.countP Event.isLeftAlone = 1) ∧
    (builtin.count "se soma(1): # e").total ≤ 4 := by
  have hwidth : width "se soma(1): # e".toList = 15 := by decide
  have hruns : (runsOf "se soma(1): # e").length = 4 := by decide
  have hlast : (builtin.journal { } "se soma(1): # e").getLast? =
      some (.finished ⟨1, 1⟩ 1 15) := by decide +kernel
  obtain ⟨-, hstructural, hcallable, ⟨events, replaced, skipped, hjournal, htotal, halone⟩, hle⟩ :=
    journal_count builtin_separated { } "se soma(1): # e"
  rw [hwidth] at hjournal
  rw [hruns] at hle
  rw [hjournal, List.getLast?_concat] at hlast
  cases hlast
  exact ⟨builtin_separated, hstructural, hcallable, ⟨events, hjournal, htotal, halone⟩, hle⟩

end Dictionary

end Calque

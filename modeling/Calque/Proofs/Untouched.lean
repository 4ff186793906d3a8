import Mathlib.Algebra.Order.BigOperators.Group.List
import Mathlib.Algebra.Order.Group.Nat
import Calque.Proofs.Counting
import Calque.Proofs.LineComments

namespace Calque

open Lexical

theorem settle_eq_self {verdict : Nat → Option Reason} {old : List Char} (new : List Char)
    {pos : Nat} {ps : List Piece} (h : ∀ p ∈ foundOffsets old pos ps, (verdict p).isSome = true) :
    (settle verdict old new pos ps).text = ps.flatMap (Piece.chars old) := by
  fun_induction settle verdict old new pos ps with
  | case1 => rfl
  | case2 pos c ps rest ih => simpa [Piece.chars] using ih h
  | case3 pos ps rest hverdict ih => simp [foundOffsets, hverdict] at h
  | case4 pos ps rest reason hverdict ih =>
      rw [foundOffsets, List.forall_mem_cons] at h
      simpa [Piece.chars] using ih h.2

theorem replaced_settle (verdict : Nat → Option Reason) (old new : List Char) (pos : Nat)
    (ps : List Piece) : (settle verdict old new pos ps).replaced =
      (foundOffsets old pos ps).countP fun p => (verdict p).isNone := by
  fun_induction settle verdict old new pos ps with
  | case1 => rfl
  | case2 pos c ps rest ih => simpa [foundOffsets] using ih
  | case3 pos ps rest hverdict ih => simp [foundOffsets, hverdict, rest, ih]
  | case4 pos ps rest reason hverdict ih => simp [foundOffsets, hverdict, rest, ih]

theorem total_replacedIn (ps : List (Entry × Pass)) :
    (replacedIn ps).total = (ps.map (·.2.replaced)).sum :=
  (total_foldl_add ..).trans (Nat.zero_add _)

theorem total_countAll (es : List Entry) (text : List Char) :
    (countAll es text).total = (es.map (·.count text)).sum :=
  (total_foldl_add ..).trans (Nat.zero_add _)

/-- Every occurrence of the entry's word is protected where it stands. -/
def Entry.Sheltered (e : Entry) (o : Options) (text : List Char) : Prop :=
  ∀ pos ∈ candidates e.wordClass e.pair.dialect.toList text,
    (o.protects e.wordClass ((Index.ofChars text).place pos)).isSome = true

section Passes

variable {o : Options} {text : List Char}

theorem replaced_eq_zero_iff {e : Entry} :
    (e.substitute o text).replaced = 0 ↔ e.Sheltered o text := by
  rw [Entry.substitute, substitute, replaced_settle, List.countP_eq_zero]
  simp only [Option.isNone_eq_false_iff, Bool.not_eq_true]
  rfl

theorem substitute_eq_self {e : Entry} (h : e.Sheltered o text) :
    (e.substitute o text).text = text :=
  (settle_eq_self e.pair.host.toList h).trans (flatten_pieces ..)

/-- The passes of sheltered entries all find the text as it was. -/
theorem passes_sheltered {es : List Entry} (h : ∀ e ∈ es, e.Sheltered o text) :
    passes o es text = es.map fun e => (e, e.substitute o text) := by
  induction es with
  | nil => rfl
  | cons e es ih =>
      rw [List.forall_mem_cons] at h
      rw [passes, List.map_cons, substitute_eq_self h.1, ih h.2]

theorem substituteAll_sheltered {es : List Entry} (h : ∀ e ∈ es, e.Sheltered o text) :
    substituteAll o es text = text := by
  induction es with
  | nil => rfl
  | cons e es ih =>
      rw [List.forall_mem_cons] at h
      rw [substituteAll, List.foldl_cons, substitute_eq_self h.1]
      exact ih h.2

/-- Where no pass replaces anything, every pass sees the same text. -/
theorem sheltered_of_replaced {es : List Entry} (h : ∀ s ∈ passes o es text, s.2.replaced = 0) :
    ∀ e ∈ es, e.Sheltered o text := by
  induction es with
  | nil => exact List.forall_mem_nil _
  | cons e es ih =>
      rw [passes, List.forall_mem_cons] at h
      have he := replaced_eq_zero_iff.mp h.1
      have hrest := h.2
      rw [substitute_eq_self he] at hrest
      exact List.forall_mem_cons.mpr ⟨he, ih hrest⟩

theorem replacedIn_eq_zero_iff {ps : List (Entry × Pass)} :
    replacedIn ps = .zero ↔ ∀ s ∈ ps, s.2.replaced = 0 := by
  have hzero : replacedIn ps = .zero ↔ (replacedIn ps).total = 0 := by
    rcases replacedIn ps with ⟨structural, callable⟩
    simp [Counts.zero, Counts.total]
  rw [hzero, total_replacedIn, List.sum_eq_zero_iff, List.forall_mem_map]

theorem replacedIn_sheltered {es : List Entry} (h : ∀ e ∈ es, e.Sheltered o text) :
    replacedIn (passes o es text) = .zero := by
  rw [replacedIn_eq_zero_iff, passes_sheltered h]
  intro s hs
  obtain ⟨e, he, rfl⟩ := List.mem_map.mp hs
  exact replaced_eq_zero_iff.mpr (h e he)

theorem skippedIn_sheltered {es : List Entry} (h : ∀ e ∈ es, e.Sheltered o text) :
    skippedIn (passes o es text) = (countAll es text).total := by
  have hmet : (passes o es text).map (fun s => (s.1, s.2.met)) =
      es.map fun e => (e, e.count text) := by
    rw [passes_sheltered h, List.map_map]
    exact List.map_congr_left fun e _ => congrArg (e, ·) (met_substitute e o text)
  rw [← met_count hmet, replacedIn_sheltered h]
  exact (Nat.zero_add _).symm

theorem sheltered_of_count {es : List Entry} (h : (countAll es text).total = 0) :
    ∀ e ∈ es, e.Sheltered o text := by
  rw [total_countAll, List.sum_eq_zero_iff] at h
  intro e he pos hpos
  have hcount : e.count text = 0 := h _ (List.mem_map_of_mem he)
  rw [List.length_eq_zero_iff.mp hcount] at hpos
  cases hpos

end Passes

namespace Dictionary

def Sheltered (d : Dictionary) (o : Options) (source : String) : Prop :=
  ∀ e ∈ d.entries, e.Sheltered o source.toList

/-- A source is sheltered if and only if nothing in it is replaced. It is then its own translation,
and the journal tells of every occurrence that it was left alone. The entries of the dictionary may
be chained. -/
theorem toHost_untouched (d : Dictionary) (o : Options) (source : String) :
    (d.Sheltered o source ↔ replacedIn (d.passes o source) = .zero) ∧
      ((d.count source).total = 0 → d.Sheltered o source) ∧
      (d.Sheltered o source → d.toHost o source = source ∧
        ∃ events, d.journal o source =
            events ++ [.finished .zero (d.count source).total (width source.toList)] ∧
          events.countP Event.isLeftAlone = (d.count source).total) := by
  refine ⟨⟨replacedIn_sheltered, fun h => ?_⟩, sheltered_of_count, fun h => ⟨?_, ?_⟩⟩
  · exact sheltered_of_replaced (replacedIn_eq_zero_iff.mp h)
  · rw [toHost, substituteAll_sheltered h, String.ofList_toList]
  · have hreplaced : replacedIn (d.passes o source) = .zero := replacedIn_sheltered h
    have hskipped : skippedIn (d.passes o source) = (d.count source).total := skippedIn_sheltered h
    refine ⟨(d.passes o source).flatMap fun s => s.2.events s.1.pair.dialect, ?_, ?_⟩
    · rw [journal, hreplaced, hskipped]
    · rw [countP_journal, hskipped]

/-- One word stands in a literal and one in the comment, and the dictionary is chained. -/
theorem toHost_untouched_chained : chained.Sheltered { } "'a' # b" ∧
    chained.toHost { } "'a' # b" = "'a' # b" ∧
    ∃ events, chained.journal { } "'a' # b" = events ++ [.finished .zero 2 7] ∧
      events.countP Event.isLeftAlone = 2 := by
  have hsheltered : chained.Sheltered { } "'a' # b" := by
    unfold Sheltered Entry.Sheltered
    decide +kernel
  have hcount : (chained.count "'a' # b").total = 2 := by decide +kernel
  have hwidth : width "'a' # b".toList = 7 := by decide
  have h := (toHost_untouched chained { } "'a' # b").2.2 hsheltered
  rw [hcount, hwidth] at h
  exact ⟨hsheltered, h⟩

end Dictionary

end Calque

import Calque.Dictionary.Entry
import Calque.Text.Word

namespace Calque.Dictionary

inductive Fault
  | emptyWord
  | notAWord (word : String)
  | duplicateDialect (word : String)
  | duplicateHost (word : String)
  deriving DecidableEq, Repr

def Fault.message : Fault → String
  | .emptyWord => "dictionary contains an empty word"
  | .notAWord w => "'" ++ w ++ "' is not a word (only letters, digits and '_' are allowed)"
  | .duplicateDialect w => "dialect word '" ++ w ++ "' is defined more than once"
  | .duplicateHost w => "host word '" ++ w ++ "' is the target of more than one dialect word"

def wordFault? (w : String) : Option Fault :=
  if w = "" then some .emptyWord
  else if isWord w.toList then none
  else some (.notAWord w)

/-- The first fault of a pair that comes after the pairs `earlier`: its own words before the ones it
shares with them. -/
def pairFault? (earlier : List WordPair) (p : WordPair) : Option Fault :=
  wordFault? p.dialect
  <|> wordFault? p.host
  <|> (if p.dialect ∈ earlier.map (·.dialect) then some (.duplicateDialect p.dialect) else none)
  <|> (if p.host ∈ earlier.map (·.host) then some (.duplicateHost p.host) else none)

def firstFault? (earlier : List WordPair) : List WordPair → Option Fault
  | [] => none
  | p :: ps => pairFault? earlier p <|> firstFault? (p :: earlier) ps

/-- All words are words, and no word of either side is used twice. -/
structure Sound (ps : List WordPair) : Prop where
  dialect_isWord : ∀ p ∈ ps, isWord p.dialect.toList = true
  host_isWord : ∀ p ∈ ps, isWord p.host.toList = true
  dialect_nodup : (ps.map (·.dialect)).Nodup
  host_nodup : (ps.map (·.host)).Nodup

theorem wordFault?_eq_none_iff {w : String} : wordFault? w = none ↔ isWord w.toList = true := by
  unfold wordFault?
  split
  · subst_vars; simp [isWord]
  · split <;> simp_all

theorem pairFault?_eq_none_iff {earlier : List WordPair} {p : WordPair} :
    pairFault? earlier p = none ↔
      isWord p.dialect.toList = true ∧ isWord p.host.toList = true ∧
        p.dialect ∉ earlier.map (·.dialect) ∧ p.host ∉ earlier.map (·.host) := by
  simp [pairFault?, wordFault?_eq_none_iff]

theorem firstFault?_eq_none_iff {earlier ps : List WordPair} :
    firstFault? earlier ps = none ↔
      Sound ps ∧ (∀ p ∈ ps, p.dialect ∉ earlier.map (·.dialect)) ∧
        ∀ p ∈ ps, p.host ∉ earlier.map (·.host) := by
  induction ps generalizing earlier with
  | nil => simp [firstFault?]; constructor <;> simp
  | cons p ps ih =>
    have h : firstFault? earlier (p :: ps) = none ↔
        pairFault? earlier p = none ∧ firstFault? (p :: earlier) ps = none := by
      simp [firstFault?]
    rw [h, pairFault?_eq_none_iff, ih]
    constructor
    · rintro ⟨⟨hd, hh, nd, nh⟩, ⟨wd, wh, dd, dh⟩, ed, eh⟩
      refine ⟨⟨?_, ?_, ?_, ?_⟩, ?_, ?_⟩ <;> grind
    · rintro ⟨⟨wd, wh, dd, dh⟩, ed, eh⟩
      refine ⟨⟨?_, ?_, ?_, ?_⟩, ⟨?_, ?_, ?_, ?_⟩, ?_, ?_⟩ <;> grind

theorem sound_iff {ps : List WordPair} : firstFault? [] ps = none ↔ Sound ps := by
  simp [firstFault?_eq_none_iff]

end Calque.Dictionary

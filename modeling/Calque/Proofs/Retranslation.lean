import Calque.Proofs.Commuting

namespace Calque

open Lexical

variable {o : Options} {ps : List WordPair}

theorem phase_again (hwords : AllWords ps) (h : Unread ps) (cls : WordClass) (s : State)
    (text : List Char) :
    phase o cls (chain ps) s (phase o cls (chain ps) s text) = phase o cls (chain ps) s text := by
  have hchain : chain ps ∘ chain ps = chain ps := funext (chain_chain h)
  rw [phase_phase (chain_keepsWords hwords), hchain]

def WordPair.reverse (p : WordPair) : WordPair := ⟨p.host, p.dialect⟩

theorem Unread.reverse (h : Unread ps) : Unread (ps.map .reverse) :=
  List.forall_mem_map.mpr fun p hp => List.forall_mem_map.mpr fun q hq => (h q hq p hp).symm

namespace Dictionary

theorem Sound.reverse (h : Sound ps) : Sound (ps.map .reverse) := by
  have hdialect : (ps.map WordPair.reverse).map (·.dialect) = ps.map (·.host) := List.map_map
  have hhost : (ps.map WordPair.reverse).map (·.host) = ps.map (·.dialect) := List.map_map
  exact ⟨List.forall_mem_map.mpr h.host_isWord, List.forall_mem_map.mpr h.dialect_isWord,
    hdialect ▸ h.host_nodup, hhost ▸ h.dialect_nodup⟩

def reverse (d : Dictionary) : Dictionary where
  structural := d.structural.map .reverse
  callable := d.callable.map .reverse
  sound := by
    rw [← List.map_append]
    exact d.sound.reverse

end Dictionary

open Dictionary

/-- The reversed pairs undo what the pairs do, unless a word looks as if they had made it. -/
theorem chain_reverse (hs : Sound ps) (h : Unread ps) {w : List Char}
    (hw : ∀ p ∈ ps, p.host.toList ≠ w) : chain (ps.map .reverse) (chain ps w) = w := by
  by_cases hp : ∃ p ∈ ps, p.dialect.toList = w
  · obtain ⟨p, hp, rfl⟩ := hp
    rw [chain_dialect h.unchained hs.dialect_nodup hp]
    exact chain_dialect h.reverse.unchained hs.reverse.dialect_nodup (List.mem_map_of_mem hp)
  · rw [chain_absent fun p hp' he => hp ⟨p, hp', he⟩]
    exact chain_absent (List.forall_mem_map.mpr hw)

theorem phase_reverse (hs : Sound ps) (h : Unread ps) (cls : WordClass) {text : String}
    (ht : ∀ p ∈ ps, p.host.toList ∉ runsOf text) :
    phase o cls (chain (ps.map .reverse)) .start (phase o cls (chain ps) .start text.toList) =
      text.toList := by
  rw [phase_phase (chain_keepsWords hs.allWords)]
  refine phase_eq_self fun v hv _ => chain_reverse hs h fun p hp he => ?_
  have hblock : v.block ∈ (Runs.ofText text.toList).blocks := by
    rw [← Runs.map_block_visits .start]
    exact List.mem_map_of_mem hv
  have hne : p.host.toList ≠ [] := (isWord_iff.mp (hs.host_isWord p hp)).1
  exact ht p hp (List.mem_filter.mpr ⟨he ▸ hblock, by simpa using hne⟩)

namespace Dictionary

variable {d : Dictionary}

/-- The way back does not meddle with the callable words of the way there. -/
theorem Separated.apart_reverse (h : d.Separated) :
    Apart d.reverse.structural d.callable ∧ Apart d.callable d.reverse.structural := by
  constructor
  · refine List.forall_mem_map.mpr fun p hp q hq => ?_
    exact ⟨(h.apart.2 q hq p hp).2.symm, (d.sound.apart p hp q hq).2⟩
  · refine fun q hq => List.forall_mem_map.mpr fun p hp => ?_
    exact ⟨(h.apart.2 q hq p hp).2, (h.apart.2 q hq p hp).1⟩

/-- Where no host word is a dialect word, a translation leaves nothing to translate. The second run
meets literals that the first one made templates of, but no dialect word where it may replace
one. -/
theorem toHost_toHost (h : d.Separated) (o : Options) (source : String) :
    d.toHost o (d.toHost o source) = d.toHost o source := by
  have hs := chain_keepsWords d.structural_words
  have hc := chain_keepsWords d.callable_words
  have hcomm := chain_comm h.apart.1 h.apart.2
  rw [← String.toList_inj, toHost_phases d o (d.toHost o source), toHost_phases]
  have hsame := phase_again (o := o) d.structural_words h.unread.1 .structural .start source.toList
  rw [phase_settled hs hc (unnoticed_callable hc o) hcomm .start _ hsame,
    phase_again d.callable_words h.unread.2]

theorem toHost_toHost_builtin : builtin.Separated ∧
    builtin.toHost { } (builtin.toHost { } "se\"soma(1)\" # e") =
      builtin.toHost { } "se\"soma(1)\" # e" :=
  ⟨builtin_separated, toHost_toHost builtin_separated { } _⟩

/-- The reversed dictionary takes a translation back, if no structural word gains or loses the
letter that makes a template of a literal after it, and the source holds no host word of its
own. -/
theorem toHost_reverse (h : d.Separated) (hletter : ∀ p ∈ d.structural,
      endsInLetter p.dialect.toList = endsInLetter p.host.toList) :
    ofLists (d.structural.map .reverse) (d.callable.map .reverse) = .ok d.reverse ∧
      ∀ (o : Options) (source : String),
        (∀ p ∈ d.structural ++ d.callable, p.host.toList ∉ runsOf source) →
        d.reverse.toHost o (d.toHost o source) = source := by
  refine ⟨ofLists_eq_ok _, fun o source hsource => ?_⟩
  have hback := chain_keepsWords d.reverse.structural_words
  have hc := chain_keepsWords d.callable_words
  have hunnoticed : Unnoticed o .structural (chain d.reverse.structural) := by
    refine unnoticed_structural hback (chain_keepsLetter ?_) o
    exact List.forall_mem_map.mpr fun p hp => (hletter p hp).symm
  have hcomm := chain_comm h.apart_reverse.1 h.apart_reverse.2
  have hstructural : phase o .structural (chain d.reverse.structural) .start
      (phase o .structural (chain d.structural) .start source.toList) = source.toList :=
    phase_reverse d.sound.sides.1 h.unread.1 _ fun p hp => hsource p (List.mem_append_left _ hp)
  have hcallable : phase o .callable (chain d.reverse.callable) .start
      (phase o .callable (chain d.callable) .start source.toList) = source.toList :=
    phase_reverse d.sound.sides.2 h.unread.2 _ fun p hp => hsource p (List.mem_append_right _ hp)
  -- The structural words go back first, before the callable words have.
  rw [← String.toList_inj, toHost_phases, toHost_phases,
    phase_comm hback hc (unnoticed_callable hc o) hcomm .start _ hunnoticed, hstructural, hcallable]

def lettered : Dictionary where
  structural := [⟨"alf", "if"⟩]
  callable := [⟨"soma", "sum"⟩]
  sound := ⟨by decide, by decide, by decide, by decide⟩

/-- The literal is a template on the way there and on the way back. -/
theorem toHost_reverse_template : lettered.Separated ∧
    (∀ p ∈ lettered.structural, endsInLetter p.dialect.toList = endsInLetter p.host.toList) ∧
    (∀ p ∈ lettered.structural ++ lettered.callable,
      p.host.toList ∉ runsOf "alf\"soma(1)\" # alf") ∧
    lettered.toHost { } "alf\"soma(1)\" # alf" = "if\"sum(1)\" # alf" ∧
    lettered.reverse.toHost { } "if\"sum(1)\" # alf" = "alf\"soma(1)\" # alf" := by
  have hseparated : lettered.Separated := by decide
  have hletter : ∀ p ∈ lettered.structural,
      endsInLetter p.dialect.toList = endsInLetter p.host.toList := by decide
  have hruns : ∀ p ∈ lettered.structural ++ lettered.callable,
      p.host.toList ∉ runsOf "alf\"soma(1)\" # alf" := by decide
  have hthere : lettered.toHost { } "alf\"soma(1)\" # alf" = "if\"sum(1)\" # alf" := by
    rw [← String.toList_inj, toHost_phases]
    decide
  have hback := (toHost_reverse hseparated hletter).2 { } _ hruns
  rw [hthere] at hback
  exact ⟨hseparated, hletter, hruns, hthere, hback⟩

/-- The word for a condition gains the letter, and then the call in the literal does not go back. -/
theorem letter_matters : ¬ ∀ d : Dictionary, d.Separated → ∀ source : String,
    (∀ p ∈ d.structural ++ d.callable, p.host.toList ∉ runsOf source) →
    d.reverse.toHost { } (d.toHost { } source) = source := by
  intro h
  have hsame := congrArg String.toList (h builtin builtin_separated "se\"imprimir(x)\"" (by decide))
  rw [toHost_phases, toHost_phases] at hsame
  revert hsame
  decide

end Dictionary

end Calque

import Calque.Proofs.Passes

namespace Calque

open Lexical

theorem chain_perm {ps qs : List WordPair} (h : ps.Perm qs) (hc : Unchained ps)
    (hn : (ps.map (·.dialect)).Nodup) : chain ps = chain qs := by
  have hn' : (qs.map (·.dialect)).Nodup := (h.map _).nodup_iff.mp hn
  have hc' : Unchained qs := fun p hp q hq => hc p (h.mem_iff.mpr hp) q (h.mem_iff.mpr hq)
  funext w
  rw [chain_unchained hc hn, chain_unchained hc' hn']
  by_cases hw : ∃ p ∈ ps, p.dialect.toList = w
  · obtain ⟨p, hp, rfl⟩ := hw
    rw [hostOf?_eq_some hn hp, hostOf?_eq_some hn' (h.mem_iff.mp hp)]
  · have habsent : ∀ p ∈ ps, p.dialect.toList ≠ w := fun p hp he => hw ⟨p, hp, he⟩
    rw [hostOf?_eq_none habsent, hostOf?_eq_none fun p hp => habsent p (h.mem_iff.mpr hp)]

theorem chain_append (ps qs : List WordPair) (w : List Char) :
    chain (ps ++ qs) w = chain qs (chain ps w) := List.foldl_append

theorem chain_avoids {ps : List WordPair} {w x : List Char} (h : ∀ p ∈ ps, p.host.toList ≠ w)
    (hx : x ≠ w) : chain ps x ≠ w := by
  rcases chain_mem ps x with hsame | ⟨p, hp, hhost⟩
  · rwa [hsame]
  · rw [hhost]
    exact h p hp

theorem chain_moves {ps : List WordPair} {w : List Char} (h : ∀ p ∈ ps, p.host.toList ≠ w)
    {q : WordPair} (hq : q ∈ ps) (hw : q.dialect.toList = w) : chain ps w ≠ w := by
  induction ps with
  | nil => cases hq
  | cons p ps ih =>
      have hps : ∀ p ∈ ps, p.host.toList ≠ w := fun q hq => h q (by simp [hq])
      rw [chain_cons, Function.comp_apply, swap]
      split
      · exact chain_avoids hps (h p (by simp))
      · rename_i hp
        rcases List.mem_cons.mp hq with rfl | hq
        · exact absurd hw.symm hp
        · exact ih hps hq

/-- Of two chained pairs the second one takes effect or not, as it comes after the first one or
before. -/
theorem chained_orders {ps : List WordPair} (hn : (ps.map (·.dialect)).Nodup)
    (hh : (ps.map (·.host)).Nodup) {p q : WordPair} (hp : p ∈ ps) (hq : q ∈ ps) (hne : p ≠ q)
    (hpq : p.host = q.dialect) :
    ∃ qs qs', qs.Perm ps ∧ qs'.Perm ps ∧
      chain qs p.dialect.toList ≠ chain qs' p.dialect.toList := by
  have hperm : ps.Perm (p :: ps.erase p) := List.perm_cons_erase hp
  have hmem {r : WordPair} (hr : r ∈ ps.erase p) : r ∈ ps ∧ r ≠ p := by
    have hnodup : ps.Nodup := List.Nodup.of_map _ hn
    exact ⟨List.mem_of_mem_erase hr, ((hnodup.mem_erase_iff).mp hr).1⟩
  have hlast : chain (ps.erase p ++ [p]) p.dialect.toList = p.host.toList := by
    have habsent : ∀ r ∈ ps.erase p, r.dialect.toList ≠ p.dialect.toList := fun r hr he =>
      (hmem hr).2 (eq_of_dialect hn (hmem hr).1 hp he)
    rw [chain_append, chain_absent habsent]
    exact if_pos rfl
  have hfirst : chain (p :: ps.erase p) p.dialect.toList ≠ p.host.toList := by
    have hhost : ∀ r ∈ ps.erase p, r.host.toList ≠ p.host.toList := fun r hr he =>
      (hmem hr).2 (List.inj_on_of_nodup_map hh (hmem hr).1 hp (String.toList_inj.mp he))
    rw [chain_cons, Function.comp_apply, swap, if_pos rfl]
    exact chain_moves hhost ((List.mem_erase_of_ne hne.symm).mpr hq) (congrArg _ hpq.symm)
  refine ⟨p :: ps.erase p, ps.erase p ++ [p], hperm.symm, ?_, ?_⟩
  · exact (List.perm_append_singleton _ _).trans hperm.symm
  · rw [hlast]
    exact hfirst

namespace Dictionary

theorem Sound.perm {ps qs : List WordPair} (h : Sound ps) (hp : ps.Perm qs) : Sound qs :=
  ⟨fun p hq => h.dialect_isWord p (hp.mem_iff.mpr hq),
    fun p hq => h.host_isWord p (hp.mem_iff.mpr hq),
    (hp.map _).nodup_iff.mp h.dialect_nodup, (hp.map _).nodup_iff.mp h.host_nodup⟩

theorem callable_not_structural (d : Dictionary) {p : WordPair} (hp : p ∈ d.callable) :
    ∀ q ∈ d.structural, q.dialect.toList ≠ p.dialect.toList :=
  fun q hq he => (d.sound.apart q hq p hp).1 (String.toList_inj.mp he)

/-- A reordering that is accepted keeps its lists. -/
theorem reordered {d : Dictionary} {ss cs : List WordPair} (hs : ss.Perm d.structural)
    (hc : cs.Perm d.callable) (h : ∃ d', ofLists ss cs = .ok d' ∧
      ∀ o source, d'.toHost o source = d.toHost o source) (source : String) :
    ∃ d' : Dictionary, d'.structural = ss ∧ d'.callable = cs ∧
      d'.toHost { } source = d.toHost { } source := by
  have hsound := d.sound.perm (hs.append hc).symm
  obtain ⟨d', hd, ht⟩ := h
  rw [ofLists_eq_ok hsound] at hd
  cases hd
  exact ⟨_, rfl, rfl, ht { } source⟩

/-- The entries of a dictionary may be put into any order within their classes, if and only if no
entry makes the dialect word of another entry of its class. -/
theorem toHost_perm_iff (d : Dictionary) :
    (∀ structural callable, structural.Perm d.structural → callable.Perm d.callable →
      ∃ d', ofLists structural callable = .ok d' ∧
        ∀ o source, d'.toHost o source = d.toHost o source) ↔
      Unchained d.structural ∧ Unchained d.callable := by
  constructor
  · intro h
    have agree {ss cs : List WordPair} (hs : ss.Perm d.structural) (hc : cs.Perm d.callable) :=
      reordered hs hc (h ss cs hs hc)
    constructor
    · intro p hp q hq hne hpq
      obtain ⟨ss, ss', hs, hs', hdiff⟩ :=
        chained_orders d.dialects_nodup.1 d.hosts_nodup.1 hp hq hne hpq
      obtain ⟨e, rfl, -, he⟩ := agree hs (.refl _) p.dialect
      obtain ⟨e', rfl, -, he'⟩ := agree hs' (.refl _) p.dialect
      have hw := (d.structural_words p hp).1
      apply hdiff
      rw [← toHost_word e hw, ← toHost_word e' hw, he, he']
    · intro p hp q hq hne hpq
      obtain ⟨cs, cs', hc, hc', hdiff⟩ :=
        chained_orders d.dialects_nodup.2 d.hosts_nodup.2 hp hq hne hpq
      obtain ⟨e, hes, rfl, he⟩ := agree (.refl _) hc (p.dialect ++ "(")
      obtain ⟨e', hes', rfl, he'⟩ := agree (.refl _) hc' (p.dialect ++ "(")
      have hw := (d.callable_words p hp).1
      have hstay := chain_absent (d.callable_not_structural hp)
      apply hdiff
      have hsame := congrArg String.toList (he.trans he'.symm)
      rw [toHost_call e hw, toHost_call e' hw, hes, hes', hstay] at hsame
      exact List.append_cancel_right hsame
  · rintro ⟨hs, hc⟩ ss cs hss hcs
    refine ⟨⟨ss, cs, d.sound.perm (hss.append hcs).symm⟩, ofLists_eq_ok _, fun o source => ?_⟩
    rw [← String.toList_inj, toHost_phases, toHost_phases,
      chain_perm hss.symm hs d.dialects_nodup.1, chain_perm hcs.symm hc d.dialects_nodup.2]

/-- Two entries in a chain: the order decides whether the second one takes effect. -/
theorem order_matters : ¬ ∀ d d' : Dictionary, d'.structural.Perm d.structural →
    d'.callable.Perm d.callable → ∀ o source, d'.toHost o source = d.toHost o source := by
  intro h
  have hsound : Sound [⟨"a", "b"⟩, ⟨"b", "c"⟩] := ⟨by decide, by decide, by decide, by decide⟩
  have hsound' : Sound [⟨"b", "c"⟩, ⟨"a", "b"⟩] := ⟨by decide, by decide, by decide, by decide⟩
  have hsame := h ⟨[⟨"a", "b"⟩, ⟨"b", "c"⟩], [], hsound⟩ ⟨[⟨"b", "c"⟩, ⟨"a", "b"⟩], [], hsound'⟩
    (List.Perm.swap ..) (.refl _) { } "a"
  have hlist := congrArg String.toList hsame
  rw [toHost_word _ (by decide), toHost_word _ (by decide)] at hlist
  have hchain : chain [⟨"b", "c"⟩, ⟨"a", "b"⟩] "a".toList ≠
      chain [⟨"a", "b"⟩, ⟨"b", "c"⟩] "a".toList := by decide
  exact hchain hlist

end Dictionary

end Calque

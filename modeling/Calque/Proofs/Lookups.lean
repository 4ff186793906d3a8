import Calque.Proofs.Registration

namespace Calque

/-- What is told apart by its key is found by it. -/
theorem find?_key {α β : Type} [DecidableEq β] {key : α → β} {xs : List α}
    (h : (xs.map key).Nodup) {k : β} {x : α} :
    xs.find? (key · = k) = some x ↔ x ∈ xs ∧ key x = k := by
  constructor
  · intro hfind
    exact ⟨List.mem_of_find?_eq_some hfind, by simpa using List.find?_some hfind⟩
  · rintro ⟨hx, hk⟩
    cases hfind : xs.find? (key · = k) with
    | none => exact absurd hk (by simpa using List.find?_eq_none.mp hfind x hx)
    | some y =>
        have hy : key y = k := by simpa using List.find?_some hfind
        rw [List.inj_on_of_nodup_map h (List.mem_of_find?_eq_some hfind) hx (hy.trans hk.symm)]

namespace Dictionary

variable (d : Dictionary)

theorem entries_dialect_nodup : (d.entries.map (·.pair.dialect)).Nodup := by
  have h := d.sound.dialect_nodup
  rwa [← map_pair_entries, List.map_map] at h

theorem entries_host_nodup : (d.entries.map (·.pair.host)).Nodup := by
  have h := d.sound.host_nodup
  rwa [← map_pair_entries, List.map_map] at h

theorem hostFor?_eq_some_iff {dialect host : String} {cls : WordClass} :
    d.hostFor? dialect = some (host, cls) ↔ ⟨cls, ⟨dialect, host⟩⟩ ∈ d.entries := by
  rw [hostFor?, Option.map_eq_some_iff]
  constructor
  · rintro ⟨⟨cls', ⟨dialect', host'⟩⟩, hfind, hpair⟩
    obtain ⟨hmem, rfl⟩ := (find?_key d.entries_dialect_nodup).mp hfind
    cases hpair
    exact hmem
  · intro hmem
    exact ⟨_, (find?_key d.entries_dialect_nodup).mpr ⟨hmem, rfl⟩, rfl⟩

theorem dialectFor?_eq_some_iff {dialect host : String} :
    d.dialectFor? host = some dialect ↔ ∃ cls, ⟨cls, ⟨dialect, host⟩⟩ ∈ d.entries := by
  rw [dialectFor?, Option.map_eq_some_iff]
  constructor
  · rintro ⟨⟨cls, ⟨dialect', host'⟩⟩, hfind, rfl⟩
    obtain ⟨hmem, rfl⟩ := (find?_key d.entries_host_nodup).mp hfind
    exact ⟨cls, hmem⟩
  · rintro ⟨cls, hmem⟩
    exact ⟨_, (find?_key d.entries_host_nodup).mpr ⟨hmem, rfl⟩, rfl⟩

/-- As many words have an answer as there are entries. -/
theorem encard_answered : {dialect | (d.hostFor? dialect).isSome}.encard = d.size := by
  have hwords : {dialect | (d.hostFor? dialect).isSome} =
      ((d.entries.map (·.pair.dialect)).toFinset : Set String) := by
    ext dialect
    simp [hostFor?]
  rw [hwords, Set.encard_coe_eq_coe_finsetCard, List.toFinset_card_of_nodup d.entries_dialect_nodup,
    List.length_map, length_entries]

end Dictionary

namespace Bounded

theorem mem_placed {cls : WordClass} {ps : List WordPair} {p : WordPair} {slot : Slot} :
    (p, slot) ∈ placed cls ps ↔ ps[slot.index]? = some p ∧ slot.wordClass = cls := by
  rw [placed, List.mem_map]
  constructor
  · rintro ⟨⟨q, index⟩, hmem, hpair⟩
    cases hpair
    exact ⟨List.mem_zipIdx_iff_getElem?.mp hmem, rfl⟩
  · rintro ⟨hget, rfl⟩
    exact ⟨(p, slot.index), List.mem_zipIdx_iff_getElem?.mpr hget, rfl⟩

variable (d : Dictionary)

theorem entries_placed : d.entries =
    (placedIn d.structural d.callable).map fun x => ⟨x.2.wordClass, x.1⟩ := by
  have hplaced (cls : WordClass) (ps : List WordPair) :
      (placed cls ps).map (fun x => (⟨x.2.wordClass, x.1⟩ : Entry)) = ps.map (⟨cls, ·⟩) := by
    have hfst := congrArg (List.map (⟨cls, ·⟩ : WordPair → Entry)) (map_placed cls ps)
    rw [List.map_map] at hfst
    rw [← hfst, placed, List.map_map, List.map_map]
    rfl
  rw [Dictionary.entries, placedIn, List.map_append, hplaced, hplaced]

/-- Both tables lead to the pairs by their words, and every place in them is in the lists. -/
structure Registry.Indexed (r : Registry) : Prop where
  byDialect : ∀ (word : String) (slot : Slot), r.slots.byDialect[word]? = some slot ↔
    ∃ p, (r.pairs slot.wordClass)[slot.index]? = some p ∧ p.dialect = word
  byHost : ∀ (word : String) (slot : Slot), r.slots.byHost[word]? = some slot ↔
    ∃ p, (r.pairs slot.wordClass)[slot.index]? = some p ∧ p.host = word
  inRange : ∀ (word : String) (slot : Slot),
    r.slots.byDialect[word]? = some slot ∨ r.slots.byHost[word]? = some slot →
      slot.index < (r.pairs slot.wordClass).length

structure Stored (r : Registry) : Prop where
  structural : r.structural = d.structural
  callable : r.callable = d.callable
  holds : r.slots.Holds (placedIn d.structural d.callable)

theorem exists_stored : ∃ r, Registry.ofLists d.structural d.callable = .ok r ∧ Stored d r := by
  rcases ofLists_cases d.structural d.callable with
    ⟨fault, hfault, -⟩ | ⟨-, slots, hok, hholds⟩
  · rw [Dictionary.sound_iff.mpr d.sound] at hfault
    cases hfault
  · exact ⟨_, hok, rfl, rfl, hholds⟩

variable {d} {r : Registry} (h : Stored d r)
include h

theorem mem_placedIn {p : WordPair} {slot : Slot} :
    (p, slot) ∈ placedIn d.structural d.callable ↔
      (r.pairs slot.wordClass)[slot.index]? = some p := by
  rw [placedIn, List.mem_append, mem_placed, mem_placed]
  cases slot.wordClass <;> simp [Registry.pairs, h.structural, h.callable]

/-- A table leads to the places of the pairs with a word on its side, and to them alone. -/
theorem leads_iff {side : WordPair → String} {table : SlotTable}
    (hside : ((d.structural ++ d.callable).map side).Nodup)
    (hleads : Leads side table (placedIn d.structural d.callable)) (word : String) (slot : Slot) :
    table[word]? = some slot ↔
      ∃ p, (r.pairs slot.wordClass)[slot.index]? = some p ∧ side p = word := by
  rw [← map_placedIn, List.map_map] at hside
  have hkey {x : WordPair × Slot} := find?_key hside (k := word) (x := x)
  simp only [Function.comp_apply] at hkey
  rw [hleads word, Option.map_eq_some_iff]
  constructor
  · rintro ⟨⟨p, slot'⟩, hfind, rfl⟩
    obtain ⟨hmem, hword⟩ := hkey.mp hfind
    exact ⟨p, (mem_placedIn h).mp hmem, hword⟩
  · rintro ⟨p, hget, hword⟩
    exact ⟨(p, slot), hkey.mpr ⟨(mem_placedIn h).mpr hget, hword⟩, rfl⟩

/-- What a table leads to is read from the lists, and is the entry with the word on its side. -/
theorem leads_entry {side : WordPair → String} {table : SlotTable}
    (hleads : Leads side table (placedIn d.structural d.callable)) (word : String) :
    table[word]? = none ∧ d.entries.find? (side ·.pair = word) = none ∨
      ∃ p slot, table[word]? = some slot ∧ r.pairAt slot = pure p ∧
        d.entries.find? (side ·.pair = word) = some ⟨slot.wordClass, p⟩ := by
  rw [hleads word, entries_placed, List.find?_map]
  simp only [Function.comp_def]
  cases hfind : (placedIn d.structural d.callable).find? (side ·.1 = word) with
  | none => exact .inl ⟨rfl, rfl⟩
  | some x =>
      have hget := (mem_placedIn h).mp (List.mem_of_find?_eq_some hfind)
      exact .inr ⟨x.1, x.2, rfl, read_eq hget, rfl⟩

theorem hostFor?_ends (dialect : String) : r.hostFor? dialect = pure (d.hostFor? dialect) := by
  rw [Registry.hostFor?, Dictionary.hostFor?]
  rcases leads_entry h h.holds.byDialect dialect with
    ⟨htable, hfind⟩ | ⟨p, slot, htable, hpair, hfind⟩
  · rw [htable, hfind]
    rfl
  · simp only [htable, hfind, hpair, pure_bind, Option.map_some]

theorem dialectFor?_ends (host : String) : r.dialectFor? host = pure (d.dialectFor? host) := by
  rw [Registry.dialectFor?, Dictionary.dialectFor?]
  rcases leads_entry h h.holds.byHost host with
    ⟨htable, hfind⟩ | ⟨p, slot, htable, hpair, hfind⟩
  · rw [htable, hfind]
    rfl
  · simp only [htable, hfind, hpair, pure_bind, Option.map_some]

theorem indexed_stored : r.Indexed := by
  have hdialect := leads_iff h d.sound.dialect_nodup h.holds.byDialect
  have hhost := leads_iff h d.sound.host_nodup h.holds.byHost
  refine ⟨hdialect, hhost, fun word slot hslot => ?_⟩
  rcases hslot with hslot | hslot
  · obtain ⟨p, hget, -⟩ := (hdialect word slot).mp hslot
    exact (List.getElem?_eq_some_iff.mp hget).1
  · obtain ⟨p, hget, -⟩ := (hhost word slot).mp hslot
    exact (List.getElem?_eq_some_iff.mp hget).1

end Bounded

/-- Look-ups of a dictionary are exact and undo each other, and there are as many answers as
entries. A dictionary with tables is made from the same lists, its tables name places in them, and
reading these places gives the same answers. -/
theorem Dictionary.lookups_exact (d : Dictionary) :
    (∀ dialect host cls,
      d.hostFor? dialect = some (host, cls) ↔ ⟨cls, ⟨dialect, host⟩⟩ ∈ d.entries) ∧
    (∀ dialect host,
      d.dialectFor? host = some dialect ↔ ∃ cls, ⟨cls, ⟨dialect, host⟩⟩ ∈ d.entries) ∧
    (∀ dialect host,
      (∃ cls, d.hostFor? dialect = some (host, cls)) ↔ d.dialectFor? host = some dialect) ∧
    {dialect | (d.hostFor? dialect).isSome}.encard = d.size ∧
    ∃ r, Bounded.Registry.ofLists d.structural d.callable = .ok r ∧ r.Indexed ∧
      ∀ word, r.hostFor? word = pure (d.hostFor? word) ∧
        r.dialectFor? word = pure (d.dialectFor? word) := by
  refine ⟨fun _ _ _ => d.hostFor?_eq_some_iff, fun _ _ => d.dialectFor?_eq_some_iff,
    fun dialect host => ?_, d.encard_answered, ?_⟩
  · simp only [d.hostFor?_eq_some_iff, d.dialectFor?_eq_some_iff]
  · obtain ⟨r, hok, hstored⟩ := Bounded.exists_stored d
    exact ⟨r, hok, Bounded.indexed_stored hstored,
      fun word => ⟨Bounded.hostFor?_ends hstored word, Bounded.dialectFor?_ends hstored word⟩⟩

end Calque

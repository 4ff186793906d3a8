import Calque.Proofs.Visits
import Mathlib.Data.List.SplitBy

namespace Calque

open Lexical

structure Span (α : Type) where
  start : Nat
  items : List α

section Lists

variable {α β : Type} {key : α → Option Nat} {key' : β → Option Nat}

def spans (key : α → Option Nat) (as : List α) : List (Span α) :=
  (as.splitBy fun a b => key a = key b).filterMap fun block =>
    (block.head?.bind key).map (⟨·, block⟩)

theorem splitBy_cons {r : α → α → Bool} {a b : α} (h : r a b = true) (as : List α) :
    (a :: b :: as).splitBy r = ((b :: as).splitBy r).modifyHead (a :: ·) := by
  obtain ⟨hflat, hne, hchain, hlast⟩ := List.splitBy_eq_iff.mp (rfl : (b :: as).splitBy r = _)
  cases hg : (b :: as).splitBy r with
  | nil => cases List.splitBy_eq_nil.mp hg
  | cons g gs =>
      rw [hg] at hflat hne hchain hlast
      cases g with
      | nil => exact absurd (List.mem_cons_self ..) hne
      | cons c g =>
          obtain ⟨rfl, rfl⟩ : b = c ∧ as = g ++ gs.flatten := by simpa using hflat
          refine List.splitBy_eq_iff.mpr ⟨by simp, ?_, ?_, ?_⟩
          · simpa using hne
          · intro m hm
            rcases List.mem_cons.mp hm with rfl | hm
            · exact List.isChain_cons_cons.mpr ⟨h, hchain _ (List.mem_cons_self ..)⟩
            · exact hchain m (List.mem_cons_of_mem _ hm)
          · rw [List.modifyHead_cons, List.isChain_cons] at *
            refine ⟨fun m hm => ?_, hlast.2⟩
            obtain ⟨_, hb, hr⟩ := hlast.1 m hm
            exact ⟨by simp, hb, by simpa using hr⟩

theorem splitBy_cons_ne {r : α → α → Bool} {a b : α} (h : r a b = false) (as : List α) :
    (a :: b :: as).splitBy r = [a] :: (b :: as).splitBy r :=
  List.splitBy_append_cons (l := [a]) as fun x hx => by
    cases hx
    exact h

theorem key_of_chain {as : List α} (h : as.IsChain fun a b => decide (key a = key b)) :
    ∀ a ∈ as, key a = as.head?.bind key := by
  induction as with
  | nil => simp
  | cons a as ih =>
      obtain ⟨hhead, htail⟩ := List.isChain_cons.mp h
      intro b hb
      rcases List.mem_cons.mp hb with rfl | hb
      · rfl
      · rw [ih htail b hb]
        cases as with
        | nil => cases hb
        | cons c as => exact (of_decide_eq_true (hhead c rfl)).symm

theorem mem_spans {as : List α} {s : Span α} (hs : s ∈ spans key as) :
    ∀ a ∈ s.items, a ∈ as ∧ key a = some s.start := by
  obtain ⟨block, hblock, hs⟩ := List.mem_filterMap.mp hs
  obtain ⟨q, hq, rfl⟩ := Option.map_eq_some_iff.mp hs
  intro a ha
  constructor
  · rw [← List.flatten_splitBy (fun a b => decide (key a = key b)) as]
    exact List.mem_flatten_of_mem hblock ha
  · rw [key_of_chain (List.isChain_of_mem_splitBy hblock) a ha, hq]

theorem splitBy_block {as bs : List α} (hne : bs ≠ [])
    (has : ∀ a ∈ as, key a = bs.head?.bind key) :
    (as ++ bs).splitBy (fun a b => key a = key b) =
      (bs.splitBy fun a b => key a = key b).modifyHead (as ++ ·) := by
  induction as with
  | nil =>
      rw [List.nil_append]
      cases bs.splitBy fun a b => key a = key b <;> rfl
  | cons a as ih =>
      have ih := ih fun b hb => has b (List.mem_cons_of_mem _ hb)
      obtain ⟨c, cs, hc⟩ := List.exists_cons_of_ne_nil (List.append_ne_nil_of_right_ne_nil as hne)
      have hsame : key a = key c := by
        rw [has a (List.mem_cons_self ..)]
        cases as with
        | nil =>
            rw [List.nil_append] at hc
            rw [hc]
            rfl
        | cons b as =>
            cases hc
            exact (has _ (by simp)).symm
      rw [List.cons_append, hc, splitBy_cons (decide_eq_true hsame), ← hc, ih,
        List.modifyHead_modifyHead]
      rfl

theorem splitBy_same {as : List α} (hne : as ≠ []) {k : Option Nat} (has : ∀ a ∈ as, key a = k) :
    as.splitBy (fun a b => key a = key b) = [as] := by
  apply List.splitBy_of_isChain hne
  induction as with
  | nil => exact absurd rfl hne
  | cons a as ih =>
      cases as with
      | nil => exact List.isChain_singleton _
      | cons b as =>
          have has' : ∀ c ∈ b :: as, key c = k := fun c hc => has c (List.mem_cons_of_mem _ hc)
          refine List.isChain_cons_cons.mpr ⟨decide_eq_true ?_, ih (by simp) has'⟩
          rw [has a (by simp), has b (by simp)]

/-- Blocks of blocks: where every item stands for some others with its key, so does a block. -/
theorem splitBy_flatMap {E : α → List β} {xs : List α} (hne : ∀ x ∈ xs, E x ≠ [])
    (hkey : ∀ x ∈ xs, ∀ b ∈ E x, key' b = key x) :
    (xs.flatMap E).splitBy (fun a b => key' a = key' b) =
      (xs.splitBy fun a b => key a = key b).map (·.flatMap E) := by
  induction xs with
  | nil => rfl
  | cons x xs ih =>
      have hx := hne x (by simp)
      have hkx := hkey x (by simp)
      cases xs with
      | nil =>
          rw [List.flatMap_cons, List.flatMap_nil, List.append_nil, splitBy_same hx hkx]
          exact congrArg ([·]) (List.append_nil _).symm
      | cons y ys =>
          have ih := ih (fun z hz => hne z (by simp [hz])) (fun z hz => hkey z (by simp [hz]))
          have hy := hne y (by simp)
          have hflat : (y :: ys).flatMap E ≠ [] := by
            rw [List.flatMap_cons]
            exact List.append_ne_nil_of_left_ne_nil hy _
          have hhead : ((y :: ys).flatMap E).head?.bind key' = key y := by
            obtain ⟨b, bs, hb⟩ := List.exists_cons_of_ne_nil hy
            rw [List.flatMap_cons, List.head?_append_of_ne_nil _ hy, hb]
            exact hkey y (by simp) b (by simp [hb])
          rw [List.flatMap_cons]
          by_cases h : key x = key y
          · rw [splitBy_block hflat fun b hb => by rw [hhead, ← h, hkx b hb], ih,
              splitBy_cons (decide_eq_true h)]
            cases (y :: ys).splitBy fun a b => decide (key a = key b) <;> rfl
          · have hcut : ∀ a ∈ (E x).getLast?, ∀ b ∈ ((y :: ys).flatMap E).head?,
                decide (key' a = key' b) = false := by
              intro a ha b hb
              rw [Option.mem_def.mp hb, Option.bind_some] at hhead
              rw [hkx a (List.mem_of_mem_getLast? ha), hhead]
              exact decide_eq_false h
            rw [List.splitBy_append hcut, ih, splitBy_same hx hkx,
              splitBy_cons_ne (decide_eq_false h), List.map_cons, List.flatMap_singleton]
            rfl

theorem spans_flatMap {E : α → List β} {xs : List α} (hne : ∀ x ∈ xs, E x ≠ [])
    (hkey : ∀ x ∈ xs, ∀ b ∈ E x, key' b = key x) :
    spans key' (xs.flatMap E) = (spans key xs).map fun s => ⟨s.start, s.items.flatMap E⟩ := by
  rw [spans, splitBy_flatMap hne hkey, spans, List.filterMap_map, List.map_filterMap]
  refine List.filterMap_congr fun block hblock => ?_
  cases block with
  | nil => rfl
  | cons x block =>
      have hx : x ∈ xs := by
        rw [← List.flatten_splitBy (fun a b => decide (key a = key b)) xs]
        exact List.mem_flatten_of_mem hblock (List.mem_cons_self ..)
      obtain ⟨b, bs, hb⟩ := List.exists_cons_of_ne_nil (hne x hx)
      have hhead : ((x :: block).flatMap E).head?.bind key' = key x := by
        rw [List.flatMap_cons, hb]
        exact hkey x hx b (by simp [hb])
      simp only [Function.comp_apply, hhead, List.head?_cons, Option.bind_some, Option.map_map]
      rfl

theorem same_iff {a b : α} (h : ∀ p ∈ key a, ∀ q ∈ key b, p = q) :
    key a = key b ↔ (key a).isSome = (key b).isSome := by
  cases ha : key a <;> cases hb : key b <;> simp_all

variable {R : α → β → Prop} (hR : ∀ a b, R a b → (key a).isSome = (key' b).isSome)
include hR

theorem splitBy_forall₂ {as : List α} {bs : List β} (h : List.Forall₂ R as bs)
    (has : Steady key as) (hbs : Steady key' bs) :
    List.Forall₂ (List.Forall₂ R) (as.splitBy fun a b => key a = key b)
      (bs.splitBy fun a b => key' a = key' b) := by
  induction h with
  | nil => exact .nil
  | cons hab h ih =>
      rename_i a b as bs
      cases h with
      | nil => exact .cons (.cons hab .nil) .nil
      | cons hcd h =>
          rename_i c d as bs
          obtain ⟨hac, has⟩ := List.isChain_cons_cons.mp has
          obtain ⟨hbd, hbs⟩ := List.isChain_cons_cons.mp hbs
          have ih := ih has hbs
          have hsame : key a = key c ↔ key' b = key' d := by
            rw [same_iff hac, same_iff hbd, hR a b hab, hR c d hcd]
          by_cases hk : key a = key c
          · rw [splitBy_cons (decide_eq_true hk), splitBy_cons (decide_eq_true (hsame.mp hk))]
            generalize (c :: as).splitBy _ = gs at ih ⊢
            generalize (d :: bs).splitBy _ = gs' at ih ⊢
            cases ih with
            | nil => exact .nil
            | cons hg ih => exact .cons (.cons hab hg) ih
          · rw [splitBy_cons_ne (decide_eq_false hk),
              splitBy_cons_ne (decide_eq_false fun he => hk (hsame.mpr he))]
            exact .cons (.cons hab .nil) ih

theorem spans_forall₂ {as : List α} {bs : List β} (h : List.Forall₂ R as bs)
    (has : Steady key as) (hbs : Steady key' bs) :
    List.Forall₂ (fun s t => List.Forall₂ R s.items t.items) (spans key as) (spans key' bs) := by
  refine List.rel_filterMap ?_ (splitBy_forall₂ hR h has hbs)
  intro g g' hg
  cases hg with
  | nil => exact .none
  | cons hab hg =>
      rename_i a b g g'
      have hsome := hR a b hab
      simp only [List.head?_cons, Option.bind_some]
      cases ha : key a <;> cases hb : key' b
      · exact .none
      · simp [ha, hb] at hsome
      · simp [ha, hb] at hsome
      · exact .some (.cons hab hg)

end Lists

/-- The literals of a text: its bytes with their offsets, as far as they stand in a literal. -/
def literals (text : String) : List (Span (UInt8 × Nat)) :=
  spans (fun p => (Index.ofText text).stringStart? p.2) (bytes text.toList).zipIdx

def Span.bytes (s : Span (UInt8 × Nat)) : List UInt8 := s.items.map (·.1)

def Span.offsets (s : Span (UInt8 × Nat)) : List Nat := s.items.map (·.2)

def stops (text : String) : List Visit := (Runs.ofText text.toList).filled .start

theorem mem_stops {text : String} {v : Visit} (hv : v ∈ stops text) :
    v ∈ (Runs.ofText text.toList).visits .start :=
  List.mem_of_mem_filter hv

theorem literals_visits (text : String) : literals text =
    (spans Visit.start? (stops text)).map fun s => ⟨s.start, s.items.flatMap Visit.content⟩ := by
  have hcontent : (stops text).flatMap Visit.content = (bytes text.toList).zipIdx := by
    rw [stops, content_filled, Runs.text_ofText]
    rfl
  rw [literals, ← hcontent]
  apply spans_flatMap
  · intro v hv
    exact content_ne_nil (by simpa using (List.mem_filter.mp hv).2)
  · intro v hv p hp
    exact start_content (mem_stops hv) hp

theorem bytes_content (vs : List Visit) :
    (vs.flatMap Visit.content).map (·.1) = bytes (vs.flatMap Visit.text) := by
  induction vs with
  | nil => rfl
  | cons v vs ih =>
      rw [List.flatMap_cons, List.flatMap_cons, List.map_append, ih, bytes_append, Visit.content,
        List.zipIdx_map_fst]

end Calque

import Calque.Embedding
import Calque.Proofs.Skeleton

namespace Calque

theorem zero_mem_encode (c : Char) : 0 ∈ String.utf8EncodeChar c ↔ c = '\x00' := by
  constructor
  · intro h
    by_cases hc : c.toNat < 128
    · have hc : c.val.toNat ≤ 127 := Nat.le_of_lt_succ hc
      rw [String.utf8EncodeChar] at h
      simp only [if_pos hc, List.mem_singleton] at h
      have hn : c.toNat = 0 := by
        have h := congrArg UInt8.toNat h
        rw [UInt8.toNat_ofNat'] at h
        have hc' : c.val.toNat % 256 = 0 := h.symm
        change c.val.toNat = 0
        omega
      rw [← Char.ofNat_toNat c, hn]
    · cases Lexical.byte_high (Nat.not_lt.mp hc) h
  · rintro rfl
    decide

theorem zero_mem_bytes {text : List Char} : 0 ∈ bytes text ↔ '\x00' ∈ text := by
  simp [bytes, List.mem_flatMap, zero_mem_encode]

theorem zero_toHost {d : Dictionary} {o : Options} {source : String}
    (h : 0 ∉ bytes source.toList) : 0 ∉ bytes (d.toHost o source).toList := by
  rw [zero_mem_bytes] at h ⊢
  have hcount := count_kept (c := '\x00') (by decide) (d.filter_toHost o source)
  rw [List.count_eq_zero.mpr h, List.count_eq_zero] at hcount
  exact hcount

namespace Embedding

theorem untilNul_append {content : List UInt8} (h : 0 ∉ content) (rest : List UInt8) :
    untilNul (content ++ 0 :: rest) = content := by
  have hcontent : ∀ b ∈ content, decide (b ≠ 0) = true := by
    intro b hb
    simpa using fun he : b = 0 => h (he ▸ hb)
  rw [untilNul, List.takeWhile_append_of_pos hcontent]
  simp

theorem encode_eq (text : List Char) : (⟨(bytes text).toArray⟩ : ByteArray) = text.utf8Encode := by
  apply ByteArray.ext
  rw [List.utf8Encode, List.data_toByteArray]
  rfl

theorem fromUTF8?_bytes (source : String) :
    String.fromUTF8? ⟨(bytes source.toList).toArray⟩ = some source := by
  have hbytes : (⟨(bytes source.toList).toArray⟩ : ByteArray) = source.toByteArray := by
    rw [encode_eq, ← String.toByteArray_ofList, String.ofList_toList]
  rw [hbytes, String.fromUTF8?, dif_pos source.isValidUTF8]
  rfl

theorem fromUTF8?_eq_none_iff {content : List UInt8} :
    String.fromUTF8? ⟨content.toArray⟩ = none ↔
      ∀ source : String, bytes source.toList ≠ content := by
  constructor
  · rintro h source rfl
    rw [fromUTF8?_bytes] at h
    cases h
  · intro h
    rw [String.fromUTF8?, dif_neg]
    rintro ⟨text, htext⟩
    rw [← encode_eq] at htext
    apply h (.ofList text)
    rw [String.toList_ofList]
    exact (List.toArray_inj (ByteArray.mk.inj htext)).symm

/-- The answer to a call, whatever session it comes in. -/
def Call.answer : Call → Answer
  | .init => .ready true
  | .toHost none => .memory none
  | .toHost (some memory) =>
    match String.fromUTF8? ⟨(untilNul memory).toArray⟩ with
    | none => .memory none
    | some source => .memory (handOut? (Dictionary.builtin.toHost { } source))

theorem answer_broken {content : List UInt8} (h : 0 ∉ content) (rest : List UInt8)
    (hbroken : ∀ source : String, bytes source.toList ≠ content) :
    (Call.toHost (some (content ++ 0 :: rest))).answer = .memory none := by
  rw [Call.answer, untilNul_append h, fromUTF8?_eq_none_iff.mpr hbroken]

theorem answer_text {source : String} (h : 0 ∉ bytes source.toList) (rest : List UInt8) :
    (Call.toHost (some (bytes source.toList ++ 0 :: rest))).answer =
      .memory (some (bytes (Dictionary.builtin.toHost { } source).toList ++ [0])) := by
  rw [Call.answer, untilNul_append h, fromUTF8?_bytes]
  simp only [handOut?, if_neg (zero_toHost h)]

namespace Session

/-- The dictionary is the built-in one, if there is one yet, and nothing but its announcement has
been told. -/
structure Valid (s : Session) : Prop where
  dictionary : ∀ d ∈ s.dictionary, d = Dictionary.builtin
  notices : s.notices = if s.announced then [.ready] else []

theorem start_valid : start.Valid := by
  refine ⟨fun d hd => ?_, rfl⟩
  cases hd

variable {s : Session} (h : s.Valid)
include h

theorem demand_valid : ∃ s', s.demand = (some Dictionary.builtin, s') ∧ s'.Valid ∧
    s'.announced = s.announced := by
  rcases s with ⟨announced, dictionary, notices⟩
  cases dictionary with
  | none =>
      rw [demand, Dictionary.ofLists_eq_ok Dictionary.builtin_sound]
      exact ⟨_, rfl, ⟨fun d hd => (Option.some.inj hd).symm, h.notices⟩, rfl⟩
  | some d =>
      cases h.dictionary d rfl
      exact ⟨_, rfl, h, rfl⟩

theorem announce_valid (hs : s.announced = false) :
    s.announce.Valid ∧ s.announce.announced = true := by
  obtain ⟨s', hdemand, hvalid, hannounced⟩ := demand_valid h
  rw [announce, hdemand]
  refine ⟨⟨hvalid.dictionary, ?_⟩, rfl⟩
  have hnotices := hvalid.notices
  rw [hannounced, hs] at hnotices
  simp [tell, hnotices]

theorem init_valid : ∃ s', s.init = (true, s') ∧ s'.Valid ∧ s'.announced = true := by
  rw [init]
  cases hs : s.announced with
  | true =>
      obtain ⟨s', hdemand, hvalid, hannounced⟩ := demand_valid h
      refine ⟨s', ?_, hvalid, hannounced.trans hs⟩
      simp [hdemand]
  | false =>
      obtain ⟨hannounce, htold⟩ := announce_valid h hs
      obtain ⟨s', hdemand, hvalid, hannounced⟩ := demand_valid hannounce
      refine ⟨s', ?_, hvalid, hannounced.trans htold⟩
      simp [hdemand]

/-- A call is answered the same in every session, and only announces what has not been announced. -/
theorem call_valid (c : Call) : ∃ s', s.call c = (c.answer, s') ∧ s'.Valid ∧
    s'.announced = (s.announced || c = .init) := by
  cases c with
  | init =>
      obtain ⟨s', hinit, hvalid, hannounced⟩ := init_valid h
      exact ⟨s', by rw [call, hinit, Call.answer], hvalid, by simp [hannounced]⟩
  | toHost memory =>
      cases memory with
      | none => exact ⟨s, rfl, h, by simp⟩
      | some memory =>
          rw [call, toHost?, Call.answer]
          cases hsource : String.fromUTF8? ⟨(untilNul memory).toArray⟩ with
          | none => exact ⟨s, rfl, h, by simp⟩
          | some source =>
              obtain ⟨s', hdemand, hvalid, hannounced⟩ := demand_valid h
              refine ⟨s', ?_, hvalid, by simp [hannounced]⟩
              simp only [hdemand]

theorem run_valid (calls : List Call) : ∃ s', s.run calls = (calls.map Call.answer, s') ∧ s'.Valid ∧
    s'.announced = (s.announced || .init ∈ calls) := by
  induction calls generalizing s with
  | nil => exact ⟨s, rfl, h, by simp⟩
  | cons c calls ih =>
      obtain ⟨s', hcall, hvalid, hannounced⟩ := call_valid h c
      obtain ⟨s'', hrun, hvalid', hannounced'⟩ := ih hvalid
      refine ⟨s'', ?_, hvalid', ?_⟩
      · rw [run, hcall]
        simp only [hrun, List.map_cons]
      · rw [hannounced', hannounced, Bool.or_assoc]
        simp [eq_comm]

end Session

theorem answer_eq_ready_iff {c : Call} : c.answer = .ready true ↔ c = .init := by
  constructor
  · intro h
    cases c with
    | init => rfl
    | toHost memory =>
        cases memory with
        | none => cases h
        | some memory =>
            rw [Call.answer] at h
            split at h <;> cases h
  · rintro rfl
    rfl

/-- Every call is answered by what it brings along. So calls to get ready make no difference to the
other answers, and what is told is one announcement. There is no answer where nothing is given or
the bytes before the NUL are no text; otherwise the whole translation is read back. -/
theorem run_answers (calls : List Call) :
    (Session.start.run calls).1 = calls.map Call.answer ∧
      (Session.start.run calls).1.filter (· ≠ .ready true) =
        (Session.start.run (calls.filter (· ≠ .init))).1 ∧
      (Session.start.run calls).2.notices = (if .init ∈ calls then [.ready] else []) ∧
      Call.init.answer = .ready true ∧ (Call.toHost none).answer = .memory none ∧
      ∀ content rest : List UInt8, 0 ∉ content →
        ((Call.toHost (some (content ++ 0 :: rest))).answer = .memory none ↔
          ∀ source : String, bytes source.toList ≠ content) ∧
        ∀ source : String, bytes source.toList = content →
          ∃ m, (Call.toHost (some (content ++ 0 :: rest))).answer = .memory (some m) ∧
            ∀ beyond, untilNul (m ++ beyond) =
              bytes (Dictionary.builtin.toHost { } source).toList := by
  have hanswers : ∀ calls, (Session.start.run calls).1 = calls.map Call.answer := by
    intro calls
    obtain ⟨_, hrun, -⟩ := Session.run_valid Session.start_valid calls
    rw [hrun]
  refine ⟨hanswers calls, ?_, ?_, rfl, rfl, ?_⟩
  · rw [hanswers, hanswers, List.filter_map]
    congr 1
    apply List.filter_congr
    intro c _
    simp [answer_eq_ready_iff]
  · obtain ⟨s', hrun, hvalid, hannounced⟩ := Session.run_valid Session.start_valid calls
    rw [hrun, hvalid.notices, hannounced]
    simp [Session.start]
  · intro content rest hcontent
    refine ⟨⟨?_, answer_broken hcontent rest⟩, ?_⟩
    · rintro hnone source rfl
      rw [answer_text hcontent] at hnone
      cases hnone
    · rintro source rfl
      refine ⟨_, answer_text hcontent rest, fun beyond => ?_⟩
      rw [List.append_assoc]
      exact untilNul_append (zero_toHost hcontent) beyond

/-- A text after which the memory goes on, and bytes that are no text, with calls to get ready
between them. -/
theorem run_answers_between :
    (∃ m, (Session.start.run [.toHost (some [0xFF, 0xFE, 0]), .init, .init,
        .toHost (some (bytes "se".toList ++ 0 :: [0xFF]))]).1 =
          [.memory none, .ready true, .ready true, .memory (some m)] ∧
        untilNul m = bytes "if".toList) ∧
      0 ∉ bytes "se".toList ∧ 0 ∉ ([0xFF, 0xFE] : List UInt8) := by
  have hse : 0 ∉ bytes "se".toList := by decide
  have hbroken : 0 ∉ ([0xFF, 0xFE] : List UInt8) := by decide
  have hif : Dictionary.builtin.toHost { } "se" = "if" := by decide +kernel
  obtain ⟨hrun, -, -, hinit, -, hmemory⟩ := run_answers
    [.toHost (some [0xFF, 0xFE, 0]), .init, .init,
      .toHost (some (bytes "se".toList ++ 0 :: [0xFF]))]
  obtain ⟨m, hm, hread⟩ := (hmemory _ [0xFF] hse).2 "se" rfl
  have hnone : (Call.toHost (some [0xFF, 0xFE, 0])).answer = .memory none := by
    apply (hmemory _ [] hbroken).1.mpr
    apply fromUTF8?_eq_none_iff.mp
    decide +kernel
  refine ⟨⟨m, ?_, ?_⟩, hse, hbroken⟩
  · rw [hrun, List.map_cons, List.map_cons, List.map_cons, List.map_cons, hnone, hinit, hm]
    rfl
  · have hread := hread []
    rwa [List.append_nil, hif] at hread

end Embedding

end Calque

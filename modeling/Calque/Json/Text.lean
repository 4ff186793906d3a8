import Calque.Json.Fault
import Calque.Json.Grammar
import Calque.Outcome
import Calque.Text.Bytes

namespace Calque.Json

def readUnit (cs : List Char) : Except Fault (Nat × List Char) :=
  match cs with
  | a :: b :: c :: d :: rest =>
    match hexDigit? a, hexDigit? b, hexDigit? c, hexDigit? d with
    | some a, some b, some c, some d => .ok (((a * 16 + b) * 16 + c) * 16 + d, rest)
    | _, _, _, _ => .error .malformedEscape
  | cs => if width cs < 4 then .error (.ended .string) else .error .malformedEscape

def isLeading (n : Nat) : Bool := 0xD800 ≤ n && n < 0xDC00

def isTrailing (n : Nat) : Bool := 0xDC00 ≤ n && n < 0xE000

def readTrailing (cs : List Char) : Except Fault (Nat × List Char) :=
  match cs with
  | [] | ['\\'] => .error (.ended .string)
  | '\\' :: 'u' :: cs => do
    let (n, cs) ← readUnit cs
    if isTrailing n then .ok (n, cs) else .error .loneSurrogate
  | _ => .error .brokenPair

/-- The character of an escape by code unit. When the text is only passed over (`strict` is false)
surrogates need no partner. -/
def readUnicode (strict : Bool) (cs : List Char) : Except Fault (Char × List Char) := do
  let (n, cs) ← readUnit cs
  if !strict then .ok (Char.ofNat n, cs)
  else if isTrailing n then .error .loneSurrogate
  else if isLeading n then do
    let (m, cs) ← readTrailing cs
    .ok (Char.ofNat (0x10000 + (n - 0xD800) * 0x400 + (m - 0xDC00)), cs)
  else .ok (Char.ofNat n, cs)

def readEscape (strict : Bool) : List Char → Except Fault (Char × List Char)
  | [] => .error (.ended .string)
  | 'u' :: cs => readUnicode strict cs
  | '"' :: cs => .ok ('"', cs)
  | '\\' :: cs => .ok ('\\', cs)
  | '/' :: cs => .ok ('/', cs)
  | 'b' :: cs => .ok ('\x08', cs)
  | 'f' :: cs => .ok ('\x0c', cs)
  | 'n' :: cs => .ok ('\n', cs)
  | 'r' :: cs => .ok ('\r', cs)
  | 't' :: cs => .ok ('\t', cs)
  | _ => .error .malformedEscape

theorem length_readUnit {cs rest : List Char} {n : Nat} (h : readUnit cs = .ok (n, rest)) :
    rest.length < cs.length := by
  unfold readUnit at h
  split at h
  · split at h
    · cases h; simp; omega
    · cases h
  · split at h <;> cases h

theorem length_readTrailing {cs rest : List Char} {n : Nat} (h : readTrailing cs = .ok (n, rest)) :
    rest.length < cs.length := by
  unfold readTrailing at h
  split at h
  · cases h
  · cases h
  · obtain ⟨r, hu, h⟩ := bind_eq_ok.mp h
    have := length_readUnit hu
    simp only at h
    split at h
    · cases h
      simp only [List.length_cons]
      omega
    · cases h
  · cases h

theorem length_readUnicode {strict : Bool} {cs rest : List Char} {c : Char}
    (h : readUnicode strict cs = .ok (c, rest)) : rest.length < cs.length := by
  obtain ⟨r, hu, h⟩ := bind_eq_ok.mp h
  have hr := length_readUnit hu
  simp only at h
  split at h
  · cases h
    exact hr
  split at h
  · cases h
  split at h
  · obtain ⟨q, ht, h⟩ := bind_eq_ok.mp h
    obtain ⟨-, rfl⟩ := Prod.mk.inj (Except.ok.inj h)
    exact Nat.lt_trans (length_readTrailing ht) hr
  · cases h
    exact hr

theorem length_readEscape {strict : Bool} {cs rest : List Char} {c : Char}
    (h : readEscape strict cs = .ok (c, rest)) : rest.length < cs.length := by
  unfold readEscape at h
  split at h
  · cases h
  · exact Nat.lt_succ_of_lt (length_readUnicode h)
  all_goals first | (cases h; simp) | cases h

def readString (strict : Bool) : List Char → Except Fault (List Char × List Char)
  | [] => .error (.ended .string)
  | c :: cs =>
    if c = '"' then .ok ([], cs)
    else if c = '\\' then
      match _h : readEscape strict cs with
      | .error fault => .error fault
      | .ok (c, rest) => do
        let (text, rest) ← readString strict rest
        .ok (c :: text, rest)
    else if c < ' ' then .error .controlCharacter
    else do
      let (text, rest) ← readString strict cs
      .ok (c :: text, rest)
termination_by cs => cs.length
decreasing_by
  · have := length_readEscape _h; simp; omega
  · simp

theorem length_readString {strict : Bool} {cs text rest : List Char}
    (h : readString strict cs = .ok (text, rest)) : rest.length < cs.length := by
  induction hn : cs.length using Nat.strongRecOn generalizing cs text with
  | ind n ih =>
    subst hn
    cases cs with
    | nil => simp [readString] at h
    | cons c cs =>
      rw [readString] at h
      split at h
      · cases h
        exact Nat.lt_succ_self _
      split at h
      · split at h
        · cases h
        · rename_i c' rest' he
          have hl := length_readEscape he
          obtain ⟨r, hr, h⟩ := bind_eq_ok.mp h
          cases h
          have := ih rest'.length (by simp only [List.length_cons]; omega) hr rfl
          simp only [List.length_cons]
          omega
      split at h
      · cases h
      · obtain ⟨r, hr, h⟩ := bind_eq_ok.mp h
        cases h
        exact Nat.lt_succ_of_lt (ih cs.length (Nat.lt_succ_self _) hr rfl)

end Calque.Json

import Calque.Json.Numeral
import Calque.Json.Text

namespace Calque.Json

inductive Scalar
  | null
  | bool (b : Bool)
  | number (n : Number)
  deriving DecidableEq, Repr

inductive Token
  | openBrace
  | closeBrace
  | openBracket
  | closeBracket
  | comma
  | colon
  | scalar (read : Except Fault Scalar) (pass : Except Fault Unit)
  | string (read : Except Fault String) (pass : Except Fault Unit)
  /-- A character that starts no token. -/
  | stray (c : Char)

def expectWord : (word cs : List Char) → Except Fault (List Char)
  | [], cs => .ok cs
  | _ :: _, [] => .error (.ended .value)
  | w :: ws, c :: cs => if w = c then expectWord ws cs else .error .misspeltWord

def lexWord (rest : List Char) (value : Scalar) (cs : List Char) : Token × List Char :=
  match expectWord rest cs with
  | .ok cs => (.scalar (.ok value) (.ok ()), cs)
  | .error fault => (.scalar (.error fault) (.error fault), [])

def lexNumber (negative : Bool) (cs : List Char) : Token × List Char :=
  match scanNumeral negative cs with
  | .ok (x, cs) => (.scalar (x.toNumber.map .number) (.ok ()), cs)
  | .error fault => (.scalar (.error fault) (.error .malformedNumber), [])

def lexString (cs : List Char) : Token × List Char :=
  let read := (readString true cs).map fun r => String.ofList r.1
  match readString false cs with
  | .ok (_, cs) => (.string read (.ok ()), cs)
  | .error fault => (.string read (.error fault), [])

def punctuation? (c : Char) : Option Token :=
  if c = '\x7b' then some .openBrace
  else if c = '\x7d' then some .closeBrace
  else if c = '[' then some .openBracket
  else if c = ']' then some .closeBracket
  else if c = ',' then some .comma
  else if c = ':' then some .colon
  else none

def lexLiteral (c : Char) (cs : List Char) : Token × List Char :=
  if c = '"' then lexString cs
  else if c = 'n' then lexWord ['u', 'l', 'l'] .null cs
  else if c = 't' then lexWord ['r', 'u', 'e'] (.bool true) cs
  else if c = 'f' then lexWord ['a', 'l', 's', 'e'] (.bool false) cs
  else if c = '-' then lexNumber true cs
  else if c.isDigit then lexNumber false (c :: cs)
  else (.stray c, cs)

def lexToken (c : Char) (cs : List Char) : Token × List Char :=
  match punctuation? c with
  | some t => (t, cs)
  | none => lexLiteral c cs

theorem length_expectWord {ws cs rest : List Char} (h : expectWord ws cs = .ok rest) :
    rest.length ≤ cs.length := by
  induction ws generalizing cs with
  | nil => cases h; exact Nat.le_refl _
  | cons w ws ih =>
    cases cs with
    | nil => cases h
    | cons c cs =>
      simp only [expectWord] at h
      split at h
      · exact Nat.le_succ_of_le (ih h)
      · cases h

theorem length_lexWord (rest : List Char) (value : Scalar) (cs : List Char) :
    (lexWord rest value cs).2.length ≤ cs.length := by
  unfold lexWord
  split
  · exact length_expectWord ‹_›
  · simp

theorem length_someDigits {cs ds rest : List Char} (h : someDigits cs = .ok (ds, rest)) :
    rest.length < cs.length := by
  cases cs with
  | nil => cases h
  | cons c cs =>
    simp only [someDigits] at h
    split at h
    · rename_i hc
      obtain ⟨-, rfl⟩ := Prod.mk.inj (Except.ok.inj h)
      rw [List.dropWhile_cons_of_pos hc]
      exact Nat.lt_succ_of_le (List.dropWhile_sublist _).length_le
    · cases h

theorem length_scanWhole {cs ds rest : List Char} (h : scanWhole cs = .ok (ds, rest)) :
    rest.length < cs.length := by
  obtain ⟨r, hd, h⟩ := bind_eq_ok.mp h
  have hlength := length_someDigits hd
  simp only at h
  split at h
  · cases h
  · cases h
    exact hlength

theorem length_scanFraction {cs ds rest : List Char} (h : scanFraction cs = .ok (ds, rest)) :
    rest.length ≤ cs.length := by
  unfold scanFraction at h
  split at h
  · have := length_someDigits h; simp; omega
  · obtain ⟨-, rfl⟩ := Prod.mk.inj (Except.ok.inj h)
    exact Nat.le_refl _

theorem length_scanSign (cs : List Char) : (scanSign cs).2.length ≤ cs.length := by
  unfold scanSign
  split <;> simp

theorem length_scanExponent {cs rest : List Char} {e : Option (Bool × List Char)}
    (h : scanExponent cs = .ok (e, rest)) : rest.length ≤ cs.length := by
  unfold scanExponent at h
  split at h
  · cases h
    exact Nat.le_refl _
  · rename_i c cs
    split at h
    · have hs := length_scanSign cs
      generalize scanSign cs = signed at h hs
      obtain ⟨r, hd, h⟩ := bind_eq_ok.mp h
      have := length_someDigits hd
      cases h
      simp only [List.length_cons]
      omega
    · cases h
      exact Nat.le_refl _

theorem length_scanNumeral {negative : Bool} {cs rest : List Char} {x : Numeral}
    (h : scanNumeral negative cs = .ok (x, rest)) : rest.length < cs.length := by
  obtain ⟨w, hw, h⟩ := bind_eq_ok.mp h
  obtain ⟨f, hf, h⟩ := bind_eq_ok.mp h
  obtain ⟨e, he, h⟩ := bind_eq_ok.mp h
  cases h
  have := length_scanWhole hw
  have := length_scanFraction hf
  have := length_scanExponent he
  omega

theorem length_lexNumber (negative : Bool) (cs : List Char) :
    (lexNumber negative cs).2.length ≤ cs.length - 1 := by
  unfold lexNumber
  split
  · have := length_scanNumeral ‹_›; simp only; omega
  · simp

theorem length_lexString (cs : List Char) : (lexString cs).2.length ≤ cs.length := by
  unfold lexString
  simp only
  split
  · exact Nat.le_of_lt (length_readString ‹_›)
  · simp

theorem length_lexLiteral (c : Char) (cs : List Char) :
    (lexLiteral c cs).2.length ≤ cs.length := by
  have hn := length_lexNumber true cs
  have hd := length_lexNumber false (c :: cs)
  rw [List.length_cons, Nat.add_sub_cancel] at hd
  unfold lexLiteral
  by_cases h : c = '"'
  · rw [if_pos h]; exact length_lexString cs
  rw [if_neg h]
  by_cases h : c = 'n'
  · rw [if_pos h]; exact length_lexWord ..
  rw [if_neg h]
  by_cases h : c = 't'
  · rw [if_pos h]; exact length_lexWord ..
  rw [if_neg h]
  by_cases h : c = 'f'
  · rw [if_pos h]; exact length_lexWord ..
  rw [if_neg h]
  by_cases h : c = '-'
  · rw [if_pos h]; omega
  rw [if_neg h]
  by_cases h : c.isDigit
  · rw [if_pos h]; exact hd
  · exact Nat.le_of_eq (by rw [if_neg h])

theorem length_lexToken (c : Char) (cs : List Char) : (lexToken c cs).2.length ≤ cs.length := by
  unfold lexToken
  split
  · exact Nat.le_refl _
  · exact length_lexLiteral c cs

def lex : List Char → List Token
  | [] => []
  | c :: cs =>
    if isBlank c then lex cs
    else
      let t := lexToken c cs
      t.1 :: lex t.2
termination_by cs => cs.length
decreasing_by
  · simp
  · have := length_lexToken c cs; simp; omega

end Calque.Json

import Calque.Json.Token

namespace Calque.Json

section Literals

theorem readUnit_digits {a b c d : Char} {n : Nat} (h : unit? a b c d = some n)
    (rest : List Char) : readUnit (a :: b :: c :: d :: rest) = .ok (n, rest) := by
  unfold unit? at h
  split at h
  · cases h
    simp [readUnit, *]
  · cases h

theorem readEscape_short {strict : Bool} {e c : Char} (h : (e, c) ∈ escapes) (rest : List Char) :
    readEscape strict (e :: rest) = .ok (c, rest) := by
  simp only [escapes, List.mem_cons, Prod.mk.injEq, List.not_mem_nil, or_false] at h
  rcases h with ⟨rfl, rfl⟩ | ⟨rfl, rfl⟩ | ⟨rfl, rfl⟩ | ⟨rfl, rfl⟩ | ⟨rfl, rfl⟩ | ⟨rfl, rfl⟩ |
    ⟨rfl, rfl⟩ | ⟨rfl, rfl⟩ <;> rfl

/-- No character is half of a pair. -/
theorem not_surrogate (c : Char) : isLeading c.toNat = false ∧ isTrailing c.toNat = false := by
  have hvalid : c.toNat < 0xD800 ∨ 0xDFFF < c.toNat ∧ c.toNat < 0x110000 := c.valid
  simp only [isLeading, isTrailing, Bool.and_eq_false_iff, decide_eq_false_iff_not]
  omega

theorem readEscape_unit {a b c d x : Char} (h : unit? a b c d = some x.toNat) (rest : List Char) :
    readEscape true ('u' :: a :: b :: c :: d :: rest) = .ok (x, rest) := by
  obtain ⟨hleading, htrailing⟩ := not_surrogate x
  simp [readEscape, readUnicode, readUnit_digits h, hleading, htrailing, bind, Except.bind]

theorem readTrailing_unit {a b c d : Char} {m : Nat} (h : unit? a b c d = some m)
    (hm : isTrailing m = true) (rest : List Char) :
    readTrailing ('\\' :: 'u' :: a :: b :: c :: d :: rest) = .ok (m, rest) := by
  simp [readTrailing, readUnit_digits h, hm, bind, Except.bind]

theorem readEscape_pair {a b c d a' b' c' d' x : Char} (hx : 0x10000 ≤ x.toNat)
    (hleading : unit? a b c d = some (0xD800 + (x.toNat - 0x10000) / 0x400))
    (htrailing : unit? a' b' c' d' = some (0xDC00 + (x.toNat - 0x10000) % 0x400))
    (rest : List Char) :
    readEscape true
        ('u' :: a :: b :: c :: d :: '\\' :: 'u' :: a' :: b' :: c' :: d' :: rest) =
      .ok (x, rest) := by
  have hvalid : x.toNat < 0xD800 ∨ 0xDFFF < x.toNat ∧ x.toNat < 0x110000 := x.valid
  have hfirst : isTrailing (0xD800 + (x.toNat - 0x10000) / 0x400) = false ∧
      isLeading (0xD800 + (x.toNat - 0x10000) / 0x400) = true := by
    simp only [isLeading, isTrailing, Bool.and_eq_false_iff, Bool.and_eq_true, decide_eq_true_eq,
      decide_eq_false_iff_not]
    omega
  have hsecond : isTrailing (0xDC00 + (x.toNat - 0x10000) % 0x400) = true := by
    simp only [isTrailing, Bool.and_eq_true, decide_eq_true_eq]
    omega
  have hcode : 0x10000 + (0xD800 + (x.toNat - 0x10000) / 0x400 - 0xD800) * 0x400 +
      (0xDC00 + (x.toNat - 0x10000) % 0x400 - 0xDC00) = x.toNat := by omega
  simp only [readEscape, readUnicode, readUnit_digits hleading, hfirst,
    readTrailing_unit htrailing hsecond, hcode, Char.ofNat_toNat, bind, Except.bind]
  rfl

theorem readString_escape {strict : Bool} {cs rest : List Char} {c : Char}
    (h : readEscape strict cs = .ok (c, rest)) :
    readString strict ('\\' :: cs) = (readString strict rest).map fun r => (c :: r.1, r.2) := by
  rw [readString, if_neg (by decide), if_pos rfl]
  split
  · rename_i he
    rw [h] at he
    cases he
  · rename_i he
    rw [h] at he
    cases he
    cases readString strict rest <;> rfl

theorem readString_plain {strict : Bool} {c : Char} (hquote : c ≠ '"')
    (hbackslash : c ≠ '\\') (hc : ¬c < ' ') (cs : List Char) :
    readString strict (c :: cs) = (readString strict cs).map fun r => (c :: r.1, r.2) := by
  rw [readString, if_neg hquote, if_neg hbackslash, if_neg hc]
  cases readString strict cs <;> rfl

theorem readString_stands {piece : List Char} {c : Char} (h : Stands piece c) (cs : List Char) :
    readString true (piece ++ cs) = (readString true cs).map fun r => (c :: r.1, r.2) := by
  cases h with
  | plain hquote hbackslash hc => exact readString_plain hquote hbackslash hc cs
  | short he => exact readString_escape (readEscape_short he cs)
  | unit h => exact readString_escape (readEscape_unit h cs)
  | pair hx hleading htrailing =>
      exact readString_escape (readEscape_pair hx hleading htrailing cs)

theorem readString_said {body text : List Char} (h : Says body text) (rest : List Char) :
    readString true (body ++ '"' :: rest) = .ok (text, rest) := by
  induction h with
  | nil => rw [List.nil_append, readString, if_pos rfl]
  | cons hc _ ih =>
      rw [List.append_assoc, readString_stands hc, ih]
      rfl

theorem readString_literal {body : List Char} (h : Literal body) (rest : List Char) :
    ∃ text, readString false (body ++ '"' :: rest) = .ok (text, rest) := by
  induction h with
  | nil => exact ⟨[], by rw [List.nil_append, readString, if_pos rfl]⟩
  | @plain c body hquote hbackslash hc _ ih =>
      obtain ⟨text, ih⟩ := ih
      refine ⟨c :: text, ?_⟩
      rw [List.cons_append, readString_plain hquote hbackslash hc, ih]
      rfl
  | @short e c body he _ ih =>
      obtain ⟨text, ih⟩ := ih
      refine ⟨c :: text, ?_⟩
      rw [List.cons_append, List.cons_append, readString_escape (readEscape_short he _), ih]
      rfl
  | @unit a b c d n body hn _ ih =>
      obtain ⟨text, ih⟩ := ih
      have hescape : readEscape false ('u' :: a :: b :: c :: d :: (body ++ '"' :: rest)) =
          .ok (Char.ofNat n, body ++ '"' :: rest) := by
        simp [readEscape, readUnicode, readUnit_digits hn, bind, Except.bind]
      exact ⟨Char.ofNat n :: text, (readString_escape hescape).trans (by rw [ih]; rfl)⟩

theorem lex_token {c : Char} {t : Token} {cs rest : List Char} (hc : isBlank c = false)
    (h : lexToken c cs = (t, rest)) : lex (c :: cs) = t :: lex rest := by
  rw [lex, if_neg (by simp [hc]), h]

theorem lex_blank {c : Char} (hc : isBlank c = true) (text : List Char) :
    lex (c :: text) = lex text := by
  rw [lex, if_pos hc]

theorem lex_gap {gap : List Char} (h : Blank gap) (text : List Char) :
    lex (gap ++ text) = lex text := by
  induction gap with
  | nil => rfl
  | cons c gap ih =>
      obtain ⟨hc, hgap⟩ := List.forall_mem_cons.mp h
      rw [List.cons_append, lex_blank hc, ih hgap]

theorem not_blank {c : Char} {t : Token} (hc : punctuation? c = some t) : isBlank c = false := by
  cases hb : isBlank c with
  | false => rfl
  | true =>
      simp only [isBlank, Bool.or_eq_true, decide_eq_true_eq] at hb
      rcases hb with ((rfl | rfl) | rfl) | rfl <;> cases hc

theorem lex_mark {c : Char} {t : Token} (hc : punctuation? c = some t) (text : List Char) :
    lex (c :: text) = t :: lex text :=
  lex_token (not_blank hc) (by rw [lexToken, hc])

theorem lex_null (rest : List Char) :
    lex ("null".toList ++ rest) = .scalar (.ok .null) (.ok ()) :: lex rest :=
  lex_token (by decide) rfl

theorem lex_bool (b : Bool) (rest : List Char) :
    lex ((toString b).toList ++ rest) = .scalar (.ok (.bool b)) (.ok ()) :: lex rest := by
  cases b <;> exact lex_token (by decide) rfl

theorem quoted_append (body rest : List Char) :
    quoted body ++ rest = '"' :: (body ++ '"' :: rest) := by
  simp [quoted]

theorem lex_literal {body : List Char} (h : Literal body) (rest : List Char) :
    lex (quoted body ++ rest) =
      .string ((readString true (body ++ '"' :: rest)).map fun r => String.ofList r.1) (.ok ()) ::
        lex rest := by
  obtain ⟨text, hread⟩ := readString_literal h rest
  rw [quoted_append]
  refine lex_token (by decide) ?_
  change lexString _ = _
  simp only [lexString, hread]

theorem lex_said {body : List Char} {s : String} (h : Says body s.toList) (rest : List Char) :
    lex (quoted body ++ rest) = .string (.ok s) (.ok ()) :: lex rest := by
  rw [lex_literal h.literal, readString_said h, Except.map, String.ofList_toList]

end Literals

section Numerals

/-- Nothing at the head of `rest` goes on with a numeral that could as well end. -/
def Closed (rest : List Char) : Prop :=
  ∀ c ∈ rest.head?, c.isDigit = false ∧ c ≠ '.' ∧ c ≠ 'e' ∧ c ≠ 'E'

theorem someDigits_digits {ds rest : List Char} (h : Digits ds)
    (hrest : ∀ c ∈ rest.head?, c.isDigit = false) : someDigits (ds ++ rest) = .ok (ds, rest) := by
  obtain ⟨hne, hdigits⟩ := h
  have hends : rest.takeWhile Char.isDigit = [] ∧ rest.dropWhile Char.isDigit = rest := by
    cases rest with
    | nil => exact ⟨rfl, rfl⟩
    | cons c rest => simp [hrest c rfl]
  have htake : (ds ++ rest).takeWhile Char.isDigit = ds := by
    rw [List.takeWhile_append_of_pos hdigits, hends.1, List.append_nil]
  have hdrop : (ds ++ rest).dropWhile Char.isDigit = rest := by
    rw [List.dropWhile_append_of_pos hdigits, hends.2]
  cases ds with
  | nil => exact absurd rfl hne
  | cons d ds =>
      rw [List.cons_append] at htake hdrop ⊢
      rw [someDigits, if_pos (hdigits d (List.mem_cons_self ..)), htake, hdrop]

theorem scanWhole_written {ds rest : List Char} (h : Whole ds)
    (hrest : ∀ c ∈ rest.head?, c.isDigit = false) : scanWhole (ds ++ rest) = .ok (ds, rest) := by
  rw [scanWhole, someDigits_digits h.1 hrest]
  simp only [bind, Except.bind]
  split
  · exact absurd rfl (h.2 _ _)
  · rfl

theorem scanFraction_written {ds point rest : List Char} (h : Fraction ds point)
    (hrest : ∀ c ∈ rest.head?, c.isDigit = false ∧ c ≠ '.') :
    scanFraction (point ++ rest) = .ok (ds, rest) := by
  cases h with
  | none =>
      rw [List.nil_append, scanFraction]
      rintro cs rfl
      exact (hrest '.' rfl).2 rfl
  | some h => exact someDigits_digits h fun c hc => (hrest c hc).1

theorem scanSign_written {negative : Bool} {sign ds : List Char}
    (hsign : (negative, sign) ∈ [(true, ['-']), (false, ['+']), (false, [])]) (h : Digits ds)
    (rest : List Char) : scanSign (sign ++ (ds ++ rest)) = (negative, ds ++ rest) := by
  simp only [List.mem_cons, Prod.mk.injEq, List.not_mem_nil, or_false] at hsign
  obtain ⟨hne, hdigits⟩ := h
  rcases hsign with ⟨rfl, rfl⟩ | ⟨rfl, rfl⟩ | ⟨rfl, rfl⟩
  · rfl
  · rfl
  · cases ds with
    | nil => exact absurd rfl hne
    | cons d ds =>
        have hd := hdigits d (List.mem_cons_self ..)
        rw [List.nil_append, List.cons_append, scanSign]
        all_goals
          rintro cs ⟨rfl, -⟩
          exact absurd hd (by decide)

theorem scanExponent_written {e : Option (Bool × List Char)} {power rest : List Char}
    (h : Exponent e power) (hrest : Closed rest) :
    scanExponent (power ++ rest) = .ok (e, rest) := by
  cases h with
  | none =>
      cases rest with
      | nil => rfl
      | cons c rest =>
          obtain ⟨-, -, he, hE⟩ := hrest c rfl
          rw [List.nil_append, scanExponent, if_neg (by simp [he, hE])]
  | some he hsign h =>
      rw [List.cons_append, List.append_assoc, scanExponent, if_pos he, scanSign_written hsign h]
      simp only [someDigits_digits h fun c hc => (hrest c hc).1, bind, Except.bind]

theorem Exponent.head {e : Option (Bool × List Char)} {power rest : List Char}
    (h : Exponent e power) (hrest : Closed rest) :
    ∀ c ∈ (power ++ rest).head?, c.isDigit = false ∧ c ≠ '.' := by
  intro c hc
  cases h with
  | none => exact ⟨(hrest c hc).1, (hrest c hc).2.1⟩
  | some he _ _ =>
      obtain rfl := Option.some.inj hc
      rcases he with rfl | rfl <;> decide

theorem Fraction.head {ds point rest : List Char} (h : Fraction ds point)
    (hrest : ∀ c ∈ rest.head?, c.isDigit = false ∧ c ≠ '.') :
    ∀ c ∈ (point ++ rest).head?, c.isDigit = false := by
  intro c hc
  cases h with
  | none => exact (hrest c hc).1
  | some _ =>
      obtain rfl := Option.some.inj hc
      decide

theorem scanNumeral_written {negative : Bool} {whole fraction point power rest : List Char}
    {exponent : Option (Bool × List Char)} (hwhole : Whole whole)
    (hfraction : Fraction fraction point) (hexponent : Exponent exponent power)
    (hrest : Closed rest) :
    scanNumeral negative (whole ++ (point ++ (power ++ rest))) =
      .ok (⟨negative, whole, fraction, exponent⟩, rest) := by
  have hafter := hexponent.head hrest
  simp only [scanNumeral, scanWhole_written hwhole (hfraction.head hafter),
    scanFraction_written hfraction hafter, scanExponent_written hexponent hrest, bind, Except.bind]

theorem lexNumber_written (negative : Bool) {whole fraction point power rest : List Char}
    {exponent : Option (Bool × List Char)} (hwhole : Whole whole)
    (hfraction : Fraction fraction point) (hexponent : Exponent exponent power)
    (hrest : Closed rest) :
    lexNumber negative (whole ++ (point ++ (power ++ rest))) =
      (.scalar ((Numeral.toNumber ⟨negative, whole, fraction, exponent⟩).map .number) (.ok ()),
        rest) := by
  rw [lexNumber, scanNumeral_written hwhole hfraction hexponent hrest]

theorem lexToken_digit {d : Char} (h : d.isDigit = true) (cs : List Char) :
    isBlank d = false ∧ lexToken d cs = lexNumber false (d :: cs) := by
  have hne {c : Char} (hc : c.isDigit = false) : d ≠ c := by
    rintro rfl
    rw [h] at hc
    cases hc
  have hmark : punctuation? d = none := by simp [punctuation?, hne]
  exact ⟨by simp [isBlank, hne], by simp [lexToken, hmark, lexLiteral, hne, h]⟩

theorem lex_number {x : Numeral} {text rest : List Char} (h : x.Written text)
    (hrest : Closed rest) :
    lex (text ++ rest) = .scalar (x.toNumber.map .number) (.ok ()) :: lex rest := by
  obtain ⟨hsign, hwhole, hfraction, hexponent⟩ := h
  have htoken (negative : Bool) :=
    lexNumber_written negative hwhole hfraction hexponent hrest
  simp only [List.mem_cons, Prod.mk.injEq, List.not_mem_nil, or_false] at hsign
  simp only [List.append_assoc]
  -- Without a sign, it is the first digit from which the token is known.
  rcases hsign with ⟨rfl, rfl⟩ | ⟨rfl, rfl⟩
  · rename_i whole _ _ _ _
    obtain ⟨⟨hne, hdigits⟩, -⟩ := hwhole
    cases whole with
    | nil => exact absurd rfl hne
    | cons d ds =>
        obtain ⟨hblank, hd⟩ := lexToken_digit (hdigits d (List.mem_cons_self ..)) _
        exact lex_token hblank (hd.trans (htoken false))
  · exact lex_token (by decide) (htoken true)

theorem toNumber_toDigits {n : Nat} (hn : n < wordSize) :
    Numeral.toNumber ⟨false, Nat.toDigits 10 n, [], none⟩ = .ok (.integer n) := by
  have hvalue : digitsValue (Nat.toDigits 10 n) = n :=
    Nat.ofDigitChars_toDigits (by decide) (by decide)
  simp [Numeral.toNumber, hvalue, hn]

end Numerals

end Calque.Json

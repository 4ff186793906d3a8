import Calque.Json.Value

namespace Calque.Json

section Literals

def hexDigit? (c : Char) : Option Nat :=
  if c.isDigit then some (c.toNat - '0'.toNat)
  else if 'a' ≤ c ∧ c ≤ 'f' then some (c.toNat - 'a'.toNat + 10)
  else if 'A' ≤ c ∧ c ≤ 'F' then some (c.toNat - 'A'.toNat + 10)
  else none

def unit? (a b c d : Char) : Option Nat :=
  match hexDigit? a, hexDigit? b, hexDigit? c, hexDigit? d with
  | some a, some b, some c, some d => some (((a * 16 + b) * 16 + c) * 16 + d)
  | _, _, _, _ => none

def escapes : List (Char × Char) :=
  [('"', '"'), ('\\', '\\'), ('/', '/'), ('b', '\x08'), ('f', '\x0c'), ('n', '\n'), ('r', '\r'),
    ('t', '\t')]

inductive Stands : List Char → Char → Prop
  | plain {c : Char} (hquote : c ≠ '"') (hbackslash : c ≠ '\\') (hc : ¬c < ' ') : Stands [c] c
  | short {e c : Char} (h : (e, c) ∈ escapes) : Stands ['\\', e] c
  | unit {a b c d x : Char} (h : unit? a b c d = some x.toNat) :
      Stands ['\\', 'u', a, b, c, d] x
  | pair {a b c d a' b' c' d' x : Char} (hx : 0x10000 ≤ x.toNat)
      (hleading : unit? a b c d = some (0xD800 + (x.toNat - 0x10000) / 0x400))
      (htrailing : unit? a' b' c' d' = some (0xDC00 + (x.toNat - 0x10000) % 0x400)) :
      Stands ['\\', 'u', a, b, c, d, '\\', 'u', a', b', c', d'] x

inductive Says : List Char → List Char → Prop
  | nil : Says [] []
  | cons {piece body text : List Char} {c : Char} (hc : Stands piece c) (h : Says body text) :
      Says (piece ++ body) (c :: text)

/-- What may stand between the quotes of a literal, which need not say a text: code units can be
any, and in any order. -/
inductive Literal : List Char → Prop
  | nil : Literal []
  | plain {c : Char} {body : List Char} (hquote : c ≠ '"') (hbackslash : c ≠ '\\') (hc : ¬c < ' ')
      (h : Literal body) : Literal (c :: body)
  | short {e c : Char} {body : List Char} (he : (e, c) ∈ escapes) (h : Literal body) :
      Literal ('\\' :: e :: body)
  | unit {a b c d : Char} {n : Nat} {body : List Char} (hn : unit? a b c d = some n)
      (h : Literal body) : Literal ('\\' :: 'u' :: a :: b :: c :: d :: body)

theorem Stands.literal {piece body : List Char} {c : Char} (hc : Stands piece c)
    (h : Literal body) : Literal (piece ++ body) := by
  cases hc with
  | plain hquote hbackslash hc => exact .plain hquote hbackslash hc h
  | short he => exact .short he h
  | unit hn => exact .unit hn h
  | pair _ hleading htrailing => exact .unit hleading (.unit htrailing h)

theorem Says.literal {body text : List Char} (h : Says body text) : Literal body := by
  induction h with
  | nil => exact .nil
  | cons hc _ ih => exact hc.literal ih

end Literals

section Numerals

structure Numeral where
  negative : Bool
  whole : List Char
  fraction : List Char
  /-- Whether the exponent is negative, and its digits. -/
  exponent : Option (Bool × List Char)
  deriving DecidableEq, Repr

def Digits (ds : List Char) : Prop := ds ≠ [] ∧ ∀ d ∈ ds, d.isDigit = true

def Whole (ds : List Char) : Prop := Digits ds ∧ ∀ d ds', ds ≠ '0' :: d :: ds'

inductive Fraction : List Char → List Char → Prop
  | none : Fraction [] []
  | some {ds : List Char} (h : Digits ds) : Fraction ds ('.' :: ds)

inductive Exponent : Option (Bool × List Char) → List Char → Prop
  | none : Exponent none []
  | some {e : Char} {negative : Bool} {sign ds : List Char} (he : e = 'e' ∨ e = 'E')
      (hsign : (negative, sign) ∈ [(true, ['-']), (false, ['+']), (false, [])]) (h : Digits ds) :
      Exponent (some (negative, ds)) (e :: (sign ++ ds))

inductive Numeral.Written : Numeral → List Char → Prop
  | mk {negative : Bool} {sign whole fraction point power : List Char}
      {exponent : Option (Bool × List Char)}
      (hsign : (negative, sign) ∈ [(false, []), (true, ['-'])]) (hwhole : Whole whole)
      (hfraction : Fraction fraction point) (hexponent : Exponent exponent power) :
      Numeral.Written ⟨negative, whole, fraction, exponent⟩ (sign ++ (whole ++ (point ++ power)))

theorem lead_toDigits {n : Nat} (hn : 0 < n) : (Nat.toDigits 10 n).head? ≠ some '0' := by
  induction n using Nat.strongRecOn with
  | ind n ih =>
      rcases Nat.lt_or_ge n 10 with hlt | hge
      · have hdigit : ∀ m < 10, 0 < m → Nat.digitChar m ≠ '0' := by decide
        rw [Nat.toDigits_of_lt_base hlt]
        exact fun h => hdigit n hlt hn (Option.some.inj h)
      · have hquotient := ih (n / 10) (by omega) (by omega)
        rw [Nat.toDigits_of_base_le (by decide) hge]
        cases hds : Nat.toDigits 10 (n / 10) with
        | nil => exact absurd hds Nat.toDigits_ne_nil
        | cons d ds =>
            rw [hds] at hquotient
            exact hquotient

theorem written_toDigits (n : Nat) :
    Numeral.Written ⟨false, Nat.toDigits 10 n, [], none⟩ (Nat.toDigits 10 n) := by
  have hdigits : Digits (Nat.toDigits 10 n) :=
    ⟨Nat.toDigits_ne_nil, fun d => Nat.isDigit_of_mem_toDigits (by decide) (by decide)⟩
  have hwhole : Whole (Nat.toDigits 10 n) := by
    refine ⟨hdigits, fun d ds h => ?_⟩
    rcases Nat.eq_zero_or_pos n with rfl | hn
    · exact absurd h (by simp)
    · exact lead_toDigits hn (by rw [h]; rfl)
  have h : Numeral.Written ⟨false, Nat.toDigits 10 n, [], none⟩
      ([] ++ (Nat.toDigits 10 n ++ ([] ++ []))) := .mk (by decide) hwhole .none .none
  rwa [List.nil_append, List.nil_append, List.append_nil] at h

end Numerals

def isBlank (c : Char) : Bool := c = ' ' || c = '\n' || c = '\t' || c = '\r'

def Blank (gap : List Char) : Prop := ∀ c ∈ gap, isBlank c = true

theorem blank_nil : Blank [] := fun _ hc => absurd hc List.not_mem_nil

theorem blank_space : Blank [' '] := List.forall_mem_singleton.mpr rfl

def Padded (core text : List Char) : Prop :=
  ∃ before after, Blank before ∧ Blank after ∧ text = before ++ core ++ after

theorem padded_self (core : List Char) : Padded core core :=
  ⟨[], [], blank_nil, blank_nil, (List.append_nil core).symm⟩

def quoted (body : List Char) : List Char := '"' :: (body ++ ['"'])

structure Member where
  before : List Char
  /-- What stands between the quotes of the name. -/
  name : List Char
  after : List Char
  value : List Char

namespace Member

def text (m : Member) : List Char := m.before ++ (quoted m.name ++ (m.after ++ ':' :: m.value))

def Spaced (m : Member) : Prop := Blank m.before ∧ Blank m.after

end Member

def listText (gap : List Char) (items : List (List Char)) : List Char :=
  '[' :: (gap ++ [','].intercalate items ++ [']'])

def objectText (gap : List Char) (members : List Member) : List Char :=
  '\x7b' :: (gap ++ [','].intercalate (members.map Member.text) ++ ['\x7d'])

/-- The texts of JSON values. Numbers can be of any size, and strings need not say a text. -/
inductive WellFormed : List Char → Prop
  | null {text : List Char} (h : Padded "null".toList text) : WellFormed text
  | bool (b : Bool) {text : List Char} (h : Padded (toString b).toList text) : WellFormed text
  | number {x : Numeral} {core text : List Char} (hx : x.Written core) (h : Padded core text) :
      WellFormed text
  | string {body text : List Char} (hbody : Literal body) (h : Padded (quoted body) text) :
      WellFormed text
  | array {gap text : List Char} {items : List (List Char)} (hgap : Blank gap)
      (hitems : ∀ item ∈ items, WellFormed item) (h : Padded (listText gap items) text) :
      WellFormed text
  | object {gap text : List Char} {members : List Member} (hgap : Blank gap)
      (hspaced : ∀ m ∈ members, m.Spaced) (hnames : ∀ m ∈ members, Literal m.name)
      (hvalues : ∀ m ∈ members, WellFormed m.value) (h : Padded (objectText gap members) text) :
      WellFormed text

inductive ListText : List (List Char) → List Char → Prop
  | mk {gap text : List Char} {items : List (List Char)} (hgap : Blank gap)
      (hitems : ∀ item ∈ items, WellFormed item) (h : Padded (listText gap items) text) :
      ListText items text

/-- The text of an object, with the names of its members and the texts of their values. -/
inductive ObjectText : List (String × List Char) → List Char → Prop
  | mk {gap text : List Char} {members : List (String × Member)} (hgap : Blank gap)
      (hspaced : ∀ m ∈ members, m.2.Spaced) (hnames : ∀ m ∈ members, Says m.2.name m.1.toList)
      (hvalues : ∀ m ∈ members, WellFormed m.2.value)
      (h : Padded (objectText gap (members.map (·.2))) text) :
      ObjectText (members.map fun m => (m.1, m.2.value)) text

theorem objectText_map {β : Type} {name : β → String} {member : β → Member} {as : List β}
    {gap text : List Char} (hgap : Blank gap) (hspaced : ∀ a ∈ as, (member a).Spaced)
    (hnames : ∀ a ∈ as, Says (member a).name (name a).toList)
    (hvalues : ∀ a ∈ as, WellFormed (member a).value)
    (h : Padded (objectText gap (as.map member)) text) :
    ObjectText (as.map fun a => (name a, (member a).value)) text := by
  have hmembers : (as.map fun a => (name a, member a)).map (·.2) = as.map member := by
    simp [Function.comp_def]
  have hobject : ObjectText ((as.map fun a => (name a, member a)).map fun m => (m.1, m.2.value))
      text :=
    .mk hgap (by simpa only [List.forall_mem_map] using hspaced)
      (by simpa only [List.forall_mem_map] using hnames)
      (by simpa only [List.forall_mem_map] using hvalues) (by rwa [hmembers])
  simpa [Function.comp_def] using hobject

theorem ListText.wellFormed {items : List (List Char)} {text : List Char}
    (h : ListText items text) : WellFormed text := by
  cases h with
  | mk hgap hitems h => exact .array hgap hitems h

theorem ObjectText.wellFormed {members : List (String × List Char)} {text : List Char}
    (h : ObjectText members text) : WellFormed text := by
  cases h with
  | mk hgap hspaced hnames hvalues h =>
      refine .object hgap ?_ ?_ ?_ h <;>
        simp only [List.forall_mem_map]
      · exact hspaced
      · exact fun m hm => (hnames m hm).literal
      · exact hvalues

theorem ObjectText.wellFormed_value {members : List (String × List Char)} {text : List Char}
    (h : ObjectText members text) : ∀ m ∈ members, WellFormed m.2 := by
  cases h with
  | mk _ _ _ hvalues _ => simpa only [List.forall_mem_map] using hvalues

/-- The texts of a value whose numbers are naturals of 64 bits. -/
inductive Writes : Json → List Char → Prop
  | null {text : List Char} (h : Padded "null".toList text) : Writes .null text
  | bool (b : Bool) {text : List Char} (h : Padded (toString b).toList text) :
      Writes (.bool b) text
  | natural {n : Nat} {text : List Char} (hn : n < wordSize)
      (h : Padded (Nat.toDigits 10 n) text) : Writes (.ofNat n) text
  | string {s : String} {body text : List Char} (hbody : Says body s.toList)
      (h : Padded (quoted body) text) : Writes (.string s) text
  | array {items : List (Json × List Char)} {text : List Char}
      (hitems : ∀ i ∈ items, Writes i.1 i.2) (h : ListText (items.map (·.2)) text) :
      Writes (.array (items.map (·.1))) text
  | object {members : List (String × Json × List Char)} {text : List Char}
      (hvalues : ∀ m ∈ members, Writes m.2.1 m.2.2)
      (h : ObjectText (members.map fun m => (m.1, m.2.2)) text) :
      Writes (.object (members.map fun m => (m.1, m.2.1))) text

theorem Writes.wellFormed {j : Json} {text : List Char} (h : Writes j text) : WellFormed text := by
  cases h with
  | null h => exact .null h
  | bool b h => exact .bool b h
  | natural _ h => exact .number (written_toDigits _) h
  | string hbody h => exact .string hbody.literal h
  | array _ h => exact h.wellFormed
  | object _ h => exact h.wellFormed

theorem writes_object_map {β : Type} {name : β → String} {json : β → Json} {member : β → Member}
    {as : List β} {gap text : List Char} (hgap : Blank gap)
    (hspaced : ∀ a ∈ as, (member a).Spaced)
    (hnames : ∀ a ∈ as, Says (member a).name (name a).toList)
    (hvalues : ∀ a ∈ as, Writes (json a) (member a).value)
    (h : Padded (objectText gap (as.map member)) text) :
    Writes (.object (as.map fun a => (name a, json a))) text := by
  have hobject := objectText_map hgap hspaced hnames (fun a ha => (hvalues a ha).wellFormed) h
  have hwrites : ∀ m ∈ as.map fun a => (name a, json a, (member a).value), Writes m.2.1 m.2.2 := by
    simpa only [List.forall_mem_map] using hvalues
  simpa [Function.comp_def] using
    Writes.object hwrites (by simpa [Function.comp_def] using hobject)

end Calque.Json

import Calque.Bounded.Basic
import Calque.Lexical.Index
import Calque.Text.Word

namespace Calque.Bounded

def isQuote (b : UInt8) : Bool := b = 0x22 || b = 0x27

def escapes (bs : List UInt8) (offset : Nat) (b : UInt8) : Bounded Bool := do
  if b = 0x5C then
    let next ← add offset 1
    return next < bs.length
  else
    return false

structure QuoteScan where
  offset : Nat
  opened : Option UInt8

def QuoteScan.escapes (bs : List UInt8) (s : QuoteScan) (b : UInt8) : Bounded Bool :=
  if s.opened.isSome then Bounded.escapes bs s.offset b else pure false

def quoteAfter (opened : Option UInt8) (b : UInt8) : Option UInt8 :=
  if isQuote b then
    match opened with
    | none => some b
    | some q => if q = b then none else some q
  else opened

def quoteStep (bs : List UInt8) (s : QuoteScan) : Bounded QuoteScan := do
  let b ← read bs s.offset
  if ← s.escapes bs b then
    let offset ← add s.offset 2
    return { s with offset }
  else
    let offset ← add s.offset 1
    return ⟨offset, quoteAfter s.opened b⟩

def insideString (text : String) (pos : Nat) : Bounded Bool := do
  let bs := bytes text.toList
  if bs.length ≤ pos then
    return false
  else
    let s ← loop (·.offset < pos) (quoteStep bs) ⟨0, none⟩
    return s.opened.isSome

def lastIdx? {α : Type} (p : α → Bool) (xs : List α) : Option Nat :=
  (xs.reverse.findIdx? p).map (xs.length - 1 - ·)

def lineStart (seen : List UInt8) : Bounded Nat :=
  match lastIdx? (· = 0x0A) seen with
  | some newline => add newline 1
  | none => pure 0

def insideComment (text : String) (pos : Nat) : Bounded Bool := do
  let bs := bytes text.toList
  let pos := min pos bs.length
  let seen ← window bs 0 pos
  let start ← lineStart seen
  let line ← window bs start pos
  match line.findIdx? (· = 0x23) with
  | some k =>
    let hash ← add start k
    return !(← insideString text hash)
  | none => return false

def charStart (text : List Char) (pos : Nat) : Bounded Nat :=
  loop (fun start => !boundary text start) (sub · 1) pos

def wordBoundary (text : String) (pos : Nat) : Bounded Bool := do
  let text := text.toList
  if width text ≤ pos then
    return true
  else
    let start ← charStart text pos
    let rest ← cut text start (width text)
    match rest.head? with
    | none => return true
    | some c =>
      let before ← cut text 0 start
      let stop ← add start c.utf8Size
      let after ← cut text stop (width text)
      return isWordChar c != isWordChar? before.getLast? ||
        isWordChar c != isWordChar? after.head?

def templateQuote (text : String) (pos : Nat) : Bounded Bool := do
  if 0 < pos then
    let before ← sub pos 1
    return (bytes text.toList)[before]?.any fun b => b = 0x66 ∨ b = 0x46
  else
    return false

structure Tables where
  openQuotes : List (Option Nat)
  templates : List Bool
  holes : List Bool
  comments : List Bool

namespace Tables

variable (t : Tables) (pos : Nat)

def stringStart? : Option Nat := (t.openQuotes[pos]?).join

def inTemplate : Bool := (t.templates[pos]?).getD false

def inHole : Bool := (t.holes[pos]?).getD false

def inComment : Bool := (t.comments[pos]?).getD false

def place : Lexical.Place :=
  ⟨t.stringStart? pos, t.inTemplate pos, t.inHole pos, t.inComment pos⟩

end Tables

structure IndexScan where
  offset : Nat
  opened : Option Nat
  template : Bool
  depth : Nat
  openQuotes : List (Option Nat)
  templates : List Bool
  holes : List Bool

namespace IndexScan

def start (n : Nat) : IndexScan :=
  ⟨0, none, false, 0, .replicate n none, .replicate n false, .replicate n false⟩

def enter (s : IndexScan) (i : Nat) : Bounded IndexScan := do
  let openQuotes ← write s.openQuotes i s.opened
  let templates ← write s.templates i s.template
  let holes ← write s.holes i (0 < s.depth)
  return { s with openQuotes, templates, holes }

def skip (count : Nat) (s : IndexScan) : Bounded IndexScan := do
  let offset ← add s.offset count
  return { s with offset }

def readCode (text : String) (s : IndexScan) (b : UInt8) : Bounded IndexScan := do
  if isQuote b then
    let template ← templateQuote text s.offset
    skip 1 { s with opened := some s.offset, template }
  else
    s.skip 1

def doubled (bs : List UInt8) (s : IndexScan) : Bounded Bool := do
  if s.depth = 0 then
    let next ← add s.offset 1
    return bs[next]? = some 0x7B
  else
    return false

def readTemplate (bs : List UInt8) (s : IndexScan) (b : UInt8) : Bounded IndexScan := do
  if b = 0x7B then
    if ← s.doubled bs then
      let next ← add s.offset 1
      let openQuotes ← write s.openQuotes next s.opened
      let templates ← write s.templates next true
      skip 2 { s with openQuotes, templates }
    else
      let depth ← add s.depth 1
      skip 1 { s with depth }
  else if b = 0x7D ∧ 0 < s.depth then
    let depth ← sub s.depth 1
    skip 1 { s with depth }
  else
    s.skip 1

def readLiteral (bs : List UInt8) (s : IndexScan) (q : Nat) (b : UInt8) : Bounded IndexScan := do
  if ← escapes bs s.offset b then
    let next ← add s.offset 1
    let s ← s.enter next
    s.skip 2
  else
    let quote ← read bs q
    if b = quote then
      skip 1 { s with opened := none, template := false, depth := 0 }
    else if s.template then
      s.readTemplate bs b
    else
      s.skip 1

def step (text : String) (s : IndexScan) : Bounded IndexScan := do
  let bs := bytes text.toList
  let s ← s.enter s.offset
  let b ← read bs s.offset
  match s.opened with
  | none => s.readCode text b
  | some q => s.readLiteral bs q b

end IndexScan

/-- The scan that fills the table of comments; it knows the first `#` of the line. -/
structure CommentScan where
  firstHash : Option Nat
  comments : List Bool

def CommentScan.inside (openQuotes : List (Option Nat)) (s : CommentScan) : Bounded Bool := do
  match s.firstHash with
  | none => return false
  | some hash =>
    let quote ← read openQuotes hash
    return quote.isNone

def CommentScan.step (openQuotes : List (Option Nat)) (s : CommentScan) (x : UInt8 × Nat) :
    Bounded CommentScan := do
  let comments ← write s.comments x.2 (← s.inside openQuotes)
  let firstHash :=
    if x.1 = 0x0A then none
    else if x.1 = 0x23 ∧ s.firstHash.isNone then some x.2
    else s.firstHash
  return ⟨firstHash, comments⟩

def build (text : String) : Bounded Tables := do
  let bs := bytes text.toList
  let s ← loop (·.offset < bs.length) (IndexScan.step text) (.start bs.length)
  let c ← bs.zipIdx.foldlM (CommentScan.step s.openQuotes) ⟨none, .replicate bs.length false⟩
  return ⟨s.openQuotes, s.templates, s.holes, c.comments⟩

end Calque.Bounded

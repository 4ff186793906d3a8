import Calque.Dictionary.Basic
import Calque.Substitution.Pass

namespace Calque

def Entry.substitute (e : Entry) (o : Options) (text : List Char) : Pass :=
  Calque.substitute o e.wordClass e.pair.dialect.toList e.pair.host.toList text

def substituteAll (o : Options) (es : List Entry) (text : List Char) : List Char :=
  es.foldl (fun text e => (e.substitute o text).text) text

def passes (o : Options) : List Entry → List Char → List (Entry × Pass)
  | [], _ => []
  | e :: es, text =>
    let p := e.substitute o text
    (e, p) :: passes o es p.text

theorem getLast?_passes (o : Options) (es : List Entry) (text : List Char) :
    ((passes o es text).getLast?.map (·.2.text)).getD text = substituteAll o es text := by
  induction es generalizing text with
  | nil => rfl
  | cons e es ih =>
    rw [substituteAll, List.foldl_cons, ← substituteAll, ← ih]
    rw [passes, List.getLast?_cons]
    cases h : (passes o es (e.substitute o text).text).getLast? <;> simp

def Entry.count (e : Entry) (text : List Char) : Nat :=
  (candidates e.wordClass e.pair.dialect.toList text).length

def countAll (es : List Entry) (text : List Char) : Counts :=
  es.foldl (fun n e => n.add e.wordClass (e.count text)) .zero

namespace Dictionary

/-- The source with its dialect words replaced by host words. -/
def toHost (d : Dictionary) (o : Options) (source : String) : String :=
  .ofList (substituteAll o d.entries source.toList)

def passes (d : Dictionary) (o : Options) (source : String) : List (Entry × Pass) :=
  Calque.passes o d.entries source.toList

def count (d : Dictionary) (source : String) : Counts := countAll d.entries source.toList

end Dictionary

end Calque

import Calque.Dictionary.Basic
import Calque.Json.Library

namespace Calque

open Json (Library Reader Field Record demand)

variable {ε : Type} (lib : Library ε)

namespace WordClass

def name : WordClass → String
  | .structural => "structural"
  | .callable => "callable"

def reader : Reader ε lib.Source WordClass :=
  lib.readVariant [(name .structural, .structural), (name .callable, .callable)]

def toJson (cls : WordClass) : Json := .string cls.name

end WordClass

namespace WordPair

structure Draft where
  dialect : Option String
  host : Option String

def record : Record ε lib.Source Draft WordPair where
  name := "WordPair"
  fields := [
    .of "dialect" (·.dialect) (fun s w => { s with dialect := some w }) lib.readText,
    .of "host" (·.host) (fun s w => { s with host := some w }) lib.readText]
  required := true
  closed := false
  start := ⟨none, none⟩
  finish s := do .ok ⟨← demand "dialect" s.dialect, ← demand "host" s.host⟩

def reader : Reader ε lib.Source WordPair := lib.readRecord (record lib)

def toJson (p : WordPair) : Json :=
  .object [("dialect", .string p.dialect), ("host", .string p.host)]

end WordPair

namespace Counts

structure Draft where
  structural : Option UInt64
  callable : Option UInt64

def record : Record ε lib.Source Draft Counts where
  name := "TranslationCounts"
  fields := [
    .of "structural" (·.structural) (fun s n => { s with structural := some n }) lib.readWord,
    .of "callable" (·.callable) (fun s n => { s with callable := some n }) lib.readWord]
  required := true
  closed := false
  start := ⟨none, none⟩
  finish s := do
    let structural ← demand "structural" s.structural
    let callable ← demand "callable" s.callable
    .ok ⟨structural.toNat, callable.toNat⟩

def reader : Reader ε lib.Source Counts := lib.readRecord (record lib)

def toJson (c : Counts) : Json :=
  .object [("structural", .ofNat c.structural), ("callable", .ofNat c.callable)]

end Counts

namespace Dictionary

inductive DocumentFault (ε : Type)
  | json (fault : ε)
  | words (fault : Dictionary.Fault)

def DocumentFault.message : DocumentFault ε → String
  | .json fault => "Invalid dictionary file: " ++ lib.message fault
  | .words fault => "Invalid dictionary: " ++ fault.message

def readPair (dialect : String) (done : List WordPair) : Reader ε lib.Source (List WordPair) :=
  fun src => do
    let (host, src) ← lib.readText src
    .ok (⟨dialect, host⟩ :: done, src)

def sectionReader : Reader ε lib.Source (List WordPair) := fun src => do
  let wanted := "an object mapping dialect words to host words"
  let (pairs, src) ← lib.readObject wanted (readPair lib) [] src
  .ok (pairs.reverse, src)

structure Draft where
  structural : Option (List WordPair)
  callable : Option (List WordPair)

def fileRecord : Record ε lib.Source Draft (List WordPair × List WordPair) where
  name := "DictionaryFile"
  fields := [
    .of "structural" (·.structural) (fun s ps => { s with structural := some ps })
      (sectionReader lib),
    .of "callable" (·.callable) (fun s ps => { s with callable := some ps }) (sectionReader lib)]
  required := false
  closed := true
  start := ⟨none, none⟩
  finish s := .ok (s.structural.getD [], s.callable.getD [])

/-- The dictionary that a file holds. The whole document is read before its words are looked at. -/
def ofDocument (text : String) : Except (DocumentFault ε) Dictionary :=
  match lib.decode (lib.readRecord (fileRecord lib)) text with
  | .error fault => .error (.json fault)
  | .ok (structural, callable) =>
    match ofLists structural callable with
    | .error fault => .error (.words fault)
    | .ok d => .ok d

def toJson (d : Dictionary) : Json :=
  .object [("structural", .array (d.structural.map WordPair.toJson)),
    ("callable", .array (d.callable.map WordPair.toJson))]

end Dictionary

end Calque

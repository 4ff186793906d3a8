import Calque.Json.Value

namespace Calque.Json

abbrev Reader (ε S α : Type) := S → Except ε (α × S)

variable {ε S σ α τ : Type}

structure Field (ε S σ : Type) where
  name : String
  given : σ → Bool
  read : σ → Reader ε S σ

def Field.of (name : String) (slot : σ → Option τ) (fill : σ → τ → σ) (reader : Reader ε S τ) :
    Field ε S σ where
  name
  given s := (slot s).isSome
  read s src := do
    let (a, src) ← reader src
    .ok (fill s a, src)

/-- Values with named fields. What has been read of one is kept in a draft of type `σ`. -/
structure Record (ε S σ α : Type) where
  name : String
  fields : List (Field ε S σ)
  /-- Whether a list has to give every field. -/
  required : Bool
  /-- Whether an object may have no other members. -/
  closed : Bool
  start : σ
  /-- The value of a draft, or the name of a field that is missing. -/
  finish : σ → Except String α

def demand (name : String) : Option α → Except String α
  | some a => .ok a
  | none => .error name

/-- How JSON is read and written. A document is read from its start to its end, one value after the
other. -/
structure Library (ε : Type) where
  Source : Type
  start : String → Source
  finish : Source → Except ε Unit
  readBool : Reader ε Source Bool
  readText : Reader ε Source String
  readWord : Reader ε Source UInt64
  /-- One of a few named values. -/
  readVariant : {α : Type} → List (String × α) → Reader ε Source α
  /-- An object of which a member is read at a time, named `wanted` in a fault. -/
  readObject : {σ : Type} → (wanted : String) → (String → σ → Reader ε Source σ) → σ →
    Reader ε Source σ
  readRecord : {σ α : Type} → Record ε Source σ α → Reader ε Source α
  write : Json → String
  writeIndented : Json → String
  message : ε → String

def Library.decode (lib : Library ε) (reader : Reader ε lib.Source α) (text : String) :
    Except ε α := do
  let (a, rest) ← reader (lib.start text)
  lib.finish rest
  .ok a

end Calque.Json

import Calque.Json.Record
import Calque.Json.Writer

namespace Calque.Json

def standard : Library Fault where
  Source := List Token
  start text := lex text.toList
  finish
    | [] => .ok ()
    | _ => .error .trailingCharacters
  readBool := readBool
  readText := readText
  readWord := readWord
  readVariant := readVariant
  readObject := readObject
  readRecord := Record.read
  write j := .ofList (write j)
  writeIndented j := .ofList (writeIndented 0 j)
  message := Fault.message

def ofText (text : String) : Except Fault Json :=
  standard.decode (fun (ts : List Token) => readValue ts.length ts) text

end Calque.Json

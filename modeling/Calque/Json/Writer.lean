import Calque.Decimal.Shortest
import Calque.Json.Grammar

namespace Calque.Json

def hexDigit (n : Nat) : Char := Nat.digitChar (n % 16)

def writeChar (c : Char) : List Char :=
  if c = '"' then ['\\', '"']
  else if c = '\\' then ['\\', '\\']
  else if c = '\x08' then ['\\', 'b']
  else if c = '\t' then ['\\', 't']
  else if c = '\n' then ['\\', 'n']
  else if c = '\x0c' then ['\\', 'f']
  else if c = '\r' then ['\\', 'r']
  else if c < ' ' then ['\\', 'u', '0', '0', hexDigit (c.toNat / 16), hexDigit c.toNat]
  else [c]

def writeString (text : List Char) : List Char := quoted (text.flatMap writeChar)

def Number.text : Number → List Char
  | .integer n => (toString n).toList
  | .float x => x.toText.toList

mutual

def write : Json → List Char
  | .null => "null".toList
  | .bool true => "true".toList
  | .bool false => "false".toList
  | .number n => n.text
  | .string s => writeString s.toList
  | .array items => '[' :: (writeItems items ++ [']'])
  | .object members => '\x7b' :: (writeMembers members ++ ['\x7d'])

def writeItems : List Json → List Char
  | [] => []
  | [j] => write j
  | j :: k :: items => write j ++ ',' :: writeItems (k :: items)

def writeMembers : List (String × Json) → List Char
  | [] => []
  | [(name, j)] => writeString name.toList ++ ':' :: write j
  | (name, j) :: m :: members =>
    writeString name.toList ++ ':' :: (write j ++ ',' :: writeMembers (m :: members))

end

def newLine (level : Nat) : List Char := '\n' :: List.replicate (2 * level) ' '

mutual

def writeIndented (level : Nat) : Json → List Char
  | .array [] => ['[', ']']
  | .array (j :: items) =>
    '[' :: (newLine (level + 1) ++ writeIndented (level + 1) j ++
      writeIndentedItems (level + 1) items ++ newLine level ++ [']'])
  | .object [] => ['\x7b', '\x7d']
  | .object ((name, j) :: members) =>
    '\x7b' :: (newLine (level + 1) ++ writeString name.toList ++ ':' :: ' ' ::
      (writeIndented (level + 1) j ++ writeIndentedMembers (level + 1) members ++
        newLine level ++ ['\x7d']))
  | j => write j

def writeIndentedItems (level : Nat) : List Json → List Char
  | [] => []
  | j :: items =>
    ',' :: (newLine level ++ writeIndented level j ++ writeIndentedItems level items)

def writeIndentedMembers (level : Nat) : List (String × Json) → List Char
  | [] => []
  | (name, j) :: members =>
    ',' :: (newLine level ++ writeString name.toList ++ ':' :: ' ' ::
      (writeIndented level j ++ writeIndentedMembers level members))

end

end Calque.Json

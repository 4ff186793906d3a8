import Calque.Text.HiddenTable
import Calque.Text.Range

namespace Calque.Text

def isHidden (c : Char) : Bool :=
  if c.toNat < 0x7F then c.toNat < 0x20 else inRanges c.toNat hiddenRanges

def quoteChar (c : Char) : List Char :=
  if c = '"' then ['\\', '"']
  else if c = '\\' then ['\\', '\\']
  else if c = '\t' then ['\\', 't']
  else if c = '\n' then ['\\', 'n']
  else if c = '\r' then ['\\', 'r']
  else if c = '\x00' then ['\\', '0']
  else if isHidden c then '\\' :: 'u' :: '\x7b' :: (Nat.toDigits 16 c.toNat ++ ['\x7d'])
  else [c]

def quoted (text : String) : String := .ofList ('"' :: (text.toList.flatMap quoteChar ++ ['"']))

end Calque.Text

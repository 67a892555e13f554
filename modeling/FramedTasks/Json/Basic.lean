import FramedTasks.Keyed
import FramedTasks.Number.Shortest
import FramedTasks.Text.Decimal

/-! # JSON values and their compact text

Members of an object are kept in key order. The compact text has no blanks; a text escapes the
double quote, the backslash and the controls, and nothing else.
-/

namespace FramedTasks.Json

inductive Value where
  | null
  | bool (value : Bool)
  | integer (value : Int)
  | number (value : Binary64)
  | text (value : String)
  | list (items : List Value)
  | object (members : List (String × Value))
deriving Repr, Inhabited

/-- Numbers are positional from five places after the point to sixteen before it. -/
def numberLayout : Binary64.Layout := { mostBefore := some 16, mostZeros := some 4 }

/-- How a character is written inside a JSON text. -/
def escape (c : Char) : List Char :=
  if c = '"' then ['\\', '"']
  else if c = '\\' then ['\\', '\\']
  else if c.toNat = 0x08 then ['\\', 'b']
  else if c.toNat = 0x09 then ['\\', 't']
  else if c.toNat = 0x0A then ['\\', 'n']
  else if c.toNat = 0x0C then ['\\', 'f']
  else if c.toNat = 0x0D then ['\\', 'r']
  else if c.toNat < 0x20 then
    ['\\', 'u', '0', '0', Nat.digitChar (c.toNat / 16), Nat.digitChar (c.toNat % 16)]
  else [c]

def quoteChars (text : String) : List Char := '"' :: text.toList.flatMap escape ++ ['"']

mutual

def Value.chars : Value → List Char
  | .null => ['n', 'u', 'l', 'l']
  | .bool true => ['t', 'r', 'u', 'e']
  | .bool false => ['f', 'a', 'l', 's', 'e']
  | .integer value => Decimal.intChars value
  | .number value => (value.text numberLayout).toList
  | .text value => quoteChars value
  | .list items => '[' :: itemChars items ++ [']']
  | .object members => '\x7b' :: memberChars members ++ ['\x7d']

def itemChars : List Value → List Char
  | [] => []
  | [item] => item.chars
  | item :: rest => item.chars ++ ',' :: itemChars rest

/-- The members of an object, separated by commas. -/
def memberChars : List (String × Value) → List Char
  | [] => []
  | [(key, value)] => quoteChars key ++ ':' :: value.chars
  | (key, value) :: rest => quoteChars key ++ ':' :: value.chars ++ ',' :: memberChars rest

end

def Value.compact (value : Value) : String := String.ofList value.chars

end FramedTasks.Json

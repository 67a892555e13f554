import FramedTasks.Text.Unprintable

/-! # Quoted text in messages

A text inside a message stands between double quotes. A quote, a backslash and the usual controls
are escaped with a backslash, and characters without a glyph are written by number.
-/

namespace FramedTasks.Quoted

def escape (c : Char) : List Char :=
  if c = '"' then ['\\', '"']
  else if c = '\\' then ['\\', '\\']
  else if c = '\n' then ['\\', 'n']
  else if c = '\r' then ['\\', 'r']
  else if c = '\t' then ['\\', 't']
  else if c.toNat = 0 then ['\\', '0']
  else if Unprintable.contains c.toNat then
    ['\\', 'u', '\x7b'] ++ Nat.toDigits 16 c.toNat ++ ['\x7d']
  else [c]

def quote (text : String) : String :=
  String.ofList ('"' :: text.toList.flatMap escape ++ ['"'])

end FramedTasks.Quoted

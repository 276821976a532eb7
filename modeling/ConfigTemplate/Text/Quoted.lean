/-
  ConfigTemplate.Text.Quoted — a text shown inside a message, between double quotes.

  (1) `quoted`: the quotes and the backslash are escaped by a backslash; NUL, tab,
      line feed and carriage return have names; every other control or hidden
      character is written by its code point in hexadecimal, in braces.
-/
import ConfigTemplate.Text.Hidden

namespace ConfigTemplate.Text

/-- Lower-case hexadecimal digits, without leading zeros. -/
def hex (n : Nat) : String := String.ofList (Nat.toDigits 16 n)

def quotedChar (c : Char) : String :=
  if c = '"' then "\\\""
  else if c = '\\' then "\\\\"
  else if c = '\n' then "\\n"
  else if c = '\r' then "\\r"
  else if c = '\t' then "\\t"
  else if c.toNat = 0 then "\\0"
  else if c.toNat < 0x20 || c.toNat = 0x7F || isHidden c then "\\u\x7b" ++ hex c.toNat ++ "\x7d"
  else c.toString

def quoted (s : String) : String := "\"" ++ String.join (s.toList.map quotedChar) ++ "\""

end ConfigTemplate.Text

import CheckedPass.Text.Hidden
/-!
# Joined and quoted texts

A character literal stands between single quotes. A few characters have a short escape, a hidden
character is written by its code point, and every other one stands for itself.
-/

namespace CheckedPass.Text

/-- Sets `separator` between neighbouring parts. -/
def join (separator : String) : List String → String
  | [] => ""
  | [part] => part
  | part :: rest => part ++ separator ++ join separator rest

/-- The code point in lower-case hexadecimal, without leading zeros. -/
def hexadecimal (c : Char) : String :=
  String.ofList (Nat.toDigits 16 c.toNat)

/-- What stands between the quotes. -/
def escape (c : Char) : String :=
  if c = '\x00' then "\\0"
  else if c = '\t' then "\\t"
  else if c = '\r' then "\\r"
  else if c = '\n' then "\\n"
  else if c = '\x5c' then "\\\\"
  else if c = '\x27' then "\\'"
  else if isHidden c then "\\u\x7b" ++ hexadecimal c ++ "\x7d"
  else String.singleton c

/-- The character literal for `c`. -/
def quoted (c : Char) : String :=
  "'" ++ escape c ++ "'"

end CheckedPass.Text

import WatchLists.Text.Numeral
import WatchLists.Text.Unprinted

/-!
# Quoted text

A text between double quotes, on one line and visible: a double quote and a
backslash are written after a backslash, four controls by a letter or digit
after a backslash, and every other character without a printed form by its code
point in hexadecimal. A single quote stands for itself.

- `escaped` — how one character is written.
- `quoted` — the whole text.
-/

namespace WatchLists.Text

/-- How a character is written between double quotes. -/
def escaped (c : Char) : String :=
  match c with
  | '"' => "\\\""
  | '\\' => "\\\\"
  | '\n' => "\\n"
  | '\r' => "\\r"
  | '\t' => "\\t"
  | '\x00' => "\\0"
  | c =>
    if isUnprinted c then "\\u\x7b" ++ Numeral.hex c.toNat ++ "\x7d"
    else String.singleton c

/-- A text in double quotes. -/
def quoted (s : String) : String :=
  "\"" ++ String.join (s.toList.map escaped) ++ "\""

example : quoted "a'b" = "\"a'b\"" := by decide +kernel

example : quoted "\"\\\n\x07" = "\"\\\"\\\\\\n\\u\x7b7\x7d\"" := by decide +kernel

end WatchLists.Text

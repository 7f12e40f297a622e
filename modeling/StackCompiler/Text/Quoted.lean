import StackCompiler.Text.Graphic

/-!
# Quoted characters

The written form of a single character in a message: between single quotes, as
itself where it can be seen, and escaped where it cannot.
-/

namespace StackCompiler.Text

/-- A character by its code point, in hexadecimal. -/
def escapeByNumber (char : Char) : String :=
  "\\u\x7b" ++ String.ofList (Nat.toDigits 16 char.toNat) ++ "\x7d"

/-- A character in the form that it has between single quotes. The quote, the
backslash and the common controls have short escapes, other characters that are
not graphic go by their number. -/
def escape (char : Char) : String :=
  if char == '\x00' then "\\0"
  else if char == '\t' then "\\t"
  else if char == '\r' then "\\r"
  else if char == '\n' then "\\n"
  else if char == '\'' then "\\'"
  else if char == '\\' then "\\\\"
  else if isGraphic char then char.toString
  else escapeByNumber char

/-- A character between single quotes. -/
def quote (char : Char) : String := "'" ++ escape char ++ "'"

end StackCompiler.Text

import Telemetry.Text.Unprintable
/-!
# Quoted text

A text between double quotes, on one line and in visible characters only.
-/

namespace Telemetry.Text

/-- A character as it stands inside quotes: quote and backslash behind a backslash, the common
controls by letter, and anything else unprintable by its code point. -/
def quoteChar (c : Char) : String :=
  match c with
  | '"' => "\\\""
  | '\\' => "\\\\"
  | '\x00' => "\\0"
  | '\t' => "\\t"
  | '\n' => "\\n"
  | '\r' => "\\r"
  | c =>
    if isUnprintable c then
      "\\u\x7b" ++ String.ofList (Nat.toDigits 16 c.toNat) ++ "\x7d"
    else String.singleton c

def quote (s : String) : String :=
  "\"" ++ s.foldl (fun quoted c => quoted ++ quoteChar c) "" ++ "\""

end Telemetry.Text

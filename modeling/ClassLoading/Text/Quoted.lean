import ClassLoading.Text.Hex
import ClassLoading.Text.Printable

/-!
# Quoted text

A text between double quotes, on one line and in characters that can be seen. Quotes, backslashes
and the common controls have an escape of their own; any other character that is not shown is given
by its code point.
-/

namespace ClassLoading.Quoted

def escape (c : Char) : String :=
  match c with
  | '\x00' => "\\0"
  | '\t' => "\\t"
  | '\r' => "\\r"
  | '\n' => "\\n"
  | '"' => "\\\""
  | '\\' => "\\\\"
  | c =>
    if Printable.isShown c then String.singleton c
    else "\\u\x7b" ++ Hex.lower c.toNat ++ "\x7d"

def quote (text : String) : String :=
  text.foldl (fun done c => done ++ escape c) "\"" ++ "\""

end ClassLoading.Quoted

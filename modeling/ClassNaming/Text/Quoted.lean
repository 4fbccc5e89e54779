import ClassNaming.Text.Unprintable

/-!
# Quoted text

Error messages and log lines show a text between double quotes.  Five characters have a letter of
their own behind a backslash, the quote and the backslash stand behind one, and a character without
a visible form is written as its code point in braces.  Everything else stands for itself, the
single quote included.

## Main Definitions

* `escaped` - the written form of one character
* `quoted` - the written form of a text
-/

namespace ClassNaming.Text

/-- The written form of one character inside double quotes. -/
def escaped (c : Char) : List Char :=
  match c with
  | '\t' => ['\\', 't']
  | '\r' => ['\\', 'r']
  | '\n' => ['\\', 'n']
  | '\x00' => ['\\', '0']
  | '"' => ['\\', '"']
  | '\\' => ['\\', '\\']
  | _ =>
    if isUnprintable c then
      ['\\', 'u', '\x7b'] ++ Nat.toDigits 16 c.toNat ++ ['\x7d']
    else [c]

/-- A text between double quotes. -/
def quoted (s : String) : String :=
  String.ofList (['"'] ++ s.toList.flatMap escaped ++ ['"'])

end ClassNaming.Text

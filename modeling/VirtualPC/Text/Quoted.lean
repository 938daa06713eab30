/-
VirtualPC/Text/Quoted.lean

Quoted names in messages.  The text stands between double quotes; a quote or a backslash in
it is preceded by a backslash, the usual control characters have letters of their own, and
any other character that cannot be shown is written by its number.  Everything else,
apostrophes included, stands as it is.
-/
import VirtualPC.Text.Hex
import VirtualPC.Text.Invisible

namespace VirtualPC.Text

/-- What stands for a character between quotes. -/
def quotedChar (c : Char) : List Char :=
  match c with
  | '"' => ['\\', '"']
  | '\\' => ['\\', '\\']
  | '\t' => ['\\', 't']
  | '\n' => ['\\', 'n']
  | '\r' => ['\\', 'r']
  | '\x00' => ['\\', '0']
  | c =>
    if isInvisible c then
      '\\' :: 'u' :: '\x7b' :: Nat.toDigits 16 c.toNat ++ ['\x7d']
    else [c]

/-- A text between quotes. -/
def quoted (text : String) : String :=
  String.ofList ('"' :: text.toList.flatMap quotedChar ++ ['"'])

end VirtualPC.Text

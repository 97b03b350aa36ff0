/-
Text in quotation marks for a reader. Everything in it can be seen: characters that do not show are
spelled by their codes.
-/

import Stagecraft.Text.Unshown

namespace Stagecraft

namespace Text

/-- The digits of a code in base sixteen. -/
def hexText (code : Nat) : List Char :=
  Nat.toDigits 16 code

/-- A character between quotation marks. -/
def escape (c : Char) : List Char :=
  match c with
  | '\x00' => ['\\', '0']
  | '\t' => ['\\', 't']
  | '\r' => ['\\', 'r']
  | '\n' => ['\\', 'n']
  | '\\' => ['\\', '\\']
  | '"' => ['\\', '"']
  | c =>
    if isUnshown c then ['\\', 'u', '\x7b'] ++ hexText c.toNat ++ ['\x7d'] else [c]

def quote (text : String) : String :=
  String.ofList ('"' :: text.toList.flatMap escape ++ ['"'])

end Text

end Stagecraft

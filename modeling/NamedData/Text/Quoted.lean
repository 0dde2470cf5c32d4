import NamedData.Text.Hidden

namespace NamedData.Text

/-- A number in lower-case hexadecimal, padded with zeros to a least width. -/
def lowerHex (width value : Nat) : List Char :=
  let digits := Nat.toDigits 16 value
  List.replicate (width - digits.length) '0' ++ digits

def quotedChar (c : Char) : List Char :=
  match c with
  | '"' => ['\\', '"']
  | '\\' => ['\\', '\\']
  | '\t' => ['\\', 't']
  | '\n' => ['\\', 'n']
  | '\r' => ['\\', 'r']
  | '\x00' => ['\\', '0']
  | c => if isHidden c then ['\\', 'u', '\x7b'] ++ lowerHex 1 c.toNat ++ ['\x7d'] else [c]

/-- Texts named in messages stand in double quotes, with quotes, backslashes
and hidden characters escaped. -/
def quoted (text : String) : String :=
  String.ofList ('"' :: text.toList.flatMap quotedChar ++ ['"'])

end NamedData.Text

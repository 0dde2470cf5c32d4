import NamedData.Name
import NamedData.Text.Quoted

namespace NamedData

namespace Name

/-- Bytes that stand for themselves in a URI. All others are escaped. -/
def isUnreserved (byte : UInt8) : Bool :=
  (0x30 ≤ byte && byte ≤ 0x39) || (0x41 ≤ byte && byte ≤ 0x5A) || (0x61 ≤ byte && byte ≤ 0x7A) ||
    byte == 0x2D || byte == 0x2E || byte == 0x5F || byte == 0x7E

/-- Escapes are written with capital digits. -/
def hexDigit (value : UInt8) : Char :=
  Char.ofNat (if value < 10 then 0x30 + value.toNat else 0x37 + value.toNat)

/-- Escapes are read with digits of either case. -/
def hexValue? (byte : UInt8) : Option UInt8 :=
  if 0x30 ≤ byte && byte ≤ 0x39 then some (byte - 0x30)
  else if 0x61 ≤ byte && byte ≤ 0x66 then some (byte - 0x57)
  else if 0x41 ≤ byte && byte ≤ 0x46 then some (byte - 0x37)
  else none

def escapeByte (byte : UInt8) : List Char :=
  if isUnreserved byte then [Char.ofNat byte.toNat]
  else ['%', hexDigit (byte / 16), hexDigit (byte % 16)]

def escape (component : Component) : List Char := component.flatMap escapeByte

/-- A name is written with a slash before each component. The root name is a
slash alone. -/
def toUriChars (name : Name) : List Char :=
  if name.isRoot then ['/'] else name.components.flatMap fun component => '/' :: escape component

def toUri (name : Name) : String := String.ofList name.toUriChars

/-- What can be wrong with an escape: the part ends before its second digit,
or one of the two bytes after the percent sign is no digit. -/
inductive EscapeFault where
  | truncated
  | malformed
  deriving DecidableEq

/-- Reads one part of a URI, given as its bytes. -/
def unescape : List UInt8 → Except EscapeFault Component
  | [] => .ok []
  | byte :: rest =>
    if byte = 0x25 then
      match rest with
      | high :: low :: rest =>
        match hexValue? high, hexValue? low with
        | some upper, some lower =>
          match unescape rest with
          | .ok component => .ok ((upper * 16 + lower) :: component)
          | .error fault => .error fault
        | _, _ => .error .malformed
      | _ => .error .truncated
    else
      match unescape rest with
      | .ok component => .ok (byte :: component)
      | .error fault => .error fault

/-- A URI fails to read at its first part with a bad escape, and the error
keeps that part as it was written. -/
structure UriError where
  fault : EscapeFault
  part : String
  deriving DecidableEq

def UriError.message (error : UriError) : String :=
  (match error.fault with
    | .truncated => "truncated percent escape in component "
    | .malformed => "invalid percent escape in component ") ++ Text.quoted error.part

def utf8 (part : List Char) : List UInt8 := part.flatMap String.utf8EncodeChar

def readPart (part : List Char) : Except UriError Component :=
  match unescape (utf8 part) with
  | .ok component => .ok component
  | .error fault => .error ⟨fault, String.ofList part⟩

/-- The scheme `ndn:` may stand before the path, once. -/
def dropScheme : List Char → List Char
  | 'n' :: 'd' :: 'n' :: ':' :: path => path
  | path => path

def readParts : List (List Char) → Except UriError (List Component)
  | [] => .ok []
  | part :: parts =>
    match readPart part with
    | .error error => .error error
    | .ok component =>
      match readParts parts with
      | .error error => .error error
      | .ok components => .ok (component :: components)

/-- Reads a URI. Slashes separate the parts and empty parts are skipped, so an
empty component has no written form. -/
def ofUriChars (uri : List Char) : Except UriError Name :=
  match readParts (((dropScheme uri).splitOn '/').filter fun part => !part.isEmpty) with
  | .ok components => .ok ⟨components⟩
  | .error error => .error error

def ofUri (uri : String) : Except UriError Name := ofUriChars uri.toList

end Name

end NamedData

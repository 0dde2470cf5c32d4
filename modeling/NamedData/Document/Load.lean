import NamedData.Json.Writer
import NamedData.Toml.Reader
import NamedData.Toml.Writer

namespace NamedData

/-- What is found under a path. -/
inductive TextFile where
  | missing
  /-- A directory, or bytes that are no text. -/
  | unreadable
  | text (content : String)

/-- Bytes make a text file when they are UTF-8. -/
def TextFile.ofBytes (bytes : ByteArray) : TextFile :=
  match String.fromUTF8? bytes with
  | some content => .text content
  | none => .unreadable

/-- Why a description was not loaded: there was no text, the text does not have
the form, or the content is refused. -/
inductive LoadError (Cause : Type) where
  | noText
  | malformed
  | refused (cause : Cause)
  deriving DecidableEq

end NamedData

import NamedData.Binary64

namespace NamedData

/-- A value as it is written in a document, whatever the format. -/
inductive Document where
  | null
  | boolean (value : Bool)
  | integer (value : Int)
  | float (value : Binary64)
  | text (value : String)
  /-- A date, a time of day, or both. -/
  | moment
  /-- Well-formed text that stands for no value: a number out of range or half
  a surrogate pair. It may be skipped but not read. -/
  | unreadable
  | sequence (items : List Document)
  | table (entries : List (String × Document))

namespace Document

def boolean? : Document → Option Bool
  | boolean value => some value
  | _ => none

def text? : Document → Option String
  | text value => some value
  | _ => none

def items? : Document → Option (List Document)
  | sequence items => some items
  | _ => none

/-- A whole number from 0 up to a limit. -/
def natural? (limit : Nat) : Document → Option Nat
  | integer value => if 0 ≤ value ∧ value ≤ limit then some value.toNat else none
  | _ => none

/-- A number with a fraction. Whole numbers are rounded to one. -/
def float? : Document → Option Binary64
  | float value => some value
  | integer value => some (Binary64.ofInt value)
  | _ => none

def listOf? {α : Type} (read : Document → Option α) (document : Document) : Option (List α) :=
  document.items?.bind (·.mapM read)

/-- What is missing is written as null. -/
def ofOption {α : Type} (write : α → Document) : Option α → Document
  | some value => write value
  | none => null

/-- The largest number of 64 bits. -/
def wordLimit : Nat := 18446744073709551615

/-- The largest number of 32 bits. -/
def halfLimit : Nat := 4294967295

/-- The members of a record. In a table they are found by name; in a sequence
by place, where none may be left out before another. -/
structure Members where
  byPlace : Bool
  found : List (String × Document)

/-- Takes a record apart. A table may hold other names besides, but none of the
record's twice. A sequence may be longer than the record only in a dialect that
lets a surplus pass. A date counts as a table of other names. -/
def members? (surplus : Bool) (names : List String) : Document → Option Members
  | table entries =>
    let known := entries.filter fun entry => names.contains entry.1
    if (known.map (·.1)).eraseDups.length = known.length then some ⟨false, known⟩ else none
  | sequence items =>
    if items.length ≤ names.length ∨ surplus then some ⟨true, names.zip items⟩ else none
  | moment => some ⟨false, []⟩
  | _ => none

namespace Members

variable {α : Type}

def find? (members : Members) (name : String) : Option Document := members.found.lookup name

/-- A member that has to be there. -/
def required (members : Members) (name : String) (read : Document → Option α) : Option α :=
  (members.find? name).bind read

/-- A member with a value to stand in for it. -/
def withDefault (members : Members) (name : String) (standIn : α) (read : Document → Option α) :
    Option α :=
  match members.find? name with
  | some document => read document
  | none => some standIn

def readOptional (read : Document → Option α) : Document → Option (Option α)
  | null => some none
  | document => (read document).map some

/-- A member that may be missing, or empty. -/
def optional (members : Members) (name : String) (read : Document → Option α) :
    Option (Option α) :=
  members.withDefault name none (readOptional read)

/-- A member that may be missing from a table, but not from a sequence. -/
def optionalInTable (members : Members) (name : String) (read : Document → Option α) :
    Option (Option α) :=
  match members.find? name with
  | some document => readOptional read document
  | none => if members.byPlace then none else some none

end Members

end Document

end NamedData

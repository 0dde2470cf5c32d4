import NamedData.Toml.Scalar

namespace NamedData.Toml

/-- Blanks, line breaks and comments, which may stand between the items of an
array. -/
def skipLines : Nat → List Char → List Char
  | 0, text => text
  | bound + 1, text =>
    match skipSpace text with
    | '#' :: text => skipLines bound (skipComment ('#' :: text))
    | text => text

def skipFiller (text : List Char) : List Char := skipLines (text.length + 1) text

def isBareKeyChar (c : Char) : Bool := c.isAlphanum || c = '_' || c = '-'

/-- One part of a key: bare, or a string on one line. -/
def readKeyPart? : List Char → Option (String × List Char)
  | '"' :: text =>
    (readBasic? (text.length + 1) text).map fun (key, rest) => (String.ofList key, rest)
  | '\'' :: text => (readLiteral? text).map fun (key, rest) => (String.ofList key, rest)
  | text =>
    match text.span isBareKeyChar with
    | ([], _) => none
    | (key, rest) => some (String.ofList key, rest)

def readKeyParts? : Nat → List Char → Option (List String × List Char)
  | 0, _ => none
  | bound + 1, text => do
    let (part, text) ← readKeyPart? (skipBlanks text)
    match skipBlanks text with
    | '.' :: text =>
      let (parts, text) ← readKeyParts? bound text
      some (part :: parts, text)
    | text => some ([part], text)

/-- How deep values may nest, and keys likewise. -/
def nestingLimit : Nat := 79

/-- A dotted key: the path to a table, and the key in it. -/
def readKey? (text : List Char) : Option ((List String × String) × List Char) :=
  match readKeyParts? (text.length + 1) text with
  | some (parts, rest) =>
    if nestingLimit < parts.length then none
    else parts.getLast?.map fun key => ((parts.dropLast, key), rest)
  | none => none

/-- A value under a dotted key. -/
structure Assignment where
  path : List String
  key : String
  value : Document

/-- A table in the making. Values are closed: nothing can be added to them. A
table is open below while it was only mentioned on the way to another, and
dotted when dotted keys made it. -/
inductive Node where
  | value (value : Document)
  | table (mentioned dotted : Bool) (entries : List (String × Node))
  | tables (elements : List Node)

namespace Node

def replace (key : String) (node : Node) : List (String × Node) → List (String × Node)
  | [] => [(key, node)]
  | first :: rest => if first.1 = key then (key, node) :: rest else first :: replace key node rest

/-- Changes the table at the end of a path, making tables that are not there.
In a list of tables the path leads through the last one. Dotted keys may not
enter a table with a header of its own. -/
def within (dotted : Bool) : List String → (Node → Option Node) → Node → Option Node
  | [], change, node => change node
  | key :: path, change, table mentioned own entries =>
    match entries.lookup key with
    | none =>
      (within dotted path change (table true dotted [])).map fun child =>
        table mentioned own (entries ++ [(key, child)])
    | some (value _) => none
    | some (tables elements) =>
      match elements.getLast? with
      | none => none
      | some last =>
        (within dotted path change last).map fun child =>
          table mentioned own (replace key (tables (elements.dropLast ++ [child])) entries)
    | some (table below belowDotted inner) =>
      if dotted ∧ !below then none
      else
        (within dotted path change (table below belowDotted inner)).map fun child =>
          table mentioned own (replace key child entries)
  | _, _, _ => none

/-- Adds a value to a table that has none under the key. Tables made by dotted
keys grow by dotted keys only, and other tables by plain ones. -/
def assign (assignment : Assignment) (node : Node) : Option Node :=
  within true assignment.path
    (fun target =>
      match target with
      | table mentioned dotted entries =>
        if dotted = assignment.path.isEmpty ∨ (entries.lookup assignment.key).isSome then none
        else some (table mentioned dotted (entries ++ [(assignment.key, value assignment.value)]))
      | _ => none)
    node

def assignAll (node : Node) (assignments : List Assignment) : Option Node :=
  assignments.foldlM (fun node assignment => node.assign assignment) node

mutual

/-- The finished value. -/
def document : Node → Document
  | .value closed => closed
  | .table _ _ entries => .table (documentEntries entries)
  | .tables elements => .sequence (documentItems elements)

def documentEntries : List (String × Node) → List (String × Document)
  | [] => []
  | (key, node) :: rest => (key, document node) :: documentEntries rest

def documentItems : List Node → List Document
  | [] => []
  | node :: rest => document node :: documentItems rest

end

end Node

/-- What reads one value off the front of a text. -/
abbrev ValueReader := List Char → Option (Document × List Char)

/-- The items of an array after its opening bracket. A comma may follow the
last one. -/
def readItems? (read : ValueReader) : Nat → List Char → Option (List Document × List Char)
  | 0, _ => none
  | bound + 1, text =>
    match skipFiller text with
    | ']' :: rest => some ([], rest)
    | text => do
      let (item, text) ← read text
      match skipFiller text with
      | ',' :: text =>
        let (items, text) ← readItems? read bound text
        some (item :: items, text)
      | ']' :: text => some ([item], text)
      | _ => none

/-- A key, an equals sign and a value. -/
def readAssignment? (read : ValueReader) (text : List Char) : Option (Assignment × List Char) :=
  match readKey? text with
  | some ((path, key), '=' :: text) =>
    (read (skipBlanks text)).map fun (value, rest) => (⟨path, key, value⟩, rest)
  | _ => none

/-- The members of an inline table after its opening brace, one at least, all on
one line. -/
def readInline? (read : ValueReader) : Nat → List Char → Option (List Assignment × List Char)
  | 0, _ => none
  | bound + 1, text => do
    let (assignment, text) ← readAssignment? read text
    match skipBlanks text with
    | ',' :: text =>
      let (assignments, text) ← readInline? read bound text
      some (assignment :: assignments, text)
    | '\x7d' :: text => some ([assignment], text)
    | _ => none

/-- Reads one value. Arrays and inline tables nest no deeper than the bound. -/
def readValue? : Nat → ValueReader
  | depth, text =>
    match text with
    | '"' :: _ =>
      (readString? text).map fun (content, rest) => (.text (String.ofList content), rest)
    | '\'' :: _ =>
      (readString? text).map fun (content, rest) => (.text (String.ofList content), rest)
    | 't' :: 'r' :: 'u' :: 'e' :: rest => some (.boolean true, rest)
    | 'f' :: 'a' :: 'l' :: 's' :: 'e' :: rest => some (.boolean false, rest)
    | '[' :: text =>
      match depth with
      | 0 => none
      | depth + 1 =>
        (readItems? (readValue? depth) (text.length + 1) text).map fun (items, rest) =>
          (.sequence items, rest)
    | '\x7b' :: text =>
      match depth with
      | 0 => none
      | depth + 1 =>
        match skipBlanks text with
        | '\x7d' :: rest => some (.table [], rest)
        | text => do
          let (assignments, rest) ← readInline? (readValue? depth) (text.length + 1) text
          let node ← Node.assignAll (.table false false []) assignments
          some (node.document, rest)
    | text => readNumeric? text

/-- A line that says something: a value, or the header of a table or of the
next table in a list. -/
inductive Statement where
  | assignment (assignment : Assignment)
  | table (path : List String) (key : String)
  | nextTable (path : List String) (key : String)

def readStatement? (text : List Char) : Option (Statement × List Char) :=
  match text with
  | '[' :: '[' :: text =>
    match readKey? text with
    | some ((path, key), ']' :: ']' :: rest) => some (.nextTable path key, rest)
    | _ => none
  | '[' :: text =>
    match readKey? text with
    | some ((path, key), ']' :: rest) => some (.table path key, rest)
    | _ => none
  | text =>
    (readAssignment? (readValue? nestingLimit) text).map fun (assignment, rest) =>
      (.assignment assignment, rest)

/-- The statements of a text, one to a line. -/
def readStatements? : Nat → List Char → Option (List Statement)
  | 0, _ => none
  | bound + 1, text =>
    match skipFiller text with
    | [] => some []
    | text => do
      let (statement, text) ← readStatement? text
      let text ← endOfLine? text
      let statements ← readStatements? bound text
      some (statement :: statements)

/-- A header with the assignments below it. -/
structure Section where
  header : Statement
  assignments : List Assignment

/-- Sorts statements into those before the first header and the sections. -/
def sections : List Statement → List Assignment × List Section
  | [] => ([], [])
  | .assignment assignment :: rest =>
    let (before, below) := sections rest
    (assignment :: before, below)
  | header :: rest =>
    let (before, below) := sections rest
    ([], ⟨header, before⟩ :: below)

/-- Opens the table of a header in its parent and fills it. A header may give
its own table to one that was only mentioned before, and may add to a list of
tables, but may not repeat anything else. -/
def fill (key : String) (isNext : Bool) (assignments : List Assignment) :
    Node → Option Node
  | .table mentioned dotted entries =>
    match entries.lookup key with
    | none => do
      let made ← Node.assignAll (.table false false []) assignments
      some (.table mentioned dotted (entries ++ [(key, if isNext then .tables [made] else made)]))
    | some (.table true false inner) =>
      if isNext then none
      else do
        let made ← Node.assignAll (.table false false inner) assignments
        some (.table mentioned dotted (Node.replace key made entries))
    | some (.tables elements) =>
      if isNext then do
        let made ← Node.assignAll (.table false false []) assignments
        some (.table mentioned dotted (Node.replace key (.tables (elements ++ [made])) entries))
      else none
    | some _ => none
  | _ => none

def Section.addTo (root : Node) (added : Section) : Option Node :=
  match added.header with
  | .table path key => root.within false path (fill key false added.assignments)
  | .nextTable path key => root.within false path (fill key true added.assignments)
  | .assignment _ => none

/-- Reads a whole text as one table. A byte order mark in front is passed
over. -/
def ofText? (text : String) : Option Document := do
  let chars := dropReturns text.toList
  let chars := if chars.head? = some '\uFEFF' then chars.drop 1 else chars
  let statements ← readStatements? (chars.length + 1) chars
  let (assignments, added) := sections statements
  let root ← Node.assignAll (.table false false []) assignments
  let root ← added.foldlM Section.addTo root
  some root.document

end NamedData.Toml

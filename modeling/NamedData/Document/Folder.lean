import NamedData.Document.Load

namespace NamedData

/-- A directory seen from inside: its files, each with the names that lead to
it. A directory below it is there when a file is in it. -/
structure Folder where
  files : List (List (List Char) × TextFile)

namespace Folder

/-- The names on a way. Repeated slashes leave empty names, and so does one at
the end. -/
def namesOf (path : String) : List (List Char) := path.toList.splitOn '/'

def ofFiles (files : List (String × TextFile)) : Folder :=
  ⟨files.map fun (path, file) => (namesOf path, file)⟩

/-- A place is a directory when files lie beyond it. The folder itself is one
even when it is empty. -/
def isDirectory (folder : Folder) (place : List (List Char)) : Bool :=
  place.isEmpty || folder.files.any fun (way, _) => place.isPrefixOf way && place != way

/-- Goes on from a place. Every name is looked up in a directory, so that a slash
behind a file leads nowhere. Empty names and single dots stay, two dots go
back, and nothing is known of what lies outside. -/
def walk (folder : Folder) (place : List (List Char)) : List (List Char) → Option (List (List Char))
  | [] => some place
  | name :: rest =>
    if !folder.isDirectory place then none
    else if name = [] || name = ['.'] then folder.walk place rest
    else if name = ['.', '.'] then
      if place = [] then none else folder.walk place.dropLast rest
    else folder.walk (place ++ [name]) rest

/-- What a program started in the folder finds under a path. An empty path and
one from the root find nothing. -/
def read (folder : Folder) (path : String) : TextFile :=
  let names := namesOf path
  if names.head? = some [] then .missing
  else
    match folder.walk [] names with
    | none => .missing
    | some place =>
      if folder.isDirectory place then .unreadable else (folder.files.lookup place).getD .missing

end Folder

end NamedData

import NamedData.CommandLine.Outcome

namespace NamedData

/-- Fetches what is found under a path. -/
def fetchFile (path : String) : IO TextFile := do
  try
    return .ofBytes (← IO.FS.readBinFile path)
  catch _ =>
    return .missing

/-- A fresh tape of nonces for each run. -/
def freshNonces : IO NonceSource := do
  let bytes ← IO.getRandomBytes 4
  return .scrambled (bytes.foldl (fun seed byte => seed * 256 + byte.toUInt32) 0)

def outcomeOf (arguments : List String) : IO Outcome := do
  match Command.ofArguments arguments with
  | .error error => return .ofUsageError error
  | .ok command =>
    let nonces ← freshNonces
    match command with
    | .simulate config _ _ =>
      let file ← fetchFile config
      return .ofCommand (fun _ => file) nonces command
    | _ => return .ofCommand (fun _ => .missing) nonces command

end NamedData

def main (arguments : List String) : IO UInt32 := do
  let outcome ← NamedData.outcomeOf arguments
  IO.print outcome.output
  if let some complaint := outcome.complaint then
    IO.eprintln complaint
  return outcome.code.toUInt32

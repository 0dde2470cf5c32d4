import NamedData.CommandLine
import NamedData.Document.Folder
import NamedData.Scenario.Format
import NamedData.Simulation.Report
import NamedData.Simulation.Setup

namespace NamedData

/-- How a run of the program ends: its exit code, what it prints, and what it
complains about. -/
structure Outcome where
  code : UInt8
  output : String := ""
  complaint : Option String := none

namespace Outcome

def versionText : String := "udcn-sim 0.1.0\n"

def helpText : String :=
  "UDCN Simulator - run NDN forwarders over a virtual topology\n\n" ++
  "Usage: udcn-sim [OPTIONS] --config <FILE>\n\n" ++
  "Options:\n" ++
  "  -c, --config <FILE>     Scenario file path\n" ++
  "  -d, --duration-ms <MS>  Override the scenario duration\n" ++
  "      --json              Print the report as JSON\n" ++
  "  -h, --help              Print help\n" ++
  "  -V, --version           Print version\n"

def failure (reason : String) : Outcome := { code := 1, complaint := some ("Error: " ++ reason) }

/-- The program breaks off. The reason stands on a line of its own, below an
empty one. -/
def breakdown (reason : String) : Outcome := { code := 101, complaint := some ("\n" ++ reason) }

/-- A bad command line ends the program with code 2. -/
def ofUsageError (error : UsageError) : Outcome :=
  { code := 2, complaint := some ("error: " ++ error.message) }

def ofSetupError : SetupError → Outcome
  | .noInterval node => breakdown (SetupError.noInterval node).message
  | error => failure (error.causes.headD "")

def reportText (json : Bool) (report : Report) : String :=
  if json then Json.pretty 0 report.toDocument ++ "\n" else report.toText

/-- Runs a scenario and prints the report. -/
def ofScenario (scenario : Scenario) (json : Bool) (nonces : NonceSource) : Outcome :=
  match Simulation.ofScenario scenario nonces with
  | .error error => ofSetupError error
  | .ok simulation =>
    match simulation.run? Simulation.budget with
    | some finished =>
      if finished.isOverrun then breakdown "an application passed every bound"
      else { code := 0, output := reportText json finished.report }
    | none => failure "the simulation does not end"

/-- Loads a scenario and runs it. A duration from the command line replaces the
one of the scenario. -/
def simulate (config : String) (file : TextFile) (duration : Option Nat) (json : Bool)
    (nonces : NonceSource) : Outcome :=
  match Scenario.load file with
  | .error _ => failure ("failed to load scenario " ++ config)
  | .ok scenario =>
    ofScenario { scenario with duration := duration.getD scenario.duration } json nonces

/-- What the program does for a command line, given the file that the line
names. -/
def ofCommand (file : String → TextFile) (nonces : NonceSource) : Command → Outcome
  | .help => { code := 0, output := helpText }
  | .version => { code := 0, output := versionText }
  | .simulate config duration json => simulate config (file config) duration json nonces

/-- What the program does with its arguments when it is started in a folder. -/
def inFolder (folder : Folder) (nonces : NonceSource) (arguments : List String) : Outcome :=
  match Command.ofArguments arguments with
  | .ok command => ofCommand folder.read nonces command
  | .error error => ofUsageError error

/-- The first line of the complaint. A complaint is printed with a line feed
behind it, and a carriage return right before a line feed belongs to the end of
the line. -/
def headline (outcome : Outcome) : Option String :=
  outcome.complaint.map fun complaint =>
    let line := complaint.toList.takeWhile (· != '\n')
    String.ofList (if line.getLast? = some '\r' then line.dropLast else line)

end Outcome

end NamedData

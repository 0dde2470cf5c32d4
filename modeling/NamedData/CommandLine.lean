import NamedData.Document

namespace NamedData

/-- The options of the command line. The first two take a value. -/
inductive Flag where
  | config
  | duration
  | json
  | help
  | version
  deriving DecidableEq

namespace Flag

def ofLong? (name : List Char) : Option Flag :=
  match String.ofList name with
  | "config" => some .config
  | "duration-ms" => some .duration
  | "json" => some .json
  | "help" => some .help
  | "version" => some .version
  | _ => none

def ofShort? : Char → Option Flag
  | 'c' => some .config
  | 'd' => some .duration
  | 'h' => some .help
  | 'V' => some .version
  | _ => none

def takesValue (flag : Flag) : Bool := flag = config || flag = duration

/-- The form under which complaints speak of an option. -/
def usage : Flag → String
  | config => "--config <FILE>"
  | duration => "--duration-ms <MS>"
  | json => "--json"
  | help => "--help"
  | version => "--version"

end Flag

/-- Why a text is no number of 64 bits. -/
inductive NumberFault where
  | empty
  | badDigit
  | tooLarge
  deriving DecidableEq

def NumberFault.message : NumberFault → String
  | empty => "cannot parse integer from empty string"
  | badDigit => "invalid digit found in string"
  | tooLarge => "number too large to fit in target type"

/-- Why a command line is refused. -/
inductive UsageError where
  | unexpectedArgument (argument : String)
  | unexpectedValue (flag : Flag) (value : String)
  | missingValue (flag : Flag)
  | repeated (flag : Flag)
  | badNumber (value : String) (fault : NumberFault)
  | missingConfig
  deriving DecidableEq

def UsageError.message : UsageError → String
  | unexpectedArgument argument => "unexpected argument '" ++ argument ++ "' found"
  | unexpectedValue flag value =>
    "unexpected value '" ++ value ++ "' for '" ++ flag.usage ++
      "' found; no more were expected"
  | missingValue flag =>
    "a value is required for '" ++ flag.usage ++ "' but none was supplied"
  | repeated flag => "the argument '" ++ flag.usage ++ "' cannot be used multiple times"
  | badNumber value fault =>
    "invalid value '" ++ value ++ "' for '" ++ Flag.duration.usage ++ "': " ++ fault.message
  | missingConfig => "the following required arguments were not provided:"

/-- What a command line asks for. -/
inductive Command where
  | help
  | version
  | simulate (config : String) (duration : Option Nat) (json : Bool)
  deriving DecidableEq

namespace Command

/-- Reads digits from the left. The first fault on the way counts. -/
def readDigits (value : Nat) : List Char → Except NumberFault Nat
  | [] => .ok value
  | digit :: rest =>
    if !digit.isDigit then .error .badDigit
    else
      let value := value * 10 + (digit.toNat - '0'.toNat)
      if Document.wordLimit < value then .error .tooLarge else readDigits value rest

/-- Reads a number that may have a plus before it. -/
def readNumber : List Char → Except NumberFault Nat
  | [] => .error .empty
  | ['+'] => .error .badDigit
  | '+' :: digits => readDigits 0 digits
  | digits => readDigits 0 digits

/-- The options accepted so far, and the last one that takes its value from the
next argument. Such an option is accepted only when the next option comes or
the line ends, so that a stray argument is complained about first. -/
structure Options where
  config : Option String := none
  duration : Option Nat := none
  json : Bool := false
  pending : Option (Flag × Option String) := none

namespace Options

/-- Accepts an option with a value. -/
def setValue (options : Options) (flag : Flag) (value : String) : Except UsageError Options :=
  if flag = .config then
    if options.config.isSome then .error (.repeated flag)
    else .ok { options with config := some value }
  else if options.duration.isSome then .error (.repeated flag)
  else
    match readNumber value.toList with
    | .ok number => .ok { options with duration := some number }
    | .error fault => .error (.badNumber value fault)

/-- Accepts the option that waits, which must have got its value. -/
def settle (options : Options) : Except UsageError Options :=
  match options.pending with
  | none => .ok options
  | some (flag, none) => .error (.missingValue flag)
  | some (flag, some value) => { options with pending := none }.setValue flag value

def setJson (options : Options) : Except UsageError Options :=
  if options.json then .error (.repeated .json) else .ok { options with json := true }

def conclude (options : Options) : Except UsageError Command := do
  let settled ← options.settle
  match settled.config with
  | none => .error .missingConfig
  | some config => .ok (.simulate config settled.duration settled.json)

end Options

/-- What a single argument looks like. -/
inductive Argument where
  /-- Two dashes end the options. -/
  | terminator
  | long (name : List Char) (value : Option (List Char))
  | short (letter : Char) (value : Option (List Char))
  | plain

/-- Parts a name from the value that an equals sign attaches to it. -/
def splitValue (text : List Char) : List Char × Option (List Char) :=
  match text.dropWhile (· != '=') with
  | [] => (text, none)
  | _ :: value => (text.takeWhile (· != '='), some value)

/-- A value may follow a letter directly or after an equals sign. -/
def shortValue : List Char → Option (List Char)
  | [] => none
  | '=' :: value => some value
  | value => some value

/-- A single dash is a plain argument. -/
def Argument.ofText : List Char → Argument
  | ['-', '-'] => .terminator
  | '-' :: '-' :: text => .long (splitValue text).1 (splitValue text).2
  | '-' :: letter :: rest => .short letter (shortValue rest)
  | _ => .plain

/-- What reading one option leads to. -/
inductive Progress where
  | goOn (options : Options)
  | finished (command : Command)

/-- Takes an option in that is written out in one argument. -/
def acceptFlag (options : Options) (flag : Flag) (value : Option (List Char)) :
    Except UsageError Progress := do
  let settled ← options.settle
  match flag, value with
  | .help, _ => .ok (.finished .help)
  | .version, _ => .ok (.finished .version)
  | .json, _ => return .goOn (← settled.setJson)
  | flag, some value => return .goOn (← settled.setValue flag (String.ofList value))
  | flag, none => .ok (.goOn { settled with pending := some (flag, none) })

/-- Takes a long option in. Options without a value refuse one before anything
else. -/
def acceptLong (options : Options) (name : List Char) (value : Option (List Char)) :
    Except UsageError Progress :=
  match Flag.ofLong? name, value with
  | none, _ => .error (.unexpectedArgument ("--" ++ String.ofList name))
  | some flag, some value =>
    if flag.takesValue then acceptFlag options flag (some value)
    else .error (.unexpectedValue flag (String.ofList value))
  | some flag, none => acceptFlag options flag none

def acceptShort (options : Options) (letter : Char) (value : Option (List Char)) :
    Except UsageError Progress :=
  match Flag.ofShort? letter with
  | none => .error (.unexpectedArgument ("-" ++ String.ofList [letter]))
  | some flag => acceptFlag options flag value

/-- A plain argument is the value of the option before it, or out of place. -/
def acceptPlain (options : Options) (argument : String) : Except UsageError Progress :=
  match options.pending with
  | some (flag, none) => .ok (.goOn { options with pending := some (flag, some argument) })
  | _ => .error (.unexpectedArgument argument)

def readArguments (options : Options) : List String → Except UsageError Command
  | [] => options.conclude
  | argument :: rest =>
    let progress : Except UsageError Progress :=
      match Argument.ofText argument.toList with
      | .terminator =>
        match rest with
        | [] => .ok (.goOn options)
        | next :: _ => .error (.unexpectedArgument next)
      | .long name value => acceptLong options name value
      | .short letter value => acceptShort options letter value
      | .plain => acceptPlain options argument
    match progress with
    | .error error => .error error
    | .ok (.finished command) => .ok command
    | .ok (.goOn options) => readArguments options rest

/-- Reads a command line from left to right. The first fault counts. -/
def ofArguments (arguments : List String) : Except UsageError Command :=
  readArguments {} arguments

end Command

end NamedData

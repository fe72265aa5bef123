import ImageDump.CommandLine.Address
import ImageDump.Plan

/-!
# Command line arguments

The arguments are read from left to right. An option is given by its long name
or its short letter; its value stands behind an equals sign, directly behind
the letter, or in the next argument, which then must not start with a dash
unless it is a single dash. Everything else is the input, of which there is one.
Two dashes end the options.

A value in an argument of its own is checked only when the next name or input
is met, or at the end. An argument that is none of these therefore decides the
outcome even if the value before it is bad, while a request for help comes too
late after a bad value.
-/

namespace ImageDump

/-! ## Names -/

/-- What takes a value. The input is the one without a name. -/
inductive Parameter where
  | input
  | output
  | bss
  | data
  | staticBss
  | imageBase
  | dataSection
  | logLevel
deriving DecidableEq, Repr

/-- What stands alone. -/
inductive Flag where
  | noChecksum
  | help
  | version
deriving DecidableEq, Repr

/-- What a name on the command line means. -/
inductive OptionName where
  | parameter (parameter : Parameter)
  | flag (flag : Flag)
deriving DecidableEq, Repr

/-- The long names, which have to be given in full. -/
def longNames : List (String × OptionName) := [
  ("output", .parameter .output),
  ("bss", .parameter .bss),
  ("data", .parameter .data),
  ("static-bss", .parameter .staticBss),
  ("image-base", .parameter .imageBase),
  ("data-section", .parameter .dataSection),
  ("log-level", .parameter .logLevel),
  ("no-checksum", .flag .noChecksum),
  ("help", .flag .help),
  ("version", .flag .version)]

/-- The short letters. -/
def shortNames : List (Char × OptionName) := [
  ('o', .parameter .output),
  ('h', .flag .help),
  ('V', .flag .version)]

/-! ## Settings -/

/-- What a complete command line says. -/
structure Settings where
  input : String
  output : String
  bss : RegionArgument
  data : Option RegionArgument
  staticBss : Option RegionArgument
  imageBase : Option UInt64
  dataSection : String
  noChecksum : Bool
  logLevel : String
deriving DecidableEq, Repr

/-- Why the arguments are not acted on. -/
inductive Refusal where
  | help
  | version
  /-- A name, a value or an input is missing, unknown, repeated or empty. -/
  | usage
  /-- A value is no address or no region. -/
  | badValue (fault : ArgumentFault)
deriving DecidableEq, Repr

/-- The values read so far. -/
structure GivenValues where
  input : Option String := none
  output : Option String := none
  bss : Option RegionArgument := none
  data : Option RegionArgument := none
  staticBss : Option RegionArgument := none
  imageBase : Option UInt64 := none
  dataSection : Option String := none
  logLevel : Option String := none
  noChecksum : Bool := false
deriving DecidableEq, Repr

namespace GivenValues

/-- A value may be given once. -/
def once {α : Type} (present : Option α) (value : Except Refusal α) :
    Except Refusal (Option α) :=
  if present.isSome then .error .usage else some <$> value

/-- The value of a path, which must not be empty. -/
def path (text : String) : Except Refusal String :=
  if text.isEmpty then .error .usage else .ok text

/-- Record the value of a parameter. -/
def set (given : GivenValues) (parameter : Parameter) (text : String) :
    Except Refusal GivenValues := do
  let region := (readRegion text).mapError .badValue
  match parameter with
  | .input => return { given with input := ← once given.input (path text) }
  | .output => return { given with output := ← once given.output (path text) }
  | .bss => return { given with bss := ← once given.bss region }
  | .data => return { given with data := ← once given.data region }
  | .staticBss => return { given with staticBss := ← once given.staticBss region }
  | .imageBase =>
    let address := (readAddress text).mapError .badValue
    return { given with imageBase := ← once given.imageBase address }
  | .dataSection => return { given with dataSection := ← once given.dataSection (.ok text) }
  | .logLevel => return { given with logLevel := ← once given.logLevel (.ok text) }

/-- Act on a flag. -/
def setFlag (given : GivenValues) : Flag → Except Refusal GivenValues
  | .noChecksum =>
    if given.noChecksum then .error .usage else .ok { given with noChecksum := true }
  | .help => .error .help
  | .version => .error .version

/-- The settings, if everything that is required was given. -/
def settings (given : GivenValues) : Except Refusal Settings :=
  match given.input, given.output, given.bss with
  | some input, some output, some bss => .ok {
      input, output, bss
      data := given.data
      staticBss := given.staticBss
      imageBase := given.imageBase
      dataSection := given.dataSection.getD "DUMPDATA"
      noChecksum := given.noChecksum
      logLevel := given.logLevel.getD "info" }
  | _, _, _ => .error .usage

end GivenValues

/-! ## Reading -/

/-- How far the arguments are read. -/
structure ArgumentReader where
  given : GivenValues := {}
  /-- The parameter met last, with its value once that is met too. -/
  pending : Option (Parameter × Option String) := none
  /-- An input was met. -/
  hasInput : Bool := false
  /-- The options have ended. -/
  onlyInputs : Bool := false
deriving DecidableEq, Repr

namespace ArgumentReader

/-- Record the pending value. A parameter without a value is an error. -/
def settle (reader : ArgumentReader) : Except Refusal ArgumentReader :=
  match reader.pending with
  | none => .ok reader
  | some (_, none) => .error .usage
  | some (parameter, some text) => do
    return { reader with given := ← reader.given.set parameter text, pending := none }

/-- Meet a parameter with its value attached, or with its value to follow. -/
def meet (reader : ArgumentReader) (parameter : Parameter) (attached : Option String) :
    Except Refusal ArgumentReader := do
  let reader ← reader.settle
  match attached with
  | some text => return { reader with given := ← reader.given.set parameter text }
  | none => return { reader with pending := some (parameter, none) }

/-- Meet a flag. -/
def meetFlag (reader : ArgumentReader) (flag : Flag) : Except Refusal ArgumentReader := do
  let reader ← reader.settle
  return { reader with given := ← reader.given.setFlag flag }

/-- Meet an input. It is checked like a pending value. -/
def meetInput (reader : ArgumentReader) (text : List Char) :
    Except Refusal ArgumentReader :=
  if reader.hasInput then .error .usage
  else do
    let reader ← reader.settle
    return { reader with
      pending := some (.input, some (String.ofList text))
      hasInput := true }

/-- Read an argument behind two dashes. -/
def readLong (reader : ArgumentReader) (text : List Char) :
    Except Refusal ArgumentReader :=
  let (name, attached) :=
    match Text.splitFirst? '=' text with
    | some (name, value) => (name, some (String.ofList value))
    | none => (text, none)
  match longNames.lookup (String.ofList name), attached with
  | none, _ => .error .usage
  | some (.parameter parameter), attached => reader.meet parameter attached
  | some (.flag flag), none => reader.meetFlag flag
  | some (.flag _), some _ => .error .usage

/-- Read the letters behind a single dash. What follows the letter of a
parameter is its value, less one equals sign. -/
def readShort (reader : ArgumentReader) : List Char → Except Refusal ArgumentReader
  | [] => .ok reader
  | letter :: rest =>
    match shortNames.lookup letter with
    | none => .error .usage
    | some (.flag flag) => do readShort (← reader.meetFlag flag) rest
    | some (.parameter parameter) =>
      match rest with
      | [] => reader.meet parameter none
      | '=' :: value => reader.meet parameter (some (String.ofList value))
      | value => reader.meet parameter (some (String.ofList value))

/-- Read an argument that names nothing: a value that is waited for, or the
input. -/
def readPlain (reader : ArgumentReader) (text : List Char) :
    Except Refusal ArgumentReader :=
  match reader.pending with
  | some (parameter, none) =>
    .ok { reader with pending := some (parameter, some (String.ofList text)) }
  | _ => reader.meetInput text

/-- Read one argument. -/
def readArgument (reader : ArgumentReader) (text : List Char) :
    Except Refusal ArgumentReader :=
  if reader.onlyInputs then reader.meetInput text
  else
    match text with
    | ['-', '-'] => .ok { reader with onlyInputs := true }
    | '-' :: '-' :: name => reader.readLong name
    | '-' :: letter :: rest => reader.readShort (letter :: rest)
    | _ => reader.readPlain text

end ArgumentReader

/-- Read the arguments of a command line. -/
def readArguments (arguments : List String) : Except Refusal Settings := do
  let reader ← arguments.foldlM (fun reader text => reader.readArgument text.toList)
    ({} : ArgumentReader)
  let reader ← reader.settle
  reader.given.settings

end ImageDump

import Blockwright.Path

/-!
# The command line

Arguments are read from left to right. A name, or a setting whose value is a separate argument,
is taken in only when the next argument is used or the arguments end; so an argument that cannot
be used at all is refused before the value to its left is looked at.
-/

namespace Blockwright.Command

/-- What a run is asked to do. -/
structure Options where
  input : String
  output : Option String := none
  /-- The files of extensions, in the order given. -/
  extensions : List String := []
  config : Option String := none
  /-- Whether the input is the document of a program instead of a script. -/
  fromDocument : Bool := false
  /-- Whether the input is only checked. -/
  checkOnly : Bool := false
  /-- Where to write the document of the program. -/
  emit : Option String := none
  deriving DecidableEq, Repr

/-- Where the archive goes when the command line does not say. -/
def defaultOutput (input : String) : String := Path.withExtension "aia" input

/-- Where the archive goes. -/
def Options.outputPath (o : Options) : String := o.output.getD (defaultOutput o.input)

/-- Why a command line is not carried out. -/
inductive Refusal where
  /-- No input is given. -/
  | missingInput
  /-- An option is not known, or a second input is given. -/
  | unknownArgument
  /-- A value is missing or empty. -/
  | invalidValue
  /-- Something that may be given once is given again. -/
  | repeated
  /-- A switch is given a value. -/
  | unexpectedValue
  /-- Help is asked for. -/
  | help
  /-- The version is asked for. -/
  | version
  deriving DecidableEq, Repr

/-- An option that takes a value. -/
inductive Setting where
  | output | extension | config | emit
  deriving DecidableEq, Repr

/-- An option that takes no value. -/
inductive Switch where
  | fromDocument | checkOnly | help | version
  deriving DecidableEq, Repr

/-- What has been seen and not yet taken in. -/
inductive Pending where
  /-- Nothing. -/
  | nothing
  /-- The input. -/
  | input (value : String)
  /-- A setting that waits for its value. -/
  | awaiting (setting : Setting)
  /-- A setting with its value. -/
  | value (setting : Setting) (value : String)
  deriving DecidableEq, Repr

/-- A command line being read. -/
structure Reading where
  /-- What has been taken in. Its input is empty until one is taken in. -/
  options : Options := { input := "" }
  pending : Pending := .nothing
  /-- Whether an input has been seen. -/
  inputSeen : Bool := false
  /-- Whether all further arguments are names. -/
  namesOnly : Bool := false
  deriving DecidableEq, Repr

/-- The option that a word after two dashes names. -/
def longOption : String → Option (Setting ⊕ Switch)
  | "output" => some (.inl .output)
  | "extension" => some (.inl .extension)
  | "config" => some (.inl .config)
  | "emit-ir" => some (.inl .emit)
  | "ir" => some (.inr .fromDocument)
  | "check" => some (.inr .checkOnly)
  | "help" => some (.inr .help)
  | "version" => some (.inr .version)
  | _ => none

/-- The option that a letter after one dash names. -/
def shortOption : Char → Option (Setting ⊕ Switch)
  | 'o' => some (.inl .output)
  | 'e' => some (.inl .extension)
  | 'h' => some (.inr .help)
  | 'V' => some (.inr .version)
  | _ => none

namespace Options

/-- Checks that a setting given once is not given again. -/
def unset (given : Option String) : Except Refusal Unit :=
  if given.isSome then .error .repeated else .ok ()

/-- Checks that a value is not empty. -/
def nonempty (value : String) : Except Refusal String :=
  if value.isEmpty then .error .invalidValue else .ok value

/-- Takes in the value of a setting. -/
def set (o : Options) (setting : Setting) (value : String) : Except Refusal Options :=
  match setting with
  | .output => do unset o.output; return { o with output := some (← nonempty value) }
  | .extension => return { o with extensions := o.extensions ++ [← nonempty value] }
  | .config => do unset o.config; return { o with config := some (← nonempty value) }
  | .emit => do unset o.emit; return { o with emit := some (← nonempty value) }

/-- Takes in a switch. -/
def turnOn (o : Options) : Switch → Except Refusal Options
  | .fromDocument =>
    if o.fromDocument then .error .repeated else .ok { o with fromDocument := true }
  | .checkOnly => if o.checkOnly then .error .repeated else .ok { o with checkOnly := true }
  | .help => .error .help
  | .version => .error .version

end Options

namespace Reading

/-- Takes in what is pending. -/
def settle (r : Reading) : Except Refusal Reading :=
  match r.pending with
  | .nothing => .ok r
  | .input value => do
    let value ← Options.nonempty value
    return { r with options := { r.options with input := value }, pending := .nothing }
  | .awaiting _ => .error .invalidValue
  | .value setting value => do
    return { r with options := ← r.options.set setting value, pending := .nothing }

/-- Reads an option with the value attached to it, if there is one. -/
def option (r : Reading) (attached : Option String) : Setting ⊕ Switch → Except Refusal Reading
  | .inl setting => do
    let r ← r.settle
    match attached with
    | some value => return { r with options := ← r.options.set setting value }
    | none => return { r with pending := .awaiting setting }
  | .inr switch =>
    match attached with
    | some _ => .error .unexpectedValue
    | none => do
      let r ← r.settle
      return { r with options := ← r.options.turnOn switch }

/-- Reads an argument that is no option: the value that a setting waits for, or the input. -/
def plain (r : Reading) (argument : String) : Except Refusal Reading :=
  match r.namesOnly, r.pending with
  | false, .awaiting setting => .ok { r with pending := .value setting argument }
  | _, _ =>
    if r.inputSeen then .error .unknownArgument
    else do
      let r ← r.settle
      return { r with pending := .input argument, inputSeen := true }

/-- Reads the option that follows two dashes. -/
def long (r : Reading) (word : List Char) : Except Refusal Reading :=
  let name := String.ofList (word.takeWhile (· != '='))
  let attached := match word.dropWhile (· != '=') with
    | _ :: value => some (String.ofList value)
    | [] => none
  match longOption name with
  | some found => r.option attached found
  | none => .error .unknownArgument

/-- Reads the option that a letter after one dash names. A setting takes the rest of the argument
as its value, with or without `=` before it; a switch leaves the rest unread. -/
def short (r : Reading) (letter : Char) (rest : List Char) : Except Refusal Reading :=
  match shortOption letter, rest with
  | some (.inl setting), '=' :: value => r.option (some (String.ofList value)) (.inl setting)
  | some (.inl setting), [] => r.option none (.inl setting)
  | some (.inl setting), value => r.option (some (String.ofList value)) (.inl setting)
  | some (.inr switch), _ => r.option none (.inr switch)
  | none, _ => .error .unknownArgument

/-- Reads one more argument. -/
def argument (r : Reading) (argument : String) : Except Refusal Reading :=
  if r.namesOnly then r.plain argument
  else
    match argument.toList with
    | ['-', '-'] => .ok { r with namesOnly := true }
    | '-' :: '-' :: word => r.long word
    | '-' :: letter :: rest => r.short letter rest
    | _ => r.plain argument

end Reading

/-- What a command line asks for. -/
def Options.read (arguments : List String) : Except Refusal Options := do
  let r ← arguments.foldlM Reading.argument {}
  let r ← r.settle
  if r.inputSeen then return r.options else .error .missingInput

end Blockwright.Command

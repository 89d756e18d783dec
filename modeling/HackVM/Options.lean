import HackVM.Encoding.Library
import HackVM.Log

/-!
# Command-line options

`Options.parse` reads the arguments of the command line and the environment. Flags may stand
anywhere before a `--`; `Arguments.reorder` moves them to the front together with the values that
seem to belong to them, and puts a `--` of its own after them. The flags are then read in order up
to the first argument that is none.
-/

namespace HackVM

/-- What a flag sets. -/
inductive Flag
  | output
  | logLevel
  | encoding
  | staticNamespace
  | strict
  | keepGoing
  | help
  deriving DecidableEq, Repr

namespace Flag

/-- The names of the flags, without dashes. -/
def names : List (Text × Flag) :=
  [(utf8 "output", output), (utf8 "o", output), (utf8 "log-level", logLevel), (utf8 "l", logLevel),
    (utf8 "encoding", encoding), (utf8 "e", encoding),
    (utf8 "static-namespace", staticNamespace), (utf8 "strict", strict),
    (utf8 "keep-going", keepGoing), (utf8 "k", keepGoing), (utf8 "help", help), (utf8 "h", help)]

/-- Is the flag either on or off, so that the next argument is not its value? -/
def isSwitch : Flag → Bool
  | output | logLevel | encoding => false
  | staticNamespace | strict | keepGoing | help => true

end Flag

/-- The environment variables that are looked at; an empty one counts as not set. -/
structure Environment where
  logLevel : Text := []
  encoding : Text := []
  deriving DecidableEq, Repr

/-- The name of the variable for the log level. -/
def logLevelVariable : Text := utf8 "VMTRANS_LOG_LEVEL"

/-- The name of the variable for the encoding. -/
def encodingVariable : Text := utf8 "VMTRANS_ENCODING"

/-- The settings of a run. -/
structure Options where
  inputs : List Text := []
  /-- Where to write the assembly; next to the source if empty. -/
  output : Text := []
  logLevel : LogLevel := .info
  /-- The label of the encoding of the sources. -/
  encoding : Text := defaultEncodingLabel
  staticNamespace : Bool := false
  strict : Bool := false
  keepGoing : Bool := true
  help : Bool := false
  deriving DecidableEq, Repr

/-- What is wrong with the arguments. -/
inductive UsageError
  | badSyntax (arg : Text)
  | undefinedFlag (name : Text)
  | missingValue (name : Text)
  | notBoolean (value name : Text)
  | invalidLevel (name : Text)
  | unknownEncoding (e : UnknownEncoding)
  | outputForManyInputs (n : Nat)
  deriving DecidableEq, Repr

/-- The message of a usage error. -/
def UsageError.message : UsageError → Text
  | badSyntax arg => utf8 "bad flag syntax: " ++ arg
  | undefinedFlag name => utf8 "flag provided but not defined: -" ++ name
  | missingValue name => utf8 "flag needs an argument: -" ++ name
  | notBoolean value name =>
    utf8 "invalid boolean value " ++ value.quoted ++ utf8 " for -" ++ name ++ utf8 ": parse error"
  | invalidLevel name =>
    invalidLevelMessage name ++ utf8 " (must be " ++
      (utf8 ", ").intercalate (LogLevel.all.map LogLevel.name) ++ utf8 ")"
  | unknownEncoding e => e.message
  | outputForManyInputs n => utf8 "--output requires a single input, got " ++ Text.ofNat n

namespace Arguments

/-- The dash before a flag. -/
def dash : UInt8 := 45

/-- The sign between a flag and its value. -/
def equalsSign : UInt8 := 61

/-- The argument after which there are no flags. -/
def endOfFlags : Text := utf8 "--"

/-- The switches, as they are written. -/
def switches : List Text :=
  [utf8 "-h", utf8 "--help", utf8 "-help", utf8 "--strict", utf8 "-strict",
    utf8 "--static-namespace", utf8 "-static-namespace", utf8 "-k", utf8 "--keep-going",
    utf8 "-keep-going"]

/-- Does the argument look like a flag? A single dash does not. -/
def isFlag (arg : Text) : Bool := arg.head? = some dash && 1 < arg.length

/-- Does the flag take the next argument along? -/
def takesNext (arg : Text) : Bool := !arg.contains equalsSign && !switches.contains arg

/-- Can the argument be taken along by the flag before it? -/
def isValue (arg : Text) : Bool := arg ≠ [] && arg.head? ≠ some dash

/-- The flags with their values, and the other arguments. -/
def split : List Text → List Text × List Text
  | [] => ([], [])
  | arg :: rest =>
    if arg = endOfFlags then ([], rest)
    else if isFlag arg then
      match rest with
      | [] => ([arg], [])
      | value :: rest' =>
        if takesNext arg && isValue value then
          let (flags, others) := split rest'
          (arg :: value :: flags, others)
        else
          let (flags, others) := split (value :: rest')
          (arg :: flags, others)
    else
      let (flags, others) := split rest
      (flags, arg :: others)

/-- The flags first, then `--`, then the other arguments. -/
def reorder (args : List Text) : List Text :=
  let (flags, others) := split args
  flags ++ [endOfFlags] ++ others

end Arguments

/-- What the flags say, before it is checked. -/
structure FlagValues where
  output : Text := []
  logLevel : Option Text := none
  encoding : Option Text := none
  staticNamespace : Bool := false
  strict : Bool := false
  keepGoing : Bool := true
  help : Bool := false
  deriving DecidableEq, Repr

/-- The truth value that a word stands for. -/
def boolOfWord? (w : Text) : Option Bool :=
  if [utf8 "1", utf8 "t", utf8 "T", utf8 "TRUE", utf8 "true", utf8 "True"].contains w then some true
  else if [utf8 "0", utf8 "f", utf8 "F", utf8 "FALSE", utf8 "false", utf8 "False"].contains w then
    some false
  else none

namespace FlagValues

/-- Sets a flag that takes a value. -/
def setText (v : FlagValues) (value : Text) : Flag → FlagValues
  | .output => { v with output := value }
  | .logLevel => { v with logLevel := some value }
  | .encoding => { v with encoding := some value }
  | _ => v

/-- Turns a switch on or off. -/
def setSwitch (v : FlagValues) (on : Bool) : Flag → FlagValues
  | .staticNamespace => { v with staticNamespace := on }
  | .strict => { v with strict := on }
  | .keepGoing => { v with keepGoing := on }
  | .help => { v with help := on }
  | _ => v

/-- A flag argument without its one or two dashes. -/
def dropDashes (arg : Text) : Text :=
  if arg.take 2 = Arguments.endOfFlags then arg.drop 2 else arg.drop 1

/-- The name of a flag and the value written after `=`, if there is one. -/
def splitFlag (body : Text) : Text × Option Text :=
  match Text.cut? [Arguments.equalsSign] body with
  | some (name, value) => (name, some value)
  | none => (body, none)

/-- Does the body of a flag argument begin with a name? It is neither empty nor does it begin with
a dash or with `=`. -/
def beginsWithName (body : Text) : Bool :=
  body ≠ [] && body.head? ≠ some Arguments.dash && body.head? ≠ some Arguments.equalsSign

/-- How an argument is read where a flag may stand. -/
inductive Reading
  /-- It is no flag, and no flags come after it. -/
  | stop
  /-- It ends the flags and is dropped. -/
  | finish
  | refuse (e : UsageError)
  /-- It is a flag that needs no other argument. -/
  | set (change : FlagValues → FlagValues)
  /-- It is a flag whose value is the next argument. -/
  | await (name : Text) (flag : Flag)

/-- How an argument is read. -/
def reading (arg : Text) : Reading :=
  if !Arguments.isFlag arg then .stop
  else if arg = Arguments.endOfFlags then .finish
  else if !beginsWithName (dropDashes arg) then .refuse (.badSyntax arg)
  else
    let (name, value?) := splitFlag (dropDashes arg)
    match Flag.names.lookup name with
    | none => .refuse (.undefinedFlag name)
    | some flag =>
      match flag.isSwitch, value? with
      | true, none => .set fun v => v.setSwitch true flag
      | true, some value =>
        match boolOfWord? value with
        | some on => .set fun v => v.setSwitch on flag
        | none => .refuse (.notBoolean value name)
      | false, some value => .set fun v => v.setText value flag
      | false, none => .await name flag

/-- Reads flags up to the first argument that is none, or to `--`, which is dropped: what they say,
and the arguments after them. -/
def read (v : FlagValues) : List Text → Except UsageError (FlagValues × List Text)
  | [] => .ok (v, [])
  | arg :: rest =>
    match reading arg, rest with
    | .stop, rest => .ok (v, arg :: rest)
    | .finish, rest => .ok (v, rest)
    | .refuse e, _ => .error e
    | .set change, rest => read (change v) rest
    | .await name _, [] => .error (.missingValue name)
    | .await _ flag, value :: rest => read (v.setText value flag) rest

end FlagValues

/-- A flag's value, or that of the environment, or a default. -/
def firstGiven (flag : Option Text) (setting default : Text) : Text :=
  match flag with
  | some t => t
  | none => if setting = [] then default else setting

namespace FlagValues

/-- The log level that counts, in lower case. -/
def level (v : FlagValues) (env : Environment) : Text :=
  Text.lower (firstGiven v.logLevel env.logLevel LogLevel.info.name)

/-- The label of the encoding that counts. -/
def label (v : FlagValues) (env : Environment) : Text :=
  firstGiven v.encoding env.encoding defaultEncodingLabel

/-- Checks what the flags and the environment say: the settings of a run with these inputs. -/
def settle (v : FlagValues) (lib : Codecs) (env : Environment) (inputs : List Text) :
    Except UsageError Options :=
  match LogLevel.ofName? (v.level env) with
  | none => .error (.invalidLevel (v.level env))
  | some logLevel =>
    match Loader.ofLabel lib (v.label env) with
    | .error e => .error (.unknownEncoding e)
    | .ok _ =>
      if v.output ≠ [] ∧ 1 < inputs.length then .error (.outputForManyInputs inputs.length)
      else .ok {
        inputs, logLevel, output := v.output, encoding := v.label env
        staticNamespace := v.staticNamespace, strict := v.strict, keepGoing := v.keepGoing
        help := v.help }

end FlagValues

/-- Reads the settings of a run. -/
def Options.parse (lib : Codecs) (env : Environment) (args : List Text) :
    Except UsageError Options :=
  match FlagValues.read {} (Arguments.reorder args) with
  | .error e => .error e
  | .ok (v, inputs) => v.settle lib env inputs

end HackVM

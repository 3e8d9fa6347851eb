/-!
# Arguments of the probe command

The command takes the path of a manifest and options. Arguments are read from left to right and the
first one that decides ends the reading: a request for help or for the version, or an argument that
has no place. Short options may be written together, and the value of an option stands in the next
argument or behind an equals sign, for a short option also right behind its letter. After `--`
everything is a path.

## Main definitions

* `Options`: what the command is asked to do.
* `Misuse`: what can be wrong with the arguments.
* `Request.ofArguments`: what a list of arguments asks for.
-/

namespace MultiDispatch

/-- What can be wrong with the arguments. -/
inductive Misuse where
  /-- There is no such option, or no place for another path. -/
  | unexpected (argument : String)
  /-- The option is given twice. -/
  | repeated (option : String)
  /-- The option has a value but takes none. -/
  | unwantedValue (option : String)
  /-- The option, or the path, has no value or an empty one. -/
  | missingValue (option : String)
  | missingManifest
deriving DecidableEq, Repr

/-- The text of a misuse. -/
def Misuse.message : Misuse → String
  | .unexpected argument => "unexpected argument '" ++ argument ++ "' found"
  | .repeated option => "the argument '" ++ option ++ "' cannot be used multiple times"
  | .unwantedValue option => "unexpected value for '" ++ option ++ "' found; no more were expected"
  | .missingValue option => "a value is required for '" ++ option ++ "' but none was supplied"
  | .missingManifest => "the following required arguments were not provided: <MANIFEST>"

/-- What the command is asked to do with which files. -/
structure Options where
  manifest : Option String := none
  /-- The file with settings that take the place of the manifest's. -/
  config : Option String := none
  json : Bool := false
  /-- Whether an ambiguous query is a failure. -/
  denyAmbiguous : Bool := false
  verbose : Bool := false
deriving DecidableEq, Repr

/-- An option by its name. -/
inductive Switch where
  | config
  | json
  | denyAmbiguous
  | verbose
  | help
  | version
deriving DecidableEq, Repr

/-- The option with a long name. -/
def Switch.ofLong? (name : String) : Option Switch :=
  [("config", config), ("json", json), ("deny-ambiguous", denyAmbiguous), ("verbose", verbose),
    ("help", help), ("version", version)].lookup name

/-- The option with a letter. -/
def Switch.ofLetter? (letter : Char) : Option Switch :=
  [('c', config), ('v', verbose), ('h', help), ('V', version)].lookup letter

/-- The long form of an option. -/
def Switch.text : Switch → String
  | config => "--config"
  | json => "--json"
  | denyAmbiguous => "--deny-ambiguous"
  | verbose => "--verbose"
  | help => "--help"
  | version => "--version"

/-- Why reading ends before the last argument. -/
inductive Stop where
  | help
  | version
  | misuse (cause : Misuse)
deriving DecidableEq, Repr

/-- What a list of arguments asks for. -/
inductive Request where
  | help
  | version
  | misuse (cause : Misuse)
  /-- Run the queries of a manifest. -/
  | report (manifest : String) (options : Options)
deriving DecidableEq, Repr

namespace Options

/-- Set an option that takes no value. -/
def set (o : Options) (s : Switch) : Except Stop Options :=
  let once (present : Bool) (o : Options) : Except Stop Options :=
    if present then .error (.misuse (.repeated s.text)) else .ok o
  match s with
  | .json => once o.json { o with json := true }
  | .denyAmbiguous => once o.denyAmbiguous { o with denyAmbiguous := true }
  | .verbose => once o.verbose { o with verbose := true }
  | .help => .error .help
  | .version => .error .version
  | .config => .error (.misuse (.missingValue s.text))

/-- Set the file with settings. -/
def setConfig (o : Options) (path : String) : Except Stop Options :=
  if path = "" then .error (.misuse (.missingValue Switch.config.text))
  else if o.config.isSome then .error (.misuse (.repeated Switch.config.text))
  else .ok { o with config := some path }

/-- Set the manifest. -/
def setManifest (o : Options) (path : String) : Except Stop Options :=
  if o.manifest.isSome then .error (.misuse (.unexpected path))
  else if path = "" then .error (.misuse (.missingValue "<MANIFEST>"))
  else .ok { o with manifest := some path }

/-- Read the letters of short options; the flag says that the value of the last one is still to
come. -/
def readLetters (o : Options) : List Char → Except Stop (Options × Bool)
  | [] => .ok (o, false)
  | letter :: rest =>
    match Switch.ofLetter? letter with
    | none => .error (.misuse (.unexpected (String.ofList ['-', letter])))
    | some .config =>
      match rest with
      | [] => .ok (o, true)
      | '=' :: value => (o.setConfig (String.ofList value)).map (·, false)
      | value => (o.setConfig (String.ofList value)).map (·, false)
    | some s => (o.set s).bind fun o => o.readLetters rest

/-- Read a long option, given without its two hyphens; the flag says that its value is still to
come. -/
def readLong (o : Options) (text : List Char) : Except Stop (Options × Bool) :=
  let (name, value) := text.span (· ≠ '=')
  match Switch.ofLong? (String.ofList name) with
  | none => .error (.misuse (.unexpected (String.ofList ('-' :: '-' :: text))))
  | some .config =>
    match value with
    | [] => .ok (o, true)
    | _ :: path => (o.setConfig (String.ofList path)).map (·, false)
  | some s =>
    if value.isEmpty then (o.set s).map (·, false)
    else .error (.misuse (.unwantedValue s.text))

/-- Read paths only. -/
def readPaths (o : Options) (paths : List String) : Except Stop Options :=
  paths.foldlM setManifest o

/-- Whether an argument is an option rather than a path; a lone hyphen is a path. -/
def isOption (argument : String) : Bool :=
  match argument.toList with
  | '-' :: _ :: _ => true
  | _ => false

/-- Read arguments from left to right; the flag says that a value is expected. -/
def read (o : Options) : Bool → List String → Except Stop Options
  | false, [] => .ok o
  | true, [] => .error (.misuse (.missingValue Switch.config.text))
  | true, value :: rest =>
    if isOption value then .error (.misuse (.missingValue Switch.config.text))
    else (o.setConfig value).bind fun o => o.read false rest
  | false, argument :: rest =>
    match argument.toList with
    | ['-', '-'] => o.readPaths rest
    | '-' :: '-' :: text => (o.readLong text).bind fun r => r.1.read r.2 rest
    | '-' :: c :: letters => (o.readLetters (c :: letters)).bind fun r => r.1.read r.2 rest
    | _ => (o.setManifest argument).bind fun o => o.read false rest

/-- Fill in the file with settings that the environment names, if the arguments name none. -/
def withEnvironment (o : Options) (environment : Option String) : Except Stop Options :=
  match o.config, environment with
  | none, some path => o.setConfig path
  | _, _ => .ok o

end Options

/-- What a list of arguments asks for, the environment naming a file with settings or not. -/
def Request.ofArguments (arguments : List String) (environment : Option String) : Request :=
  let options : Options := {}
  match (options.read false arguments).bind (·.withEnvironment environment) with
  | .error .help => .help
  | .error .version => .version
  | .error (.misuse cause) => .misuse cause
  | .ok o =>
    match o.manifest with
    | some manifest => .report manifest o
    | none => .misuse .missingManifest

end MultiDispatch

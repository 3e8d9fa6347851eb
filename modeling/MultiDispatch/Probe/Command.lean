import MultiDispatch.Probe.Arguments
import MultiDispatch.Probe.Report

/-!
# The probe command

The command loads a manifest, and settings if a file with settings is named, runs the queries of the
manifest and prints the report. It is a function of its arguments, the environment and the content
of files, so that nothing but the reading and printing itself is left to its caller.

The command fails with code 1 if a file cannot be used or the manifest describes nothing that can be
run, and with code 2 if it is called wrongly. It also ends with code 1, after a complete report, if
ambiguous queries are denied and there is one.

## Main definitions

* `Failure`: why there is no report.
* `report`: the report on files.
* `Exit`: what the command leaves behind.
* `Command.run`: the command.
-/

namespace MultiDispatch

/-- Why there is no report. -/
inductive Failure where
  | manifestFile (path : String) (cause : LoadError)
  | settingsFile (cause : LoadError)
  | manifest (cause : BuildError)
  | query (cause : QueryError)
deriving DecidableEq, Repr

/-- The text of a failure. -/
def Failure.message : Failure → String
  | .manifestFile path _ => "Failed to load manifest: " ++ path
  | .settingsFile _ => "Failed to load engine configuration"
  | .manifest cause => cause.message
  | .query cause => cause.message

/-- What is printed on the error stream. -/
inductive Complaint where
  | misuse (cause : Misuse)
  | failure (cause : Failure)
deriving DecidableEq, Repr

/-- The line on the error stream. -/
def Complaint.line : Complaint → String
  | .misuse cause => "error: " ++ cause.message
  | .failure cause => "Error: " ++ cause.message

/-- What the command leaves behind. -/
structure Exit where
  code : Nat
  output : String
  complaint : Option Complaint
deriving DecidableEq, Repr

namespace Command

/-- The name of the command. -/
def name : String := "polycall-probe"

/-- What the command answers when it is asked for its version. -/
def versionText : String := name ++ " 0.2.0\n"

/-- The variable of the environment that may name a file with settings. -/
def settingsVariable : String := "POLYCALL_CONFIG"

/-- What the command answers when it is asked for help. -/
def helpText : String :=
  String.intercalate "\n"
    ["Load a dispatch manifest and report how its queries resolve",
      "",
      "Usage: " ++ name ++ " [OPTIONS] <MANIFEST>",
      "",
      "Arguments:",
      "  <MANIFEST>  Manifest describing types, modules and queries",
      "",
      "Options:",
      "  -c, --config <CONFIG>  Engine configuration file, " ++
        "overrides the manifest's [engine] table [env: " ++ settingsVariable ++ "=]",
      "      --json             Print the report as JSON",
      "      --deny-ambiguous   Exit with an error if any query is ambiguous",
      "  -v, --verbose          Verbose output",
      "  -h, --help             Print help",
      "  -V, --version          Print version",
      ""]

/-- The report on a manifest with optional settings, all given as the content of files. The manifest
is loaded first, then the settings. -/
def report (manifestPath : String) (settingsPath : Option String)
    (content : String → Option ByteArray) : Except Failure Report := do
  let manifest ← (Toml.load Manifest.parse (content manifestPath)).mapError
    (.manifestFile manifestPath)
  let settings ← settingsPath.mapM fun path =>
    (Toml.load Settings.parse (content path)).mapError .settingsFile
  let probe ← (Probe.ofManifest manifest settings).mapError .manifest
  (probe.report manifest.queries).1.mapError .query

/-- The printed form of a report. -/
def render (json : Bool) (r : Report) : String :=
  if json then r.json.pretty ++ "\n" else r.text

/-- What is left behind when there is a report. -/
def finish (options : Options) (r : Report) : Exit where
  code := if options.denyAmbiguous && r.answers.any Answer.isAmbiguous then 1 else 0
  output := render options.json r
  complaint := none

/-- Run the command. -/
def run (arguments : List String) (environment : Option String)
    (content : String → Option ByteArray) : Exit :=
  match Request.ofArguments arguments environment with
  | .help => ⟨0, helpText, none⟩
  | .version => ⟨0, versionText, none⟩
  | .misuse cause => ⟨2, "", some (.misuse cause)⟩
  | .report manifest options =>
    match report manifest options.config content with
    | .ok r => finish options r
    | .error cause => ⟨1, "", some (.failure cause)⟩

end Command

end MultiDispatch

import KiwiFront.Command.Arguments
import KiwiFront.Output.Rendering
import KiwiFront.Settings.Loading

/-!
# Running commands

A run takes arguments and files and comes to an exit code and the texts for both
output streams. Log records come before the error that ends a run. Settings for a
file come from the local settings file, if there is one, then from the file that is
asked for, then from the arguments.
-/

namespace KiwiFront.Command

/-- What a run comes to. -/
structure Ending where
  code : Nat
  output : String
  errors : String
deriving DecidableEq

/-- The exit code of arguments that are no use. -/
def usageCode : Nat := 2

/-- The exit code of a command that failed. -/
def failureCode : Nat := 1

/-- The name and the version of the tool. -/
def versionText : String := "kiwi 0.1.0\n"

/-- How the tool is used. -/
def usageText : String :=
  "Usage: kiwi [OPTIONS] <COMMAND>\n\n" ++
  "Commands:\n" ++
  "  process <path>  Process a kiwi file\n" ++
  "  list-formats    List available output formats\n\n" ++
  "Options:\n" ++
  "  -v, --verbose   Print log records to stderr (repeat for more detail)\n" ++
  "  -h, --help      Print help\n" ++
  "  -V, --version   Print version\n\n" ++
  "Options of process:\n" ++
  "  -f, --format <format>  Output format [default: ast-treeviz]\n" ++
  "  -c, --config <config>  TOML file layered over the defaults and ./kiwi.toml\n" ++
  "      --no-spans         Leave spans out of treeviz output\n"

/-- The list of all formats. -/
def formatsText : String :=
  "Available formats:\n\n" ++
    String.join (OutputRequest.available.map (fun request => s!"  {request.display}\n"))

/-- The settings file that is read if it is there. -/
def localSettings : String := "kiwi.toml"

/-- The path of the switch for spans. -/
def spansPath : SettingPath := ⟨Section.inspect.name, [.key Section.inspect.switch]⟩

namespace Invocation

/-- The files that settings come from. -/
def layers (invocation : Invocation) : List Layer :=
  ⟨localSettings, false⟩ :: (invocation.settings?.map (fun name => Layer.mk name true)).toList

/-- The settings that arguments decide. -/
def overrides (invocation : Invocation) : List Override :=
  if invocation.showSpans then [] else [⟨spansPath, .scalar none (.boolean false)⟩]

/-- All paths that a run may look at. -/
def paths (invocation : Invocation) : List String :=
  invocation.path :: invocation.layers.flatMap (fun layer => Layer.candidates layer.name)

end Invocation

/-- The line for an error. -/
def errorLine (message : String) : String :=
  s!"Error: {message}\n"

/-- The output of the command for a file, or the wording of the error that ends it. -/
def process (files : Files) (invocation : Invocation) : Logged (Except String String) :=
  match OutputRequest.read invocation.format with
  | .error cause => ⟨.error cause.message, []⟩
  | .ok request =>
      match Settings.load files invocation.layers invocation.overrides with
      | .error cause => ⟨.error s!"Config error: {cause.message}", []⟩
      | .ok settings =>
          let rendering :=
            request.renderFile settings invocation.path (files invocation.path)
          ⟨rendering.result.mapError OutputError.message, rendering.records⟩

/-- Fulfils an order. -/
def Order.fulfil (files : Files) (order : Order) : Ending :=
  match order.action with
  | .showVersion => ⟨0, versionText, ""⟩
  | .showHelp => ⟨0, usageText, ""⟩
  | .listFormats => ⟨0, formatsText, ""⟩
  | .process invocation =>
      let processing := process files invocation
      let shown := processing.records.filter (fun record => record.isShown order.verbosity)
      let log := String.join (shown.map LogRecord.render)
      match processing.result with
      | .ok output => ⟨0, output, log⟩
      | .error message => ⟨failureCode, "", log ++ errorLine message⟩

/-- Runs the tool. -/
def run (files : Files) (arguments : List String) : Ending :=
  match Order.ofArguments arguments with
  | some order => order.fulfil files
  | none => ⟨usageCode, "", usageText⟩

/-- All paths that a run may look at. -/
def pathsOf (arguments : List String) : List String :=
  match (Order.ofArguments arguments).map Order.action with
  | some (.process invocation) => invocation.paths
  | _ => []

end KiwiFront.Command

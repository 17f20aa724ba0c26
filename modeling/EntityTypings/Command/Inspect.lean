import EntityTypings.Command.Report
import EntityTypings.Json.Writer
import EntityTypings.Response.Files

/-!
# The inspecting command

Shows the settings that are in effect, writes a settings file with the defaults,
or checks that the catalogs which the settings name can be read, and says how
many schemas they hold. The explicit settings file can be named before and after
the subcommand, and the later one counts.
-/

namespace EntityTypings.InspectCommand

open Arguments

variable {m : Type → Type} [Monad m] [FileAccess m] [Layer.Formats]

/-! ### Arguments -/

/-- The option that names the explicit settings file. -/
def configOption : Opt := .valued (some 'c') "config" .text

/-- The arguments before the subcommand. -/
def grammar : Grammar := ⟨[configOption], 0, ["show", "init", "check", "help"]⟩

/-- The arguments of the subcommand that shows the settings. -/
def showGrammar : Grammar :=
  ⟨[configOption, .valued (some 'f') "format" (.oneOf ["summary", "toml", "json"])], 0, []⟩

/-- The arguments of the subcommand that writes a settings file. -/
def initGrammar : Grammar := ⟨[configOption, .flag "force"], 1, []⟩

/-- The arguments of the subcommand that checks the catalogs. -/
def checkGrammar : Grammar := ⟨[configOption], 0, []⟩

/-- How the command is used, in words of this library. -/
def usage : String :=
  "Usage: inspect [-c FILE] show [-f summary|toml|json]\n" ++
  "       inspect [-c FILE] init [PATH] [--force]\n" ++
  "       inspect [-c FILE] check\n"

/-- The name of the explicit settings file, given after or before the subcommand. -/
def configName (before after : Given) : Option String :=
  (after.value? "config").or (before.value? "config")

/-! ### Showing settings -/

/-- A setting that may be left out, as the summary has it. -/
def orDash (value : Option String) : String := value.getD "-"

/-- The settings, one a line. -/
def summary (s : Settings) : String :=
  "server.url                " ++ orDash s.server.url ++ "\n" ++
  "server.version            " ++ orDash s.server.version ++ "\n" ++
  "input.schemas             " ++ s.input.schemas ++ "\n" ++
  "input.custom_attributes   " ++ orDash s.input.customAttributes ++ "\n" ++
  "output                    " ++ s.outputFile ++ "\n" ++
  "generation.timestamp      " ++ (if s.generation.timestamp then "true" else "false") ++ "\n" ++
  "generation.legacy_schemas " ++ ", ".intercalate s.generation.legacySchemas ++ "\n"

/-- The settings in one of the formats of the subcommand. -/
def display (s : Settings) (format : Option String) : String :=
  if format = some "toml" then s.toToml
  else if format = some "json" then s.toJson.pretty ++ "\n"
  else summary s

/-- Continues with the settings in effect. -/
def withSettings (world : Surroundings) (config : Option String) (next : Settings → m Report) :
    m Report := do
  match ← Settings.load (world.sources config) with
  | .error fault => return .failed ("failed to load configuration: " ++ fault.message)
  | .ok s => next s

/-! ### Writing a settings file -/

/-- The file that is written if none is named. -/
def defaultPath : String := "typegen.toml"

/-- Writes a settings file with the defaults; one that is there is replaced only
if `force`. -/
def init (path : String) (force : Bool) : m Report := do
  if (← FileAccess.pathExists path) && !force then
    return .failed (path ++ " already exists (use --force to replace it)")
  else
    match ← Settings.default.save path with
    | .error e => return .failed ("failed to write " ++ path ++ ": " ++ e.message)
    | .ok () => return ⟨0, "", "✅ Wrote " ++ path ++ "\n"⟩

/-! ### Checking the catalogs -/

/-- The number of schemas that the settings leave out. -/
def skippedCount (s : Settings) (schemas : List Schema) : Nat :=
  (schemas.filter (fun schema => schema.id?.any (· ∈ s.generation.legacySchemas))).length

/-- The report on catalogs that were read. -/
def counts (s : Settings) (catalogs : Response.Snapshot) : Report :=
  if catalogs.schemas.isEmpty then .failed (s.input.schemas ++ " contains no schemas")
  else
    ⟨0, "✅ " ++ toString catalogs.schemas.length ++ " schemas ("
      ++ toString (skippedCount s catalogs.schemas) ++ " skipped), "
      ++ toString catalogs.configurations.length ++ " custom attributes\n", ""⟩

/-- Checks the catalogs that settings name. -/
def check (s : Settings) : m Report := do
  match ← Response.fetch s.input.schemas s.input.customAttributes with
  | .error failure => return .failed ("failed to load catalogs: " ++ failure.chain)
  | .ok catalogs => return counts s catalogs

/-! ### The run -/

/-- Answers a request for help, which can name one subcommand. -/
def help : List String → Report
  | [] => .helped usage
  | [name] => if name ∈ grammar.subcommands then .helped usage else .misused usage
  | _ => .misused usage

/-- Runs a subcommand, after the arguments that stood before it. -/
def runSubcommand (world : Surroundings) (before : Given) (name : String)
    (arguments : List String) : m Report :=
  let reading (grammar : Grammar) (next : Given → m Report) : m Report :=
    match read grammar arguments with
    | .error halt => return .halted usage halt
    | .ok after => next after
  match name with
  | "show" => reading showGrammar fun after =>
    withSettings world (configName before after) fun s =>
      return ⟨0, display s (after.value? "format"), ""⟩
  | "init" => reading initGrammar fun after =>
    init (after.operands.headD defaultPath) (after.has "force")
  | "check" => reading checkGrammar fun after =>
    withSettings world (configName before after) check
  | _ => return help arguments

/-- Runs the command. -/
def run (world : Surroundings) (arguments : List String) : m Report :=
  match read grammar arguments with
  | .error halt => return .halted usage halt
  | .ok before =>
    match before.subcommand with
    | none => return .misused usage
    | some (name, arguments) => runSubcommand world before name arguments

end EntityTypings.InspectCommand

import EntityTypings.Command.Report
import EntityTypings.Response.Files

/-!
# The generating command

Loads the settings, reads the catalogs that they name, generates the source and
writes it to the file that they name, or prints it. Options win over the
settings. Problems that did not end the run are listed, and only a run that
gives no source ends with a status other than 0.

Nothing is written before the source is complete.
-/

namespace EntityTypings.GenerateCommand

open Arguments

variable {m : Type → Type} [Monad m] [FileAccess m] [Layer.Formats]

/-! ### Arguments -/

/-- The arguments that the command takes. -/
def grammar : Grammar where
  options :=
    [.valued (some 'c') "config" .text, .valued (some 's') "schemas" .path,
      .valued (some 'a') "custom-attributes" .path, .valued (some 'o') "output" .path,
      .valued (some 'f') "filename" .text, .valued none "server-url" .text,
      .valued none "server-version" .text, .flag "no-timestamp", .flag "stdout"]
  operands := 0
  subcommands := []

/-- How the command is used, in words of this library. -/
def usage : String :=
  "Usage: generate [-c FILE] [-s FILE] [-a FILE] [-o DIRECTORY] [-f NAME] [--server-url URL]\n" ++
  "                [--server-version VERSION] [--no-timestamp] [--stdout]\n"

/-- The settings with what the options say instead. -/
def override (g : Given) (s : Settings) : Settings where
  server := ⟨(g.value? "server-url").or s.server.url,
    (g.value? "server-version").or s.server.version⟩
  input := ⟨(g.value? "schemas").getD s.input.schemas,
    (g.value? "custom-attributes").or s.input.customAttributes⟩
  output := ⟨(g.value? "output").getD s.output.path, (g.value? "filename").getD s.output.filename⟩
  generation := ⟨s.generation.legacySchemas, s.generation.timestamp && !g.has "no-timestamp"⟩

/-- The settings of the run that arguments ask for. -/
def effectiveSettings (world : Surroundings) (g : Given) : m (Except SettingsFault Settings) :=
  return (← Settings.load (world.sources (g.value? "config"))).map (override g)

/-! ### Reports -/

/-- The report on a run that gave no source. -/
def nothingGenerated (o : Generation.Output) : Report :=
  ⟨1, "", String.join (o.errors.map (fun message => "❌ " ++ message ++ "\n"))⟩

/-- The summary of a run that gave a source. -/
def summary (o : Generation.Output) : String :=
  "✅ Generated " ++ toString o.schemaCount ++ " schemas\n" ++
    if o.errors.isEmpty then ""
    else
      "⚠️  " ++ toString o.errors.length ++ " error(s):\n" ++
        String.join (o.errors.map (fun message => "   - " ++ message ++ "\n"))

/-- The report on a source that was printed. -/
def printed (o : Generation.Output) : Report := ⟨0, o.text, summary o⟩

/-- The report on a source that was written to a file. -/
def written (path : String) (o : Generation.Output) : Report :=
  ⟨0, "", "📝 Wrote " ++ path ++ "\n" ++ summary o⟩

/-! ### The run -/

/-- Writes the source to the file that the settings name. -/
def writeSource (s : Settings) (o : Generation.Output) : m Report := do
  match ← FileAccess.createDirectories s.output.path with
  | .error e => return .failed ("failed to create " ++ s.output.path ++ ": " ++ e.message)
  | .ok () =>
    match ← FileAccess.writeText s.outputFile o.text with
    | .error e => return .failed ("failed to write " ++ s.outputFile ++ ": " ++ e.message)
    | .ok () => return written s.outputFile o

/-- Delivers what a run gave. -/
def deliver (g : Given) (s : Settings) (o : Generation.Output) : m Report :=
  if o.diagnostics.hasErrors then return nothingGenerated o
  else if g.has "stdout" then return printed o
  else writeSource s o

/-- Runs the command with arguments that have been read. -/
def runGiven (world : Surroundings) (g : Given) : m Report := do
  match ← effectiveSettings world g with
  | .error fault => return .failed ("failed to load configuration: " ++ fault.message)
  | .ok s =>
    match ← Response.fetch s.input.schemas s.input.customAttributes with
    | .error failure => return .failed ("failed to load catalogs: " ++ failure.chain)
    | .ok catalogs =>
      match generate (s.options world.now) catalogs.schemas catalogs.configurations with
      | .error failure => return .failed ("generation aborted: " ++ failure.chain)
      | .ok o => deliver g s o

/-- Runs the command. -/
def run (world : Surroundings) (arguments : List String) : m Report :=
  match read grammar arguments with
  | .error halt => return .halted usage halt
  | .ok g => runGiven world g

end EntityTypings.GenerateCommand

import Schemata.CommandLine.Request
import Schemata.Disk
import Schemata.Format.Conversion

/-!
# Running a request

The formats are settled first, then whether the output may be written; only then is anything read,
and nothing is written before the whole output is there.
-/
namespace Schemata.CommandLine

/-- How a run ends. -/
structure Result where
  status : UInt32
  stdout : String := ""
  stderr : String := ""
deriving DecidableEq, Repr

def success (stdout : String) : Result := { status := 0, stdout }

def failure (line : String) : Result := { status := 1, stderr := line ++ "\n" }

def usage (program : String) : String :=
  "Usage: " ++ program ++ " <input> [options]\n" ++
  "       " ++ program ++ " --list\n" ++
  "\n" ++
  "Options:\n" ++
  "  -f, --from <format>     Input format (default: input file extension)\n" ++
  "  -t, --to <format>       Output format (default: sql)\n" ++
  "  -o, --output <file>     Output file (default: stdout)\n" ++
  "  -d, --database <name>   Database name for DDL output\n" ++
  "      --force             Overwrite an existing output file"

/-- A text with spaces after it to a width. -/
def padded (width : Nat) (s : String) : String :=
  s ++ String.ofList (List.replicate (width - s.length) ' ')

def inputLine (f : InputFormat) : String :=
  "  " ++ padded 6 f.extension ++ " " ++ f.productName ++ "\n"

def outputLine (f : OutputFormat) : String :=
  "  " ++ padded 6 f.extension ++ " " ++ f.productName ++
    (if f.needsDatabase then " (requires --database)" else "") ++ "\n"

def listing (c : Catalog) : String :=
  "Input formats:\n" ++ String.join (c.inputs.map inputLine) ++
    "Output formats:\n" ++ String.join (c.outputs.map outputLine)

/-- The input format of a job: the one given, or else the one for the path. -/
def Job.sourceFormat? (job : Job) (c : Catalog) : Option String :=
  job.source.or ((c.inputForPath? job.input).map (·.extension))

variable {m : Type → Type} [Monad m]

/-- Writes the output of a job where it was asked for. -/
def deliver (disk : Disk m) (job : Job) (output : String) : m Result := do
  match job.output with
  | none => return success output
  | some path =>
    match ← disk.write path output with
    | .ok () => return success ""
    | .error fault => return failure ("Failed to write " ++ path ++ ": " ++ fault.message)

/-- Is there something at the output path that must stay? -/
def isBlocked (disk : Disk m) (job : Job) : m (Option String) := do
  match job.output with
  | none => return none
  | some path => return if (← disk.hasPath path) && !job.force then some path else none

/-- Converts a file between formats that have been settled. -/
def convertFile (disk : Disk m) (job : Job) (conversion : Conversion) : m Result := do
  let content ← disk.read job.input
  match (conversion.run (fun _ => content) (.file job.input) job.database).outcome with
  | .error e => return failure ("Conversion failed: " ++ e.message)
  | .ok output => deliver disk job output

def runJob (c : Catalog) (disk : Disk m) (job : Job) : m Result := do
  match job.sourceFormat? c with
  | none =>
    return failure ("Cannot tell the input format of " ++ job.input ++ "; use --from")
  | some source =>
    match ← isBlocked disk job with
    | some path => return failure (path ++ " already exists; use --force to overwrite it")
    | none =>
      match c.conversion source job.target with
      | .error e => return failure ("Conversion failed: " ++ e.message)
      | .ok conversion => convertFile disk job conversion

/-- Runs a program with this name on its arguments. -/
def run (c : Catalog) (disk : Disk m) (program : String) (arguments : List String) : m Result :=
  match Request.ofArguments arguments with
  | .usage => return failure (usage program)
  | .list => return success (listing c)
  | .unknownOption argument => return failure ("Unknown option: " ++ argument)
  | .convert job => runJob c disk job

end Schemata.CommandLine

/-!
# Requests of the command line

The first argument is the input; options follow in any order, and of an option given twice the last
one counts. An option that lacks its value at the very end is passed over.
-/
namespace Schemata.CommandLine

/-- A conversion that was asked for. -/
structure Job where
  input : String
  /-- The input format, if one was given. -/
  source : Option String := none
  target : String := "sql"
  output : Option String := none
  database : Option String := none
  force : Bool := false
deriving DecidableEq, Repr

inductive Request
  | usage
  | list
  | unknownOption (argument : String)
  | convert (job : Job)
deriving DecidableEq, Repr

/-- The options that take a value. -/
inductive Choice
  | source | target | output | database
deriving DecidableEq, Repr

def Choice.ofArgument? : String → Option Choice
  | "-f" | "--from" => some .source
  | "-t" | "--to" => some .target
  | "-o" | "--output" => some .output
  | "-d" | "--database" => some .database
  | _ => none

def Job.set (job : Job) (value : String) : Choice → Job
  | .source => { job with source := some value }
  | .target => { job with target := value }
  | .output => { job with output := some value }
  | .database => { job with database := some value }

/-- What the arguments after the input make of a job. -/
def readOptions (job : Job) : List String → Request
  | [] => .convert job
  | [argument] =>
    match Choice.ofArgument? argument with
    | some _ => .convert job
    | none =>
      if argument = "--force" then .convert { job with force := true }
      else .unknownOption argument
  | argument :: value :: rest =>
    match Choice.ofArgument? argument with
    | some choice => readOptions (job.set value choice) rest
    | none =>
      if argument = "--force" then readOptions { job with force := true } (value :: rest)
      else .unknownOption argument

def Request.ofArguments : List String → Request
  | [] => .usage
  | input :: options => if input = "--list" then .list else readOptions { input } options

end Schemata.CommandLine

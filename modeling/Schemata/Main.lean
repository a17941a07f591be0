import Schemata.CommandLine.Run

/-!
# The program
-/
namespace Schemata

def faultOf : IO.Error → FileFault
  | .noFileOrDirectory .. => .notFound
  | .inappropriateType _ code detail =>
    if code = 20 then .notDirectory
    else if code = 21 then .isDirectory
    else .other detail
  | e => .other (toString e)

/-- The files of the system. -/
def systemDisk : Disk IO where
  hasPath path := do
    try
      let _ ← IO.FS.realPath path
      return true
    catch _ => return false
  read path := do
    try
      match String.fromUTF8? (← IO.FS.readBinFile path) with
      | some text => return .ok text
      | none => return .error .notText
    catch e => return .error (faultOf e)
  write path content := do
    try
      IO.FS.writeFile path content
      return .ok ()
    catch e => return .error (faultOf e)

end Schemata

def main (arguments : List String) : IO UInt32 := do
  let program := (← IO.appPath).fileName.getD ""
  let result ← Schemata.CommandLine.run .standard Schemata.systemDisk program arguments
  (← IO.getStdout).putStr result.stdout
  (← IO.getStderr).putStr result.stderr
  return result.status

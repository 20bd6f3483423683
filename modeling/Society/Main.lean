import Society.CommandLine.Program

/-!
# The command line

Reads the arguments and the world file, and prints what the program answers.
-/

/-- The content of a file, or in words why it cannot be read. -/
def readWorldFile (path : String) : IO (Except String String) := do
  try
    return .ok (← IO.FS.readFile path)
  catch e =>
    return match e with
      | .noFileOrDirectory _ _ _ => .error "No such file or directory (os error 2)"
      | .permissionDenied _ _ _ => .error "Permission denied (os error 13)"
      | .inappropriateType _ _ _ => .error "Is a directory (os error 21)"
      | e => .error (toString e)

def main (args : List String) : IO UInt32 := do
  let outcome ← Society.CommandLine.run readWorldFile args
  (← IO.getStdout).putStr outcome.stdout
  (← IO.getStderr).putStr outcome.stderr
  return outcome.code.toUInt32

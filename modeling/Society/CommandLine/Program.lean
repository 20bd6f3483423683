import Society.CommandLine.Invocation
import Society.Config.Reader
import Society.Snapshot
import Society.World.Effects

/-!
# The program

What the program prints, and its exit code, as a function of its arguments and the file that they
name.
-/

namespace Society.CommandLine

/-- What a run of the program leaves behind. -/
structure Outcome where
  code : Nat
  stdout : String
  stderr : String
deriving DecidableEq, Repr

/-- Text that is printed in lines. -/
def unlines (lines : List String) : String :=
  String.join (lines.map (· ++ "\n"))

def success (lines : List String) : Outcome :=
  ⟨0, unlines lines, ""⟩

/-- A cause in a report: all its lines are indented. -/
def causeText (first others : String) (cause : String) : String :=
  first ++ Text.fill "\n" ("\n" ++ others) cause

/-- The causes of a failure, with numbers if there are several. -/
def causeTexts (causes : List String) : List String :=
  if causes.length ≤ 1 then causes.map (causeText "    " "    ")
  else (causes.zip (List.range causes.length)).map fun (cause, i) =>
    causeText (String.ofList (List.replicate (5 - (toString i).length) ' ') ++ toString i ++ ": ")
      "       " cause

/-- A failure: what could not be done, and the causes behind it. -/
def failure (what : String) (causes : List String) : Outcome :=
  let report := "Error: " ++ what
  let lines := if causes.isEmpty then [report] else [report, "", "Caused by:"] ++ causeTexts causes
  ⟨1, "", unlines lines⟩

/-- A failure whose outermost cause stands for it. -/
def failureOf (causes : List String) : Outcome :=
  failure (causes.headD "") causes.tail

/-- The lines that show a world. -/
def worldLines (w : World) (json : Bool) : List String :=
  if json then [w.snapshot.toJson] else w.snapshot.lines

/-- The lines that show the answer of a query: its rows with numbers, if there are rows. -/
def answerLines (r : QueryResult) : List String :=
  if !r.success then ["No results."]
  else if r.rows.isEmpty then ["true"]
  else (r.rows.zip (List.range r.rows.length)).map fun (row, i) =>
    "  " ++ toString (i + 1) ++ ". " ++
      ", ".intercalate (row.entries.map fun (name, v) => name ++ " = " ++ v.display)

/-- Several ticks, up to the first that fails. -/
def ticks : Nat → Act Unit
  | 0 => pure ()
  | n + 1 => do
    Act.tick
    ticks n

/-- Carries out an action in a world. -/
def perform (w : World) : Action → Outcome
  | .run n json =>
    match (ticks n).runOn w with
    | (.ok (), w) => success (worldLines w json)
    | (.error e, _) => failureOf e.chain
  | .query clauses =>
    match w.facts.query clauses [] with
    | .ok r => success (answerLines r)
    | .error e => failureOf [e.message]
  | .event name agents json =>
    match (Act.dispatch name agents).runOn w with
    | (.ok (), w) => success (worldLines w json)
    | (.error e, _) => failure ("event '" ++ name ++ "' failed") e.chain
  | .facts => success w.facts.sentences

/-- Reads the world and carries out the action. In place of the content of the file stands the reason
if it cannot be read. -/
def execute (i : Invocation) (file : Except String String) : Outcome :=
  let failedToLoad := failure ("failed to load world from " ++ i.config)
  match file with
  | .error reason => failedToLoad ["I/O error: " ++ reason, reason]
  | .ok content =>
    match Config.ofToml? content with
    | none => failedToLoad ["Configuration error: " ++ i.config ++ ": not a world definition"]
    | some config =>
      match World.ofConfig config with
      | .error e => failure "failed to build world" e.chain
      | .ok w => perform w i.action

def versionText : String :=
  "dramalab 0.1.0\n"

def helpText : String :=
  unlines [
    "Social simulation engine",
    "",
    "Usage: dramalab [--config <CONFIG>] <COMMAND>",
    "",
    "Commands:",
    "  run    Advance the simulation and print the resulting state [--ticks <TICKS>] [--json]",
    "  query  Run a query against the world's facts <CLAUSES>...",
    "  event  Dispatch a social event and print the resulting state <NAME> [AGENTS]... [--json]",
    "  facts  List every fact in the world"]

/-- Runs the program. The world is read from a file only if an action needs it. -/
def run {m : Type → Type} [Monad m] (readFile : String → m (Except String String))
    (args : List String) : m Outcome :=
  match parse args with
  | .invoke i => return execute i (← readFile i.config)
  | .help => return ⟨0, helpText, ""⟩
  | .version => return ⟨0, versionText, ""⟩
  | .refused => return ⟨2, "", unlines ["error: the arguments make no sense", "", helpText]⟩

end Society.CommandLine

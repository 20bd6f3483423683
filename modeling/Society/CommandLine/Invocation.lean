import Society.CommandLine.Arguments

/-!
# Invocations

What the program is asked to do: a command with its arguments, and the file that holds the world.
-/

namespace Society.CommandLine

inductive Action where
  /-- Lets time pass, and shows the world. -/
  | run (ticks : Nat) (json : Bool)
  /-- Asks the facts. -/
  | query (clauses : List String)
  /-- Lets an event happen, and shows the world. -/
  | event (name : String) (agents : List String) (json : Bool)
  /-- Lists the facts. -/
  | facts
deriving DecidableEq, Repr

structure Invocation where
  config : String
  action : Action
deriving DecidableEq, Repr

inductive Request where
  | invoke (i : Invocation)
  | help
  | version
  | refused
deriving DecidableEq, Repr

def defaultConfig : String :=
  "world.toml"

/-- A number of ticks has 32 bits. -/
def ticks? (s : String) : Option Int :=
  Text.integerIn? 0 0x100000000 s.toList

def configForm : OptionForm :=
  .valued "config" (!·.isEmpty)

def jsonForm : OptionForm :=
  .flag "json"

/-- The options of a command. -/
def optionsOf (command : String) : List OptionForm :=
  match command with
  | "run" => [configForm, jsonForm, .valued "ticks" fun s => (ticks? s).isSome]
  | "event" => [configForm, jsonForm]
  | _ => [configForm]

/-- Whether words can follow a command. -/
def takesWords (command : String) : Bool :=
  command = "query" ∨ command = "event"

/-- The action of a command with its options and words. -/
def action? (command : String) (options : List (String × String)) (words : List String) :
    Option Action :=
  let json := (options.lookup "json").isSome
  match command, words with
  | "run", [] =>
    some (.run (((options.lookup "ticks").bind ticks?).elim 1 Int.toNat) json)
  | "query", _ :: _ => some (.query words)
  | "event", name :: agents => some (.event name agents json)
  | "facts", [] => some .facts
  | _, _ => none

def commands : List String :=
  ["run", "query", "event", "facts"]

/-- A command with its arguments. Its own choice of a file comes before one that stood in front of
it. -/
def parseCommand (config : Option String) (command : String) (args : List String) : Request :=
  if command = "help" then
    match args with
    | [] => .help
    | [topic] => if topic = "help" ∨ commands.contains topic then .help else .refused
    | _ => .refused
  else if !commands.contains command then .refused
  else
    match parseArguments (optionsOf command) (takesWords command) [] args with
    | .help => .help
    | .refused => .refused
    | .arguments options words =>
      match action? command options words with
      | some action =>
        .invoke ⟨((options.lookup "config").or config).getD defaultConfig, action⟩
      | none => .refused

/-- Takes apart what stands in front of the command. -/
def parseFront (config : Option String) : List String → Request
  | [] => .refused
  | arg :: rest =>
    match Argument.ofText arg with
    | .separator => .refused
    | .word s => parseCommand config s rest
    | .letters letters =>
      if letters.head? = some 'h' then .help
      else if letters.head? = some 'V' then .version
      else .refused
    | .option "help" none => .help
    | .option "version" none => .version
    | .option "config" (some v) =>
      if v.isEmpty || config.isSome then .refused else parseFront (some v) rest
    | .option "config" none =>
      match rest with
      | [] => .refused
      | v :: rest =>
        if v.isEmpty || !isValue v || config.isSome then .refused else parseFront (some v) rest
    | .option _ _ => .refused

/-- What the arguments of the program ask for. -/
def parse (args : List String) : Request :=
  parseFront none args

end Society.CommandLine

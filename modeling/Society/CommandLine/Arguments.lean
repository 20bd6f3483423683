import Society.Text.Integer

/-!
# Command line arguments

An argument is an option, with two hyphens, a flag of one letter, with one hyphen, or a word. An
option that takes a value has it behind an equals sign or as the next argument. Behind two hyphens
that stand alone all arguments are words.
-/

namespace Society.CommandLine

inductive Argument where
  | option (name : String) (value : Option String)
  | letters (letters : List Char)
  | separator
  | word (s : String)

/-- What kind of argument a text is. -/
def Argument.ofText (s : String) : Argument :=
  match s.toList with
  | ['-', '-'] => .separator
  | '-' :: '-' :: cs =>
    let name := String.ofList (cs.takeWhile (· != '='))
    match cs.dropWhile (· != '=') with
    | [] => .option name none
    | _ :: value => .option name (some (String.ofList value))
  | '-' :: c :: cs => .letters (c :: cs)
  | _ => .word s

/-- Whether a text can be the value of the option in front of it. -/
def isValue (s : String) : Bool :=
  match Argument.ofText s with
  | .word _ => true
  | _ => false

/-- An option of a command: with a value, which has to pass a test, or without one. -/
inductive OptionForm where
  | valued (name : String) (test : String → Bool)
  | flag (name : String)

def OptionForm.name : OptionForm → String
  | .valued name _ => name
  | .flag name => name

/-- What arguments amount to: the options with their values, and the words; or a call for help; or
nothing that makes sense. -/
inductive Parsed where
  | arguments (options : List (String × String)) (words : List String)
  | help
  | refused

namespace Parsed

def withOption (name value : String) : Parsed → Parsed
  | arguments options words =>
    if (options.lookup name).isSome then refused else arguments ((name, value) :: options) words
  | other => other

def withWord (s : String) : Parsed → Parsed
  | arguments options words => arguments options (s :: words)
  | other => other

end Parsed

/-- Takes a command's arguments apart. Options must be known, have a proper value, and occur once,
and words are refused where none are expected, even in front of a call for help. -/
def parseArguments (forms : List OptionForm) (words : Bool) (seen : List String) :
    List String → Parsed
  | [] => .arguments [] []
  | arg :: rest =>
    match Argument.ofText arg with
    | .separator => .arguments [] rest
    | .word s => if words then (parseArguments forms words seen rest).withWord s else .refused
    | .letters letters => if letters.head? = some 'h' then .help else .refused
    | .option name value =>
      if name = "help" ∧ value.isNone then .help
      else if seen.contains name then .refused
      else
        match forms.find? (·.name = name), value with
        | none, _ => .refused
        | some (.flag _), some _ => .refused
        | some (.flag _), none =>
          (parseArguments forms words (name :: seen) rest).withOption name ""
        | some (.valued _ test), some v =>
          if test v then (parseArguments forms words (name :: seen) rest).withOption name v
          else .refused
        | some (.valued _ test), none =>
          match rest with
          | [] => .refused
          | v :: rest =>
            if isValue v && test v then
              (parseArguments forms words (name :: seen) rest).withOption name v
            else .refused

end Society.CommandLine

import JavaSyntax.FrontEnd.Basic

/-!
# Commands

What a user can ask for on the command line, and how the arguments say it: first the
name of a command, then a path or a text, with options in any place after the name.
-/

namespace JavaSyntax

/-- What is done with a file. -/
inductive FileAction where
  /-- List the tokens, or dump them as JSON. -/
  | tokens (asJson : Bool)
  /-- Print the tree as source, or dump it as JSON. -/
  | parse (mode : ParseMode) (asJson : Bool)
  /-- Check that tokens and tree give the text back. -/
  | check (mode : ParseMode)
deriving DecidableEq, Repr

/-- What a user asks for. -/
inductive Command where
  | onFile (path : String) (action : FileAction)
  /-- Say what the parenthesis at the start of a text opens. -/
  | classify (text : String)
deriving DecidableEq, Repr

/-- Why arguments are no command. -/
inductive UsageError where
  | unknownCommand (name : String)
  | noCommand
  | unknownOption (option : String)
  | repeatedOption (option : String)
  | noValue (option : String)
  | noOperand
  | tooManyOperands (operand : String)
  | mode (error : UnknownMode)
deriving DecidableEq, Repr

namespace UsageError

def message : UsageError → String
  | unknownCommand name => s!"unrecognized subcommand '{name}'"
  | noCommand => "a subcommand is required"
  | unknownOption option => s!"unexpected argument '{option}' found"
  | repeatedOption option => s!"the argument '{option}' cannot be used multiple times"
  | noValue option => s!"a value is required for '{option}' but none was supplied"
  | noOperand => "a required argument was not provided"
  | tooManyOperands operand => s!"unexpected argument '{operand}' found"
  | mode error => error.message

end UsageError

/-- What was read of the arguments after the name of a command. -/
structure Arguments where
  /-- Operands, last first. -/
  operands : List String := []
  mode : Option ParseMode := none
  asJson : Bool := false
deriving Repr

namespace Arguments

/-- Sets the mode to the one of a name. -/
def setMode (a : Arguments) (name : String) : Except UsageError Arguments :=
  if a.mode.isSome then .error (.repeatedOption "--mode")
  else
    match ParseMode.ofText name with
    | .ok mode => .ok { a with mode := some mode }
    | .error e => .error (.mode e)

/-- Whether an argument is an option. A lone dash is none. -/
def isOption (argument : String) : Bool :=
  match argument.toList with
  | '-' :: _ :: _ => true
  | _ => false

/-- The name of the mode in an argument such as `--mode=type`. -/
def attachedMode? (argument : String) : Option String :=
  let opening := "--mode=".toList
  let cs := argument.toList
  if opening.isPrefixOf cs then some (String.ofList (cs.drop opening.length)) else none

/-- Reads arguments for a command that may have a mode and may write JSON. All
arguments after `--` are operands. -/
def read (takesMode takesJson : Bool) (a : Arguments) : List String → Except UsageError Arguments
  | [] => .ok a
  | "--" :: rest => .ok { a with operands := rest.reverse ++ a.operands }
  | ["--mode"] => .error (if takesMode then .noValue "--mode" else .unknownOption "--mode")
  | argument :: value :: rest =>
    if argument = "--mode" ∧ takesMode then
      if isOption value then .error (.noValue "--mode")
      else do read takesMode takesJson (← a.setMode value) rest
    else do read takesMode takesJson (← single a argument) (value :: rest)
  | [argument] => single a argument
where
  /-- Reads an argument that stands for itself. -/
  single (a : Arguments) (argument : String) : Except UsageError Arguments :=
    if argument = "--json" ∧ takesJson then
      if a.asJson then .error (.repeatedOption "--json") else .ok { a with asJson := true }
    else
      match attachedMode? argument with
      | some name => if takesMode then a.setMode name else .error (.unknownOption argument)
      | none =>
        if isOption argument then .error (.unknownOption argument)
        else .ok { a with operands := argument :: a.operands }

/-- The only operand. -/
def operand (a : Arguments) : Except UsageError String :=
  match a.operands.reverse with
  | [] => .error .noOperand
  | [operand] => .ok operand
  | _ :: operand :: _ => .error (.tooManyOperands operand)

/-- The only operand, which is a path. -/
def path (a : Arguments) : Except UsageError String := do
  let path ← a.operand
  if path.isEmpty then throw .noOperand
  return path

end Arguments

namespace Command

/-- The command that arguments ask for. -/
def ofArguments : List String → Except UsageError Command
  | [] => .error .noCommand
  | "tokens" :: rest => do
    let a ← Arguments.read false true {} rest
    return .onFile (← a.path) (.tokens a.asJson)
  | "parse" :: rest => do
    let a ← Arguments.read true true {} rest
    return .onFile (← a.path) (.parse (a.mode.getD .compilationUnit) a.asJson)
  | "check" :: rest => do
    let a ← Arguments.read true false {} rest
    return .onFile (← a.path) (.check (a.mode.getD .compilationUnit))
  | "classify" :: rest => do
    let a ← Arguments.read false false {} rest
    return .classify (← a.operand)
  | name :: _ => .error (.unknownCommand name)

end Command

end JavaSyntax

/-!
# Command-line arguments

How the arguments of a command are read. An option has a long name after two
dashes and may have a one-letter name after one dash. Its value is the next
argument, or stands after an equals sign, or follows a one-letter name directly;
as an argument of its own it does not start with a dash, unless it is just a
dash. A flag takes no value. Options and operands can be mixed; after a double
dash there are only operands. No option may be given twice.

Where a command has subcommands, its own arguments end at the name of one. The
arguments are read from left to right, and the first thing that is wrong, or a
request for help, ends the reading. What is wrong is not said in detail: a command
answers with its usage, a text of this library (`Report.halted`).
-/

namespace EntityTypings.Arguments

/-- What the value of an option can be. -/
inductive Accepted where
  /-- Any text. -/
  | text
  /-- A path, which is not empty. -/
  | path
  /-- One of some words. -/
  | oneOf (words : List String)
  deriving DecidableEq, Repr

/-- Whether a text can be the value. -/
def Accepted.admits : Accepted → String → Bool
  | text, _ => true
  | path, v => v ≠ ""
  | oneOf words, v => v ∈ words

/-- An option of a command. -/
inductive Opt where
  /-- An option without a value. -/
  | flag (name : String)
  /-- An option with a value. -/
  | valued (letter : Option Char) (name : String) (accepted : Accepted)
  deriving DecidableEq, Repr

/-- The long name of an option. -/
def Opt.name : Opt → String
  | flag name | valued _ name _ => name

/-- Whether an option has the given one-letter name. -/
def Opt.hasLetter (c : Char) : Opt → Bool
  | flag _ => false
  | valued letter _ _ => letter = some c

/-- The arguments that a command takes. -/
structure Grammar where
  /-- The options. -/
  options : List Opt
  /-- How many operands there can be; each is a path. -/
  operands : Nat
  /-- The subcommands. -/
  subcommands : List String

/-- Why arguments are not read to their end. -/
inductive Halt where
  /-- Help is asked for. -/
  | help
  /-- The arguments are not those of the command. -/
  | misuse
  deriving DecidableEq, Repr

/-- Arguments that have been read. -/
structure Given where
  /-- The options by their long names, with their values; that of a flag is empty. -/
  options : List (String × String)
  /-- The operands. -/
  operands : List String
  /-- The subcommand that was reached, if any, with its arguments. -/
  subcommand : Option (String × List String)
  deriving DecidableEq, Repr

namespace Given

/-- No arguments. -/
def none : Given := ⟨[], [], .none⟩

/-- The value of an option, if it is given. -/
def value? (g : Given) (name : String) : Option String := g.options.lookup name

/-- Whether an option is given. -/
def has (g : Given) (name : String) : Bool := (g.value? name).isSome

/-- The arguments with a further option. -/
def withOption (g : Given) (name value : String) : Except Halt Given :=
  if g.has name then .error .misuse else .ok { g with options := g.options ++ [(name, value)] }

/-- The arguments with a further operand. -/
def withOperand (g : Given) (grammar : Grammar) (operand : String) : Except Halt Given :=
  if g.operands.length < grammar.operands ∧ operand ≠ "" then
    .ok { g with operands := g.operands ++ [operand] }
  else .error .misuse

end Given

/-! ### Kinds of arguments -/

/-- What an argument is, as far as it says itself. -/
inductive Kind where
  /-- An operand. -/
  | operand
  /-- The mark after which there are only operands. -/
  | onlyOperands
  /-- A request for help. -/
  | help
  /-- An option, with its value if that is part of the argument. -/
  | option (o : Opt) (value : Option String)
  /-- An option that the command does not have. -/
  | unknown

/-- The long name of an option and the value after an equals sign. -/
def nameAndValue (text : List Char) : String × Option String :=
  let isName (c : Char) : Bool := c ≠ '='
  (String.ofList (text.takeWhile isName),
    match text.dropWhile isName with
    | [] => none
    | _ :: value => some (String.ofList value))

/-- The value that directly follows a one-letter name. -/
def attachedValue : List Char → Option String
  | [] => none
  | '=' :: value => some (String.ofList value)
  | value => some (String.ofList value)

/-- What an argument is. -/
def kindOf (grammar : Grammar) (argument : String) : Kind :=
  match argument.toList with
  | '-' :: '-' :: [] => .onlyOperands
  | '-' :: '-' :: text =>
    let (name, value) := nameAndValue text
    match grammar.options.find? (fun o => o.name = name), value with
    | some o, value => .option o value
    | none, none => if name = "help" then .help else .unknown
    | none, some _ => .unknown
  | '-' :: c :: text =>
    match grammar.options.find? (Opt.hasLetter c) with
    | some o => .option o (attachedValue text)
    | none => if c = 'h' then .help else .unknown
  | _ => .operand

/-- Whether an argument of its own can be the value of an option. -/
def canBeValue (argument : String) : Bool :=
  match argument.toList with
  | '-' :: _ :: _ => false
  | _ => true

/-! ### Reading -/

/-- The arguments after `g`, which have been read before. -/
def readAfter (grammar : Grammar) (onlyOperands : Bool) (g : Given) :
    List String → Except Halt Given
  | [] => .ok g
  | argument :: rest =>
    match if onlyOperands then .operand else kindOf grammar argument with
    | .operand =>
      if argument ∈ grammar.subcommands ∧ !onlyOperands then
        .ok { g with subcommand := some (argument, rest) }
      else
        match g.withOperand grammar argument with
        | .error halt => .error halt
        | .ok g => readAfter grammar onlyOperands g rest
    | .onlyOperands => readAfter grammar true g rest
    | .help => .error .help
    | .unknown => .error .misuse
    | .option (.flag _) (some _) => .error .misuse
    | .option (.flag name) none =>
      match g.withOption name "" with
      | .error halt => .error halt
      | .ok g => readAfter grammar onlyOperands g rest
    | .option (.valued _ name accepted) (some value) =>
      if accepted.admits value then
        match g.withOption name value with
        | .error halt => .error halt
        | .ok g => readAfter grammar onlyOperands g rest
      else .error .misuse
    | .option (.valued _ name accepted) none =>
      match rest with
      | [] => .error .misuse
      | value :: rest =>
        if canBeValue value && accepted.admits value then
          match g.withOption name value with
          | .error halt => .error halt
          | .ok g => readAfter grammar onlyOperands g rest
        else .error .misuse

/-- The arguments of a command. -/
def read (grammar : Grammar) (arguments : List String) : Except Halt Given :=
  readAfter grammar false .none arguments

end EntityTypings.Arguments

/-
  Command lines: options with values, flags, and the other
  arguments.

  Key definitions include:
    * `Command.Layout`
    * `Command.Given`
    * `Command.Token`
    * `Command.collect`
-/

namespace Marginalia

namespace Command

------------------------------------------------------------
-- Layouts
------------------------------------------------------------

/- An option has a long name, and a letter as a short one. -/
structure OptionName where
  letter : Char
  name : String
deriving DecidableEq

/- What a command accepts. -/
structure Layout where
  options : List OptionName
  flags : List String
  maxOperands : Nat

/- What was given, each list in order. -/
structure Given where
  options : List (String × String)
  flags : List String
  operands : List String
deriving DecidableEq

namespace Given

/- Nothing was given. -/
def nothing : Given :=
  ⟨[], [], []⟩

/- Add an option with its value; none is given twice. -/
def addOption?
    (given : Given)
    (name value : String) : Option Given :=
  if (given.options.lookup name).isSome then
    none
  else
    some { given with
      options := given.options ++ [(name, value)] }

/- Add a flag; none is given twice. -/
def addFlag?
    (given : Given)
    (name : String) : Option Given :=
  if given.flags.contains name then
    none
  else
    some { given with flags := given.flags ++ [name] }

/- Add arguments that are neither options nor flags. -/
def addOperands
    (given : Given)
    (operands : List String) : Given :=
  { given with operands := given.operands ++ operands }

/- The value of an option. -/
def option?
    (given : Given)
    (name : String) : Option String :=
  given.options.lookup name

/- Whether a flag was given. -/
def flag
    (given : Given)
    (name : String) : Bool :=
  given.flags.contains name

end Given

------------------------------------------------------------
-- Tokens
------------------------------------------------------------

/- What an argument is by its form. -/
inductive Token where
  | separator
  | long (name : String) (value? : Option String)
  | short (letter : Char) (value? : Option String)
  | operand (text : String)
deriving DecidableEq

namespace Token

/- The part of a text before an equals sign, and that after it. -/
def splitAtEquals
    (text : List Char) : String × Option String :=
  let name := String.ofList (text.takeWhile fun c => c != '=')
  match text.dropWhile fun c => c != '=' with
  | [] => (name, none)
  | _ :: value => (name, some (String.ofList value))

/-
  What is written right after the letter of an option is its
  value, with an equals sign before it or without.
-/
def attached? : List Char → Option String
  | [] => none
  | '=' :: value => some (String.ofList value)
  | value => some (String.ofList value)

/- An argument by its form; a single dash is an operand. -/
def ofArgument
    (argument : String) : Token :=
  match argument.toList with
  | ['-', '-'] => separator
  | '-' :: '-' :: rest =>
      let (name, value?) := splitAtEquals rest
      long name value?
  | '-' :: letter :: rest => short letter (attached? rest)
  | _ => operand argument

end Token

------------------------------------------------------------
-- Collection
------------------------------------------------------------

/- The long name of the option that a token names. -/
def Layout.optionOf?
    (layout : Layout) : Token → Option String
  | .long name _ =>
      (layout.options.find? fun option =>
        option.name == name).map OptionName.name
  | .short letter _ =>
      (layout.options.find? fun option =>
        option.letter == letter).map OptionName.name
  | _ => none

/- The flag that a token names; flags have no values. -/
def Layout.flagOf?
    (layout : Layout) : Token → Option String
  | .long name none =>
      layout.flags.find? fun flag => flag == name
  | _ => none

/- The value that a token carries. -/
def Token.value? : Token → Option String
  | long _ value? => value?
  | short _ value? => value?
  | _ => none

/-
  Collect what is given. The value of an option is attached
  to it, or the next argument if that is an operand by its
  form. After the separator all arguments are operands.
-/
def gather
    (layout : Layout) :
    Given → List String → Option Given
  | given, [] => some given
  | given, argument :: rest =>
      match Token.ofArgument argument with
      | .separator => some (given.addOperands rest)
      | .operand text =>
          gather layout (given.addOperands [text]) rest
      | token => do
          if let some flag := layout.flagOf? token then
            gather layout (← given.addFlag? flag) rest
          else
            let name ← layout.optionOf? token
            match token.value?, rest with
            | some value, rest =>
                gather layout
                  (← given.addOption? name value) rest
            | none, [] => none
            | none, next :: rest =>
                match Token.ofArgument next with
                | .operand value =>
                    gather layout
                      (← given.addOption? name value) rest
                | _ => none

/- What is given, if the command accepts it. -/
def collect
    (layout : Layout)
    (arguments : List String) : Option Given := do
  let given ← gather layout Given.nothing arguments
  if given.operands.length ≤ layout.maxOperands then
    return given
  else
    none

end Command

end Marginalia

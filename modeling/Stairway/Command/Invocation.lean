import Stairway.Command.Parameter
import Stairway.Controller.Transition

/-!
# Invocations

A command line names one operation and a version: `assert 3`, `apply 3`, `rollback 3`. Parameters
may stand before the operation and after it; what stands after it counts first, then what stands
before it, then the environment. On one side of the operation a parameter may be given once.

A parameter's value is looked at when the next argument shows that it is complete, so of two faults
the one that shows first counts: an unknown argument before the value left open in front of it, and
anything after the operation before what was left open in front of the operation.
-/

namespace Stairway.Command

/-- One argument by its form. -/
inductive Argument where
  | doubleDash
  /-- Two dashes and a name, with what follows an equals sign. -/
  | long (name : String) (attached : Option String)
  /-- One dash and letters. -/
  | short (letters : List Char)
  | plain (text : String)
  deriving DecidableEq, Repr

def Argument.ofText (text : String) : Argument :=
  match text.toList with
  | ['-', '-'] => .doubleDash
  | '-' :: '-' :: rest =>
    let name := rest.takeWhile (· != '=')
    .long (String.ofList name)
      (if name.length < rest.length then some (String.ofList (rest.drop (name.length + 1)))
      else none)
  | '-' :: c :: rest => .short (c :: rest)
  | _ => .plain text

/-- Something that waits for its value or has it and was not looked at. -/
inductive Pending where
  | option (p : Parameter) (value : Option String)
  | version (value : String)
  deriving DecidableEq, Repr

/-- What one side of the operation says. -/
structure Side where
  /-- Whether this is the side after the operation. -/
  isInner : Bool
  values : List (Parameter × String) := []
  version : Option Nat := none
  verbose : Bool := false
  pending : Option Pending := none
  deriving DecidableEq, Repr

namespace Side

/-- Whether the next argument may be the value of a parameter. -/
def awaitsValue (s : Side) : Bool :=
  match s.pending with
  | some (.option _ none) => true
  | _ => false

/-- Takes a value in. -/
def accept (s : Side) (p : Parameter) (value : String) : Except UsageError Side := do
  if (s.values.lookup p).isSome then throw .argumentConflict
  p.check value
  return { s with values := s.values ++ [(p, value)] }

/-- Looks at what is pending. -/
def settle (s : Side) : Except UsageError Side :=
  let rest := { s with pending := none }
  match s.pending with
  | none => .ok s
  | some (.option _ none) => .error .invalidValue
  | some (.option p (some value)) => rest.accept p value
  | some (.version value) =>
    match Text.readNumber? 0xFFFFFFFFFFFFFFFF value with
    | some v => .ok { rest with version := some v }
    | none => .error .valueValidation

def setVerbose (s : Side) : Except UsageError Side := do
  let s ← s.settle
  if s.verbose then throw .argumentConflict
  return { s with verbose := true }

/-- Does what one letter after a dash asks for. -/
def letter (s : Side) (c : Char) : Except UsageError Side :=
  match c, s.isInner with
  | 'v', _ => s.setVerbose
  | 'h', _ => s.settle.bind fun _ => .error .displayHelp
  | 'V', false => s.settle.bind fun _ => .error .displayVersion
  | _, _ => .error .unknownArgument

/-- Does what a name after two dashes asks for. -/
def long (s : Side) (name : String) (attached : Option String) : Except UsageError Side :=
  match Parameter.ofFlag? name, attached with
  | some p, some value => do (← s.settle).accept p value
  | some p, none => do return { (← s.settle) with pending := some (.option p none) }
  | none, attached =>
    let c :=
      match name with
      | "verbose" => some 'v'
      | "help" => some 'h'
      | "version" => if s.isInner then none else some 'V'
      | _ => none
    match c, attached with
    | none, _ => .error .unknownArgument
    | some _, some _ => .error .tooManyValues
    | some c, none => s.letter c

/-- Takes in a text as the value that a parameter waits for. -/
def giveValue (s : Side) (value : String) : Side :=
  match s.pending with
  | some (.option p none) => { s with pending := some (.option p (some value)) }
  | _ => s

/-- Takes in a text as the version; there is only one. -/
def giveVersion (s : Side) (value : String) : Except UsageError Side :=
  match s.version, s.pending with
  | some _, _ => .error .unknownArgument
  | none, some (.version _) => .error .unknownArgument
  | none, _ => do return { (← s.settle) with pending := some (.version value) }

/-- The end of a side: nothing is pending, and the environment holds no bad values for what is not
given here. -/
def finish (s : Side) (environment : Parameter → Option String) : Except UsageError Side := do
  let s ← s.settle
  for p in Parameter.all do
    if (s.values.lookup p).isNone then
      match environment p with
      | some value => p.check value
      | none => pure ()
  return s

end Side

/-- An operation by its name on the command line. -/
def Transition.ofName? (name : String) : Option Transition :=
  [Transition.assert, .apply, .rollback].find? (·.name == name)

/-- What follows `help`: nothing, or one name of something that can be asked about. -/
def helpAbout : List String → UsageError
  | [] => .displayHelp
  | [name] =>
    if (Transition.ofName? name).isSome || name = "help" then .displayHelp else .invalidSubcommand
  | _ => .invalidSubcommand

/-- Reads the arguments after the operation; after `--` each is taken as it stands. -/
def readInner (environment : Parameter → Option String) (literal : Bool) (s : Side) :
    List String → Except UsageError Side
  | [] => do
    let s ← s.finish environment
    if s.version.isNone then throw .missingRequiredArgument
    return s
  | a :: rest => do
    if literal then readInner environment true (← s.giveVersion a) rest
    else
      match Argument.ofText a with
      | .doubleDash => readInner environment true s rest
      | .long name attached => readInner environment false (← s.long name attached) rest
      | .short letters => readInner environment false (← letters.foldlM Side.letter s) rest
      | .plain text =>
        if s.awaitsValue then readInner environment false (s.giveValue text) rest
        else readInner environment false (← s.giveVersion text) rest

/-- The two sides of a command line and the operation between them. -/
structure Sides where
  outer : Side
  operation : Transition
  inner : Side

/-- Reads the arguments up to the operation, and what follows it. -/
def readOuter (environment : Parameter → Option String) (s : Side) :
    List String → Except UsageError Sides
  | [] => do
    let s ← s.finish environment
    if s.values.isEmpty && !s.verbose && Parameter.all.all fun p => (environment p).isNone then
      throw .helpOnMissing
    throw .missingSubcommand
  | a :: rest => do
    if !s.awaitsValue && a = "help" then throw (helpAbout rest)
    match if s.awaitsValue then none else Transition.ofName? a with
    | some operation =>
      let inner ← readInner environment false { isInner := true } rest
      return ⟨← s.finish environment, operation, inner⟩
    | none =>
      match Argument.ofText a with
      | .doubleDash =>
        match rest with
        | [] => readOuter environment s []
        | b :: _ =>
          if (Transition.ofName? b).isSome || b = "help" then throw .unknownArgument
          else throw .invalidSubcommand
      | .long name attached => readOuter environment (← s.long name attached) rest
      | .short letters => readOuter environment (← letters.foldlM Side.letter s) rest
      | .plain text =>
        if s.awaitsValue then readOuter environment (s.giveValue text) rest
        else throw .invalidSubcommand

/-- What a command line asks for. -/
structure Invocation where
  operation : Transition
  version : Nat
  verbose : Bool
  /-- Where the settings file is. -/
  config : Option String
  layer : Layer
  deriving DecidableEq, Repr

/-- Reads a command line in an environment. -/
def Invocation.parse (arguments : List String) (environment : List (String × String)) :
    Except UsageError Invocation := do
  let environment (p : Parameter) : Option String := environment.lookup p.variable_
  let sides ← readOuter environment { isInner := false } arguments
  let text (p : Parameter) : Option String :=
    (sides.inner.values.lookup p).or ((sides.outer.values.lookup p).or (environment p))
  return {
    operation := sides.operation
    version := sides.inner.version.getD 0
    verbose := sides.outer.verbose || sides.inner.verbose
    config := text .config
    layer := Layer.ofTexts text }

end Stairway.Command

import PartitionPruning.Text.Digits
import PartitionPruning.Text.Split

/-! Arguments of a command line: options with a long name, some also with a letter, and the values
between them. Options of one letter can stand in one argument; after `--` everything is a value. -/

namespace PartitionPruning

structure OptionSpec where
  name : String
  letter : Option Char
  takesValue : Bool
  deriving DecidableEq, Repr

/-- The options that were given, in order, with an empty value for those that take none, and the
other values. -/
structure Arguments where
  options : List (String × String)
  values : List String
  deriving DecidableEq, Repr

namespace Arguments

def empty : Arguments := ⟨[], []⟩

def withValue (value : String) (a : Arguments) : Arguments :=
  { a with values := value :: a.values }

end Arguments

/-- The argument cannot be the value of the option before it. -/
def looksLikeOption (arg : String) : Bool :=
  match arg.toList with
  | '-' :: _ :: _ => true
  | _ => false

/-- What an argument says: options, the last of which may still lack its value, or a value. -/
inductive ArgumentKind where
  | options (given : List (String × String)) (pending : Option String)
  | value
  | endOfOptions
  deriving DecidableEq, Repr

/-- Options by their letters. What follows the letter of an option with a value is the value. -/
def readLetters (specs : List OptionSpec) : List Char → Option ArgumentKind
  | [] => some (.options [] none)
  | c :: cs =>
    match specs.find? fun spec => spec.letter == some c with
    | none => none
    | some spec =>
      if spec.takesValue then
        match cs with
        | [] => some (.options [] (some spec.name))
        | '=' :: value => some (.options [(spec.name, .ofList value)] none)
        | value => some (.options [(spec.name, .ofList value)] none)
      else
        match readLetters specs cs with
        | some (.options given pending) => some (.options ((spec.name, "") :: given) pending)
        | other => other

/-- An option by its name, with a value after an equals sign or in the next argument. -/
def readLongName (specs : List OptionSpec) (cs : List Char) : Option ArgumentKind :=
  let (name, value) := match splitFirst? '=' cs with
    | some (name, value) => (name, some value)
    | none => (cs, none)
  match specs.find? fun spec => spec.name.toList == name, value with
  | none, _ => none
  | some spec, some value =>
    if spec.takesValue then some (.options [(spec.name, .ofList value)] none) else none
  | some spec, none =>
    if spec.takesValue then some (.options [] (some spec.name))
    else some (.options [(spec.name, "")] none)

def ArgumentKind.read (specs : List OptionSpec) (arg : String) : Option ArgumentKind :=
  match arg.toList with
  | ['-', '-'] => some .endOfOptions
  | '-' :: '-' :: cs => readLongName specs cs
  | '-' :: c :: cs => readLetters specs (c :: cs)
  | _ => some .value

def Arguments.read (specs : List OptionSpec) : List String → Option Arguments
  | [] => some .empty
  | arg :: rest =>
    match ArgumentKind.read specs arg with
    | none => none
    | some .endOfOptions => some ⟨[], rest⟩
    | some .value => (Arguments.read specs rest).map (.withValue arg)
    | some (.options given none) =>
      (Arguments.read specs rest).map fun a => { a with options := given ++ a.options }
    | some (.options given (some name)) =>
      match rest with
      | [] => none
      | value :: rest =>
        if looksLikeOption value then none
        else (Arguments.read specs rest).map fun a =>
          { a with options := given ++ (name, value) :: a.options }

namespace Arguments

def all (a : Arguments) (name : String) : List String :=
  (a.options.filter fun o => o.1 = name).map Prod.snd

/-- The value of an option that may be given once. -/
def optional? (a : Arguments) (name : String) : Option (Option String) :=
  match a.all name with
  | [] => some none
  | [value] => some (some value)
  | _ => none

/-- Whether an option without a value is given; it may be given once. -/
def flag? (a : Arguments) (name : String) : Option Bool := (a.optional? name).map Option.isSome

/-- A number, which may have a plus in front. -/
def number? (value : String) : Option UInt64 :=
  (readUnsigned? value.toList).bind fun n => toUInt64? n

end Arguments

end PartitionPruning

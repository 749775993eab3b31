import PartitionPruning.Command.Arguments
import PartitionPruning.Command.Execute
import PartitionPruning.Hive.DirectoryName

/-! The program: what its arguments ask for, and what it prints. -/

namespace PartitionPruning

/-- What the arguments ask for. An input that is not given is read. -/
inductive Action where
  | fingerprint (input : Option String)
  | canonicalize (input : Option String)
  | schema (input : Option String)
  | pruneHive (input : Option String) (partitions : List String)
  /-- `config` is the path of a written mapping. -/
  | pruneStats (input : Option String) (config : Option String) (columns : List String)
      (table : Option String)
  | splits (input : Option String) (limit : UInt64)
  | unescape (value : String)
  | escape (value : String)
  deriving DecidableEq, Repr

structure Invocation where
  pretty : Bool
  action : Action
  deriving DecidableEq, Repr

namespace Invocation

def prettySpec : OptionSpec := ⟨"pretty", some 'p', false⟩

def inputSpec : OptionSpec := ⟨"input", some 'i', true⟩

def valueSpec (name : String) : OptionSpec := ⟨name, none, true⟩

/-- The options of a command; nothing for another word. -/
def commandSpecs? (command : String) : Option (List OptionSpec) :=
  match command with
  | "fingerprint" | "canonicalize" | "schema" => some [prettySpec, inputSpec]
  | "prune-hive" => some [prettySpec, inputSpec, valueSpec "partition"]
  | "prune-stats" =>
    some [prettySpec, inputSpec, valueSpec "config", valueSpec "column", valueSpec "stats-table"]
  | "splits" => some [prettySpec, inputSpec, valueSpec "max-split-size"]
  | "unescape" | "escape" => some [prettySpec]
  | _ => none

/-- The action of a command that takes no values besides its options. -/
def optionAction? (command : String) (a : Arguments) : Option Action := do
  let input ← a.optional? "input"
  match command with
  | "fingerprint" => some (.fingerprint input)
  | "canonicalize" => some (.canonicalize input)
  | "schema" => some (.schema input)
  | "prune-hive" =>
    let partitions := a.all "partition"
    if partitions.isEmpty then none else some (.pruneHive input partitions)
  | "prune-stats" =>
    let config ← a.optional? "config"
    let columns := a.all "column"
    let table ← a.optional? "stats-table"
    if config.isSome && !columns.isEmpty then none
    else some (.pruneStats input config columns table)
  | "splits" =>
    let limit ← (← a.optional? "max-split-size").bind Arguments.number?
    some (.splits input limit)
  | _ => none

def action? (command : String) (a : Arguments) : Option Action :=
  match command, a.values with
  | "unescape", [value] => some (.unescape value)
  | "escape", [value] => some (.escape value)
  | "unescape", _ | "escape", _ => none
  | command, [] => optionAction? command a
  | _, _ :: _ => none

/-- What the arguments of a command ask for, after the letters of the flags before it. -/
def ofCommand? (before : List (String × String)) (command : String) (rest : List String) :
    Option Invocation := do
  let specs ← commandSpecs? command
  let a ← Arguments.read specs rest
  let first ← Arguments.flag? ⟨before, []⟩ "pretty"
  let second ← a.flag? "pretty"
  pure ⟨first || second, ← action? command a⟩

def readFrom? (before : List (String × String)) : List String → Option Invocation
  | [] => none
  | arg :: rest =>
    match ArgumentKind.read [prettySpec] arg with
    | some (.options given none) => readFrom? (before ++ given) rest
    | some .value => ofCommand? before arg rest
    | _ => none

/-- What the arguments ask for; nothing if they are not a use of the program. -/
def read? (args : List String) : Option Invocation := readFrom? [] args

end Invocation

structure Outcome where
  exitCode : UInt8
  stdout : String
  stderr : String
  deriving DecidableEq, Repr

def Outcome.usage : Outcome := ⟨2, "", ""⟩

/-- What a result prints, indented on request, on lines of its own. -/
def Outcome.ofResult (pretty : Bool) : Except CommandFault CommandResult → Outcome
  | .ok result => ⟨0, (if pretty then result.node.toPrettyJson else result.node.toJson) ++ "\n", ""⟩
  | .error fault => ⟨1, "", fault.message ++ "\n"⟩

/-- How a program reads files and its input; there is none at a terminal. -/
structure Surroundings (m : Type → Type) where
  fileText : String → m (Except ReadFault String)
  inputText : m (Option String)

section

variable {m : Type → Type} [Monad m]

/-- Executes a command on an input that is given or else read. -/
def Command.executeOn (s : Surroundings m) (input : Option String) (c : Command) :
    m (Except CommandFault CommandResult) :=
  match input with
  | some text => pure (c.execute (some text))
  | none => do pure (c.execute (← s.inputText))

def textResult (s : String) : Except CommandFault CommandResult := .ok (.json (.string s))

def Action.perform (s : Surroundings m) : Action → m (Except CommandFault CommandResult)
  | fingerprint input => Command.fingerprint.executeOn s input
  | canonicalize input => Command.canonicalize.executeOn s input
  | schema input => Command.schema.executeOn s input
  | pruneHive input partitions => (Command.pruneHive partitions).executeOn s input
  | pruneStats input none columns table =>
    (Command.pruneStats none columns table).executeOn s input
  | pruneStats input (some path) columns table => do
    match ← s.fileText path with
    | .ok config => (Command.pruneStats (some config) columns table).executeOn s input
    | .error cause => pure (.error (.read cause))
  | splits input limit => (Command.splits limit).executeOn s input
  | unescape value => pure (textResult (DirectoryName.toValue value))
  | escape value => pure (textResult (DirectoryName.ofValue value))

def run (s : Surroundings m) (args : List String) : m Outcome :=
  match Invocation.read? args with
  | none => pure .usage
  | some invocation => do
    pure (.ofResult invocation.pretty (← invocation.action.perform s))

end

end PartitionPruning

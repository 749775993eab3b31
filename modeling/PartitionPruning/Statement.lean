import PartitionPruning.DataType.Name
import PartitionPruning.Expr.Column

/-! Parse results and the statements in them: their WHERE and FROM clauses, and the table function
they read from. -/

namespace PartitionPruning

/-! ### Parse results -/

def refuseFailedParse (tree : Node) : Except Fault Unit :=
  if (tree.field? "error").bind Node.bool? = some true then
    .error (.parser (((tree.field? "error_message").bind Node.text?).getD "unknown parser error"))
  else .ok ()

def statementEntries (tree : Node) : Except Fault (List Node) := do
  match (← tree.require "statements").items? with
  | some entries => pure entries
  | none => .error (.malformed .statementsType)

def statements (tree : Node) : Except Fault (List Node) := do
  refuseFailedParse tree
  (← statementEntries tree).mapM fun entry => entry.require "node"

/-- One parse result for each statement, with all other fields kept. -/
def splitStatements (tree : Node) : Except Fault (List Node) := do
  refuseFailedParse tree
  (← statementEntries tree).mapM fun entry => tree.withField "statements" (.array [entry])

def firstStatement (tree : Node) : Except Fault Node := do
  match ← statements tree with
  | statement :: _ => pure statement
  | [] => .error (.malformed .noStatements)

namespace Node

/-! ### Clauses -/

def whereClause? (statement : Node) : Option Node := statement.present? "where_clause"

def withWhereClause (statement clause : Node) : Except Fault Node :=
  statement.withField "where_clause" clause

def fromTable? (statement : Node) : Option Node := statement.present? "from_table"

def withFromTable (statement table : Node) : Except Fault Node :=
  statement.withField "from_table" table

/-! ### Table functions -/

/-- The call of a table function in the FROM clause. -/
def tableCall? (statement : Node) : Option Node := do
  let table ← statement.fromTable?
  if table.hasType "TABLE_FUNCTION" then table.present? "function" else none

def tableFunction? (statement : Node) : Option String :=
  (statement.tableCall?.bind fun call => call.field? "function_name").bind text?

def tableArguments (statement : Node) : List Node :=
  (statement.tableCall?.map fun call => call.itemsOf "children").getD []

def constantText? (constant : Node) : Option String :=
  ((constant.field? "value").bind fun payload => payload.field? "value").bind text?

/-- The path a statement reads from: the name of a base table, or the first constant among the
arguments of a table function. -/
def tablePath? (statement : Node) : Option String := do
  let table ← statement.fromTable?
  if table.hasType "BASE_TABLE" then (table.field? "table_name").bind text?
  else if table.hasType "TABLE_FUNCTION" then
    (statement.tableArguments.find? isConstant).bind constantText?
  else none

/-- An argument `hive_types = ...`. -/
def isHiveTypes (argument : Node) : Bool :=
  argument.kind = .comparison .equal && (argument.field? "left").any fun left =>
    left.isReference && match left.columnNames with
      | .ok names => names == ["hive_types"]
      | .error _ => false

/-- The column that an entry of a struct literal declares: its alias is the name, and a bare word
or a text its type. -/
def hiveColumn (entry : Node) : Except Fault PartitionColumn := do
  match (entry.field? "alias").bind text? with
  | none => .error (.malformed .hiveTypeName)
  | some name =>
    if name = "" then .error (.malformed .hiveTypeName) else
      let typeName ←
        if entry.isReference then entry.columnName
        else match entry.constantText? with
          | some s => pure s
          | none => .error (.unsupported (.hiveTypeEntry name entry.describe))
      pure ⟨name, ← DataType.parse typeName⟩

/-- The partition columns that the table function declares with `hive_types`, none without it. -/
def hiveTypes (statement : Node) : Except Fault (List PartitionColumn) := do
  match statement.tableArguments.find? isHiveTypes with
  | none => pure []
  | some argument =>
    let literal ← argument.require "right"
    match (← literal.require "children").items? with
    | some entries => entries.mapM hiveColumn
    | none => .error (.malformed .hiveTypesShape)

end Node

end PartitionPruning

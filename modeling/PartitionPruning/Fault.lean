/-! The orderly failures of tree queries, type mapping and pruning, each with its cause, and the
texts that describe them. -/

namespace PartitionPruning

/-- A node kind, cast target or literal type that an operation cannot handle. -/
inductive Unsupported where
  | dataType (name : String)
  | constantFrom (node : String)
  | untypedCast
  | textValue (type : String)
  | constantType (type : String)
  | nestedField (column type path : String)
  | columnSpec (spec : String)
  | hiveTypeEntry (name node : String)
  | deltaForm (node : String)
  | deltaCast (node : String)
  | noTableFunction
  | tableFunction (name : String)
  | fromClause
  deriving DecidableEq, Repr

/-- A required field that is missing, or has the wrong JSON type. -/
inductive Malformed where
  | missingField (node key : String)
  | noFields (key node : String)
  | columnNamesType
  | noColumnName
  | columnNameType (node : String)
  | statementsType
  | noStatements
  | hiveTypesShape
  | hiveTypeName
  | typeIdType
  | decimalParameters
  | mapEntryType (type : String)
  | structFieldsType
  | structFieldName
  | emptyColumnPath
  | noFromClause (node : String)
  | noPathArgument (function : String)
  deriving DecidableEq, Repr

inductive ListingFault where
  | missingDirectories (expected found : Nat)
  | notPartition (directory : String)
  | notFound
  | notDirectory
  | reported (message : String)
  deriving DecidableEq, Repr

inductive Fault where
  | unsupported (cause : Unsupported)
  | malformed (cause : Malformed)
  /-- A literal that cannot be read as its declared type. -/
  | conversion (value target : String)
  /-- The front end has marked the tree as a failed parse. -/
  | parser (message : String)
  | listing (path : String) (cause : ListingFault)
  deriving DecidableEq, Repr

def Unsupported.message : Unsupported → String
  | dataType name => s!"data type {name} not supported"
  | constantFrom node => s!"cannot build a constant from {node}"
  | untypedCast => "cannot cast to an unknown type"
  | textValue type => s!"cannot read a {type} value from text"
  | constantType type => s!"constants of type {type} are not supported"
  | nestedField column type path => s!"column {column} is {type} and cannot hold field {path}"
  | columnSpec spec => s!"partition column '{spec}' must look like name or name:TYPE"
  | hiveTypeEntry name node => s!"hive_types entry '{name}' must name a type, got {node}"
  | deltaForm node => s!"{node} has no Delta predicate form"
  | deltaCast node => s!"only constants can be cast in a Delta predicate, got {node}"
  | noTableFunction => "split planning needs a table function in the FROM clause"
  | tableFunction name => s!"cannot plan splits for table function {name}"
  | fromClause => "the FROM clause is not a table function"

def Malformed.message : Malformed → String
  | missingField node key => s!"{node} node is missing required field '{key}'"
  | noFields key node => s!"cannot set field '{key}' on {node}"
  | columnNamesType => "column_names must be an array"
  | noColumnName => "column reference without a name"
  | columnNameType node => s!"column name must be a string, got {node}"
  | statementsType => "statements must be an array"
  | noStatements => "parse result contains no statements"
  | hiveTypesShape => "hive_types must be a struct literal"
  | hiveTypeName => "hive_types entry without a column name"
  | typeIdType => "type id must be a string"
  | decimalParameters => "DECIMAL width and scale must be integers"
  | mapEntryType type => s!"MAP entry type must be a two-field STRUCT, got {type}"
  | structFieldsType => "STRUCT child_types must be an array"
  | structFieldName => "STRUCT field name must be a string"
  | emptyColumnPath => "empty column path"
  | noFromClause node => s!"{node} has no FROM clause"
  | noPathArgument function => s!"{function} has no path argument"

def ListingFault.message : ListingFault → String
  | missingDirectories expected found =>
    s!"expected {expected} partition directories, found {found}"
  | notPartition directory => s!"directory '{directory}' is not a key=value partition"
  | notFound => "No such file or directory (os error 2)"
  | notDirectory => "Not a directory (os error 20)"
  | reported message => message

namespace Fault

def message : Fault → String
  | unsupported cause => "Unsupported shape: " ++ cause.message
  | malformed cause => "Malformed tree: " ++ cause.message
  | conversion value target => s!"Type conversion error: cannot convert '{value}' to {target}"
  | parser message => "Parser error: " ++ message
  | listing path cause => s!"Listing error for '{path}': " ++ cause.message

end Fault

end PartitionPruning

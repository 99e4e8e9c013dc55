/-! # Problems with settings -/

namespace ModuleAtlas

/-- What is wrong with the value of a setting. -/
inductive Complaint where
  | value (message : String)
  | listType
  | stringType
  | intType
  | intParsing
  | intParsingSize
  | intFromFloat
  | finiteNumber
  | greaterThanEqual
  | boolType
  | boolParsing
  | literal
  | floatType
  | floatParsing
  deriving DecidableEq, Repr

/-- The name of a complaint. -/
def Complaint.name : Complaint → String
  | .value _ => "value_error"
  | .listType => "list_type"
  | .stringType => "string_type"
  | .intType => "int_type"
  | .intParsing => "int_parsing"
  | .intParsingSize => "int_parsing_size"
  | .intFromFloat => "int_from_float"
  | .finiteNumber => "finite_number"
  | .greaterThanEqual => "greater_than_equal"
  | .boolType => "bool_type"
  | .boolParsing => "bool_parsing"
  | .literal => "literal_error"
  | .floatType => "float_type"
  | .floatParsing => "float_parsing"

/-- A complaint about a setting, or about one item of it. -/
structure Problem where
  field : String
  index : Option Nat := none
  complaint : Complaint
  deriving DecidableEq, Repr

end ModuleAtlas

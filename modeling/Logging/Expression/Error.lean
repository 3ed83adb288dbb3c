import Logging.Expression.Token
import Logging.Fault

/-!
# Errors in filter expressions

Why a text is no filter expression, and the byte at which this shows.
-/

namespace Logging.Expression

/-- What a filter expression can have in a place. -/
inductive Expected
  | filter
  | level
  | string
  | token (t : Token)
  | rangeStart
  | rangeEnd
  | listGoesOn
deriving DecidableEq, Repr

def Expected.describe : Expected → String
  | filter => "filter expression"
  | level => "level name"
  | string => "string"
  | token t => t.describe
  | rangeStart => "'[' or '('"
  | rangeEnd => "']' or ')'"
  | listGoesOn => "',' or ')'"

inductive Cause
  | unexpectedChar (c : Char)
  | unterminatedString
  | invalidEscape (c : Char)
  | missing (expected : Expected)
  | unexpected (expected : Expected) (found : Token)
  | trailing (found : Token)
  | tooDeep
  | unknownFilter (name : String)
  | unknownLevel (name : String)
  | invalidPattern
deriving DecidableEq, Repr

def Cause.message : Cause → String
  | unexpectedChar c => "unexpected character '" ++ c.toString ++ "'"
  | unterminatedString => "unterminated string"
  | invalidEscape c => "invalid escape sequence '\\" ++ c.toString ++ "'"
  | missing e => "expected " ++ e.describe ++ " but reached end of expression"
  | unexpected e t => "expected " ++ e.describe ++ " but found " ++ t.describe
  | trailing t => "unexpected trailing input " ++ t.describe
  | tooDeep => "expression nested too deeply"
  | unknownFilter name => "unknown filter '" ++ name ++ "'"
  | unknownLevel name => "unknown level '" ++ name ++ "'"
  | invalidPattern => "invalid pattern"

structure Error where
  position : Nat
  cause : Cause
deriving DecidableEq, Repr

def Error.toFault (e : Error) : Fault := .expression e.position e.cause.message

end Logging.Expression

import Logging.Text.Quoted

/-!
# Tokens of filter expressions
-/

namespace Logging.Expression

inductive Token
  | ident (name : String)
  | string (value : String)
  | leftParen
  | rightParen
  | leftBracket
  | rightBracket
  | comma
deriving DecidableEq, Repr

/-- The token as it shows in messages. -/
def Token.describe : Token → String
  | ident name => "'" ++ name ++ "'"
  | string value => "string " ++ Text.Quoted.shown value
  | leftParen => "'('"
  | rightParen => "')'"
  | leftBracket => "'['"
  | rightBracket => "']'"
  | comma => "','"

/-- A token with the byte of the text at which it begins. -/
structure Placed where
  token : Token
  position : Nat
deriving DecidableEq, Repr

end Logging.Expression

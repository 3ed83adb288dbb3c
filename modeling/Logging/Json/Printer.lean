import Logging.Json.Basic

/-!
# Writing JSON

The compact form: no white space, and in strings only the quote, the backslash and the control
characters are escaped.
-/

namespace Logging.Json

/-- Two hexadecimal digits. -/
def hex2 (n : Nat) : List Char :=
  let ds := Nat.toDigits 16 n
  List.replicate (2 - ds.length) '0' ++ ds

def quoteChar (c : Char) : List Char :=
  match c with
  | '"' => ['\\', '"']
  | '\\' => ['\\', '\\']
  | '\x08' => ['\\', 'b']
  | '\x0c' => ['\\', 'f']
  | '\n' => ['\\', 'n']
  | '\r' => ['\\', 'r']
  | '\t' => ['\\', 't']
  | c => if c.toNat < 0x20 then ['\\', 'u', '0', '0'] ++ hex2 c.toNat else [c]

def quote (s : String) : String :=
  String.ofList ('"' :: s.toList.flatMap quoteChar ++ ['"'])

mutual

def render : Json → String
  | null => "null"
  | bool b => if b then "true" else "false"
  | int n => toString n
  | real => "0.0"
  | string s => quote (s.getD "")
  | array l => "[" ++ String.intercalate "," (renderItems l) ++ "]"
  | object fs => "\x7b" ++ String.intercalate "," (renderFields fs) ++ "\x7d"

def renderItems : List Json → List String
  | [] => []
  | v :: vs => v.render :: renderItems vs

def renderFields : List (Option String × Json) → List String
  | [] => []
  | (k, v) :: fs => (quote (k.getD "") ++ ":" ++ v.render) :: renderFields fs

end

end Logging.Json

import ScriptHost.Text.Basic

/-!
# JSON values

A value with its text over several lines.  The members of an object stand in the order in which they were put; of
several members with one name the last counts.
-/

namespace ScriptHost

/-- A JSON value. -/
inductive Json where
  | null
  | bool (b : Bool)
  /-- The number `mantissa * 10 ^ exponent`. -/
  | number (mantissa exponent : Int)
  | string (s : String)
  | array (items : List Json)
  | object (members : List (String × Json))

namespace Json

instance : Inhabited Json := ⟨null⟩

/-- A whole number. -/
def ofInt (n : Int) : Json := number n 0

/-- The text of a value that is one. -/
def text? : Json → Option String
  | string s => some s
  | _ => none

/-- The member of an object with a name. -/
def get? (key : String) : Json → Option Json
  | object members => (members.reverse.find? (·.1 == key)).map Prod.snd
  | _ => none

/-! ### Writing -/

private def hexDigit (n : Nat) : Char := if n < 10 then Char.ofNat (48 + n) else Char.ofNat (87 + n)

/-- A character as it stands between quotes. -/
def escape (c : Char) : List Char :=
  if c = '"' then ['\\', '"']
  else if c = '\\' then ['\\', '\\']
  else if c = '\n' then ['\\', 'n']
  else if c = '\r' then ['\\', 'r']
  else if c = '\t' then ['\\', 't']
  else if c.toNat = 8 then ['\\', 'b']
  else if c.toNat = 12 then ['\\', 'f']
  else if c.toNat < 32 then ['\\', 'u', '0', '0', hexDigit (c.toNat / 16), hexDigit (c.toNat % 16)]
  else [c]

/-- A text between quotes. -/
def quote (s : String) : String := "\"" ++ String.ofList (s.toList.flatMap escape) ++ "\""

/-- The start of a line at a depth. -/
private def newLine (depth : Nat) : String := "\n" ++ String.ofList (List.replicate (2 * depth) ' ')

mutual

/-- The text of a value whose first line stands at a depth of `depth` steps. -/
def render (depth : Nat) : Json → String
  | null => "null"
  | bool b => if b then "true" else "false"
  | number mantissa exponent =>
    if exponent = 0 then toString mantissa else toString mantissa ++ "e" ++ toString exponent
  | string s => quote s
  | array [] => "[]"
  | array items => "[" ++ renderItems (depth + 1) items ++ newLine depth ++ "]"
  | object [] => "\x7b\x7d"
  | object members => "\x7b" ++ renderMembers (depth + 1) members ++ newLine depth ++ "\x7d"

/-- The items of an array on lines of their own. -/
def renderItems (depth : Nat) : List Json → String
  | [] => ""
  | [item] => newLine depth ++ render depth item
  | item :: rest => newLine depth ++ render depth item ++ "," ++ renderItems depth rest

/-- The members of an object on lines of their own. -/
def renderMembers (depth : Nat) : List (String × Json) → String
  | [] => ""
  | [(key, value)] => newLine depth ++ quote key ++ ": " ++ render depth value
  | (key, value) :: rest => newLine depth ++ quote key ++ ": " ++ render depth value ++ "," ++ renderMembers depth rest

end

/-- The text of a value, over several lines. -/
def pretty (value : Json) : String := render 0 value

end Json

end ScriptHost

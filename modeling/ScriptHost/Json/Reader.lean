import ScriptHost.Json.Basic
import ScriptHost.Text.Digits

/-!
# Reading JSON

`Json.parse?` reads a text that is one JSON value.  Values may be nested 127 deep, a number must be less than the
largest number of double precision, and every escape must stand for a character.
-/

namespace ScriptHost.Json

open ScriptHost.Text

/-- The depth to which values may be nested. -/
def depthLimit : Nat := 127

private def isSpace (c : Char) : Bool := c = ' ' || c = '\n' || c = '\t' || c = '\r'

private def skipSpace (cs : List Char) : List Char := cs.dropWhile isSpace

/-! ### Texts -/

/-- The number written by the next four digits of base 16. -/
private def unit? : List Char → Option (Nat × List Char)
  | a :: b :: c :: d :: rest =>
    if [a, b, c, d].all (isDigitOf 16) then some (numberOf 16 [a, b, c, d], rest) else none
  | _ => none

/-- The character after `\u`; one beyond 16 bits takes two escapes. -/
private def unicode? (cs : List Char) : Option (Char × List Char) := do
  let (high, rest) ← unit? cs
  if 0xD800 ≤ high ∧ high < 0xDC00 then
    match rest with
    | '\\' :: 'u' :: rest =>
      let (low, rest) ← unit? rest
      guard (0xDC00 ≤ low ∧ low < 0xE000)
      return (← charOf? (0x10000 + (high - 0xD800) * 0x400 + (low - 0xDC00)), rest)
    | _ => none
  else return (← charOf? high, rest)

/-- The character after a backslash. -/
private def escaped? : List Char → Option (Char × List Char)
  | '"' :: rest => some ('"', rest)
  | '\\' :: rest => some ('\\', rest)
  | '/' :: rest => some ('/', rest)
  | 'b' :: rest => some (Char.ofNat 8, rest)
  | 'f' :: rest => some (Char.ofNat 12, rest)
  | 'n' :: rest => some ('\n', rest)
  | 'r' :: rest => some ('\r', rest)
  | 't' :: rest => some ('\t', rest)
  | 'u' :: rest => unicode? rest
  | _ => none

/-- The rest of a text, after the reversed characters `done`, and what follows its closing quote. -/
private def text (done : List Char) : Nat → List Char → Option (String × List Char)
  | 0, _ => none
  | _ + 1, [] => none
  | _ + 1, '"' :: rest => some (String.ofList done.reverse, rest)
  | fuel + 1, '\\' :: rest => do
    let (c, rest) ← escaped? rest
    text (c :: done) fuel rest
  | fuel + 1, c :: rest => if c.toNat < 32 then none else text (c :: done) fuel rest

/-! ### Numbers -/

/-- The digits of a whole number, which has no needless zero in front. -/
private def whole? (cs : List Char) : Option (List Char × List Char) :=
  match cs with
  | '0' :: rest => if rest.head?.any isDecimal then none else some (['0'], rest)
  | _ =>
    let digits := cs.takeWhile isDecimal
    if digits.isEmpty then none else some (digits, cs.dropWhile isDecimal)

private def fraction? (cs : List Char) : Option (List Char × List Char) :=
  match cs with
  | '.' :: rest =>
    let digits := rest.takeWhile isDecimal
    if digits.isEmpty then none else some (digits, rest.dropWhile isDecimal)
  | _ => some ([], cs)

private def exponent? (cs : List Char) : Option (Int × List Char) :=
  let digits (sign : Int) (cs : List Char) : Option (Int × List Char) :=
    let ds := cs.takeWhile isDecimal
    if ds.isEmpty then none else some (sign * numberOf 10 ds, cs.dropWhile isDecimal)
  match cs with
  | e :: rest =>
    if e = 'e' ∨ e = 'E' then
      match rest with
      | '+' :: rest => digits 1 rest
      | '-' :: rest => digits (-1) rest
      | rest => digits 1 rest
    else some (0, cs)
  | [] => some (0, cs)

private def number? (negative : Bool) (cs : List Char) : Option (Json × List Char) := do
  let (ws, rest) ← whole? cs
  let (fs, rest) ← fraction? rest
  let (e, rest) ← exponent? rest
  let mantissa := numberOf 10 (ws ++ fs)
  let exponent := e - fs.length
  guard (fitsDouble mantissa exponent)
  return (.number (if negative then -mantissa else mantissa) exponent, rest)

/-! ### Values -/

private def word (w : String) (value : Json) (cs : List Char) : Option (Json × List Char) :=
  (w.toList.isPrefixOf? cs).map (value, ·)

mutual

/-- The value at the start of a text, nested at most `depth` deep, and what follows it. -/
private def value? (depth : Nat) : Nat → List Char → Option (Json × List Char)
  | 0, _ => none
  | fuel + 1, cs =>
    match skipSpace cs with
    | 'n' :: rest => word "ull" .null rest
    | 't' :: rest => word "rue" (.bool true) rest
    | 'f' :: rest => word "alse" (.bool false) rest
    | '-' :: rest => number? true rest
    | '"' :: rest => (text [] (rest.length + 1) rest).map fun (s, rest) => (.string s, rest)
    | '[' :: rest =>
      match depth with
      | 0 => none
      | depth + 1 =>
        match skipSpace rest with
        | ']' :: rest => some (.array [], rest)
        | rest => items? depth fuel [] rest
    | '{' :: rest =>
      match depth with
      | 0 => none
      | depth + 1 =>
        match skipSpace rest with
        | '}' :: rest => some (.object [], rest)
        | rest => members? depth fuel [] rest
    | rest => number? false rest

/-- The items of an array after the reversed items `done`. -/
private def items? (depth : Nat) : Nat → List Json → List Char → Option (Json × List Char)
  | 0, _, _ => none
  | fuel + 1, done, cs => do
    let (v, rest) ← value? depth fuel cs
    match skipSpace rest with
    | ',' :: rest => items? depth fuel (v :: done) rest
    | ']' :: rest => some (.array (v :: done).reverse, rest)
    | _ => none

/-- The members of an object after the reversed members `done`. -/
private def members? (depth : Nat) : Nat → List (String × Json) → List Char → Option (Json × List Char)
  | 0, _, _ => none
  | fuel + 1, done, cs =>
    match skipSpace cs with
    | '"' :: rest => do
      let (key, rest) ← text [] (rest.length + 1) rest
      match skipSpace rest with
      | ':' :: rest =>
        let (v, rest) ← value? depth fuel rest
        match skipSpace rest with
        | ',' :: rest => members? depth fuel ((key, v) :: done) rest
        | '}' :: rest => some (.object ((key, v) :: done).reverse, rest)
        | _ => none
      | _ => none
    | _ => none

end

/-- The value that a text writes. -/
def parse? (s : String) : Option Json := do
  let cs := s.toList
  let (v, rest) ← value? depthLimit (2 * cs.length + 2) cs
  guard (skipSpace rest).isEmpty
  return v

end ScriptHost.Json

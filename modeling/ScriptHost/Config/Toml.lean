import ScriptHost.Config.Tables
import ScriptHost.Text.Digits

/-!
# Reading TOML

`Toml.parse?` reads a document of TOML 1.0.  A document is a sequence of lines, each of which opens a table or adds a
value to the table that was opened last.  Numbers and times must be valid, but their values do not count.
-/

namespace ScriptHost.Config.Toml

open ScriptHost.Text

/-- Keys must have fewer parts than this, and values must be nested less deep. -/
def depthLimit : Nat := 80

private def isSpace (c : Char) : Bool := c = ' ' || c = '\t'

private def skipSpace (cs : List Char) : List Char := cs.dropWhile isSpace

/-- Whether a character may stand in a comment or a quoted text. -/
private def isPlain (c : Char) : Bool := c = '\t' || (0x20 ≤ c.toNat && c.toNat ≠ 0x7F)

/-- What follows the end of a line. -/
private def lineEnd? : List Char → Option (List Char)
  | '\n' :: rest => some rest
  | '\r' :: '\n' :: rest => some rest
  | _ => none

private def skipComment (cs : List Char) : List Char :=
  match cs with
  | '#' :: rest => rest.dropWhile isPlain
  | _ => cs

/-- Skips white space, comments and the ends of lines. -/
private def skipLines : Nat → List Char → List Char
  | 0, cs => cs
  | fuel + 1, cs =>
    let rest := skipComment (skipSpace cs)
    match lineEnd? rest with
    | some rest => skipLines fuel rest
    | none => rest

private def skipAll (cs : List Char) : List Char := skipLines (cs.length + 1) cs

/-! ### Texts -/

private def codePoint? (count : Nat) (cs : List Char) : Option (Char × List Char) :=
  let digits := cs.take count
  if digits.length = count ∧ digits.all (isDigitOf 16) then
    (charOf? (numberOf 16 digits)).map (·, cs.drop count)
  else none

/-- The character after a backslash. -/
private def escaped? : List Char → Option (Char × List Char)
  | 'b' :: rest => some (Char.ofNat 8, rest)
  | 't' :: rest => some ('\t', rest)
  | 'n' :: rest => some ('\n', rest)
  | 'f' :: rest => some (Char.ofNat 12, rest)
  | 'r' :: rest => some ('\r', rest)
  | '"' :: rest => some ('"', rest)
  | '\\' :: rest => some ('\\', rest)
  | 'u' :: rest => codePoint? 4 rest
  | 'U' :: rest => codePoint? 8 rest
  | _ => none

/-- The rest of a text on one line, after the reversed characters `done`.  Backslashes count if the quote is `"`. -/
private def lineText (quote : Char) (done : List Char) : Nat → List Char → Option (String × List Char)
  | 0, _ => none
  | _ + 1, [] => none
  | fuel + 1, c :: rest =>
    if c = quote then some (String.ofList done.reverse, rest)
    else if c = '\\' ∧ quote = '"' then do
      let (c, rest) ← escaped? rest
      lineText quote (c :: done) fuel rest
    else if isPlain c then lineText quote (c :: done) fuel rest
    else none

/-- Skips the white space after a backslash at the end of a line. -/
private def skipBreak? (cs : List Char) : Option (List Char) :=
  let rec go : Nat → List Char → List Char
    | 0, cs => cs
    | fuel + 1, cs =>
      match lineEnd? (skipSpace cs) with
      | some rest => go fuel rest
      | none => skipSpace cs
  (lineEnd? (skipSpace cs)).map fun rest => go (rest.length + 1) rest

/-- The rest of a text on several lines; up to two quotes before the closing three belong to it. -/
private def linesText (quote : Char) (done : List Char) : Nat → List Char → Option (String × List Char)
  | 0, _ => none
  | _ + 1, [] => none
  | fuel + 1, c :: rest =>
    if c = quote then
      let quotes := (c :: rest).takeWhile (· = quote)
      if quotes.length < 3 then linesText quote (c :: done) fuel rest
      else
        let inner := min (quotes.length - 3) 2
        some (String.ofList (List.replicate inner quote ++ done).reverse, (c :: rest).drop (inner + 3))
    else if c = '\\' ∧ quote = '"' then
      match skipBreak? rest with
      | some rest => linesText quote done fuel rest
      | none => do
        let (c, rest) ← escaped? rest
        linesText quote (c :: done) fuel rest
    else
      match lineEnd? (c :: rest) with
      | some rest => linesText quote ('\n' :: done) fuel rest
      | none => if isPlain c then linesText quote (c :: done) fuel rest else none

/-- The text after an opening quote. -/
private def quoted? (quote : Char) (cs : List Char) : Option (String × List Char) :=
  match cs with
  | a :: b :: rest =>
    if a = quote ∧ b = quote then
      let rest := (lineEnd? rest).getD rest
      linesText quote [] (rest.length + 1) rest
    else lineText quote [] (cs.length + 1) cs
  | _ => lineText quote [] (cs.length + 1) cs

/-! ### Keys -/

private def isBare (c : Char) : Bool :=
  isDecimal c || ('a' ≤ c && c ≤ 'z') || ('A' ≤ c && c ≤ 'Z') || c = '_' || c = '-'

private def simpleKey? (cs : List Char) : Option (String × List Char) :=
  match cs with
  | '"' :: rest => lineText '"' [] (rest.length + 1) rest
  | '\'' :: rest => lineText '\'' [] (rest.length + 1) rest
  | _ =>
    let name := cs.takeWhile isBare
    if name.isEmpty then none else some (String.ofList name, cs.dropWhile isBare)

/-- The parts of a key. -/
private def keyParts? : Nat → List Char → Option (List String × List Char)
  | 0, _ => none
  | fuel + 1, cs => do
    let (part, rest) ← simpleKey? (skipSpace cs)
    match skipSpace rest with
    | '.' :: rest =>
      let (parts, rest) ← keyParts? fuel rest
      return (part :: parts, rest)
    | rest => return ([part], rest)

private def key? (cs : List Char) : Option (List String × List Char) := do
  let (parts, rest) ← keyParts? (cs.length + 1) cs
  guard (parts.length < depthLimit)
  return (parts, rest)

/-! ### Numbers and times -/

/-- Digits with single underscores between them. -/
private def digitsOnly? (base : Nat) : List Char → Option (List Char)
  | [] => none
  | [c] => if isDigitOf base c then some [c] else none
  | c :: '_' :: rest => if isDigitOf base c then (digitsOnly? base rest).map (c :: ·) else none
  | c :: rest => if isDigitOf base c then (digitsOnly? base rest).map (c :: ·) else none

private def withoutSign (cs : List Char) : Bool × List Char :=
  match cs with
  | '-' :: rest => (true, rest)
  | '+' :: rest => (false, rest)
  | _ => (false, cs)

/-- Digits of a decimal number, which has no needless zero in front. -/
private def decimal? (cs : List Char) : Option (List Char) := do
  let digits ← digitsOnly? 10 cs
  guard (digits.length = 1 ∨ digits.head? ≠ some '0')
  return digits

/-- Whether a word is a whole number of 64 bits. -/
private def isInteger (cs : List Char) : Bool :=
  let within (base : Nat) (ds : List Char) : Bool := (digitsOnly? base ds).any fun ds => numberOf base ds < Nat.pow 2 63
  match cs with
  | '0' :: 'x' :: rest => within 16 rest
  | '0' :: 'o' :: rest => within 8 rest
  | '0' :: 'b' :: rest => within 2 rest
  | _ =>
    let (negative, digits) := withoutSign cs
    (decimal? digits).any fun ds => numberOf 10 ds < Nat.pow 2 63 || (negative && numberOf 10 ds == Nat.pow 2 63)

/-- Whether a word is a number with a fraction or an exponent; one beyond double precision must be negative. -/
private def isFraction (cs : List Char) : Bool :=
  let (negative, body) := withoutSign cs
  body == "inf".toList || body == "nan".toList ||
    Option.any id (do
      let isMark (c : Char) : Bool := c = 'e' || c = 'E'
      let number := body.takeWhile (!isMark ·)
      let (whole, fraction) := (number.takeWhile (· ≠ '.'), number.dropWhile (· ≠ '.'))
      let whole ← decimal? whole
      let fraction ← if fraction.isEmpty then some [] else digitsOnly? 10 fraction.tail
      let exponent : Int ←
        match body.dropWhile (!isMark ·) with
        | [] => if fraction.isEmpty then none else some 0
        | _ :: rest =>
          let (down, digits) := withoutSign rest
          (digitsOnly? 10 digits).map fun ds => if down then -(numberOf 10 ds : Int) else numberOf 10 ds
      return negative || fitsDouble (numberOf 10 (whole ++ fraction)) (exponent - fraction.length))

/-- A number of two digits. -/
private def two? (limit : Nat) : List Char → Option (Nat × List Char)
  | a :: b :: rest =>
    if isDecimal a ∧ isDecimal b ∧ numberOf 10 [a, b] ≤ limit then some (numberOf 10 [a, b], rest) else none
  | _ => none

private def mark? (c : Char) : List Char → Option (List Char)
  | d :: rest => if d = c then some rest else none
  | [] => none

private def daysIn (year month : Nat) : Nat :=
  if month = 2 then if year % 4 = 0 ∧ (year % 100 ≠ 0 ∨ year % 400 = 0) then 29 else 28
  else if month = 4 ∨ month = 6 ∨ month = 9 ∨ month = 11 then 30
  else 31

/-- What follows a date. -/
private def date? (cs : List Char) : Option (List Char) := do
  let year := cs.take 4
  guard (year.length = 4 ∧ year.all isDecimal)
  let (month, rest) ← two? 12 (← mark? '-' (cs.drop 4))
  let (day, rest) ← two? 31 (← mark? '-' rest)
  guard (1 ≤ month ∧ 1 ≤ day ∧ day ≤ daysIn (numberOf 10 year) month)
  return rest

/-- What follows a time of day. -/
private def time? (cs : List Char) : Option (List Char) := do
  let (_, rest) ← two? 23 cs
  let (_, rest) ← two? 59 (← mark? ':' rest)
  let (_, rest) ← two? 60 (← mark? ':' rest)
  match rest with
  | '.' :: rest => if rest.head?.any isDecimal then some (rest.dropWhile isDecimal) else none
  | _ => some rest

/-- Whether the rest of a word is the distance of a time zone, or empty. -/
private def isZone (cs : List Char) : Bool :=
  match cs with
  | [] => true
  | ['Z'] => true
  | ['z'] => true
  | sign :: rest =>
    (sign = '+' || sign = '-') && Option.any List.isEmpty (do
      let (_, rest) ← two? 23 rest
      let (_, rest) ← two? 59 (← mark? ':' rest)
      return rest)

/-- Whether a word is a date, a time or both. -/
private def isMoment (cs : List Char) : Bool :=
  match date? cs with
  | some [] => true
  | some (t :: rest) => (t = 'T' || t = 't' || t = ' ') && (time? rest).any isZone
  | none => (time? cs).any List.isEmpty

/-- The word at the start of a text; a date may be joined to a time by a space. -/
private def word (cs : List Char) : List Char × List Char :=
  let isWord (c : Char) : Bool := isBare c || c = '+' || c = '.' || c = ':'
  let (w, rest) := (cs.takeWhile isWord, cs.dropWhile isWord)
  match rest with
  | ' ' :: more@(_ :: _ :: ':' :: _) =>
    if date? w = some [] ∧ (two? 23 more).isSome then (w ++ ' ' :: more.takeWhile isWord, more.dropWhile isWord)
    else (w, rest)
  | _ => (w, rest)

/-- A value that is written as a word. -/
private def word? (cs : List Char) : Option (Data × List Char) :=
  let (w, rest) := word cs
  if w == "true".toList || w == "false".toList || isInteger w || isFraction w || isMoment w then some (.scalar, rest)
  else none

/-! ### Values -/

mutual

/-- The value at the start of a text, nested less than `depth` deep. -/
private def value? (depth : Nat) : Nat → List Char → Option (Data × List Char)
  | 0, _ => none
  | fuel + 1, cs =>
    match cs with
    | '"' :: rest => (quoted? '"' rest).map fun (s, rest) => (.text s, rest)
    | '\'' :: rest => (quoted? '\'' rest).map fun (s, rest) => (.text s, rest)
    | '[' :: rest =>
      match depth with
      | depth + 2 => items? (depth + 1) fuel [] rest
      | _ => none
    | '{' :: rest =>
      match depth with
      | depth + 2 =>
        match skipSpace rest with
        | '}' :: rest => some (.members [], rest)
        | rest => members? (depth + 1) fuel [] rest
      | _ => none
    | _ => word? cs

/-- The items of an array after the reversed items `done`. -/
private def items? (depth : Nat) : Nat → List Data → List Char → Option (Data × List Char)
  | 0, _, _ => none
  | fuel + 1, done, cs =>
    match skipAll cs with
    | ']' :: rest => some (.list done.reverse, rest)
    | rest => do
      let (v, rest) ← value? depth fuel rest
      match skipAll rest with
      | ',' :: rest => items? depth fuel (v :: done) rest
      | ']' :: rest => return (.list (v :: done).reverse, rest)
      | _ => none

/-- The members of a table between braces. -/
private def members? (depth : Nat) : Nat → Tables.Members → List Char → Option (Data × List Char)
  | 0, _, _ => none
  | fuel + 1, done, cs => do
    let (key, rest) ← key? cs
    let rest ← mark? '=' rest
    let (v, rest) ← value? depth fuel (skipSpace rest)
    let done ← Tables.add v key done
    match skipSpace rest with
    | ',' :: rest => members? depth fuel done rest
    | '}' :: rest => return (.members (Tables.dataOfMembers done), rest)
    | _ => none

end

/-! ### Documents -/

/-- A document while it is read: its tables, and the names of the one that was opened last. -/
private structure State where
  root : Tables.Members
  opened : List String

/-- Reads a line that is not blank, up to its end. -/
private def line? (s : State) (cs : List Char) : Option (State × List Char) :=
  let header (openNew : String → Tables.Members → Option Tables.Members) (path : List String) : Option State := do
    return ⟨← Tables.below (openNew (← path.getLast?)) path.dropLast s.root, path⟩
  match cs with
  | '[' :: '[' :: rest => do
    let (path, rest) ← key? rest
    let rest ← mark? ']' (← mark? ']' rest)
    return (← header Tables.openNext path, rest)
  | '[' :: rest => do
    let (path, rest) ← key? rest
    let rest ← mark? ']' rest
    return (← header Tables.openTable path, rest)
  | _ => do
    let (key, rest) ← key? cs
    let rest := skipSpace (← mark? '=' rest)
    let (v, rest) ← value? depthLimit (2 * rest.length + 2) rest
    return ({ s with root := ← Tables.below (Tables.add v key) s.opened s.root }, rest)

/-- Reads line after line. -/
private def lines? : Nat → State → List Char → Option State
  | 0, _, _ => none
  | fuel + 1, s, cs => do
    match skipAll cs with
    | [] => return s
    | rest =>
      let (s, rest) ← line? s rest
      match skipComment (skipSpace rest) with
      | [] => return s
      | rest => lines? fuel s (← lineEnd? rest)

/-- The data of a document, which may begin with a byte order mark. -/
def parse? (document : String) : Option Data :=
  let cs := match document.toList with
    | '\uFEFF' :: rest => rest
    | cs => cs
  (lines? (cs.length + 1) ⟨[], []⟩ cs).map fun s => .members (Tables.dataOfMembers s.root)

end ScriptHost.Config.Toml

namespace ScriptHost.Config

/-- The options that a document sets. -/
def optionsOfToml? (document : String) : Option Options := (Toml.parse? document).bind (Data.options? tomlConvention)

end ScriptHost.Config

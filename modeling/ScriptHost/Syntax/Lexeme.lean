import ScriptHost.Text.Basic

/-!
# Lexemes

The tokens of script sources, each given by a function from the characters ahead to the characters the token takes and
those it leaves.  What stands between two tokens, white space and comments, is scanned by `Gap.scan`, and
`endsStatement` says where a statement may end without a semicolon.
-/

namespace ScriptHost.Syntax

open ScriptHost.Text

/-! ### Characters -/

/-- The characters that separate tokens: white space and the invisible separators. -/
def isSpacing (c : Char) : Bool :=
  isBlank c || c.toNat == 0x200B || c.toNat == 0x2060 || c.toNat == 0xFEFF

/-- The characters that end a line comment. -/
def isLineEnd (c : Char) : Bool := c == '\n' || c == '\r' || c.toNat == 0x2028 || c.toNat == 0x2029

/-- The ASCII white space. -/
def isAsciiSpace (c : Char) : Bool := c == ' ' || (9 ≤ c.toNat && c.toNat ≤ 13)

/-- The punctuation of the ASCII range, which ends a word. -/
def isPunctuation (c : Char) : Bool :=
  c ∈ [':', ';', '\x60', '"', '\'', '@', '#', '.', ',', '|', '^', '&', '<', '=', '>', '+', '-', '*', '/', '\\', '%',
    '?', '!', '~', '(', ')', '[', ']', '{', '}']

/-- The characters of a word after its first. -/
def isWordPart (c : Char) : Bool := !(c.toNat < 0x20 || isPunctuation c || isSpacing c)

/-- The characters that may begin a word. -/
def isWordStart (c : Char) : Bool := isWordPart c && !c.isDigit

/-- The hexadecimal digits. -/
def isHexDigit (c : Char) : Bool := c.isDigit || ('a' ≤ c && c ≤ 'f') || ('A' ≤ c && c ≤ 'F')

/-! ### Words and numbers -/

/-- The rest of a word, in which a code point may be written as an escape. -/
def takeWordParts : List Char → List Char × List Char
  | '\\' :: 'u' :: rest =>
    let (taken, left) := takeWordParts rest
    ('\\' :: 'u' :: taken, left)
  | c :: rest =>
    if isWordPart c then
      let (taken, left) := takeWordParts rest
      (c :: taken, left)
    else ([], c :: rest)
  | [] => ([], [])

/-- A word: a name or a keyword. -/
def takeWord? (cs : List Char) : Option (List Char × List Char) :=
  match cs with
  | '\\' :: 'u' :: _ => some (takeWordParts cs)
  | c :: _ => if isWordStart c then some (takeWordParts cs) else none
  | [] => none

/-- Digits in which single underscores may separate groups. -/
def takeDigits (p : Char → Bool) (cs : List Char) : List Char × List Char := cs.span fun c => p c || c == '_'

/-- The exponent of a decimal number, if there is one. -/
def takeExponent (cs : List Char) : List Char × List Char :=
  match cs with
  | e :: sign :: d :: rest =>
    if (e == 'e' || e == 'E') && (sign == '+' || sign == '-') && d.isDigit then
      let (digits, left) := takeDigits Char.isDigit (d :: rest)
      (e :: sign :: digits, left)
    else if (e == 'e' || e == 'E') && sign.isDigit then
      let (digits, left) := takeDigits Char.isDigit (sign :: d :: rest)
      (e :: digits, left)
    else ([], cs)
  | [e, d] => if (e == 'e' || e == 'E') && d.isDigit then ([e, d], []) else ([], cs)
  | _ => ([], cs)

/-- The mark of an integer of any size, if there is one. -/
def takeBigMark : List Char → List Char × List Char
  | 'n' :: rest => (['n'], rest)
  | cs => ([], cs)

/-- A number. -/
def takeNumber? (cs : List Char) : Option (List Char × List Char) :=
  match cs with
  | '0' :: x :: d :: rest =>
    if x ∈ ['x', 'X', 'o', 'O', 'b', 'B'] && isHexDigit d then
      let (digits, left) := takeDigits isHexDigit (d :: rest)
      let (mark, left) := takeBigMark left
      some ('0' :: x :: (digits ++ mark), left)
    else decimal cs
  | '.' :: d :: rest =>
    if d.isDigit then
      let (digits, left) := takeDigits Char.isDigit (d :: rest)
      let (exponent, left) := takeExponent left
      some ('.' :: (digits ++ exponent), left)
    else none
  | c :: _ => if c.isDigit then decimal cs else none
  | [] => none
where
  /-- A number that begins with a decimal digit. -/
  decimal (cs : List Char) : Option (List Char × List Char) :=
    let (whole, left) := takeDigits Char.isDigit cs
    match left with
    | 'n' :: rest => some (whole ++ ['n'], rest)
    | '.' :: rest =>
      let (fraction, left) := takeDigits Char.isDigit rest
      let (exponent, left) := takeExponent left
      some (whole ++ '.' :: (fraction ++ exponent), left)
    | _ =>
      let (exponent, left) := takeExponent left
      some (whole ++ exponent, left)

/-! ### Quoted text -/

/-- The pair if its first part is not empty. -/
def ifSome (taken : List Char × List Char) : Option (List Char × List Char) :=
  if taken.1.isEmpty then none else some taken

/-- The characters of a string up to an escape, a line end or the quote `q`. -/
def takeStringText? (q : Char) (cs : List Char) : Option (List Char × List Char) :=
  ifSome (cs.span fun c => c != q && c != '\\' && c != '\n' && c != '\r')

/-- A backslash and what it escapes. -/
def takeEscape? : List Char → Option (List Char × List Char)
  | '\\' :: 'u' :: '{' :: rest =>
    let (digits, left) := rest.span isHexDigit
    match left with
    | '}' :: left => some ('\\' :: 'u' :: '{' :: (digits ++ ['}']), left)
    | _ => none
  | '\\' :: 'u' :: a :: b :: c :: d :: rest =>
    if [a, b, c, d].all isHexDigit then some (['\\', 'u', a, b, c, d], rest) else none
  | '\\' :: 'x' :: a :: b :: rest => if isHexDigit a && isHexDigit b then some (['\\', 'x', a, b], rest) else none
  | '\\' :: '\r' :: '\n' :: rest => some (['\\', '\r', '\n'], rest)
  | '\\' :: c :: rest => if c == 'x' || c == 'u' then none else some (['\\', c], rest)
  | _ => none

/-- The characters of a template up to a substitution, an escape or the end. -/
def takeTemplateText : List Char → List Char × List Char
  | [] => ([], [])
  | '\x60' :: rest => ([], '\x60' :: rest)
  | '\\' :: rest => ([], '\\' :: rest)
  | '$' :: '{' :: rest => ([], '$' :: '{' :: rest)
  | c :: rest =>
    let (taken, left) := takeTemplateText rest
    (c :: taken, left)

/-- The body of a regular expression up to the slash that closes it; a slash within brackets does not. -/
def takeRegexBody : Bool → List Char → List Char × List Char
  | inClass, '\\' :: c :: rest =>
    if c == '\n' then ([], '\\' :: c :: rest)
    else
      let (taken, left) := takeRegexBody inClass rest
      ('\\' :: c :: taken, left)
  | inClass, c :: rest =>
    if c == '\n' || c == '\\' || (c == '/' && !inClass) then ([], c :: rest)
    else
      let (taken, left) := takeRegexBody (c == '[' || (inClass && c != ']')) rest
      (c :: taken, left)
  | _, [] => ([], [])

/-! ### Markup -/

/-- Whether text between two tags is more than line breaks with the indentation that follows them. -/
def isMarkupText (cs : List Char) : Bool :=
  let step (s : Bool × Bool) (c : Char) : Bool × Bool :=
    if c == '\n' then (s.1, true)
    else
      let afterBreak := s.2 && isAsciiSpace c
      (s.1 || !afterBreak, afterBreak)
  (cs.foldl step (false, false)).1

/-- The text between two tags, unless it is only layout. -/
def takeMarkupText? (cs : List Char) : Option (List Char × List Char) :=
  let (taken, left) := cs.span fun c => c ∉ ['<', '>', '{', '}', '&']
  if isMarkupText taken then some (taken, left) else none

/-- A name in a tag, which may contain hyphens. -/
def takeMarkupName? (cs : List Char) : Option (List Char × List Char) := do
  let (word, left) ← takeWord? cs
  match left with
  | '-' :: _ =>
    let (more, left) := left.span fun c => c.isAlphanum || c == '_' || c == '$' || c == '-'
    some (word ++ more, left)
  | _ => some (word, left)

/-- A character that is written by its name or number between an ampersand and a semicolon. -/
def takeCharacterReference? : List Char → Option (List Char × List Char)
  | '&' :: rest =>
    let (body, left) := rest.span fun c => c.isAlphanum || c == '#'
    match body, left with
    | _ :: _, ';' :: left => some ('&' :: (body ++ [';']), left)
    | _, _ => none
  | _ => none

/-! ### Tokens -/

/-- The classes of tokens. -/
inductive Lexeme where
  /-- The word `w`. -/
  | keyword (w : String)
  /-- The characters `cs`, unless one of `barring` follows. -/
  | symbol (cs : List Char) (barring : List Char)
  /-- A word that is not one of `except`. -/
  | word (except : List String)
  /-- A name that begins with a number sign. -/
  | privateName
  | number
  | stringText (quote : Char)
  | escape
  | templateText
  | regexBody
  | regexFlags
  | markupText
  | markupName
  /-- Text in a quoted attribute, which may span lines. -/
  | attributeText (quote : Char)
  | characterReference
  /-- The line that names the interpreter of an executable script. -/
  | hashBang

/-- What the token takes off the front of `cs`, whose first word is `word`. -/
def Lexeme.take? (word : String) (cs : List Char) : Lexeme → Option (List Char × List Char)
  | keyword w => if w == word then some (cs.splitAt w.length) else none
  | symbol mark barring =>
    match mark.isPrefixOf? cs with
    | some rest => if rest.head?.any (barring.contains ·) then none else some (mark, rest)
    | none => none
  | .word except => if word.isEmpty || except.contains word then none else takeWord? cs
  | privateName =>
    match cs with
    | '#' :: rest => (takeWord? rest).map fun (name, left) => ('#' :: name, left)
    | _ => none
  | number => takeNumber? cs
  | stringText quote => takeStringText? quote cs
  | escape => takeEscape? cs
  | templateText => ifSome (takeTemplateText cs)
  | regexBody => ifSome (takeRegexBody false cs)
  | regexFlags => ifSome (cs.span fun c => 'a' ≤ c && c ≤ 'z')
  | markupText => takeMarkupText? cs
  | markupName => takeMarkupName? cs
  | attributeText quote => ifSome (cs.span fun c => c != quote && c != '&')
  | characterReference => takeCharacterReference? cs
  | hashBang =>
    match cs with
    | '#' :: '!' :: _ => some (cs.span (· != '\n'))
    | _ => none

/-! ### Between tokens -/

/-- A place in a text: the bytes before it and the characters after it. -/
structure Cursor where
  offset : Nat
  rest : List Char

/-- The cursor behind the characters `taken`. -/
def Cursor.past (c : Cursor) (taken left : List Char) : Cursor := ⟨c.offset + byteLength taken, left⟩

/-- A comment with the byte at which it starts. -/
structure Comment where
  start : Nat
  text : String

/-- The byte after a comment. -/
def Comment.stop (c : Comment) : Nat := c.start + c.text.utf8ByteSize

/-- What stands between two tokens. -/
structure Gap where
  /-- The place of the next token. -/
  next : Cursor
  /-- The comments passed, latest first. -/
  comments : List Comment
  /-- Whether a line ends in the gap. -/
  broken : Bool

namespace Gap

/-- Where a scan of a gap stands. -/
inductive Mode where
  | spacing
  /-- In a line comment whose text so far is the reverse of `text`. -/
  | line (start : Nat) (text : List Char)
  /-- In a block comment that began at the cursor `opened`. -/
  | block (opened : Cursor) (text : List Char)

private def comment (start : Nat) (reversed : List Char) : Comment := ⟨start, String.ofList reversed.reverse⟩

/-- Scans on from the byte `offset`; a block comment without an end is not part of the gap. -/
def scanFrom (comments : List Comment) (broken : Bool) : Mode → Nat → List Char → Gap
  | .spacing, offset, [] => ⟨⟨offset, []⟩, comments, broken⟩
  | .spacing, offset, '/' :: '/' :: rest => scanFrom comments broken (.line offset ['/', '/']) (offset + 2) rest
  | .spacing, offset, '/' :: '*' :: rest =>
    scanFrom comments broken (.block ⟨offset, '/' :: '*' :: rest⟩ ['*', '/']) (offset + 2) rest
  | .spacing, offset, c :: rest =>
    if isSpacing c then scanFrom comments (broken || isLineEnd c) .spacing (offset + c.utf8Size) rest
    else ⟨⟨offset, c :: rest⟩, comments, broken⟩
  | .line start text, offset, [] => ⟨⟨offset, []⟩, comment start text :: comments, broken⟩
  | .line start text, offset, c :: rest =>
    if isLineEnd c then scanFrom (comment start text :: comments) true .spacing (offset + c.utf8Size) rest
    else scanFrom comments broken (.line start (c :: text)) (offset + c.utf8Size) rest
  | .block opened _, _, [] => ⟨opened, comments, broken⟩
  | .block opened text, offset, '*' :: '/' :: rest =>
    scanFrom (comment opened.offset ('/' :: '*' :: text) :: comments) broken .spacing (offset + 2) rest
  | .block opened text, offset, c :: rest =>
    scanFrom comments (broken || isLineEnd c) (.block opened (c :: text)) (offset + c.utf8Size) rest

/-- The gap that begins at a cursor. -/
def scan (c : Cursor) : Gap := scanFrom [] false .spacing c.offset c.rest

end Gap

/-! ### The end of a statement -/

/-- What the grammar allows where a statement may end. -/
structure Ending where
  /-- A binary operator may stand here, so an opening bracket on the next line continues the expression. -/
  operand : Bool
  /-- A function signature ends here, so a brace on the next line opens its body. -/
  signature : Bool

/-- Skips white space and comments; `none` if a slash follows that opens no comment. -/
def skipSpaceAndComments (cs : List Char) : Option (List Char) :=
  let rec go : Nat → List Char → Option (List Char)
    | 0, '/' :: '/' :: rest => go 1 rest
    | 0, '/' :: '*' :: rest => go 2 rest
    | 0, '/' :: _ => none
    | 0, c :: rest => if isAsciiSpace c then go 0 rest else some (c :: rest)
    | 1, c :: rest => if c == '\n' then go 0 rest else go 1 rest
    | _, '*' :: '/' :: rest => go 0 rest
    | mode, _ :: rest => go mode rest
    | _, [] => some []
  go 0 cs

/-- Whether the next line, which begins with `cs`, starts a new statement. -/
def startsStatement (e : Ending) (cs : List Char) : Bool :=
  match cs with
  | [] => true
  | '+' :: rest => rest.head? == some '+'
  | '-' :: rest => rest.head? == some '-'
  | '!' :: rest => rest.head? != some '='
  | '{' :: _ => !e.signature
  | '(' :: _ => !e.operand
  | '[' :: _ => !e.operand
  | 'i' :: 'n' :: rest =>
    let letter (cs : List Char) : Bool := cs.head?.any Char.isAlpha
    if !letter rest then false
    else
      match "stanceof".toList.isPrefixOf? rest with
      | some rest => letter rest
      | none => true
  | c :: _ => c ∉ ['\x60', ',', '.', ';', '*', '%', '>', '<', '=', '?', '^', '|', '&', '/', ':']

/-- Whether a statement may end before `cs` without a semicolon: at the end of the text, before a closing brace, or at a
line break after which the text cannot be read on. -/
def endsStatement (e : Ending) : List Char → Bool
  | [] => true
  | '}' :: rest => (rest.dropWhile isAsciiSpace).head? != some ':' || e.operand
  | '\n' :: rest =>
    match skipSpaceAndComments rest with
    | some next => startsStatement e next
    | none => false
  | c :: rest => isAsciiSpace c && endsStatement e rest

end ScriptHost.Syntax

import HyperbolicAuction.Basic
import HyperbolicAuction.Text.Integer

/-!
# Environment files

An environment file assigns texts to names, one assignment a line. A line may begin with the word
`export` and may end in a comment; a name may stand in apostrophes. A value stands in apostrophes or
double quotes, and then may run over several lines and hold escapes, or ends with its line. A name
without an equals sign is assigned nothing. A line of no such form is passed over. The file may begin
with a byte order mark, and its lines may end in the ways of any system.

In a value, a name in braces after a dollar sign stands for the value of an earlier assignment or of
the environment. A default may follow the name after a colon and a dash.
-/

namespace HyperbolicAuction.EnvFile

/-- What is left to read, where an assignment could not be read on. -/
abbrev Reading (α : Type) := Except (List Char) (α × List Char)

/-- Characters with one line feed for each end of a line, be that a line feed, a carriage return or
both. -/
def unifyLineEnds : List Char → List Char
  | '\r' :: '\n' :: rest => '\n' :: unifyLineEnds rest
  | '\r' :: rest => '\n' :: unifyLineEnds rest
  | c :: rest => c :: unifyLineEnds rest
  | [] => []

/-- Characters without a byte order mark before them. -/
def dropMark : List Char → List Char
  | '\ufeff' :: rest => rest
  | chars => chars

/-- Whether a character ends a line. -/
def isLineEnd (c : Char) : Bool := c == '\n'

/-- Whether a character is a blank inside a line. -/
def isInlineBlank (c : Char) : Bool := Text.isBlank c && !isLineEnd c

/-- The rest without the blanks of its line. -/
def skipBlanks (chars : List Char) : List Char := chars.dropWhile isInlineBlank

/-- The rest without what is left of its line. -/
def skipLine (chars : List Char) : List Char := (chars.dropWhile (!isLineEnd ·)).drop 1

/-! ## Names -/

/-- The rest after the word `export` and blanks. -/
def skipExport (chars : List Char) : List Char :=
  match chars with
  | 'e' :: 'x' :: 'p' :: 'o' :: 'r' :: 't' :: rest =>
    if rest.head?.any isInlineBlank then skipBlanks rest else chars
  | _ => chars

/-- The name of an assignment; a comment has none. -/
def readName (chars : List Char) : Reading (Option (List Char)) :=
  match chars with
  | '#' :: _ => .ok (none, chars)
  | '\'' :: rest =>
    let name := rest.takeWhile (· != '\'')
    match rest.dropWhile (· != '\'') with
    | [] => .error chars
    | _ :: after => if name.isEmpty then .error chars else .ok (some name, after)
  | _ =>
    let isOwn (c : Char) := c != '=' && c != '#' && !Text.isBlank c
    let name := chars.takeWhile isOwn
    if name.isEmpty then .error chars else .ok (some name, chars.dropWhile isOwn)

/-! ## Values -/

/-- The text up to a quote and what follows it. A character after a backslash belongs to the text. -/
def readQuoted? (mark : Char) : List Char → Option (List Char × List Char)
  | [] => none
  | '\\' :: c :: rest => (readQuoted? mark rest).map fun (text, after) => ('\\' :: c :: text, after)
  | ['\\'] => none
  | c :: rest =>
    if c = mark then some ([], rest)
    else (readQuoted? mark rest).map fun (text, after) => (c :: text, after)

/-- What the character after a backslash stands for, in a text of a quote. -/
def escapeOf? (mark : Char) : Char → Option Char
  | '\\' => some '\\'
  | '\'' => some '\''
  | c =>
    if mark = '\'' then none
    else match c with
      | '"' => some '"'
      | 'a' => some '\x07'
      | 'b' => some '\x08'
      | 'f' => some '\x0c'
      | 'n' => some '\n'
      | 'r' => some '\r'
      | 't' => some '\t'
      | 'v' => some '\x0b'
      | _ => none

/-- A quoted text with its escapes replaced. -/
def unescape (mark : Char) : List Char → List Char
  | '\\' :: c :: rest =>
    match escapeOf? mark c with
    | some meant => meant :: unescape mark rest
    | none => '\\' :: c :: unescape mark rest
  | c :: rest => c :: unescape mark rest
  | [] => []

/-- A text without a comment, which begins with a number sign after blanks. -/
def dropComment : List Char → List Char
  | [] => []
  | c :: rest =>
    if Text.isBlank c && (rest.dropWhile Text.isBlank).head? == some '#' then []
    else c :: dropComment rest

/-- The value after an equals sign. A comment may stand in its place. -/
def readValue (chars : List Char) : Reading (List Char) :=
  let line := skipBlanks chars
  let quoted (mark : Char) (rest : List Char) : Reading (List Char) :=
    match readQuoted? mark rest with
    | some (text, after) => .ok (unescape mark text, after)
    | none => .error line
  match line with
  | '\'' :: rest => quoted '\'' rest
  | '"' :: rest => quoted '"' rest
  | _ =>
    let text := dropComment (chars.takeWhile (!isLineEnd ·))
    .ok (Text.trim Text.isBlank text, chars.dropWhile (!isLineEnd ·))

/-! ## Lines -/

/-- A name and what it is assigned. -/
abbrev Assignment := List Char × Option (List Char)

/-- The rest after a comment, blanks and the end of a line. -/
def endLine (chars : List Char) : Except (List Char) (List Char) :=
  let afterComment := match skipBlanks chars with
    | '#' :: rest => rest.dropWhile (!isLineEnd ·)
    | _ => chars
  match skipBlanks afterComment with
  | [] => .ok []
  | c :: rest => if isLineEnd c then .ok rest else .error afterComment

/-- One assignment, from its first character to the end of its line. -/
def readAssignment (chars : List Char) :
    Except (List Char) (Option Assignment × List Char) := do
  let (name, afterName) ← readName (skipExport chars)
  let (value, afterValue) ← match skipBlanks afterName with
    | '=' :: rest => do
      let (value, after) ← readValue rest
      pure (some value, after)
    | rest => pure (none, rest)
  let rest ← endLine afterValue
  return (name.map (·, value), rest)

/-- The assignments of a text, in as many readings as are allowed. -/
def readWithin : Nat → List Char → List Assignment
  | 0, _ => []
  | readings + 1, chars =>
    match chars.dropWhile Text.isBlank with
    | [] => []
    | line =>
      match readAssignment line with
      | .ok (some assignment, rest) => assignment :: readWithin readings rest
      | .ok (none, rest) => readWithin readings rest
      | .error rest => readWithin readings (skipLine rest)

/-- The assignments of a text. Each reading passes a character at least. -/
def read (text : String) : List Assignment :=
  readWithin text.length (dropMark (unifyLineEnds text.toList))

/-! ## References -/

/-- The value last given to a name. -/
def valueOf? (known : List (String × Option String)) (name : String) : Option (Option String) :=
  known.reverse.lookup name

/-- A reference after its dollar sign and brace: the name, the default, and the rest. -/
def readReference? (chars : List Char) : Option (String × String × List Char) :=
  let name := String.ofList (chars.takeWhile fun c => c != '\x7d' && c != ':')
  match chars.dropWhile fun c => c != '\x7d' && c != ':' with
  | '\x7d' :: rest => some (name, "", rest)
  | ':' :: '-' :: rest =>
    match rest.dropWhile (· != '\x7d') with
    | [] => none
    | _ :: after => some (name, String.ofList (rest.takeWhile (· != '\x7d')), after)
  | _ => none

/-- A value with its references replaced, in as many steps as are allowed. -/
def expandWithin (known : List (String × Option String)) : Nat → List Char → List Char
  | 0, _ => []
  | steps + 1, chars =>
    match chars with
    | [] => []
    | '$' :: '\x7b' :: rest =>
      match readReference? rest with
      | some (name, fallback, after) =>
        let meant := ((valueOf? known name).getD (some fallback)).getD ""
        meant.toList ++ expandWithin known steps after
      | none => '$' :: expandWithin known steps ('\x7b' :: rest)
    | c :: rest => c :: expandWithin known steps rest

/-- A value with its references replaced. Each step passes a character at least. -/
def expand (known : List (String × Option String)) (value : List Char) : String :=
  String.ofList (expandWithin known (value.length + 1) value)

/-- The assignments of an environment file. Earlier ones are known to later ones, and hide the
variables of the environment. -/
def entries (environment : List (String × String)) (text : String) :
    List (String × Option String) :=
  let outer := environment.map fun (name, value) => (name, some value)
  (read text).foldl (fun assigned (name, value) =>
    Entries.set assigned (String.ofList name) (value.map (expand (outer ++ assigned)))) []

end HyperbolicAuction.EnvFile

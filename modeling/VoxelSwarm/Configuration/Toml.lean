import VoxelSwarm.Configuration.Value
import VoxelSwarm.Text.Natural

/-!
# Rules as a TOML document

The same rules as in `VoxelSwarm.Configuration.Value`, in the notation of TOML. A document that
states them has no other keys, and no values but texts, truth values, and tables and arrays with
nothing in them; so no other kind of value is read here, and a document that holds one states
nothing. Everything is `none` as soon as the document is not well formed.
-/

namespace VoxelSwarm.Toml

/-- What reads something from the start of a text and leaves the rest. -/
abbrev Parser (α : Type) := List Char → Option (α × List Char)

/-! ## Blanks and comments -/

/-- Characters that may not stand in a text or comment. -/
def isControl (c : Char) : Bool := (c.toNat < 32 && c ≠ '\t') || c.toNat == 127

def skipSpace (cs : List Char) : List Char := cs.dropWhile fun c => c = ' ' || c = '\t'

/-- The rest of a text after a line end. -/
def newline? : List Char → Option (List Char)
  | '\n' :: rest => some rest
  | '\r' :: '\n' :: rest => some rest
  | _ => none

/-- Skips a comment up to the end of its line. -/
def skipComment : List Char → List Char
  | '#' :: rest => rest.dropWhile fun c => !isControl c
  | cs => cs

/-- The rest of a text after the end of a line, which may hold blanks and a comment. -/
def lineEnd? (cs : List Char) : Option (List Char) :=
  match skipComment (skipSpace cs) with
  | [] => some []
  | cs => newline? cs

/-- Skips blanks, comments and line ends. Every round takes a character, so the length of the text
is `fuel` enough. -/
def skipLines : (fuel : Nat) → List Char → List Char
  | 0, cs => cs
  | fuel + 1, cs =>
    match skipComment (skipSpace cs) with
    | [] => []
    | rest =>
      match newline? rest with
      | some rest => skipLines fuel rest
      | none => rest

/-! ## Texts -/

/-- The character whose number is a row of hexadecimal digits. -/
def hexChar? (digits : List Char) : Option Char := do
  let code ← digits.foldlM (fun n c => do
    let d ← if c.isDigit then some (c.toNat - 48)
      else if 'a' ≤ c ∧ c ≤ 'f' then some (c.toNat - 87)
      else if 'A' ≤ c ∧ c ≤ 'F' then some (c.toNat - 55)
      else none
    return n * 16 + d) 0
  if code.isValidChar then some (Char.ofNat code) else none

def escape? : Char → Option Char
  | 'b' => some '\x08'
  | 't' => some '\t'
  | 'n' => some '\n'
  | 'f' => some '\x0c'
  | 'r' => some '\r'
  | '"' => some '"'
  | '\\' => some '\\'
  | _ => none

/-- Reads an escape after its backslash. -/
def escaped : Parser Char
  | 'u' :: a :: b :: c :: d :: rest => (hexChar? [a, b, c, d]).map (·, rest)
  | 'U' :: a :: b :: c :: d :: e :: f :: g :: h :: rest =>
    (hexChar? [a, b, c, d, e, f, g, h]).map (·, rest)
  | c :: rest => (escape? c).map (·, rest)
  | [] => none

/-- Reads a text in double quotes after the opening one; the characters so far are in reverse. -/
def basic : (fuel : Nat) → List Char → Parser (List Char)
  | 0, _, _ => none
  | _ + 1, done, '"' :: rest => some (done.reverse, rest)
  | fuel + 1, done, '\\' :: rest => do
    let (c, rest) ← escaped rest
    basic fuel (c :: done) rest
  | fuel + 1, done, c :: rest => if isControl c then none else basic fuel (c :: done) rest
  | _ + 1, _, [] => none

/-- Reads a text in single quotes after the opening one. -/
def verbatim (cs : List Char) : Option (List Char × List Char) :=
  match cs.dropWhile fun c => c ≠ '\'' && !isControl c with
  | '\'' :: rest => some (cs.takeWhile fun c => c ≠ '\'' && !isControl c, rest)
  | _ => none

/-- Skips blanks and line ends. -/
def skipWhite : (fuel : Nat) → List Char → List Char
  | 0, cs => cs
  | fuel + 1, cs =>
    match newline? (skipSpace cs) with
    | some rest => skipWhite fuel rest
    | none => skipSpace cs

/-- The rest of a text after the end of a line, where the line is blank up to there. -/
def brokenLine? (cs : List Char) : Option (List Char) :=
  (newline? (skipSpace cs)).map fun rest => skipWhite rest.length rest

/-- Reads a text in three quotes after the opening ones, in which up to two quotes may stand; the
characters so far are in reverse. With `escapes`, a backslash escapes a character or, at the end of
a line, the blanks up to the next character. -/
def longText (quote : Char) (escapes : Bool) : (fuel : Nat) → List Char → Parser (List Char)
  | 0, _, _ => none
  | fuel + 1, done, cs =>
    match cs with
    | [] => none
    | c :: rest =>
      if c = quote then
        let run := cs.takeWhile (· = quote)
        let after := cs.dropWhile (· = quote)
        if run.length < 3 then longText quote escapes fuel (run ++ done) after
        else if 5 < run.length then none
        else some ((run.drop 3 ++ done).reverse, after)
      else if escapes ∧ c = '\\' then
        match brokenLine? rest with
        | some rest => longText quote escapes fuel done rest
        | none => do
          let (c, rest) ← escaped rest
          longText quote escapes fuel (c :: done) rest
      else match newline? cs with
        | some rest => longText quote escapes fuel ('\n' :: done) rest
        | none => if isControl c then none else longText quote escapes fuel (c :: done) rest

/-- Reads a text in three quotes after the opening ones. A line end right after them does not
count. -/
def long (quote : Char) (escapes : Bool) (cs : List Char) : Option (List Char × List Char) :=
  let cs := (newline? cs).getD cs
  longText quote escapes (cs.length + 1) [] cs

/-- Reads a text in quotes within one line. -/
def shortString : Parser (List Char)
  | '"' :: rest => basic (rest.length + 1) [] rest
  | '\'' :: rest => verbatim rest
  | _ => none

def string : Parser (List Char)
  | '"' :: '"' :: '"' :: rest => long '"' true rest
  | '\'' :: '\'' :: '\'' :: rest => long '\'' false rest
  | cs => shortString cs

/-! ## Keys and values -/

/-- The characters of a key without quotes. -/
def isBare (c : Char) : Bool := c.isAlphanum || c = '_' || c = '-'

def simpleKey (cs : List Char) : Option (String × List Char) :=
  match cs.takeWhile isBare with
  | [] => (shortString cs).map fun (key, rest) => (String.ofList key, rest)
  | key => some (String.ofList key, cs.dropWhile isBare)

/-- Reads the parts of a key, with points between them; the parts so far are in reverse. -/
def keyParts : (fuel : Nat) → List String → Parser (List String)
  | 0, _, _ => none
  | fuel + 1, done, cs => do
    let (part, rest) ← simpleKey (skipSpace cs)
    match skipSpace rest with
    | '.' :: rest => keyParts fuel (part :: done) rest
    | rest => some ((part :: done).reverse, rest)

/-- Reads a key, with the blanks around it. -/
def key (cs : List Char) : Option (List String × List Char) := keyParts (cs.length + 1) [] cs

/-- The values that can state a rule. -/
inductive Value where
  | text (s : String)
  | flag (b : Bool)
  /-- A table or array with nothing in it. -/
  | nothing
  /-- A table with one key and nothing under it. -/
  | choice (name : String)

/-- Reads an array with nothing in it after its opening bracket. -/
def emptyArray (cs : List Char) : Option (List Char) :=
  match skipLines cs.length cs with
  | ']' :: rest => some rest
  | _ => none

/-- Reads a table with nothing in it after its opening brace. -/
def emptyTable (cs : List Char) : Option (List Char) :=
  match skipSpace cs with
  | '\x7d' :: rest => some rest
  | _ => none

/-- Reads a table or array with nothing in it. -/
def nothing : List Char → Option (List Char)
  | '[' :: rest => emptyArray rest
  | '\x7b' :: rest => emptyTable rest
  | _ => none

/-- Reads a table with one key and nothing under it, after its opening brace. -/
def choice (cs : List Char) : Option (Value × List Char) := do
  let (path, rest) ← key cs
  let [name] := path | none
  let '=' :: rest := rest | none
  let rest ← nothing (skipSpace rest)
  let rest ← emptyTable rest
  return (.choice name, rest)

def value (cs : List Char) : Option (Value × List Char) :=
  match cs with
  | 't' :: 'r' :: 'u' :: 'e' :: rest => some (.flag true, rest)
  | 'f' :: 'a' :: 'l' :: 's' :: 'e' :: rest => some (.flag false, rest)
  | '[' :: rest => (emptyArray rest).map (.nothing, ·)
  | '\x7b' :: rest =>
    match emptyTable rest with
    | some rest => some (.nothing, rest)
    | none => choice rest
  | cs => (string cs).map fun (s, rest) => (.text (String.ofList s), rest)

/-! ## Documents -/

/-- A line of a document. -/
inductive Line where
  | pair (path : List String) (value : Value)
  | header (path : List String)

def header (cs : List Char) : Option (Line × List Char) := do
  let (path, rest) ← key cs
  let ']' :: rest := rest | none
  return (.header path, rest)

def pair (cs : List Char) : Option (Line × List Char) := do
  let (path, rest) ← key cs
  let '=' :: rest := rest | none
  let (v, rest) ← value (skipSpace rest)
  return (.pair path v, rest)

/-- Reads the lines of a document; the lines so far are in reverse. -/
def linesFrom : (fuel : Nat) → List Line → List Char → Option (List Line)
  | 0, _, _ => none
  | fuel + 1, done, cs =>
    match skipLines cs.length cs with
    | [] => some done.reverse
    | c :: rest => do
      let (line, rest) ← if c = '[' then header rest else pair (c :: rest)
      linesFrom fuel (line :: done) (← lineEnd? rest)

/-- Reads the lines of a document, which may start with a byte order mark. -/
def lines (text : String) : Option (List Line) :=
  let cs := match text.toList with
    | '\ufeff' :: rest => rest
    | cs => cs
  linesFrom (cs.length + 1) [] cs

/-! ## Rules -/

/-- What a line says about the rules. -/
inductive Mention where
  /-- The truth value of the rule about the target. -/
  | target (b : Bool)
  /-- The word for the policy. -/
  | policy (name : String)
  /-- A table, written in one line, whose only key is the word for the policy. -/
  | inlineChoice (name : String)
  /-- The header of the table of policies. -/
  | policyTable
  /-- A key of the table of policies, in a line of its own. -/
  | sectionChoice (name : String)

/-- What the lines say, under the header given last. -/
def mentions : (table : List String) → List Line → Option (List Mention)
  | _, [] => some []
  | _, .header path :: rest => do
    let mention ← match path with
      | [g] => if g = Rules.groundingKey then some Mention.policyTable else none
      | [g, name] => if g = Rules.groundingKey then some (.sectionChoice name) else none
      | _ => none
    return mention :: (← mentions path rest)
  | table, .pair path v :: rest => do
    let mention ← match table, path, v with
      | [], [k], .flag b => if k = Rules.targetKey then some (.target b) else none
      | [], [k], .text s => if k = Rules.groundingKey then some (.policy s) else none
      | [], [k], .choice name => if k = Rules.groundingKey then some (.inlineChoice name) else none
      | [], [k, name], .nothing =>
        if k = Rules.groundingKey then some (.inlineChoice name) else none
      | [_], [name], .nothing => some (.sectionChoice name)
      | _, _, _ => none
    return mention :: (← mentions table rest)

/-- The words for the policy, of which a document has one at most. It stands in a line of its own,
or in the table of policies, whose header comes once at most. -/
def policyName? (ms : List Mention) : Option (Option String) :=
  let direct := ms.filterMap fun
    | .policy name | .inlineChoice name => some name
    | _ => none
  let chosen := ms.filterMap fun
    | .sectionChoice name => some name
    | _ => none
  let headers := ms.countP fun
    | .policyTable => true
    | _ => false
  match direct, chosen, headers with
  | [], [], 0 => some none
  | [name], [], 0 => some (some name)
  | [], [name], 0 | [], [name], 1 => some (some name)
  | _, _, _ => none

/-- The truth value of the rule about the target, which a document gives once at most. -/
def target? (ms : List Mention) : Option (Option Bool) :=
  match ms.filterMap fun | .target b => some b | _ => none with
  | [] => some none
  | [b] => some (some b)
  | _ => none

/-- The rules that a document states. -/
def rules? (text : String) : Option Rules := do
  let ms ← mentions [] (← lines text)
  let grounding ← match ← policyName? ms with
    | none => some ({} : Rules).grounding
    | some name => GroundingPolicy.ofKeyword? name
  let target := (← target? ms).getD ({} : Rules).targetBeforeHalt
  return ⟨grounding, target⟩

end VoxelSwarm.Toml

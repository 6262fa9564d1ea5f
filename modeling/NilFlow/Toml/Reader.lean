import NilFlow.Toml.Scalar

/-!
# Reading TOML texts

`Line.readAll?` splits a text into its lines that say something: assignments, table headers and
array-of-table headers. Keys are paths of names; values are terms, in which inline tables still are
lists of assignments. `none` means that the text is not TOML.

Between the tokens of arrays and inline tables there may be line breaks and comments, and a comma
may follow their last element. They nest at most eighty deep, and a key has at most eighty names.
The budgets are never used up: every step takes a character.
-/

namespace NilFlow.Toml

mutual

/-- A value as written. -/
inductive Term where
  | scalar (s : Scalar)
  | array (items : Terms)
  | table (bindings : Bindings)

/-- The elements of an array. -/
inductive Terms where
  | nil
  | cons (term : Term) (rest : Terms)

/-- The assignments of an inline table. -/
inductive Bindings where
  | nil
  | cons (path : List String) (term : Term) (rest : Bindings)

end

/-- A line that says something. -/
inductive Line where
  | assign (path : List String) (term : Term)
  /-- The assignments that follow go to this table. -/
  | header (path : List String)
  /-- The assignments that follow go to a new element of this array of tables. -/
  | arrayHeader (path : List String)

namespace Reader

/-- The deepest nesting of arrays and inline tables. -/
def maxDepth : Nat := 80

/-- The longest key. -/
def maxNames : Nat := 80

/-- Blanks within a line. -/
def isBlank (c : Char) : Bool :=
  c = ' ' || c = '\t'

/-- The text after its leading blanks. -/
def skipBlanks (cs : List Char) : List Char :=
  cs.dropWhile isBlank

/-- Characters that may stand in comments and in strings of one line: no controls but the tab. -/
def isPlain (c : Char) : Bool :=
  c = '\t' || (' ' ≤ c && c ≠ '\x7f')

/-- The text after a line break, if one comes first. -/
def lineBreak? : List Char → Option (List Char)
  | '\n' :: cs => some cs
  | '\r' :: '\n' :: cs => some cs
  | _ => none

/-- The text from the end of the line on, from within a comment. -/
def comment? (cs : List Char) : Option (List Char) :=
  let rest := cs.dropWhile isPlain
  if rest.isEmpty || (lineBreak? rest).isSome then some rest else none

/-- The text after blanks, line breaks and comments. -/
def skipFiller? (budget : Nat) (cs : List Char) : Option (List Char) :=
  match budget with
  | 0 => none
  | budget + 1 =>
    let cs := skipBlanks cs
    match lineBreak? cs with
    | some rest => skipFiller? budget rest
    | none =>
      match cs with
      | '#' :: rest => (comment? rest).bind (skipFiller? budget)
      | _ => some cs

/-! ### Strings -/

/-- The character whose number is written in `n` hexadecimal digits. -/
def codePoint? (n : Nat) (cs : List Char) : Option (Char × List Char) := do
  let ds ← (cs.take n).mapM hexDigit?
  let k := ds.foldl (fun k d => 16 * k + d) 0
  if ds.length = n ∧ k.isValidChar then some (Char.ofNat k, cs.drop n) else none

/-- The character that an escape stands for, from after its backslash. -/
def escape? : List Char → Option (Char × List Char)
  | 'b' :: cs => some ('\x08', cs)
  | 't' :: cs => some ('\t', cs)
  | 'n' :: cs => some ('\n', cs)
  | 'f' :: cs => some ('\x0c', cs)
  | 'r' :: cs => some ('\r', cs)
  | 'e' :: cs => some ('\x1b', cs)
  | '"' :: cs => some ('"', cs)
  | '\\' :: cs => some ('\\', cs)
  | 'x' :: cs => codePoint? 2 cs
  | 'u' :: cs => codePoint? 4 cs
  | 'U' :: cs => codePoint? 8 cs
  | _ => none

/-- A basic string of one line, from after its quote. -/
def basic? (budget : Nat) (cs : List Char) : Option (List Char × List Char) :=
  match budget, cs with
  | 0, _ | _, [] => none
  | budget + 1, c :: cs =>
    if c = '"' then some ([], cs)
    else if c = '\\' then do
      let (d, cs) ← escape? cs
      let (s, cs) ← basic? budget cs
      return (d :: s, cs)
    else if isPlain c then do
      let (s, cs) ← basic? budget cs
      return (c :: s, cs)
    else none

/-- A literal string of one line, from after its quote. -/
def literal? (cs : List Char) : Option (List Char × List Char) :=
  match cs.dropWhile (fun c => isPlain c && c ≠ '\x27') with
  | '\x27' :: rest => some (cs.takeWhile (fun c => isPlain c && c ≠ '\x27'), rest)
  | _ => none

/-- The text after a line break right after the opening quotes. -/
def dropFirstBreak (cs : List Char) : List Char :=
  (lineBreak? cs).getD cs

/-- The text after blanks and line breaks. -/
def skipLines : List Char → List Char
  | '\r' :: '\n' :: cs => skipLines cs
  | c :: cs => if isBlank c || c = '\n' then skipLines cs else c :: cs
  | [] => []

/-- Up to two quotes that belong to the content, right before the closing ones. -/
def closing (quote : Char) : List Char → List Char × List Char
  | c :: d :: cs =>
    if c = quote then
      if d = quote then ([quote, quote], cs) else ([quote], d :: cs)
    else ([], c :: d :: cs)
  | [c] => if c = quote then ([quote], []) else ([], [c])
  | [] => ([], [])

/-- A string of several lines, from after its opening quotes. In a basic one (`escapes`) a backslash
at the end of a line takes all blanks and line breaks after it away. -/
def multiline? (quote : Char) (escapes : Bool) (budget : Nat) (cs : List Char) :
    Option (List Char × List Char) :=
  match budget, cs with
  | 0, _ | _, [] => none
  | budget + 1, c :: cs =>
    if c = quote ∧ cs.take 2 = [quote, quote] then some (closing quote (cs.drop 2))
    else if c = '\\' ∧ escapes then
      match lineBreak? (skipBlanks cs) with
      | some rest => multiline? quote escapes budget (skipLines rest)
      | none => do
        let (d, cs) ← escape? cs
        let (s, cs) ← multiline? quote escapes budget cs
        return (d :: s, cs)
    else if isPlain c || c = '\n' || (c = '\r' && cs.head? == some '\n') then do
      let (s, cs) ← multiline? quote escapes budget cs
      return (c :: s, cs)
    else none

/-- A string value, if the text begins with a quote. -/
def stringValue? (budget : Nat) : List Char → Option (List Char × List Char)
  | '"' :: '"' :: '"' :: cs => multiline? '"' true budget (dropFirstBreak cs)
  | '"' :: cs => basic? budget cs
  | '\x27' :: '\x27' :: '\x27' :: cs => multiline? '\x27' false budget (dropFirstBreak cs)
  | '\x27' :: cs => literal? cs
  | _ => none

/-! ### Keys and values -/

/-- Characters of bare names. -/
def isBare (c : Char) : Bool :=
  c.isAlphanum || c = '_' || c = '-'

/-- One name of a key. -/
def name? (budget : Nat) : List Char → Option (String × List Char)
  | '"' :: cs => (basic? budget cs).map fun (s, cs) => (String.ofList s, cs)
  | '\x27' :: cs => (literal? cs).map fun (s, cs) => (String.ofList s, cs)
  | cs =>
    match cs.takeWhile isBare with
    | [] => none
    | s => some (String.ofList s, cs.dropWhile isBare)

/-- A key: names with points between them. Blanks after it are skipped. -/
def path? (budget : Nat) (names : Nat) (cs : List Char) : Option (List String × List Char) :=
  match budget, names with
  | 0, _ | _, 0 => none
  | budget + 1, names + 1 => do
    let (name, cs) ← name? (budget + 1) cs
    match skipBlanks cs with
    | '.' :: cs =>
      let (path, cs) ← path? budget names (skipBlanks cs)
      return (name :: path, cs)
    | cs => return ([name], cs)

mutual

/-- A value, with `depth` levels of nesting left. -/
def value? (budget depth : Nat) (cs : List Char) : Option (Term × List Char) :=
  match budget with
  | 0 => none
  | budget + 1 =>
    match cs with
    | [] => none
    | c :: rest =>
      if c = '"' || c = '\x27' then
        (stringValue? cs.length cs).map fun (s, cs) => (.scalar (.text (String.ofList s)), cs)
      else if c = '[' then
        match depth with
        | 0 => none
        | depth + 1 => (items? budget depth rest).map fun (ts, cs) => (.array ts, cs)
      else if c = '\x7b' then
        match depth with
        | 0 => none
        | depth + 1 => (bindings? budget depth rest).map fun (bs, cs) => (.table bs, cs)
      else
        let (token, rest) := Scalar.span cs
        (Scalar.ofToken? token).map fun s => (.scalar s, rest)

/-- The elements of an array, from after the bracket or a comma. -/
def items? (budget depth : Nat) (cs : List Char) : Option (Terms × List Char) :=
  match budget with
  | 0 => none
  | budget + 1 => do
    let cs ← skipFiller? (cs.length + 1) cs
    match cs with
    | ']' :: cs => return (.nil, cs)
    | cs =>
      let (t, cs) ← value? budget depth cs
      let cs ← skipFiller? (cs.length + 1) cs
      match cs with
      | ']' :: cs => return (.cons t .nil, cs)
      | ',' :: cs =>
        let (ts, cs) ← items? budget depth cs
        return (.cons t ts, cs)
      | _ => none

/-- The assignments of an inline table, from after the brace or a comma. -/
def bindings? (budget depth : Nat) (cs : List Char) : Option (Bindings × List Char) :=
  match budget with
  | 0 => none
  | budget + 1 => do
    let cs ← skipFiller? (cs.length + 1) cs
    match cs with
    | '\x7d' :: cs => return (.nil, cs)
    | cs =>
      let (path, cs) ← path? (cs.length + 1) maxNames cs
      let cs ← skipFiller? (cs.length + 1) cs
      match cs with
      | '=' :: cs =>
        let cs ← skipFiller? (cs.length + 1) cs
        let (t, cs) ← value? budget depth cs
        let cs ← skipFiller? (cs.length + 1) cs
        match cs with
        | '\x7d' :: cs => return (.cons path t .nil, cs)
        | ',' :: cs =>
          let (bs, cs) ← bindings? budget depth cs
          return (.cons path t bs, cs)
        | _ => none
      | _ => none

end

/-! ### Lines -/

/-- The text after the end of a line, where nothing but a comment may stand. -/
def endOfLine? (cs : List Char) : Option (List Char) :=
  match skipBlanks cs with
  | [] => some []
  | '#' :: cs => (comment? cs).map dropFirstBreak
  | cs => lineBreak? cs

/-- What the line says that begins with the given text, if it is not empty, and the text after
that. -/
def line? (cs : List Char) : Option (Option Line × List Char) :=
  match cs with
  | [] | '#' :: _ | '\n' :: _ | '\r' :: _ => some (none, cs)
  | '[' :: '[' :: rest => do
    let (path, rest) ← path? (rest.length + 1) maxNames (skipBlanks rest)
    match rest with
    | ']' :: ']' :: rest => return (some (.arrayHeader path), rest)
    | _ => none
  | '[' :: rest => do
    let (path, rest) ← path? (rest.length + 1) maxNames (skipBlanks rest)
    match rest with
    | ']' :: rest => return (some (.header path), rest)
    | _ => none
  | cs => do
    let (path, rest) ← path? (cs.length + 1) maxNames cs
    match rest with
    | '=' :: rest =>
      let (t, rest) ← value? (2 * rest.length + 2) maxDepth (skipBlanks rest)
      return (some (.assign path t), rest)
    | _ => none

/-- The lines of a text that say something. -/
def lines? (budget : Nat) (cs : List Char) : Option (List Line) :=
  match budget with
  | 0 => none
  | budget + 1 =>
    match skipBlanks cs with
    | [] => some []
    | cs => do
      let (line, rest) ← line? cs
      let rest ← endOfLine? rest
      let ls ← lines? budget rest
      return line.toList ++ ls

end Reader

/-- The lines of a text that say something. A byte-order mark at the beginning is passed over. -/
def Line.readAll? (text : String) : Option (List Line) :=
  match text.toList with
  | '\ufeff' :: cs => Reader.lines? (cs.length + 1) cs
  | cs => Reader.lines? (cs.length + 1) cs

end NilFlow.Toml

import Formula.Diagnosis
import Formula.Pattern.Reading
import Formula.Pattern.Search
import Formula.Text.Quoted
import Formula.Token.Basic

/-!
# `Formula.Token.Table` — token tables and the tokens of a text

A token table is a list of kinds with patterns. At each offset of a text the first row whose pattern matches
there gives the next token; spaces and tabs between tokens are skipped. The order of the rows is the only
thing that decides between them: keywords stand before names, so that a keyword is one token and not several
names, and names with a subscript stand before constants.

The rows are not tried one after the other. A text is searched for all of them at once: the threads of all rows go
through it together, those of the first rows being preferred, and a row that has come to the end of a match drives out
all rows behind it.

## Contents
- `TokenRule`, `TableError`, `TokenTable.ofRules` — a table is accepted if every pattern can be read and none
  of them is known to match the empty text.
- `TokenTable.match?` — the rows tried one after the other.
- `Contender`, `driveOut`, `race` — a row with its threads, the rows that an arrival leaves, and the one search.
- `TokenTable.race?` — the row that wins at a place; `TokenTable.tokens` — the tokens of a text.
- `standardRules`, `TokenTable.standard`.
-/

namespace Formula

/-- A kind of token and the pattern of its texts, as it is written. -/
structure TokenRule where
  kind : TokenKind
  pattern : String
deriving DecidableEq, Repr

/-- Why a list of rules is no table. -/
inductive TableError where
  | invalidPattern (kind : TokenKind) (pattern : String) (message : String)
  /-- The pattern can match without consuming anything, so that reading could not go on after it. -/
  | emptyMatch (kind : TokenKind) (pattern : String)
  /-- The patterns cannot be put together. This is said where a search for all of them would be too large for the
      program that is to carry it out; the search below has no such limit, and no list of rules is refused by it. -/
  | notBuilt (message : String)
deriving DecidableEq, Repr

/-- The error in words. -/
def TableError.describe : TableError → String
  | invalidPattern kind pattern message =>
    "invalid " ++ kind.describe ++ " pattern " ++ quoted pattern ++ ": " ++ message
  | emptyMatch kind pattern => kind.describe ++ " pattern " ++ quoted pattern ++ " can match the empty string"
  | notBuilt message => "cannot build lexer: " ++ message

/-- The pattern of a rule, which must not match the empty text. -/
def TokenRule.read [PropertyTables] (rule : TokenRule) : Except TableError Pattern :=
  match Pattern.read rule.pattern with
  | .error e => .error (.invalidPattern rule.kind rule.pattern e.message)
  | .ok pattern =>
    if pattern.leastLength? = some 0 then .error (.emptyMatch rule.kind rule.pattern) else .ok pattern

/-- A row of a table: a rule and its pattern, which is laid out once. -/
structure TokenRow where
  rule : TokenRule
  pattern : Pattern
  route : Route
  route_eq : route = pattern.route
deriving DecidableEq, Repr

/-- The row of a rule and its pattern. -/
def TokenRow.of (rule : TokenRule) (pattern : Pattern) : TokenRow := ⟨rule, pattern, pattern.route, rfl⟩

/-- Rows in order of preference. -/
structure TokenTable where
  rows : List TokenRow
deriving DecidableEq, Repr

namespace TokenTable

/-- The table of a list of rules, or what is wrong with the first rule that cannot be a row. -/
def ofRules [PropertyTables] (rules : List TokenRule) : Except TableError TokenTable := do
  let patterns ← rules.mapM TokenRule.read
  .ok ⟨rules.zipWith TokenRow.of patterns⟩

/-- The rules of a table. -/
def rules (table : TokenTable) : List TokenRule := table.rows.map (·.rule)

/-- The kind of the first row that matches at a place, and where its match ends. -/
def match? (table : TokenTable) (p : Place) : Option (TokenKind × Place) :=
  table.rows.findSome? fun row => (row.route.match? p).map fun q => (row.rule.kind, q)

end TokenTable

/-! ## All rows in one search -/

/-- A row that is under way at a place: its threads, the preferred ones first, and whether its pattern has come to the
    end of a match here. -/
structure Contender where
  row : TokenRow
  threads : List Thread
  arrived : Bool

namespace Contender

/-- A row with what has been found for it at a place. -/
def ofFrontier (row : TokenRow) (f : Frontier) : Contender := ⟨row, f.threads.reverse, f.arrived⟩

/-- A row at the place where the search begins. -/
def enter (p : Place) (row : TokenRow) : Contender :=
  ofFrontier row (Frontier.explore p row.route.bound [[row.route]] .start)

/-- What becomes of a row from one place to the next, which is `q` and comes after the character `c`. -/
def step (c : Char) (q : Place) (k : Contender) : Contender :=
  ofFrontier k.row (Frontier.next k.row.route.bound k.threads c q)

end Contender

/-- The rows up to the first one that has arrived. What comes behind it is less preferred than its match. -/
def driveOut : List Contender → List Contender
  | [] => []
  | k :: ks => if k.arrived then [k] else k :: driveOut ks

/-- Goes through the text with all rows that have threads. `best` is the match that is preferred to all that are still
    under way to one of their own. -/
def race (p : Place) (best : Option (TokenRow × Place)) (ks : List Contender) :
    List Char → Option (TokenRow × Place)
  | [] => ((ks.find? (·.arrived)).map fun k => (k.row, p)).or best
  | c :: cs =>
    let best := ((ks.find? (·.arrived)).map fun k => (k.row, p)).or best
    let ks := (driveOut ks).filter fun k => !k.threads.isEmpty
    if ks.isEmpty then best
    else
      let q := p.after c cs
      race q best (ks.map (·.step c q)) cs

namespace TokenTable

/-- **The row that wins at a place**, and where its match ends. -/
def race? (table : TokenTable) (p : Place) : Option (TokenRow × Place) :=
  race p none (table.rows.map (Contender.enter p)) p.rest

/-! ## Tokens of a text -/

/-- Whether a character between tokens is skipped. -/
def isSkipped (c : Char) : Bool := c == ' ' || c == '\t'

/-- The token between two places. -/
def token (kind : TokenKind) (p q : Place) : Token :=
  ⟨kind, String.ofList (p.upTo q), ⟨p.offset, q.offset⟩⟩

/-- The tokens from a place on, given what precedes it: the character before, the offset, and how many of the
    characters that follow belong to the token found last.

    It goes on behind each token, and behind the next character where a row wins with the empty text. A loop that goes
    on where the match ends would come back to such a place for ever. There the two part: this result stands for a
    loop's only as long as no row wins with the empty text. -/
def scan (table : TokenTable) (before : Option Char) (offset covered : Nat) :
    List Char → Except LexError (List Token)
  | [] => .ok []
  | c :: cs =>
    match covered with
    | n + 1 => scan table (some c) (offset + c.utf8Size) n cs
    | 0 =>
      if isSkipped c then scan table (some c) (offset + c.utf8Size) 0 cs
      else
        let p : Place := ⟨before, c :: cs, offset⟩
        match table.race? p with
        | none => .error ⟨offset⟩
        | some (row, q) =>
          (scan table (some c) (offset + c.utf8Size) ((p.upTo q).length - 1) cs).map (token row.rule.kind p q :: ·)

/-- The tokens of a text, or the offset of the first character at which no row matches, where no row wins with the
    empty text. -/
def tokens (table : TokenTable) (text : String) : Except LexError (List Token) :=
  scan table none 0 0 text.toList

end TokenTable

/-! ## The standard table -/

/-- The rules of the standard table. -/
def standardRules : List TokenRule := [
  ⟨.keyword, "(?i)derivative|wrt|integral|integrate|of|from|to"⟩,
  ⟨.function, "sin|cos|tan|sqrt"⟩,
  ⟨.name, "[a-zA-Z]_(?:[a-zA-Z]+|[0-9]+)"⟩,
  ⟨.constant, "pi|e"⟩,
  ⟨.name, "[a-zA-Z]"⟩,
  ⟨.number, "[0-9]+(?:\\.[0-9]+)?"⟩,
  ⟨.symbol, "\\+|-|\\*|/|\\^|=|\\(|\\)|!"⟩]

/-- The table of the standard input language. -/
def TokenTable.standard : TokenTable :=
  match TokenTable.ofRules standardRules with
  | .ok table => table
  | .error _ => ⟨[]⟩

/-- The tokens of a text of the standard input language. -/
def tokensOf (text : String) : Except LexError (List Token) := TokenTable.standard.tokens text

end Formula

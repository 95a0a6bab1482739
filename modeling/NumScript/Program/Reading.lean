import NumScript.Expression.Reading
import NumScript.Program

/-! Reading a program from its tokens. A statement is known by its first token. The end of a block
or of a condition is found by counting braces or parentheses, and what is inside is read by itself.
The first problem ends the reading. -/

namespace NumScript.Program

/-! ### Problems -/

/-- What was expected is not there: `next` is, or the tokens end after `near`. -/
def expected (what : Text) (near : Token) (tokens : List Token) : Diagnostic :=
  match tokens with
  | [] => .error .parse .unexpectedToken near.line near.lexeme
      ("expected " ++ what ++ ", got end of input")
  | next :: _ => .error .parse .unexpectedToken next.line next.lexeme
      ("expected " ++ what ++ ", got " ++ Text.quoted next.lexeme)

def missingSemicolon (last : Token) : Diagnostic :=
  .error .parse .missingTerminator last.line last.lexeme
    ("expected ';' after " ++ Text.quoted last.lexeme)

def missingExpression (after : Token) : Diagnostic :=
  .error .parse .emptyExpression after.line after.lexeme
    ("expected expression after " ++ Text.quoted after.lexeme)

def unmatchedBrace (brace : Token) : Diagnostic :=
  .error .parse .unmatchedDelimiter brace.line brace.lexeme "unmatched '\x7b': missing '\x7d'"

def strayBrace (brace : Token) : Diagnostic :=
  .error .parse .unmatchedDelimiter brace.line brace.lexeme
    "unexpected '\x7d' without matching '\x7b'"

def strayElse (t : Token) : Diagnostic :=
  .error .parse .unexpectedToken t.line t.lexeme "'else' without a preceding if block"

def unsupported (t : Token) : Diagnostic :=
  .error .parse .unexpectedToken t.line t.lexeme
    (Text.quoted t.lexeme ++ " statements are not supported")

def unrecognized (t : Token) : Diagnostic :=
  .error .parse .unexpectedToken t.line t.lexeme
    ("unrecognized statement start " ++ t.kind.name ++ (" " ++ Text.quoted t.lexeme : Text))

def missingName (keyword near : Token) : Diagnostic :=
  .error .parse .unexpectedToken near.line near.lexeme
    ("expected identifier after '" ++ keyword.lexeme ++ "'")

def unfinishedDeclaration (name : Token) : Diagnostic :=
  .error .parse .missingTerminator name.line name.lexeme
    ("expected ';' after declaration of " ++ Text.quoted name.lexeme)

def brokenDeclaration (name next : Token) : Diagnostic :=
  .error .parse .unexpectedToken next.line next.lexeme
    ("expected '=' or ';' after " ++ Text.quoted name.lexeme ++ ", got " ++
      Text.quoted next.lexeme)

/-! ### Parts of statements -/

/-- The tokens up to the one that closes `depth + 1` open delimiters, and those after it. -/
def enclosed? (opener closer : TokenKind) (depth : Nat) :
    List Token → Option (List Token × List Token)
  | [] => none
  | t :: rest =>
    if t.kind = opener then
      (enclosed? opener closer (depth + 1) rest).map fun (inside, after) => (t :: inside, after)
    else if t.kind = closer then
      match depth with
      | 0 => some ([], rest)
      | depth + 1 =>
        (enclosed? opener closer depth rest).map fun (inside, after) => (t :: inside, after)
    else (enclosed? opener closer depth rest).map fun (inside, after) => (t :: inside, after)

/-- The token ends an expression, rightly or wrongly. -/
def endsExpression (t : Token) : Bool :=
  t.kind = .semicolon || t.kind = .leftBrace || t.kind = .rightBrace

/-- Reads the tokens behind `after` as one expression. -/
def readExpression (after : Token) (tokens : List Token) : Except Diagnostic Expression :=
  match tokens with
  | [] => .error (missingExpression after)
  | start :: _ => do
    let tree ← Expression.readTree tokens
    return { start := start, tree := tree }

/-- Reads an expression and the semicolon behind it; answers the tokens that follow. -/
def readTerminated (after : Token) (tokens : List Token) :
    Except Diagnostic (Expression × List Token) :=
  let inside := tokens.takeWhile fun t => !endsExpression t
  let missing := missingSemicolon (inside.getLast?.getD after)
  match tokens.dropWhile fun t => !endsExpression t with
  | [] => .error missing
  | t :: rest =>
    if t.kind = .semicolon then do
      let e ← readExpression after inside
      return (e, rest)
    else .error missing

/-- Reads the condition in parentheses behind a keyword; answers the tokens that follow. -/
def readCondition (keyword : Token) (tokens : List Token) :
    Except Diagnostic (Expression × List Token) :=
  match tokens with
  | paren :: rest =>
    if paren.kind = .leftParen then
      match enclosed? .leftParen .rightParen 0 rest with
      | none => .error (Expression.unmatched paren)
      | some (inside, after) => do
        let e ← readExpression paren inside
        return (e, after)
    else .error (expected ("'(' after '" ++ keyword.lexeme ++ "'") keyword tokens)
  | [] => .error (expected ("'(' after '" ++ keyword.lexeme ++ "'") keyword tokens)

/-- A block cut out of the tokens: its brace, the tokens inside, and those that follow. -/
structure Cut where
  brace : Token
  inside : List Token
  after : List Token

/-- Cuts out the block that the tokens must start with; `what` says which one, `near` stands before
it. -/
def cutBlock (what : Text) (near : Token) (tokens : List Token) : Except Diagnostic Cut :=
  match tokens with
  | brace :: rest =>
    if brace.kind = .leftBrace then
      match enclosed? .leftBrace .rightBrace 0 rest with
      | none => .error (unmatchedBrace brace)
      | some (inside, after) => .ok ⟨brace, inside, after⟩
    else .error (expected what near tokens)
  | [] => .error (expected what near tokens)

/-- What a declaration says behind its keyword: the name, the value if there is one, and the tokens
that follow. -/
def readDeclaration (keyword : Token) (tokens : List Token) :
    Except Diagnostic (Token × Option Expression × List Token) :=
  match tokens with
  | [] => .error (missingName keyword keyword)
  | name :: rest =>
    if name.kind = .identifier then
      match rest with
      | [] => .error (unfinishedDeclaration name)
      | next :: rest =>
        if next.kind = .semicolon then .ok (name, none, rest)
        else if next.kind = .assign then do
          let (e, rest) ← readTerminated next rest
          return (name, some e, rest)
        else .error (brokenDeclaration name next)
    else .error (missingName keyword name)

/-! ### Statements -/

/-- Reads tokens as a sequence of statements. `fuel` bounds the reading, and more than the number
of tokens is enough. -/
def readFrom : Nat → List Token → Except Diagnostic Program
  | 0, _ => .ok done
  | _ + 1, [] => .ok done
  | fuel + 1, t :: rest =>
    match t.kind with
    | .semicolon => readFrom fuel rest
    | .leftBrace => do
      let cut ← cutBlock "'\x7b'" t (t :: rest)
      let body ← readFrom fuel cut.inside
      let rest ← readFrom fuel cut.after
      return block cut.brace body rest
    | .letWord | .constWord => do
      let (name, value, rest) ← readDeclaration t rest
      let rest ← readFrom fuel rest
      return declare t name value rest
    | .ifWord => do
      let (condition, rest) ← readCondition t rest
      let cut ← cutBlock "'\x7b' after if condition" t rest
      let body ← readFrom fuel cut.inside
      match cut.after with
      | [] => return ifThen t condition cut.brace body done
      | next :: others =>
        if next.kind = .elseWord then do
          let elseCut ← cutBlock "'\x7b' after else" next others
          let elseBody ← readFrom fuel elseCut.inside
          let rest ← readFrom fuel elseCut.after
          return ifElse t condition cut.brace body elseCut.brace elseBody rest
        else do
          let rest ← readFrom fuel cut.after
          return ifThen t condition cut.brace body rest
    | .whileWord => do
      let (condition, rest) ← readCondition t rest
      let cut ← cutBlock "'\x7b' after while condition" t rest
      let body ← readFrom fuel cut.inside
      let rest ← readFrom fuel cut.after
      return loop t condition cut.brace body rest
    | .identifier =>
      match rest with
      | next :: others =>
        if next.kind = .assign then do
          let (e, rest) ← readTerminated next others
          let rest ← readFrom fuel rest
          return assign t e rest
        else do
          let (e, rest) ← readTerminated t (t :: rest)
          let rest ← readFrom fuel rest
          return expression e rest
      | [] => do
        let (e, rest) ← readTerminated t (t :: rest)
        let rest ← readFrom fuel rest
        return expression e rest
    | .number | .string | .plus | .minus | .bang | .leftParen => do
      let (e, rest) ← readTerminated t (t :: rest)
      let rest ← readFrom fuel rest
      return expression e rest
    | .rightBrace => .error (strayBrace t)
    | .elseWord => .error (strayElse t)
    | .forWord | .functionWord | .returnWord => .error (unsupported t)
    | _ => .error (unrecognized t)

/-- The program that a list of tokens spells. -/
def read (tokens : List Token) : Except Diagnostic Program := readFrom (tokens.length + 1) tokens

end NumScript.Program

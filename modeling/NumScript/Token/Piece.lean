import NumScript.Token

/-! How a script falls into pieces: blanks, comments, tokens, and text that starts no token. The
pieces of a script, put together again, are the script. -/

namespace NumScript

/-- One piece of a script. -/
inductive Piece where
  /-- A space, tab, carriage return or line feed. -/
  | blank (b : UInt8)
  /-- Two slashes and the rest of the line, without its line feed. -/
  | comment (text : Text)
  | token (kind : TokenKind) (text : Text)
  /-- A character that starts no token. -/
  | rejected (text : Text)
  /-- A quotation mark that is never closed, with the rest of the script. -/
  | openString (text : Text)
  deriving DecidableEq, Repr

namespace Piece

def text : Piece → Text
  | blank b => [b]
  | comment text | token _ text | rejected text | openString text => text

/-- The piece separates tokens and says nothing. -/
def isLayout : Piece → Bool
  | blank _ | comment _ => true
  | _ => false

def isBlank (b : UInt8) : Bool :=
  b = Text.byte ' ' || b = Text.byte '\t' || b = Text.byte '\r' || b = Text.byte '\n'

def isLetter (b : UInt8) : Bool := Text.isLower b || Text.isUpper b || b = Text.byte '_'

def isWordByte (b : UInt8) : Bool := isLetter b || Text.isDigit b

/-- The double quotation mark. -/
def quoteMark : UInt8 := 0x22

/-- A run of digits with an optional fraction. A point without a digit after it is left alone. -/
def numberText (s : Text) : Text :=
  let whole := s.takeWhile Text.isDigit
  match s.dropWhile Text.isDigit with
  | point :: digit :: rest =>
    if point = Text.byte '.' && Text.isDigit digit then
      whole ++ point :: (digit :: rest).takeWhile Text.isDigit
    else whole
  | _ => whole

/-- The piece at the front of the text `b :: rest`. -/
def front (b : UInt8) (rest : Text) : Piece :=
  let s := b :: rest
  if isBlank b then blank b
  else if (Text.ofString "//").isPrefixOf s then comment (s.takeWhile (· ≠ Text.byte '\n'))
  else if isLetter b then
    let word := s.takeWhile isWordByte
    token (TokenKind.ofWord word) word
  else if Text.isDigit b then token .number (numberText s)
  else if b = quoteMark then
    let body := rest.takeWhile (· ≠ quoteMark)
    if body.length < rest.length then token .string (b :: body ++ [quoteMark]) else openString s
  else match TokenKind.symbols.find? fun kind => kind.spelling.isPrefixOf s with
    | some kind => token kind kind.spelling
    | none =>
      if b = Text.byte '&' || b = Text.byte '|' then token .error [b]
      else rejected (s.take (Text.frontRune s).2)

/-- The pieces after the first `skip` bytes. -/
def splitFrom : Nat → Text → List Piece
  | _, [] => []
  | skip + 1, _ :: rest => splitFrom skip rest
  | 0, b :: rest => front b rest :: splitFrom ((front b rest).text.length - 1) rest

/-- The pieces of a script, from left to right. -/
def split (s : Text) : List Piece := splitFrom 0 s

end Piece

end NumScript

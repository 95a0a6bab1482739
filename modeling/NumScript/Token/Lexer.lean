import NumScript.Text.Quoted
import NumScript.Number.Numeral
import NumScript.Diagnostic.Log
import NumScript.Token.Piece

/-! Tokens and problems of a script. Nothing stops the reading: text that starts no token is
reported and passed over. -/

namespace NumScript

/-- The value of a token, from its kind and text: the number that its digits spell, infinite when
they spell too large a one, or the text between the quotes of a string. -/
def Literal.ofLexeme (kind : TokenKind) (lexeme : Text) : Literal :=
  match kind with
  | .number => .number (((Numeral.ofText? lexeme).map Numeral.value).getD 0)
  | .string => .text ((lexeme.drop 1).dropLast)
  | _ => .none

namespace Piece

/-- The token that a piece is, at a place of the script `file`. -/
def token? (file : Text) (place : Place) : Piece → Option Token
  | token kind text =>
    some
      { kind := kind
        lexeme := text
        literal := Literal.ofLexeme kind text
        position := place.position file
        length := text.length }
  | _ => none

/-- What is wrong with a piece that starts on `line`. -/
def problem? (line : Int) : Piece → Option Diagnostic
  | token .identifier text =>
    if TokenKind.isKeywordInOtherCase text then
      some (.warning .lex .keywordCase line text
        ("identifier " ++ Text.quoted text ++ " differs from a keyword only in case"))
    else none
  | token .error text =>
    some (.error .lex .malformedOperator line text
      ("malformed operator " ++ Text.quoted text ++ ", expected " ++ Text.quoted (text ++ text)))
  | rejected text =>
    let code := (Text.frontRune text).1
    some (.error .lex .unexpectedCharacter line (Text.ofRune code)
      ("unexpected character " ++ Text.quotedRune code))
  | openString text =>
    some (.error .lex .unterminatedString line text "unterminated string")
  | _ => none

end Piece

/-- A reader of a script: the pieces still to come, the place where they start, and the problems
so far. -/
structure Lexer where
  file : Text
  pieces : List Piece
  place : Place := {}
  log : Log := {}

namespace Lexer

def ofSource (source file : Text) : Lexer := { file := file, pieces := Piece.split source }

/-- Passes over one piece. -/
def advance (l : Lexer) (piece : Piece) (rest : List Piece) : Lexer :=
  { l with
    pieces := rest
    place := l.place.after piece.text
    log := l.log.report? (piece.problem? l.place.line) }

/-- The next token, the error it came with, and the reader after it. A piece that is no token gives
an empty token with its error; past the last piece comes the end token, again and again. -/
def nextFrom (l : Lexer) : List Piece → (Token × Option Diagnostic) × Lexer
  | [] => (({ position := l.place.position l.file }, none), { l with pieces := [] })
  | piece :: rest =>
    let after := l.advance piece rest
    if piece.isLayout then nextFrom after rest
    else
      let problem := (piece.problem? l.place.line).filter Diagnostic.isError
      (((piece.token? l.file l.place).getD {}, problem), after)

def next (l : Lexer) : (Token × Option Diagnostic) × Lexer := l.nextFrom l.pieces

/-- All tokens of the pieces that start at `place`, and the problems of those pieces. -/
def readFrom (file : Text) (place : Place) : List Piece → List Token × List Diagnostic
  | [] => ([], [])
  | piece :: rest =>
    let (tokens, problems) := readFrom file (place.after piece.text) rest
    ((piece.token? file place).toList ++ tokens, (piece.problem? place.line).toList ++ problems)

end Lexer

/-- The tokens of a script, without an end token, and the log of its problems. -/
def tokenize (source file : Text) : List Token × Log :=
  let (tokens, problems) := Lexer.readFrom file {} (Piece.split source)
  (tokens, Log.reportAll {} problems)

end NumScript

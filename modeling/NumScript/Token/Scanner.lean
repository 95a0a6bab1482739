import NumScript.Token.Lexer

/-! A reader that keeps count as it goes, character by character: the offset of the next character,
the line, and the offset where that line starts. At the start of a token it notes the counts, and
the token gets its place from the note. The line goes up in two places only, behind a line feed
among the blanks and behind one in a string. -/

namespace NumScript

namespace Text

theorem frontRune_pos (s : Text) : 0 < (frontRune s).2 := by
  unfold frontRune
  cases spelled : rune? s with
  | none => exact Nat.zero_lt_one
  | some found =>
    unfold rune? at spelled
    grind

/-- The code point at the front of the text, 0 when there is none. -/
def peek : Text → Nat
  | [] => 0
  | b :: rest => (frontRune (b :: rest)).1

/-- A code point that is an ASCII character of a class of bytes. -/
def ofClass (q : UInt8 → Bool) (code : Nat) : Bool := code < 0x80 && q code.toUInt8

end Text

/-- A character that starts symbols: the kind of token that it is on its own, and the character
behind it that makes it another kind. -/
structure Sign where
  first : Char
  single : TokenKind
  second : Option (Char × TokenKind) := none
  deriving DecidableEq

/-- The characters that start symbols. A single `&` or `|` is an error. -/
def Sign.all : List Sign :=
  [⟨'(', .leftParen, none⟩, ⟨')', .rightParen, none⟩, ⟨'\x7b', .leftBrace, none⟩,
    ⟨'\x7d', .rightBrace, none⟩, ⟨';', .semicolon, none⟩, ⟨',', .comma, none⟩, ⟨'.', .dot, none⟩,
    ⟨'-', .minus, none⟩, ⟨'+', .plus, none⟩, ⟨'*', .star, none⟩, ⟨'/', .slash, none⟩,
    ⟨'=', .assign, some ('=', .equalEqual)⟩, ⟨'!', .bang, some ('=', .bangEqual)⟩,
    ⟨'>', .greater, some ('=', .greaterEqual)⟩, ⟨'<', .less, some ('=', .lessEqual)⟩,
    ⟨'&', .error, some ('&', .and)⟩, ⟨'|', .error, some ('|', .or)⟩]

/-- A reader of a script with its counts. -/
structure Scanner where
  source : Text
  file : Text := []
  /-- The offset of the next character. -/
  current : Nat := 0
  line : Nat := 1
  /-- The offset where the line starts. -/
  lineStart : Nat := 0
  /-- The offset where the token starts. -/
  start : Nat := 0
  /-- The line on which the token starts. -/
  tokenLine : Nat := 0
  /-- The offset where the line of the token starts. -/
  tokenLineStart : Nat := 0
  log : Log := {}

namespace Scanner

/-! ### Characters -/

def rest (s : Scanner) : Text := s.source.drop s.current

def atEnd (s : Scanner) : Bool := s.source.length ≤ s.current

/-- The next character, 0 at the end. -/
def peek (s : Scanner) : Nat := s.rest.peek

/-- The character behind the next one, 0 if there is none. -/
def peekNext (s : Scanner) : Nat := Text.peek (s.rest.drop (Text.frontRune s.rest).2)

/-- Passes over one character. -/
def advance (s : Scanner) : Scanner :=
  if s.atEnd then s else { s with current := s.current + (Text.frontRune s.rest).2 }

/-- Passes over the next character if it is `c`. -/
def accept? (s : Scanner) (c : Char) : Option Scanner :=
  if !s.atEnd && s.peek = c.toNat then some s.advance else none

/-- Starts a line at the next character. -/
def startLine (s : Scanner) : Scanner := { s with line := s.line + 1, lineStart := s.current }

/-- Starts a token at the next character. -/
def mark (s : Scanner) : Scanner :=
  { s with start := s.current, tokenLine := s.line, tokenLineStart := s.lineStart }

def slice (s : Scanner) (first last : Nat) : Text := (s.source.drop first).take (last - first)

/-- The text from the start of the token up to the next character. -/
def text (s : Scanner) : Text := s.slice s.start s.current

@[simp] theorem source_advance (s : Scanner) : s.advance.source = s.source := by
  unfold advance
  split <;> rfl

theorem current_lt_advance {s : Scanner} (more : ¬ s.atEnd) : s.current < s.advance.current := by
  have wide := Text.frontRune_pos s.rest
  rw [advance, if_neg more]
  dsimp only
  omega

/-- The number of bytes still to come gets smaller. -/
theorem left_advance {s : Scanner} (more : ¬ s.atEnd) :
    s.advance.source.length - s.advance.current < s.source.length - s.current := by
  have passed := current_lt_advance more
  have inside : s.current < s.source.length := by simpa [atEnd] using more
  rw [source_advance]
  omega

/-- Passes over characters as long as they are of a class. -/
def passWhile (p : Nat → Bool) (s : Scanner) : Scanner :=
  if s.atEnd then s else if p s.peek then passWhile p s.advance else s
termination_by s.source.length - s.current
decreasing_by exact left_advance ‹_›

/-- Passes over the text of a string, up to the quotation mark. -/
def passString (s : Scanner) : Scanner :=
  if s.atEnd then s
  else if s.peek = Piece.quoteMark.toNat then s
  else if s.advance.source[s.advance.current - 1]? = some (Text.byte '\n') then
    passString s.advance.startLine
  else passString s.advance
termination_by s.source.length - s.current
decreasing_by all_goals exact left_advance ‹_›

theorem left_passWhile (p : Nat → Bool) (s : Scanner) :
    (s.passWhile p).source.length - (s.passWhile p).current ≤ s.source.length - s.current := by
  fun_induction passWhile p s with
  | case1 | case3 => exact Nat.le_refl _
  | case2 s more _ ih => exact Nat.le_trans ih (Nat.le_of_lt (left_advance more))

theorem left_passWhile_of_peek {p : Nat → Bool} {s : Scanner} (more : ¬ s.atEnd)
    (first : p s.peek = true) :
    (s.passWhile p).source.length - (s.passWhile p).current < s.source.length - s.current := by
  rw [passWhile, if_neg more, if_pos first]
  exact Nat.lt_of_le_of_lt (left_passWhile p s.advance) (left_advance more)

/-- Passes over blanks and comments. A comment goes up to the end of its line. -/
def skipLayout (s : Scanner) : Scanner :=
  if s.atEnd then s
  else if s.peek = ' '.toNat || s.peek = '\r'.toNat || s.peek = '\t'.toNat then skipLayout s.advance
  else if s.peek = '\n'.toNat then skipLayout s.advance.startLine
  else if s.peek = '/'.toNat && s.peekNext = '/'.toNat then
    skipLayout (s.passWhile (· ≠ '\n'.toNat))
  else s
termination_by s.source.length - s.current
decreasing_by
  · exact left_advance ‹_›
  · exact left_advance ‹_›
  · rename_i more _ other _
    exact left_passWhile_of_peek more (by simpa using other)

/-! ### Tokens -/

/-- The place noted at the start of the token. -/
def position (s : Scanner) : Position :=
  { file := s.file
    line := s.tokenLine
    column := s.start - s.tokenLineStart + 1
    offset := s.start }

def token (s : Scanner) (kind : TokenKind) (lexeme : Text) (literal : Literal := .none) : Token :=
  { kind := kind
    lexeme := lexeme
    literal := literal
    position := s.position
    length := s.current - s.start }

/-- Hands over what was read, with the error that it is, and reports what is wrong with it on the
line where it starts. -/
def give (s : Scanner) (piece : Piece) (token : Token := {}) :
    (Token × Option Diagnostic) × Scanner :=
  let problem := piece.problem? s.tokenLine
  ((token, problem.filter Diagnostic.isError), { s with log := s.log.report? problem })

def word (s : Scanner) : (Token × Option Diagnostic) × Scanner :=
  let s := s.passWhile (Text.ofClass Piece.isWordByte)
  let kind := TokenKind.ofWord s.text
  s.give (.token kind s.text) (s.token kind s.text)

def number (s : Scanner) : (Token × Option Diagnostic) × Scanner :=
  let isDigit := Text.ofClass Text.isDigit
  let s := s.passWhile isDigit
  let s :=
    if s.peek = '.'.toNat && isDigit s.peekNext then s.advance.passWhile isDigit else s
  s.give (.token .number s.text) (s.token .number s.text (.ofLexeme .number s.text))

/-- A string tells the line of its opening quotation mark, however many lines it goes over. -/
def string (s : Scanner) : (Token × Option Diagnostic) × Scanner :=
  let s := s.passString
  if s.atEnd then s.give (.openString s.text)
  else
    let s := s.advance
    s.give (.token .string s.text)
      (s.token .string s.text (.text (s.slice (s.start + 1) (s.current - 1))))

/-- The longest symbol that starts with a sign. -/
def symbol (s : Scanner) (sign : Sign) : (Token × Option Diagnostic) × Scanner :=
  let longer := sign.second.bind fun second =>
    (s.accept? second.1).map fun s => (s, second.2, [Text.byte sign.first, Text.byte second.1])
  let (s, kind, text) := longer.getD (s, sign.single, [Text.byte sign.first])
  s.give (.token kind text) (s.token kind text)

/-- The token at the next character and the error it came with. -/
def scan (s : Scanner) : (Token × Option Diagnostic) × Scanner :=
  if s.atEnd then ((s.token .eof [], none), s)
  else
    let code := s.peek
    let s := s.advance
    if Text.ofClass Piece.isLetter code then s.word
    else if Text.ofClass Text.isDigit code then s.number
    else if code = Piece.quoteMark.toNat then s.string
    else match Sign.all.find? fun sign => sign.first.toNat = code with
      | some sign => s.symbol sign
      | none => s.give (.rejected s.text)

/-- The next token behind blanks and comments. -/
def next (s : Scanner) : (Token × Option Diagnostic) × Scanner := s.skipLayout.mark.scan

/-- All tokens up to the end of the script, in at most `calls` calls, and the log. An empty token
that came with an error is left out. -/
def collect : (calls : Nat) → Scanner → List Token × Log
  | 0, s => ([], s.log)
  | calls + 1, s =>
    let ((token, error), s) := s.next
    if token.kind = .eof then if error.isNone then ([], s.log) else collect calls s
    else
      let (tokens, log) := collect calls s
      (token :: tokens, log)

/-- The tokens and the log of a script. A call passes over one byte at least, so there are no more
calls than bytes before the last. -/
def tokenize (source file : Text) : List Token × Log :=
  collect (source.length + 1) { source := source, file := file }

end Scanner

end NumScript

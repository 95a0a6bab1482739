import NumScript.Text

/-! What can be wrong with a YAML text, and the line that is told with it. -/

namespace NumScript.Yaml

/-- A fault of a YAML text. -/
inductive Problem where
  -- Characters
  | controlCharacter
  | leadingOctet
  | incompleteSequence
  | trailingOctet
  | sequenceLength
  | invalidCharacter
  -- Tokens
  | strayCharacter
  | valueNotAllowed
  | keyNotAllowed
  | entryNotAllowed
  | colonExpected
  | tooDeep
  -- Scalars
  | tabIndentation
  | endInQuotes
  | markerInQuotes
  | unknownEscape
  | hexExpected
  | invalidCode
  | zeroIndentation
  | tabInBlock
  | lineEndExpected
  -- Names, tags and directives
  | nameExpected
  | handleExpected
  | uriExpected
  | octetExpected
  | escapedLeadingOctet
  | escapedTrailingOctet
  | angleExpected
  | blankExpected
  | blankOrBreakExpected
  | directiveNameExpected
  | directiveNameEnd
  | unknownDirective
  | versionExpected
  | versionTooLong
  | versionDotExpected
  -- The order of tokens
  | contentExpected
  | keyExpected
  | dashExpected
  | braceExpected
  | bracketExpected
  | documentStartExpected
  | repeatedVersion
  | incompatibleVersion
  | repeatedHandle
  | undefinedHandle
  -- Values
  | unknownAnchor (name : Text)
  | selfReference (name : Text)
  | excessiveAliasing
  | mergeExpected
  | invalidBase64
  | undecodable (found text wanted : Text)
  deriving DecidableEq, Repr

def Problem.message : Problem → Text
  | controlCharacter => "control characters are not allowed"
  | leadingOctet => "invalid leading UTF-8 octet"
  | incompleteSequence => "incomplete UTF-8 octet sequence"
  | trailingOctet => "invalid trailing UTF-8 octet"
  | sequenceLength => "invalid length of a UTF-8 sequence"
  | invalidCharacter => "invalid Unicode character"
  | strayCharacter => "found character that cannot start any token"
  | valueNotAllowed => "mapping values are not allowed in this context"
  | keyNotAllowed => "mapping keys are not allowed in this context"
  | entryNotAllowed => "block sequence entries are not allowed in this context"
  | colonExpected => "could not find expected ':'"
  | tooDeep => "exceeded max depth of 10000"
  | tabIndentation => "found a tab character that violates indentation"
  | endInQuotes => "found unexpected end of stream"
  | markerInQuotes => "found unexpected document indicator"
  | unknownEscape => "found unknown escape character"
  | hexExpected => "did not find expected hexdecimal number"
  | invalidCode => "found invalid Unicode character escape code"
  | zeroIndentation => "found an indentation indicator equal to 0"
  | tabInBlock => "found a tab character where an indentation space is expected"
  | lineEndExpected => "did not find expected comment or line break"
  | nameExpected => "did not find expected alphabetic or numeric character"
  | handleExpected => "did not find expected '!'"
  | uriExpected => "did not find expected tag URI"
  | octetExpected => "did not find URI escaped octet"
  | escapedLeadingOctet => "found an incorrect leading UTF-8 octet"
  | escapedTrailingOctet => "found an incorrect trailing UTF-8 octet"
  | angleExpected => "did not find the expected '>'"
  | blankExpected => "did not find expected whitespace"
  | blankOrBreakExpected => "did not find expected whitespace or line break"
  | directiveNameExpected => "could not find expected directive name"
  | directiveNameEnd => "found unexpected non-alphabetical character"
  | unknownDirective => "found unknown directive name"
  | versionExpected => "did not find expected version number"
  | versionTooLong => "found extremely long version number"
  | versionDotExpected => "did not find expected digit or '.' character"
  | contentExpected => "did not find expected node content"
  | keyExpected => "did not find expected key"
  | dashExpected => "did not find expected '-' indicator"
  | braceExpected => "did not find expected ',' or '\x7d'"
  | bracketExpected => "did not find expected ',' or ']'"
  | documentStartExpected => "did not find expected <document start>"
  | repeatedVersion => "found duplicate %YAML directive"
  | incompatibleVersion => "found incompatible YAML document"
  | repeatedHandle => "found duplicate %TAG directive"
  | undefinedHandle => "found undefined tag handle"
  | unknownAnchor name => "unknown anchor '" ++ name ++ "' referenced"
  | selfReference name => "anchor '" ++ name ++ "' value contains itself"
  | excessiveAliasing => "document contains excessive aliasing"
  | mergeExpected => "map merge requires map or sequence of maps as the value"
  | invalidBase64 => "!!binary value contains invalid base64 data"
  | undecodable found text wanted =>
    "cannot decode " ++ found ++ " \x60" ++ text ++ "\x60 as a " ++ wanted

/-- A fault and the line told with it, 0 when none is told. -/
structure Error where
  problem : Problem
  line : Nat := 0
  deriving DecidableEq, Repr

namespace Error

/-- A fault inside a token. `start` is where the token starts and `place` where the fault is, both
counted from 0. The first of the two that is not on the first line is told, counted from 1. -/
def within (problem : Problem) (start place : Nat) : Error :=
  let line := if start ≠ 0 then start else place
  ⟨problem, if line ≠ 0 then line + 1 else 0⟩

/-- A fault in the order of the tokens. `start` is where the enclosing collection starts and
`place` where the token is that does not fit, both counted from 0. The first of the two that is not
0 is told as it is. -/
def between (problem : Problem) (start place : Nat) : Error :=
  ⟨problem, if start ≠ 0 then start else place⟩

def text (e : Error) : Text :=
  let place : Text := if e.line ≠ 0 then "line " ++ Text.ofNat e.line ++ ": " else []
  "yaml: " ++ place ++ e.problem.message

end Error

end NumScript.Yaml

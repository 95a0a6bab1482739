import NumScript.Run

/-! The settings of the interpreter, their defaults, and the rules they obey. -/

namespace NumScript

/-- Where the playground listens and what it keeps. -/
structure Settings.Playground where
  address : Text := Text.ofString "127.0.0.1:8080"
  /-- How many compiled programs are kept; 0 keeps none. -/
  cacheSize : Int := 128
  /-- The length of the longest program that is taken. -/
  maxBodyBytes : Int := 65536
  deriving DecidableEq, Repr

structure Settings where
  /-- The file that the settings come from, empty for none. -/
  path : Text := []
  /-- The name of the scoping mode. -/
  scoping : Text := Text.ofString Scoping.chain.name
  /-- The limit of loop iterations, 0 for none. -/
  maxIterations : Int := 1000000
  optimize : Bool := true
  optimizeRounds : Int := 10
  analyze : Bool := true
  warningsAsErrors : Bool := false
  color : Bool := true
  playground : Settings.Playground := {}
  deriving DecidableEq, Repr

/-- The text is an address with a port: `host:port`, where neither part holds a colon or a square
bracket, or `[host]:port`, where the host may hold colons. -/
def isHostPort (s : Text) : Bool :=
  let isBracket (b : UInt8) : Bool := b = Text.byte '[' || b = Text.byte ']'
  match s with
  | [] => false
  | first :: inside =>
    if first = Text.byte '[' then
      match inside.dropWhile fun b => !isBracket b with
      | 93 :: 58 :: port => port.all fun b => !isBracket b && b ≠ Text.byte ':'
      | _ => false
    else s.count (Text.byte ':') = 1 && !s.any isBracket

namespace Settings

/-- A rule that settings break, with the value that breaks it. -/
inductive Issue where
  | scoping (name : Text)
  | maxIterations (n : Int)
  | optimizeRounds (n : Int)
  | address (s : Text)
  | cacheSize (n : Int)
  | maxBodyBytes (n : Int)
  deriving DecidableEq, Repr

def Issue.text : Issue → Text
  | scoping name => "scoping: " ++ Scoping.unknownName name
  | maxIterations n => "max_iterations must not be negative, got " ++ Text.ofInt n
  | optimizeRounds n => "optimize_rounds must be at least 1, got " ++ Text.ofInt n
  | address s => "playground.addr " ++ Text.quoted s ++ " is not host:port"
  | cacheSize n => "playground.cache_size must not be negative, got " ++ Text.ofInt n
  | maxBodyBytes n => "playground.max_body_bytes must be positive, got " ++ Text.ofInt n

/-- Every rule that the settings break, in the order of the settings. -/
def issues (s : Settings) : List Issue :=
  (if (Scoping.ofName? s.scoping).isNone then [.scoping s.scoping] else []) ++
    (if s.maxIterations < 0 then [.maxIterations s.maxIterations] else []) ++
    (if s.optimizeRounds < 1 then [.optimizeRounds s.optimizeRounds] else []) ++
    (if !isHostPort s.playground.address then [.address s.playground.address] else []) ++
    (if s.playground.cacheSize < 0 then [.cacheSize s.playground.cacheSize] else []) ++
    (if s.playground.maxBodyBytes ≤ 0 then [.maxBodyBytes s.playground.maxBodyBytes] else [])

def isValid (s : Settings) : Bool := s.issues.isEmpty

/-- What a run may do under the settings. -/
def limits (s : Settings) (patience : Nat) : Limits where
  scoping := (Scoping.ofName? s.scoping).getD .chain
  budget := s.maxIterations
  patience := patience

end Settings

end NumScript

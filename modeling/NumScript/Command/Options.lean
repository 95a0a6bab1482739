import NumScript.Text.Quoted
import NumScript.Number.Numeral

/-! The options of the command. They stand before the file, in any order; letters may be put
together behind one dash, and the value of an option follows its letter or is the next word. -/

namespace NumScript.Command

/-- What is wrong with the words of a command. -/
inductive UsageProblem where
  | unknownOption (code : Nat)
  | argumentExpected (code : Nat)
  | invalidBudget (s : Text)
  | unknownTool (s : Text)
  | manyFiles (n : Nat)
  | noFile
  deriving DecidableEq, Repr

/-- The name of the command. -/
def name : Text := Text.ofString "tinyscript"

def UsageProblem.text : UsageProblem → Text
  | unknownOption code => name ++ ": unknown option -" ++ Text.ofRune code
  | argumentExpected code => name ++ ": expected argument for -" ++ Text.ofRune code
  | invalidBudget s => "invalid -g parameter " ++ Text.quoted s
  | unknownTool s => "unknown tool " ++ Text.quoted s
  | manyFiles n => "expected one file, got " ++ Text.ofNat n
  | noFile => "missing file"

/-! ### Splitting words -/

/-- An option and its value, empty for one that takes none. -/
structure Flag where
  code : Nat
  value : Text := []
  deriving DecidableEq, Repr

/-- The option takes a value; there is no answer for one that does not exist. -/
def takesValue? (code : Nat) : Option Bool :=
  if code < 0x80 then
    if (Text.ofString "csgt").contains code.toUInt8 then some true
    else if (Text.ofString "vnOh").contains code.toUInt8 then some false
    else none
  else none

/-- The options behind one dash, and the last one by itself when it still waits for its value. -/
def cluster : List Nat → Except UsageProblem (List Flag × Option Nat)
  | [] => .ok ([], none)
  | code :: more =>
    match takesValue? code with
    | none => .error (.unknownOption code)
    | some false => do
      let (flags, waiting) ← cluster more
      return (⟨code, []⟩ :: flags, waiting)
    | some true =>
      if more.isEmpty then .ok ([], some code)
      else .ok ([⟨code, more.flatMap Text.ofRune⟩], none)

/-- The code points of a text; a byte that spells none counts as a replacement character. -/
def codes (s : Text) : List Nat :=
  (Text.characters s).map fun c => match c with
    | .rune code => code
    | .stray _ => Text.replacement

/-- Splits words into options and what follows them. Two dashes end the options; so does a single
dash, an empty word, or a word that starts otherwise. -/
def split : List Text → Except UsageProblem (List Flag × List Text)
  | [] => .ok ([], [])
  | word :: rest =>
    if word = Text.ofString "--" then .ok ([], rest)
    else if word.head? ≠ some (Text.byte '-') || word.length = 1 then .ok ([], word :: rest)
    else
      match cluster (codes (word.drop 1)) with
      | .error problem => .error problem
      | .ok (flags, none) => do
        let (more, words) ← split rest
        return (flags ++ more, words)
      | .ok (flags, some code) =>
        match rest with
        | [] => .error (.argumentExpected code)
        | value :: rest => do
          let (more, words) ← split rest
          return (flags ++ ⟨code, value⟩ :: more, words)

/-! ### Options -/

/-- What the command is asked to do with a script. -/
inductive Tool where
  | run
  | tokens
  | ast
  | env
  | serve
  deriving DecidableEq, Repr

def Tool.name : Tool → String
  | run => "run"
  | tokens => "tokens"
  | ast => "ast"
  | env => "env"
  | serve => "serve"

def Tool.ofName? (s : Text) : Option Tool :=
  [run, tokens, ast, env, serve].find? fun tool => Text.ofString tool.name = s

structure Options where
  /-- The file of the settings, empty for the usual one. -/
  settings : Text := []
  verbose : Bool := false
  noColor : Bool := false
  noOptimize : Bool := false
  /-- The scoping mode, empty for that of the settings. -/
  scoping : Text := []
  /-- The limit of loop iterations, if not that of the settings. -/
  budget : Option Int := none
  tool : Tool := .run
  /-- The file of the script, `-` for standard input. -/
  file : Text := []
  deriving DecidableEq, Repr

/-- A number that is not negative: perhaps a sign, then decimal digits, within 64 bits. -/
def budget? (s : Text) : Option Int :=
  let (negative, digits) := Numeral.sign s
  if digits.isEmpty || !digits.all Text.isDigit then none
  else
    let n := Text.decimalValue digits
    if negative then (if n = 0 then some 0 else none)
    else if n < 0x8000000000000000 then some n
    else none

/-- The options with the name of the tool still unchecked, or nothing when help is asked for. -/
def applyFlags : List Flag → Options × Text → Except UsageProblem (Option (Options × Text))
  | [], state => .ok (some state)
  | flag :: rest, (o, tool) =>
    if flag.code = 'c'.toNat then applyFlags rest ({ o with settings := flag.value }, tool)
    else if flag.code = 'v'.toNat then applyFlags rest ({ o with verbose := true }, tool)
    else if flag.code = 'n'.toNat then applyFlags rest ({ o with noColor := true }, tool)
    else if flag.code = 'O'.toNat then applyFlags rest ({ o with noOptimize := true }, tool)
    else if flag.code = 's'.toNat then applyFlags rest ({ o with scoping := flag.value }, tool)
    else if flag.code = 'g'.toNat then
      match budget? flag.value with
      | some n => applyFlags rest ({ o with budget := some n }, tool)
      | none => .error (.invalidBudget flag.value)
    else if flag.code = 't'.toNat then applyFlags rest (o, flag.value)
    else .ok none

namespace Options

/-- The options that the words of a command give, or nothing when help is asked for. A script is
needed unless a service is started. -/
def ofWords (words : List Text) : Except UsageProblem (Option Options) := do
  let (flags, files) ← split words
  match ← applyFlags flags ({}, Text.ofString Tool.run.name) with
  | none => return none
  | some (o, toolName) =>
    match Tool.ofName? toolName with
    | none => .error (.unknownTool toolName)
    | some tool =>
      let o := { o with tool := tool }
      match files with
      | [] => if tool = .serve then return some o else .error .noFile
      | [file] => return some { o with file := file }
      | _ => .error (.manyFiles files.length)

end Options

/-- What is told about the use of the command. -/
def usage : Text :=
  Text.unlines
    ["usage: tinyscript [options] [file]",
      "",
      "Runs file, or standard input when file is \"-\".",
      "",
      "options:",
      "  -c FILE  settings file (default: ./.tinyscript.yml when present)",
      "  -v       trace evaluation and optimization on stderr",
      "  -n       disable colored diagnostics",
      "  -O       disable the optimizer",
      "  -s MODE  block scoping: chain or copy",
      "  -g N     loop iteration budget, 0 for unlimited",
      "  -t TOOL  run (default), tokens, ast, env or serve",
      "  -h       show this help"]

end NumScript.Command

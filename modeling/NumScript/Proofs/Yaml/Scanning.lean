import NumScript.Proofs.Yaml.Written
import NumScript.Yaml.Token.Scanner

/-! How nested mappings are cut into tokens. -/

namespace NumScript.Yaml

namespace Scanner

/-! ### Layout -/

/-- Behind layout, neither more of it nor a comment follows. -/
structure Clear (chars : List Char) : Prop where
  noLayout : NoLayout chars
  noComment : chars.head? ≠ some '#'

theorem Clear.nil : Clear [] := ⟨rfl, nofun⟩

theorem Clear.cons {c : Char} (calm : isLayout c = false) (noComment : c ≠ '#')
    (rest : List Char) : Clear (c :: rest) :=
  ⟨by simpa [NoLayout] using calm, by simpa using noComment⟩

theorem layout_of_clear {chars : List Char} (clear : Clear chars) (keyAllowed : Bool) (m : Mark) :
    layout false .blank keyAllowed m chars = (keyAllowed, ⟨chars, m⟩) := by
  cases chars with
  | nil => rfl
  | cons c rest =>
    have calm : isLayout c = false := by simpa [NoLayout] using clear.noLayout
    have noComment : c ≠ '#' := by simpa using clear.noComment
    simp only [isLayout, isBlank, Bool.or_eq_false_iff, decide_eq_false_iff_not] at calm
    obtain ⟨⟨space, tab⟩, unbroken⟩ := calm
    simp [layout, space, tab, unbroken, noComment]

theorem layout_margin (keyAllowed : Bool) (n : Nat) (m : Mark) (rest : List Char) :
    layout false .blank keyAllowed m (margin n ++ rest) =
      layout false .blank keyAllowed ⟨m.line, m.column + n⟩ rest := by
  induction n generalizing m with
  | zero => rfl
  | succ n ih =>
    have column : m.column + 1 + n = m.column + (n + 1) := by omega
    rw [margin, List.replicate_succ, List.cons_append, ← margin, layout]
    simp only [show isBreak ' ' = false by decide, Bool.false_eq_true, if_false, decide_true,
      Bool.true_or, if_true]
    rw [ih, Mark.step_of_not_break (by decide), column]

/-- Behind the end of a line a key is allowed. -/
theorem layout_lineEnd {rest : List Char} (clear : Clear rest) (keyAllowed : Bool) (n : Nat)
    (m : Mark) :
    layout false .blank keyAllowed m ('\n' :: (margin n ++ rest)) =
      (true, ⟨rest, ⟨m.line + 1, n⟩⟩) := by
  rw [layout, if_pos (by decide), layout_margin, layout_of_clear clear]
  simp [Mark.step, show isBreak '\n' = true by decide]

/-! ### Cutting -/

/-- The scanner stands outside flow collections, and behind the layout in front of it comes `c`. -/
structure Behind (s : Scanner) (indents : List Nat) (keyAllowed : Bool) (c : Cursor) : Prop where
  layout : layout false .blank s.keyAllowed s.mark s.rest = (keyAllowed, c)
  fault : s.fault = none
  indents : s.indents = indents
  flow : s.flowCandidates = []

/-- No key has been begun, and behind the layout in front of the scanner comes `c`. -/
structure Facing (s : Scanner) (indents : List Nat) (queue : List Token) (keyAllowed : Bool)
    (c : Cursor) : Prop extends Behind s indents keyAllowed c where
  calm : s.candidate.possible = false
  waiting : s.waiting = []
  queue : s.queue = queue

/-- The scanner at a place behind the layout. -/
def arrive (s : Scanner) (c : Cursor) (keyAllowed : Bool) : Scanner :=
  { s.goTo c with keyAllowed := keyAllowed }

variable {s s' : Scanner} {indents : List Nat} {queue : List Token} {keyAllowed : Bool}

theorem Behind.skipLayout {c : Cursor} (behind : s.Behind indents keyAllowed c) :
    s.skipLayout = s.arrive c keyAllowed := by
  simp [Scanner.skipLayout, Scanner.flow, behind.flow, behind.layout, arrive]

/-- No collection closes in a column where the innermost one is not indented deeper. -/
theorem close_of_le (s : Scanner) {column : Nat}
    (inside : s.indents.head?.all (· ≤ column) = true) (line : Nat) :
    s.close (some column) line = s := by
  have kept : s.indents.takeWhile (column < ·) = [] ∧
      s.indents.dropWhile (column < ·) = s.indents := by
    cases shape : s.indents with
    | nil => simp
    | cons i outer =>
      have shallow : ¬ column < i := by simpa [shape] using inside
      simp [shallow]
  simp only [Scanner.close, Option.all_some, kept, List.map_nil, List.append_nil]
  split <;> rfl

/-- A token that starts in a column where no collection closes, with no marker in its place. -/
theorem Behind.cut {c : Char} {rest : List Char} {m : Mark}
    (behind : s.Behind indents keyAllowed ⟨c :: rest, m⟩)
    (inside : indents.head?.all (· ≤ m.column) = true)
    (unmarked : m.column = 0 → marker? (c :: rest) = none ∧ c ≠ '%')
    (here : (s.arrive ⟨c :: rest, m⟩ keyAllowed).tokenHere c rest = .ok s')
    (sound : s'.fault = none) :
    s.cut = .ok s' := by
  have ordinary : (if m.column = 0 then marker? (c :: rest) else none) = none ∧
      (decide (m.column = 0) && decide (c = '%')) = false := by
    by_cases first : m.column = 0
    · simp [first, unmarked first]
    · simp [first]
  have stays : (s.arrive ⟨c :: rest, m⟩ keyAllowed).close (some m.column) s.line =
      s.arrive ⟨c :: rest, m⟩ keyAllowed := close_of_le _ (behind.indents ▸ inside) s.line
  have readable : (s.arrive ⟨c :: rest, m⟩ keyAllowed).require 4 = .ok () := by
    simp [require, arrive, goTo, behind.fault]
  have readable' : s'.require 1 = .ok () := by simp [require, sound]
  rw [Scanner.cut, behind.skipLayout]
  simp only [show (s.arrive ⟨c :: rest, m⟩ keyAllowed).mark = m from rfl, stays, readable,
    show (s.arrive ⟨c :: rest, m⟩ keyAllowed).rest = c :: rest from rfl, ordinary.1, ordinary.2,
    Bool.false_eq_true, if_false, here, readable', bind, Except.bind, pure, Except.pure]

/-! ### Scalars -/

/-- The characters that start other tokens than plain scalars. -/
theorem charOf_not_mem_of_not_isLeadingMark {b : UInt8} (printable : Text.isPrintableByte b = true)
    (unmarked : isLeadingMark b = false) :
    charOf b ∉ ['[', '\x7b', ']', '\x7d', ',', '*', '&', '!', '|', '>', '\x27', '\x22'] :=
  forall_printable (p := fun b => isLeadingMark b = false →
    charOf b ∉ ['[', '\x7b', ']', '\x7d', ',', '*', '&', '!', '|', '>', '\x27', '\x22'])
    (by decide +kernel) printable unmarked

theorem isIndicator_charOf {b : UInt8} (printable : Text.isPrintableByte b = true) :
    isIndicator (charOf b) = (isLeadingMark b || b = Text.byte '?' || b = Text.byte ':' ||
      b = Text.byte '-') :=
  forall_printable (p := fun b => isIndicator (charOf b) = (isLeadingMark b ||
    b = Text.byte '?' || b = Text.byte ':' || b = Text.byte '-')) (by decide +kernel) printable

theorem startsPlain_charOf {b : UInt8} (printable : Text.isPrintableByte b = true)
    (other : b ≠ Text.byte ' ') (unmarked : isLeadingMark b = false) {rest : List Char}
    (inside : charOf b = '-' ∨ charOf b = '?' ∨ charOf b = ':' → startsBlank rest = false) :
    startsPlain false (charOf b) rest = true := by
  have indicator := isIndicator_charOf printable
  rw [unmarked] at indicator
  by_cases special : charOf b = '-' ∨ charOf b = '?' ∨ charOf b = ':'
  · cases rest with
    | nil => cases inside special
    | cons c more =>
      have calm : isLayout c = false := inside special
      have noBlank : isBlank c = false := (Bool.or_eq_false_iff.mp calm).1
      obtain dash | mark | mark := special
      · simp [startsPlain, dash, noBlank]
      · simp [startsPlain, mark, startsBlank, calm]
      · simp [startsPlain, mark, startsBlank, calm]
  · simp only [charOf_eq_iff (c := '-') (by decide), charOf_eq_iff (c := '?') (by decide),
      charOf_eq_iff (c := ':') (by decide), not_or] at special
    simp [startsPlain, isLayout_charOf printable, other, indicator, special]

/-- Where a plain scalar starts: with a byte that is no mark, or with a dash, question mark or colon
that a further character follows. -/
theorem tokenHere_plain (s : Scanner) (flat : s.flowCandidates = []) {b : UInt8}
    (printable : Text.isPrintableByte b = true) (other : b ≠ Text.byte ' ')
    (unmarked : isLeadingMark b = false) {rest : List Char}
    (inside : charOf b = '-' ∨ charOf b = '?' ∨ charOf b = ':' → startsBlank rest = false) :
    s.tokenHere (charOf b) rest = s.plainScalar := by
  have outside : s.flow = false := by simp [flow, flat]
  have ordinary := charOf_not_mem_of_not_isLeadingMark printable unmarked
  simp only [List.mem_cons, not_or] at ordinary
  simp only [tokenHere, outside, ordinary, startsPlain_charOf printable other unmarked inside]
  by_cases special : charOf b = '-' ∨ charOf b = '?' ∨ charOf b = ':'
  · simp [inside special]
  · simp only [not_or] at special
    simp [special]

/-! ### Keys -/

/-- The candidate that starts at the place of the scanner. -/
def keyHere (s : Scanner) : Candidate where
  number := s.nextNumber
  mark := s.mark
  required := s.indents.head? = some s.mark.column
  possible := true

theorem markCandidate_of_calm (flat : s.flowCandidates = []) (calm : s.candidate.possible = false)
    (waiting : s.waiting = []) (allowed : s.keyAllowed = true) :
    s.markCandidate =
      .ok { s with candidate := s.keyHere, waiting := [(s.nextNumber, 0)] } := by
  have dropped : s.dropCandidate = .ok s := by
    simp [dropCandidate, innermost, flat, calm]
  simp [markCandidate, allowed, dropped, bind, Except.bind, pure, Except.pure, setInnermost, flat,
    release, waiting, flow, keyHere]

theorem markCandidate_of_not_allowed (allowed : s.keyAllowed = false) :
    s.markCandidate = .ok s := by
  simp [markCandidate, allowed, pure, Except.pure]

/-- There is no comment on the line behind the last token. -/
theorem skipComment_of_not_faces (clear : (s.rest.dropWhile isBlank).head? ≠ some '#') :
    s.skipComment = s := by
  have ahead : s.rest.drop (s.rest.takeWhile isBlank).length = s.rest.dropWhile isBlank := by
    have behind : (s.rest.takeWhile isBlank ++ s.rest.dropWhile isBlank).drop
        (s.rest.takeWhile isBlank).length = s.rest.dropWhile isBlank := List.drop_left
    rwa [List.takeWhile_append_dropWhile] at behind
  simp [skipComment, Cursor.faces, Cursor.advance, ahead, clear]

/-- A name of `length` bytes that starts at `m` has been cut and is the last token in the queue; its
colon comes next. -/
structure AtColon (s : Scanner) (indents : List Nat) (queue : List Token) (m : Mark) (length : Nat)
    (rest : List Char) : Prop where
  rest : s.rest = ':' :: rest
  mark : s.mark = ⟨m.line, m.column + length⟩
  fault : s.fault = none
  indents : s.indents = indents
  flow : s.flowCandidates = []
  queue : s.queue = queue
  number : s.candidate.number + 1 = s.handed + s.queue.length
  place : s.candidate.mark = m
  possible : s.candidate.possible = true
  waiting : s.waiting = [(s.candidate.number, 0)]

theorem marker?_of_ne {c : Char} (dash : c ≠ '-') (dot : c ≠ '.') (rest : List Char) :
    marker? (c :: rest) = none := by
  unfold marker?
  split
  · next same => exact absurd (List.cons.inj same).1 dash
  · next same => exact absurd (List.cons.inj same).1 dot
  · rfl

/-- A letter starts a plain scalar, wherever it stands. -/
theorem tokenHere_letter (s : Scanner) (flat : s.flowCandidates = []) {b : UInt8}
    (letter : isFieldByte b = true) (rest : List Char) :
    s.tokenHere (charOf b) rest = s.plainScalar := by
  have facts : b ≠ Text.byte ' ' ∧ isLeadingMark b = false ∧ charOf b ≠ '-' ∧ charOf b ≠ '?' ∧
      charOf b ≠ ':' :=
    forall_printable (p := fun b => isFieldByte b = true →
      b ≠ Text.byte ' ' ∧ isLeadingMark b = false ∧ charOf b ≠ '-' ∧ charOf b ≠ '?' ∧
        charOf b ≠ ':') (by decide +kernel) (isPrintableByte_of_letter letter) letter
  obtain ⟨space, unmarked, dash, question, colon⟩ := facts
  exact tokenHere_plain s flat (isPrintableByte_of_letter letter) space unmarked
    (by simp [dash, question, colon])

theorem unmarked_of_letter {b : UInt8} (letter : isFieldByte b = true)
    (rest : List Char) : marker? (charOf b :: rest) = none ∧ charOf b ≠ '%' := by
  have facts : charOf b ≠ '-' ∧ charOf b ≠ '.' ∧ charOf b ≠ '%' :=
    forall_printable (p := fun b => isFieldByte b = true →
      charOf b ≠ '-' ∧ charOf b ≠ '.' ∧ charOf b ≠ '%') (by decide +kernel)
      (isPrintableByte_of_letter letter) letter
  obtain ⟨dash, dot, percent⟩ := facts
  exact ⟨marker?_of_ne dash dot rest, percent⟩

/-- The column up to which the further lines of a plain scalar are indented. -/
def scalarIndent (s : Scanner) : Nat :=
  match s.indents with
  | [] => 0
  | column :: _ => column + 1

/-- The scanner behind a plain scalar. -/
def behindPlain (s : Scanner) (text : Text) (broken : Bool) (c : Cursor) : Scanner :=
  { (s.goTo c).push (.scalar text true) s.line with keyAllowed := broken }

theorem plainScalar_of_plain {marked : Scanner} (marking : s.markCandidate = .ok marked)
    (flat : marked.flowCandidates = []) {text : Text} (ascii : ∀ b ∈ text, b < 0x80)
    {broken : Bool} {c : Cursor}
    (scalar : plain false marked.scalarIndent marked.toCursor = .ok (⟨spell text, broken⟩, c)) :
    s.plainScalar = .ok
      (if broken then marked.behindPlain text broken c
        else (marked.behindPlain text broken c).skipComment) := by
  have outside : marked.flow = false := by simp [Scanner.flow, flat]
  have reading : marked.read marked.line (plain marked.flow marked.scalarIndent marked.toCursor) =
      .ok (⟨spell text, broken⟩, marked.goTo c) := by
    rw [outside, scalar]
    rfl
  rw [plainScalar, marking]
  cases shape : marked.indents with
  | nil | cons =>
    simp only [scalarIndent, shape] at reading
    simp only [bind, Except.bind, shape, reading, textOf_spell ascii]
    rfl

/-- The scanner behind a name that may turn out to be a key. -/
def behindName (s : Scanner) (name : Text) (rest : List Char) : Scanner :=
  { s with
    toCursor := ⟨':' :: rest, ⟨s.mark.line, s.mark.column + name.length⟩⟩
    candidate := s.keyHere
    waiting := [(s.nextNumber, 0)]
    keyAllowed := false
    queue := s.queue ++ [⟨.scalar name true, s.mark.line⟩] }

theorem plainScalar_name {name : Text} (simple : isFieldName name = true) {rest : List Char}
    (ends : startsBlank rest = true) (here : s.rest = spell name ++ ':' :: rest)
    (flat : s.flowCandidates = []) (calm : s.candidate.possible = false)
    (waiting : s.waiting = []) (allowed : s.keyAllowed = true) :
    s.plainScalar = .ok (s.behindName name rest) := by
  have ascii : ∀ b ∈ name, b < 0x80 := fun b member =>
    lt_of_isPrintableByte (isFieldName.printable simple b member)
  have whole : s.toCursor = ⟨spell name ++ ':' :: rest, s.mark⟩ := by rw [← here]
  have length : s.rest.length = name.length + rest.length + 1 := by simp [here]; omega
  have scalar (indent : Nat) : plain false indent s.toCursor =
      .ok (⟨spell name, false⟩, ⟨':' :: rest, ⟨s.mark.line, s.mark.column + name.length⟩⟩) := by
    rw [plain, length, whole, plainFrom_fieldName simple ends]
  rw [plainScalar_of_plain (markCandidate_of_calm flat calm waiting allowed) flat ascii (scalar _)]
  rw [if_neg (by decide), skipComment_of_not_faces (by simp [behindPlain, push, goTo, isBlank])]
  rfl

/-- A name is cut in front of its colon. -/
theorem Facing.cut_name {name : Text} (simple : isFieldName name = true) {rest : List Char}
    (ends : startsBlank rest = true) {m : Mark}
    (facing : s.Facing indents queue true ⟨spell name ++ ':' :: rest, m⟩)
    (inside : indents.head?.all (· ≤ m.column) = true) :
    ∃ s', s.cut = .ok s' ∧
      s'.AtColon indents (queue ++ [⟨.scalar name true, m.line⟩]) m name.length rest := by
  obtain ⟨b, more, rfl⟩ : ∃ b more, name = b :: more := by
    cases name with
    | nil => simp [isFieldName] at simple
    | cons b more => exact ⟨b, more, rfl⟩
  have letter := isFieldName.letters simple b List.mem_cons_self
  have facing' : s.Facing indents queue true ⟨charOf b :: (spell more ++ ':' :: rest), m⟩ := facing
  have unmarked : marker? (charOf b :: (spell more ++ ':' :: rest)) = none ∧ charOf b ≠ '%' :=
    unmarked_of_letter letter _
  have scalar := plainScalar_name simple ends
    (s := s.arrive ⟨spell (b :: more) ++ ':' :: rest, m⟩ true) rfl facing.flow facing.calm
    facing.waiting rfl
  refine ⟨_, facing'.toBehind.cut inside (fun _ => unmarked)
    ((tokenHere_letter (s.arrive ⟨spell (b :: more) ++ ':' :: rest, m⟩ true) facing.flow letter
      _).trans scalar) facing.fault, ?_⟩
  exact
    { rest := rfl
      mark := rfl
      fault := facing.fault
      indents := facing.indents
      flow := facing.flow
      queue := congrArg (· ++ _) facing.queue
      number := by simp [behindName, keyHere, nextNumber, arrive, goTo]; omega
      place := rfl
      possible := rfl
      waiting := rfl }

/-- A key that starts at `m` opens a mapping there. -/
def opens (indents : List Nat) (m : Mark) : Bool := !indents.head?.any (m.column ≤ ·)

/-- The open block collections behind a key that starts at `m`. -/
def opened (indents : List Nat) (m : Mark) : List Nat :=
  if opens indents m then m.column :: indents else indents

/-- What stands in front of a key that starts at `m`. -/
def opening (indents : List Nat) (m : Mark) : List Token :=
  if opens indents m then [⟨.blockMappingStart, m.line⟩] else []

theorem insert_behind {front back : List Token} (split : s.queue = front ++ back) {number : Nat}
    (place : number = s.handed + front.length) (kind : TokenKind) (line : Nat) :
    s.insert number kind line = { s with queue := front ++ ⟨kind, line⟩ :: back } := by
  have waits : ¬ number < s.handed := by omega
  have distance : number - s.handed = front.length := by omega
  simp [insert, waits, distance, split]

theorem openAt_behind {front back : List Token} (split : s.queue = front ++ back) {number : Nat}
    (place : number = s.handed + front.length) (flat : s.flowCandidates = [])
    (room : s.indents.length < depthLimit) (m : Mark) :
    s.openAt .blockMappingStart m number =
      .ok { s with
        indents := opened s.indents m
        queue := front ++ (opening s.indents m ++ back) } := by
  have shallow : ¬ depthLimit ≤ s.indents.length := Nat.not_le.mpr room
  by_cases deep : s.indents.head?.any (m.column ≤ ·) = true
  · simp [openAt, deep, opened, opening, opens, ← split]
  · rw [Bool.not_eq_true] at deep
    have pushed := insert_behind (s := { s with indents := m.column :: s.indents }) split place
      .blockMappingStart m.line
    have outside : s.flow = false := by simp [Scanner.flow, flat]
    rw [openAt, outside, deep]
    simp only [Bool.or_self, Bool.false_eq_true, if_false, shallow]
    rw [pushed]
    simp [opened, opening, opens, deep]

/-- The scanner behind the colon of a key that starts at `m`. -/
def behindColon (s : Scanner) (front : List Token) (named : Token) (m : Mark) (length : Nat)
    (rest : List Char) : Scanner :=
  { s with
    toCursor := ⟨rest, ⟨m.line, m.column + length + 1⟩⟩
    indents := opened s.indents m
    candidate := { s.candidate with possible := false }
    waiting := []
    keyAllowed := false
    queue := front ++ (opening s.indents m ++ [⟨.key, m.line⟩, named, ⟨.value, m.line⟩]) }

/-- With its colon a name turns out to be a key. -/
theorem AtColon.value {front : List Token} {named : Token} {m : Mark} {length : Nat}
    {rest : List Char} (colon : s.AtColon indents (front ++ [named]) m length rest)
    (short : length ≤ 1024) (room : indents.length < depthLimit) :
    s.value = .ok (s.behindColon front named m length rest) := by
  have innermost : s.innermost = s.candidate := by simp [Scanner.innermost, colon.flow]
  have place : s.candidate.number = s.handed + front.length := by
    have number := colon.number
    rw [colon.queue, List.length_append, List.length_singleton] at number
    omega
  have early : s.candidate.isLate s.mark = false := by
    simp [Candidate.isLate, colon.place, colon.mark, short]
  have keyed := insert_behind colon.queue place .key m.line
  have opened := openAt_behind
    (s := { s with queue := front ++ [⟨.key, m.line⟩, named] }) rfl place colon.flow
    (colon.indents ▸ room) m
  rw [Scanner.value, innermost]
  simp only [colon.possible, early, colon.place, keyed, opened, bind, Except.bind, Bool.not_false,
    Bool.and_self, if_true, pure, Except.pure]
  simp [behindColon, setInnermost, release, punctuation, push, goTo, Cursor.advance, Cursor.line,
    colon.flow, colon.waiting, colon.rest, colon.mark, colon.place,
    Mark.step_of_not_break (show isBreak ':' = false by decide)]

theorem tokenHere_colon (s : Scanner) (flat : s.flowCandidates = []) {rest : List Char}
    (ends : startsBlank rest = true) :
    s.tokenHere ':' rest = s.value.map skipComment := by
  have outside : s.flow = false := by simp [flow, flat]
  simp only [tokenHere, outside, ends]
  cases s.value <;> rfl

/-- A colon is cut, and with it the key in front of it. -/
theorem AtColon.cut (front : List Token) {named : Token} {m : Mark} {length : Nat}
    {rest : List Char} (colon : s.AtColon indents (front ++ [named]) m length rest)
    (short : length ≤ 1024) (room : indents.length < depthLimit)
    (inside : indents.head?.all (· ≤ m.column) = true) (ends : startsBlank rest = true)
    (clear : (rest.dropWhile isBlank).head? ≠ some '#') {c : Cursor}
    (next : layout false .blank false ⟨m.line, m.column + length + 1⟩ rest = (keyAllowed, c)) :
    ∃ s', s.cut = .ok s' ∧
      s'.Facing (opened indents m)
        (front ++ (opening indents m ++ [⟨.key, m.line⟩, named, ⟨.value, m.line⟩]))
        keyAllowed c := by
  have behind : s.Behind indents s.keyAllowed ⟨':' :: rest, s.mark⟩ := by
    refine ⟨?_, colon.fault, colon.indents, colon.flow⟩
    rw [colon.rest]
    exact layout_of_clear (.cons (by decide) (by decide) rest) _ _
  have inside' : indents.head?.all (· ≤ s.mark.column) = true := by
    rw [colon.mark]
    cases indents with
    | nil => rfl
    | cons i outer =>
      have shallow : i ≤ m.column := by simpa using inside
      simp only [List.head?_cons, Option.all_some, decide_eq_true_eq]
      omega
  have same : s.arrive ⟨':' :: rest, s.mark⟩ s.keyAllowed = s := by
    rw [← colon.rest]
    rfl
  have token : s.tokenHere ':' rest = .ok (s.behindColon front named m length rest) := by
    rw [tokenHere_colon s colon.flow ends, colon.value short room]
    exact congrArg Except.ok (skipComment_of_not_faces clear)
  rw [← same] at token
  refine ⟨_, behind.cut inside' (fun _ => ⟨marker?_of_ne (by decide) (by decide) rest, by decide⟩)
    token colon.fault, ?_⟩
  rw [same]
  exact
    { layout := next
      fault := colon.fault
      indents := congrArg (opened · m) colon.indents
      flow := colon.flow
      calm := rfl
      waiting := rfl
      queue := by rw [behindColon, colon.indents] }

/-! ### Values -/

theorem tokenHere_written (s : Scanner) (flat : s.flowCandidates = []) {b : UInt8} {more : Text}
    (stands : StandsPlain (b :: more)) {tail : List Char} (ends : startsBreak tail = true) :
    s.tokenHere (charOf b) (spell more ++ tail) = s.plainScalar := by
  have leading := stands.leading
  simp only [leadingMark, Bool.or_eq_false_iff] at leading
  refine tokenHere_plain s flat (stands.printable b List.mem_cons_self)
    (by simpa using stands.front) leading.1 fun mark => ?_
  simp only [charOf_eq_iff (c := '-') (by decide), charOf_eq_iff (c := '?') (by decide),
    charOf_eq_iff (c := ':') (by decide)] at mark
  rw [startsBlank_spell (fun c member => stands.printable c (List.mem_cons_of_mem _ member)) ends]
  obtain rfl | rfl | rfl := mark <;> simpa using leading.2

theorem plainScalar_written {text : Text} (stands : StandsPlain text) {column k : Nat}
    (shallow : k ≤ column) {outer : List Nat} {tail : List Char} (clear : Clear tail)
    (here : s.rest = spell text ++ '\n' :: (margin k ++ tail)) (flat : s.flowCandidates = [])
    (indented : s.indents = column :: outer) (allowed : s.keyAllowed = false) :
    s.plainScalar = .ok (s.behindPlain text true ⟨tail, ⟨s.mark.line + 1, k⟩⟩) := by
  have whole : s.toCursor = ⟨spell text ++ '\n' :: (margin k ++ tail), s.mark⟩ := by rw [← here]
  have enough : text.length < s.rest.length := by
    simp [here]
  have scalar : plain false s.scalarIndent s.toCursor =
      .ok (⟨spell text, true⟩, ⟨tail, ⟨s.mark.line + 1, k⟩⟩) := by
    rw [plain, scalarIndent, indented, whole]
    exact plainFrom_spell stands.printable stands.innerMark stands.back (Nat.lt_succ_of_le shallow)
      clear.noLayout (by rwa [whole] at enough) s.mark
  exact plainScalar_of_plain (markCandidate_of_not_allowed allowed) flat stands.printable.ascii
    scalar

/-- The scanner behind a scalar in quotes. -/
def behindQuoted (s : Scanner) (text : Text) (c : Cursor) : Scanner :=
  { (s.goTo c).push (.scalar text false) s.line with keyAllowed := false }

/-- A scalar in quotes is read where no key may start. -/
theorem keyPart_quoted {read : Nat → Cursor → Reading (List Char × Cursor)} {quote : Char}
    {inside : UInt8 → Text} {tail : List Char} (reads : ReadsQuoted read quote inside tail)
    (how : ∀ c, quoted quote c = read (c.rest.length + 1) c) {text : Text}
    (printable : Printable text) (unbroken : isBreak quote = false)
    (here : s.rest = quote :: (spell (text.flatMap inside) ++ quote :: tail))
    (allowed : s.keyAllowed = false) :
    ∃ column, s.keyPart (readQuoted quote) =
      .ok (s.behindQuoted text ⟨tail, ⟨s.mark.line, column⟩⟩) := by
  have start : s.advance 1 =
      ⟨spell (text.flatMap inside) ++ quote :: tail, ⟨s.mark.line, s.mark.column + 1⟩⟩ := by
    simp [Cursor.advance, here, Mark.step_of_not_break unbroken]
  have enough : text.length < (spell (text.flatMap inside) ++ quote :: tail).length + 1 := by
    have least := reads.length_le text
    simp only [List.length_append, length_spell]
    omega
  obtain ⟨column, whole⟩ := reads.read_spell printable enough ⟨s.mark.line, s.mark.column + 1⟩
  refine ⟨column, ?_⟩
  rw [keyPart, markCandidate_of_not_allowed allowed]
  simp only [bind, Except.bind, readQuoted, start, how, whole, Except.map, Scanner.read,
    textOf_spell printable.ascii]
  rfl

/-- The scanner behind a value, when the next line starts no deeper. -/
theorem Facing.behind_plain {c : Cursor} (facing : s.Facing indents queue false c) {text : Text}
    {tail : List Char} (clear : Clear tail) (m : Mark) :
    ((s.arrive c false).behindPlain text true ⟨tail, m⟩).Facing indents
      (queue ++ [⟨.scalar text true, c.mark.line⟩]) true ⟨tail, m⟩ where
  layout := layout_of_clear clear true m
  fault := facing.fault
  indents := facing.indents
  flow := facing.flow
  calm := facing.calm
  waiting := facing.waiting
  queue := congrArg (· ++ _) facing.queue

/-- The scanner behind the closing quote of a value. -/
theorem Facing.behind_quoted {c : Cursor} (facing : s.Facing indents queue false c) {text : Text}
    {tail : List Char} (clear : Clear tail) (k : Nat) (m : Mark) :
    ((s.arrive c false).behindQuoted text ⟨'\n' :: (margin k ++ tail), m⟩).Facing indents
      (queue ++ [⟨.scalar text false, c.mark.line⟩]) true ⟨tail, ⟨m.line + 1, k⟩⟩ where
  layout := layout_lineEnd clear false k m
  fault := facing.fault
  indents := facing.indents
  flow := facing.flow
  calm := facing.calm
  waiting := facing.waiting
  queue := congrArg (· ++ _) facing.queue

theorem tokenHere_quote (s : Scanner) (rest : List Char) :
    s.tokenHere '\x27' rest = (s.keyPart (readQuoted '\x27')).map skipComment := by
  cases read : s.keyPart (readQuoted '\x27') <;> simp [tokenHere, read] <;> rfl

theorem tokenHere_doubleQuote (s : Scanner) (rest : List Char) :
    s.tokenHere '\x22' rest = (s.keyPart (readQuoted '\x22')).map skipComment := by
  cases read : s.keyPart (readQuoted '\x22') <;> simp [tokenHere, read] <;> rfl

/-- A scalar in quotes is cut, whatever the quotes. -/
theorem Facing.cut_quoted {read : Nat → Cursor → Reading (List Char × Cursor)} {quote : Char}
    {inside : UInt8 → Text} {tail : List Char} {k : Nat}
    (reads : ReadsQuoted read quote inside ('\n' :: (margin k ++ tail)))
    (how : ∀ c, quoted quote c = read (c.rest.length + 1) c)
    (start : ∀ (s : Scanner) (rest : List Char), s.tokenHere quote rest =
      (s.keyPart (readQuoted quote)).map skipComment)
    (unbroken : isBreak quote = false) {text : Text} (printable : Printable text)
    (clear : Clear tail) {m : Mark}
    (facing : s.Facing indents queue false
      ⟨quote :: (spell (text.flatMap inside) ++ quote :: '\n' :: (margin k ++ tail)), m⟩)
    (below : indents.head?.all (· ≤ m.column) = true) (away : m.column ≠ 0) :
    ∃ s', s.cut = .ok s' ∧
      s'.Facing indents (queue ++ [⟨.scalar text false, m.line⟩]) true ⟨tail, ⟨m.line + 1, k⟩⟩ := by
  generalize cursor : spell (text.flatMap inside) ++ quote :: '\n' :: (margin k ++ tail) = scalar
    at facing
  obtain ⟨column, read⟩ := keyPart_quoted reads how printable unbroken
    (s := s.arrive ⟨quote :: scalar, m⟩ false) (congrArg (quote :: ·) cursor.symm) rfl
  have token := start (s.arrive ⟨quote :: scalar, m⟩ false) scalar
  rw [read] at token
  exact ⟨_, facing.toBehind.cut below (fun first => absurd first away)
    (token.trans (congrArg Except.ok (skipComment_of_not_faces
      (by simp [behindQuoted, push, goTo, isBlank])))) facing.fault, facing.behind_quoted clear k _⟩

/-- A scalar that stands behind a colon is cut, whatever its form. -/
theorem Facing.cut_scalar {written text : Text} {plain : Bool} (form : Written written text plain)
    {column k : Nat} {outer : List Nat} (shallow : k ≤ column) {tail : List Char}
    (clear : Clear tail) {m : Mark}
    (facing : s.Facing (column :: outer) queue false
      ⟨spell written ++ '\n' :: (margin k ++ tail), m⟩) (inside : column < m.column) :
    ∃ s', s.cut = .ok s' ∧
      s'.Facing (column :: outer) (queue ++ [⟨.scalar text plain, m.line⟩]) true
        ⟨tail, ⟨m.line + 1, k⟩⟩ := by
  have inside' : (column :: outer).head?.all (· ≤ m.column) = true := by
    simpa using Nat.le_of_lt inside
  have away : m.column ≠ 0 := by omega
  cases form with
  | plain stands =>
    obtain ⟨b, more, rfl⟩ := List.exists_cons_of_ne_nil stands.nonempty
    have broken : startsBreak ('\n' :: (margin k ++ tail)) = true := rfl
    have token := (tokenHere_written
      (s.arrive ⟨spell (b :: more) ++ '\n' :: (margin k ++ tail), m⟩ false) facing.flow stands
      broken).trans
      (plainScalar_written stands shallow clear rfl facing.flow facing.indents rfl)
    exact ⟨_, facing.toBehind.cut inside' (fun first => absurd first away) token facing.fault,
      facing.behind_plain clear _⟩
  | single printable =>
    have facing' : s.Facing (column :: outer) queue false ⟨'\x27' ::
        (spell (text.flatMap insideSingle) ++ '\x27' :: '\n' :: (margin k ++ tail)), m⟩ := by
      simpa [show charOf 0x27 = '\x27' by decide] using facing
    exact facing'.cut_quoted (readsQuoted_single (by simp)) (fun _ => rfl) tokenHere_quote rfl
      printable clear inside' away
  | double printable =>
    have facing' : s.Facing (column :: outer) queue false ⟨'\x22' ::
        (spell (text.flatMap insideDouble) ++ '\x22' :: '\n' :: (margin k ++ tail)), m⟩ := by
      simpa [show charOf 0x22 = '\x22' by decide] using facing
    exact facing'.cut_quoted readsQuoted_double (fun _ => rfl) tokenHere_doubleQuote rfl printable
      clear inside' away

end Scanner

end NumScript.Yaml

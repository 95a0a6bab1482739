import NumScript.Proofs.Yaml.Delivering

/-! The tokens of mappings. An entry of a mapping stands on a line of its own, a name and a scalar
with a colon between them; the entries of an inner mapping are indented below the name it has. -/

namespace NumScript.Yaml

/-- An entry of a mapping: a name, and a scalar in the form in which it is written. -/
structure Entry where
  name : Text
  written : Text
  text : Text
  plain : Bool
  simple : isFieldName name = true
  short : name.length ≤ 1024
  form : Written written text plain

namespace Entry

/-- The characters of the line. -/
def chars (e : Entry) : List Char := spell e.name ++ ':' :: ' ' :: spell e.written

/-- The tokens of the entry on a line. -/
def tokens (e : Entry) (line : Nat) : List Token :=
  [⟨.key, line⟩, ⟨.scalar e.name true, line⟩, ⟨.value, line⟩, ⟨.scalar e.text e.plain, line⟩]

end Entry

namespace Scanner

variable {depth n : Nat} {indents : List Nat} {queue tokens : List Token} {keyAllowed : Bool}
  {c : Cursor} {m : Mark} {s : Scanner}

theorem Clear.dropWhile_isBlank {chars : List Char} (clear : Clear chars) :
    chars.dropWhile isBlank = chars := by
  cases chars with
  | nil => rfl
  | cons c rest =>
    have calm : isLayout c = false := by simpa [NoLayout] using clear.noLayout
    rw [List.dropWhile_cons_of_neg (by simp [(Bool.or_eq_false_iff.mp calm).1])]

theorem clear_fieldName {name : Text} (simple : isFieldName name = true) (rest : List Char) :
    Clear (spell name ++ rest) := by
  cases name with
  | nil => simp [isFieldName] at simple
  | cons b more =>
    have letter := isFieldName.letters simple b List.mem_cons_self
    have facts : b ≠ Text.byte ' ' ∧ b ≠ Text.byte '#' := by
      constructor <;> (rintro rfl; revert letter; decide)
    exact .cons (by simp [isLayout_charOf (isPrintableByte_of_letter letter), facts.1])
      (by rw [Ne, charOf_eq_iff (by decide)]; exact facts.2) _

theorem clear_written {written text : Text} {plain : Bool} (form : Written written text plain)
    (rest : List Char) : Clear (spell written ++ rest) := by
  cases form with
  | plain stands =>
    obtain ⟨b, more, rfl⟩ := List.exists_cons_of_ne_nil stands.nonempty
    have printable := stands.printable b List.mem_cons_self
    have unmarked := stands.innerMark
    simp only [innerMark, Bool.or_eq_false_iff] at unmarked
    have hash : b ≠ Text.byte '#' := by simpa using unmarked.1.2
    have other : b ≠ Text.byte ' ' := by simpa using stands.front
    exact .cons (by simp [isLayout_charOf printable, other])
      (by rwa [Ne, charOf_eq_iff (by decide)]) _
  | single => exact .cons (by decide) (by decide) _
  | double => exact .cons (by decide) (by decide) _

/-- A scalar behind a colon. -/
theorem Delivers.scalar {written text : Text} {plain : Bool} (form : Written written text plain)
    {column k : Nat} {outer : List Nat} (shallow : k ≤ column) {tail : List Char}
    (clear : Clear tail) (inside : column < m.column) {a b : Token} (goesOn : a.kind ≠ .streamEnd)
    (later : Delivers depth (column :: outer) [b, ⟨.scalar text plain, m.line⟩] true
      ⟨tail, ⟨m.line + 1, k⟩⟩ n tokens) :
    Delivers depth (column :: outer) [a, b] false
      ⟨spell written ++ '\n' :: (margin k ++ tail), m⟩ (n + 2)
      (⟨.scalar text plain, m.line⟩ :: tokens) := by
  intro s fuel facing enough
  obtain ⟨s', cut, next⟩ := facing.cut_scalar form shallow clear inside
  obtain ⟨fuel, rfl⟩ := Nat.exists_eq_add_of_le' (show 1 ≤ fuel by omega)
  obtain ⟨ending, closes, run⟩ := later.drain [a] (by simpa using goesOn) s' fuel next
    (by rw [List.length_singleton]; omega)
  refine ⟨ending, closes, ?_⟩
  rw [run_cut (by simp [facing.queue]) cut, run]
  rfl

/-- A colon behind a name that may be a key. -/
theorem AtColon.run {t named : Token} {length : Nat} {rest : List Char}
    (colon : s.AtColon indents [t, named] m length rest) (short : length ≤ 1024)
    (room : indents.length < depthLimit) (inside : indents.head?.all (· ≤ m.column) = true)
    (ends : startsBlank rest = true) (clear : (rest.dropWhile isBlank).head? ≠ some '#')
    (next : layout false .blank false ⟨m.line, m.column + length + 1⟩ rest = (keyAllowed, c))
    (goesOn : t.kind ≠ .streamEnd)
    (later : Delivers depth (opened indents m) [named, ⟨.value, m.line⟩] keyAllowed c n tokens)
    (fuel : Nat) (enough : n + 4 ≤ fuel) :
    ∃ ending, Closes depth ending ∧ s.run fuel =
      (t :: (opening indents m ++ (⟨.key, m.line⟩ :: named :: ⟨.value, m.line⟩ :: tokens) ++
        ending), none) := by
  obtain ⟨s', cut, facing⟩ := colon.cut [t] short room inside ends clear next
  obtain ⟨fuel, rfl⟩ := Nat.exists_eq_add_of_le' (show 1 ≤ fuel by omega)
  have split : [t] ++ (opening indents m ++ [⟨.key, m.line⟩, named, ⟨.value, m.line⟩]) =
      (t :: (opening indents m ++ [⟨.key, m.line⟩])) ++ [named, ⟨.value, m.line⟩] := by simp
  rw [split] at facing
  have few : (opening indents m).length ≤ 1 := by
    rw [opening]
    split <;> simp
  have open_ : ∀ u ∈ t :: (opening indents m ++ [⟨.key, m.line⟩]), u.kind ≠ .streamEnd := by
    have opens : ∀ u ∈ opening indents m, u.kind ≠ .streamEnd := by
      rw [opening]
      split <;> simp
    simp only [List.forall_mem_cons, List.forall_mem_append]
    exact ⟨goesOn, opens, by simp⟩
  obtain ⟨ending, closes, run⟩ := later.drain _ open_ s' fuel facing (by simp; omega)
  refine ⟨ending, closes, ?_⟩
  rw [run_cut (by simp [colon.queue]) cut, run]
  simp

theorem AtColon.pop {t : Token} {length : Nat} {rest : List Char}
    (colon : s.AtColon indents (t :: queue) m length rest) :
    (s.pop queue).AtColon indents queue m length rest :=
  { colon with
    queue := rfl
    number := by
      have number := colon.number
      rw [colon.queue, List.length_cons] at number
      simp only [Scanner.pop]
      omega }

/-- The name is not the first token in the queue. -/
theorem AtColon.lookup {t : Token} {length : Nat} {rest : List Char}
    (colon : s.AtColon indents (t :: queue) m length rest) (filled : queue ≠ []) :
    s.waiting.lookup s.handed = none := by
  have number := colon.number
  have behind := List.length_pos_iff.mpr filled
  rw [colon.queue, List.length_cons] at number
  have other : (s.handed == s.candidate.number) = false := by
    rw [beq_eq_false_iff_ne]
    omega
  rw [colon.waiting, List.lookup_cons, other]
  rfl

/-- The queue in front of a line: it holds one token or two. -/
structure Ready (queue : List Token) : Prop where
  filled : queue ≠ []
  short : queue.length < 3
  goesOn : ∀ t ∈ queue, t.kind ≠ .streamEnd

/-- A name with its colon. -/
theorem Delivers.key {name : Text} (simple : isFieldName name = true) (short : name.length ≤ 1024)
    {rest : List Char} (ends : startsBlank rest = true)
    (clear : (rest.dropWhile isBlank).head? ≠ some '#')
    (next : layout false .blank false ⟨m.line, m.column + name.length + 1⟩ rest = (keyAllowed, c))
    (room : indents.length < depthLimit) (inside : indents.head?.all (· ≤ m.column) = true)
    (ready : Ready queue)
    (later : Delivers depth (opened indents m) [⟨.scalar name true, m.line⟩, ⟨.value, m.line⟩]
      keyAllowed c n tokens) :
    Delivers depth indents queue true ⟨spell name ++ ':' :: rest, m⟩ (n + 6)
      (opening indents m ++ (⟨.key, m.line⟩ :: ⟨.scalar name true, m.line⟩ :: ⟨.value, m.line⟩ ::
        tokens)) := by
  intro s fuel facing enough
  obtain ⟨s', cut, colon⟩ := facing.cut_name simple ends inside
  obtain ⟨fuel, rfl⟩ := Nat.exists_eq_add_of_le' (show 1 ≤ fuel by omega)
  rw [run_cut (by rw [facing.queue]; exact ready.short) cut]
  match queue, ready, colon with
  | [t], ready, colon =>
    obtain ⟨ending, closes, run⟩ := AtColon.run colon short room inside ends clear next
      (ready.goesOn t List.mem_cons_self) later fuel (by omega)
    exact ⟨ending, closes, run⟩
  | [t, u], ready, colon =>
    -- The first token is handed out before the colon is cut.
    obtain ⟨fuel, rfl⟩ := Nat.exists_eq_add_of_le' (show 1 ≤ fuel by omega)
    obtain ⟨ending, closes, run⟩ := AtColon.run colon.pop short room inside ends clear next
      (ready.goesOn u (by simp)) later fuel (by omega)
    refine ⟨ending, closes, ?_⟩
    rw [run_pop colon.queue (by simp) (colon.lookup nofun) (ready.goesOn t List.mem_cons_self),
      run]
    rfl

/-- The innermost collection behind a key is the one that the key is in. -/
theorem opened_eq_cons (inside : indents.head?.all (· ≤ m.column) = true) :
    ∃ outer, opened indents m = m.column :: outer := by
  rw [opened, opens]
  cases indents with
  | nil => exact ⟨[], rfl⟩
  | cons column outer =>
    have shallow : column ≤ m.column := by simpa using inside
    by_cases same : m.column ≤ column
    · obtain rfl := Nat.le_antisymm shallow same
      exact ⟨outer, by simp⟩
    · exact ⟨column :: outer, by simp [same]⟩

/-- An entry on a line of its own. -/
theorem Delivers.entry (e : Entry) {k : Nat} (shallow : k ≤ m.column) {tail : List Char}
    (clear : Clear tail) (room : indents.length < depthLimit)
    (inside : indents.head?.all (· ≤ m.column) = true) (ready : Ready queue)
    (later : Delivers depth (opened indents m)
      [⟨.value, m.line⟩, ⟨.scalar e.text e.plain, m.line⟩] true ⟨tail, ⟨m.line + 1, k⟩⟩ n tokens) :
    Delivers depth indents queue true ⟨e.chars ++ '\n' :: (margin k ++ tail), m⟩ (n + 8)
      (opening indents m ++ (e.tokens m.line ++ tokens)) := by
  obtain ⟨outer, same⟩ := opened_eq_cons inside
  have name : e.chars ++ '\n' :: (margin k ++ tail) =
      spell e.name ++ ':' :: ' ' :: (spell e.written ++ '\n' :: (margin k ++ tail)) := by
    simp [Entry.chars]
  have clear' := clear_written e.form ('\n' :: (margin k ++ tail))
  have next : layout false .blank false ⟨m.line, m.column + e.name.length + 1⟩
      (' ' :: (spell e.written ++ '\n' :: (margin k ++ tail))) =
      (false, ⟨spell e.written ++ '\n' :: (margin k ++ tail),
        ⟨m.line, m.column + e.name.length + 2⟩⟩) := by
    have space := layout_margin false 1 ⟨m.line, m.column + e.name.length + 1⟩
      (spell e.written ++ '\n' :: (margin k ++ tail))
    exact space.trans (layout_of_clear clear' false _)
  rw [name]
  have uncommented : ((' ' :: (spell e.written ++ '\n' :: (margin k ++ tail))).dropWhile
      isBlank).head? ≠ some '#' := by
    rw [List.dropWhile_cons_of_pos (by decide), clear'.dropWhile_isBlank]
    exact clear'.noComment
  rw [same] at later
  have value : Delivers depth (opened indents m)
      [⟨.scalar e.name true, m.line⟩, ⟨.value, m.line⟩] false
      ⟨spell e.written ++ '\n' :: (margin k ++ tail), ⟨m.line, m.column + e.name.length + 2⟩⟩
      (n + 2) (⟨.scalar e.text e.plain, m.line⟩ :: tokens) := by
    rw [same]
    exact Delivers.scalar e.form shallow clear (by simp only; omega) (by simp) later
  exact Delivers.key e.simple e.short rfl uncommented next room inside ready value

/-! ### Lines -/

/-- Between two lines, whatever the line before has left in the queue. -/
def Awaits (depth : Nat) (indents : List Nat) (c : Cursor) (n : Nat) (tokens : List Token) : Prop :=
  ∀ queue, Ready queue → Delivers depth indents queue true c n tokens

theorem Ready.pair {a b : Token} (first : a.kind ≠ .streamEnd) (second : b.kind ≠ .streamEnd) :
    Ready [a, b] :=
  ⟨nofun, by simp, by simp [first, second]⟩

theorem awaits_end (indents : List Nat) (line : Nat) :
    Awaits indents.length indents ⟨[], ⟨line, 0⟩⟩ (indents.length + 6) [] := by
  intro queue ready s fuel facing enough
  have few := ready.short
  exact delivers_end rfl ready.goesOn ready.short s fuel facing (by omega)

theorem Awaits.entry (e : Entry) (indents : List Nat) (m : Mark) {k : Nat}
    (shallow : k ≤ m.column) {tail : List Char} (clear : Clear tail)
    (room : indents.length < depthLimit) (inside : indents.head?.all (· ≤ m.column) = true)
    (later : Awaits depth (opened indents m) ⟨tail, ⟨m.line + 1, k⟩⟩ n tokens) :
    Awaits depth indents ⟨e.chars ++ '\n' :: (margin k ++ tail), m⟩ (n + 8)
      (opening indents m ++ (e.tokens m.line ++ tokens)) := fun _ ready =>
  .entry e shallow clear room inside ready (later _ (.pair nofun nofun))

/-- A name with an inner mapping below it. -/
theorem Awaits.inner {name : Text} (simple : isFieldName name = true) (short : name.length ≤ 1024)
    (indents : List Nat) (m : Mark) {k : Nat} {inner : List Char} (clear : Clear inner)
    (room : indents.length < depthLimit) (inside : indents.head?.all (· ≤ m.column) = true)
    (later : Awaits depth (opened indents m) ⟨inner, ⟨m.line + 1, k⟩⟩ n tokens) :
    Awaits depth indents ⟨spell name ++ ':' :: '\n' :: (margin k ++ inner), m⟩ (n + 6)
      (opening indents m ++ (⟨.key, m.line⟩ :: ⟨.scalar name true, m.line⟩ :: ⟨.value, m.line⟩ ::
        tokens)) := fun _ ready =>
  .key simple short rfl (by simp [isBlank]) (layout_lineEnd clear false k _) room inside ready
    (later _ (.pair nofun nofun))

end Scanner

namespace Entry

/-- The characters of entries, each with the end of its line and the indent of the next one. -/
def lines (k : Nat) (entries : List Entry) : List Char :=
  entries.flatMap fun e => e.chars ++ '\n' :: margin k

/-- The tokens of entries on lines that follow each other. -/
def tokensFrom : Nat → List Entry → List Token
  | _, [] => []
  | line, e :: rest => e.tokens line ++ tokensFrom (line + 1) rest

theorem clear (e : Entry) (rest : List Char) : Scanner.Clear (e.chars ++ rest) := by
  rw [chars, List.append_assoc]
  exact Scanner.clear_fieldName e.simple _

theorem clear_lines (k : Nat) (entries : List Entry) {tail : List Char}
    (clear : Scanner.Clear tail) : Scanner.Clear (lines k entries ++ tail) := by
  cases entries with
  | nil => exact clear
  | cons e rest =>
    rw [lines, List.flatMap_cons, List.append_assoc, List.append_assoc]
    exact e.clear _

theorem lines_cons (k : Nat) (e : Entry) (rest : List Entry) (tail : List Char) :
    lines k (e :: rest) ++ tail = e.chars ++ '\n' :: (margin k ++ (lines k rest ++ tail)) := by
  simp [lines]

end Entry

namespace Scanner

@[simp]
theorem opened_self (k line : Nat) (outer : List Nat) :
    opened (k :: outer) ⟨line, k⟩ = k :: outer := by
  simp [opened, opens]

@[simp]
theorem opening_self (k line : Nat) (outer : List Nat) : opening (k :: outer) ⟨line, k⟩ = [] := by
  simp [opening, opens]

/-- Entries in the column of the innermost collection. -/
theorem Awaits.entries (entries : List Entry) {k : Nat} (line : Nat) {outer : List Nat}
    {tail : List Char} (clear : Clear tail) (room : (k :: outer).length < depthLimit)
    (later : Awaits depth (k :: outer) ⟨tail, ⟨line + entries.length, k⟩⟩ n tokens) :
    Awaits depth (k :: outer) ⟨Entry.lines k entries ++ tail, ⟨line, k⟩⟩ (n + 8 * entries.length)
      (Entry.tokensFrom line entries ++ tokens) := by
  induction entries generalizing line with
  | nil => exact later
  | cons e rest ih =>
    have lines : line + 1 + rest.length = line + (e :: rest).length := by
      rw [List.length_cons]
      omega
    have below := ih (line + 1) (lines.symm ▸ later)
    have here := Awaits.entry e (k :: outer) ⟨line, k⟩ (Nat.le_refl k)
      (Entry.clear_lines k rest clear) room (by simp) (by rwa [opened_self])
    rw [opening_self, List.nil_append, ← Entry.lines_cons] at here
    rw [Entry.tokensFrom, List.append_assoc, List.length_cons, Nat.mul_succ, ← Nat.add_assoc]
    exact here

end Scanner

end NumScript.Yaml

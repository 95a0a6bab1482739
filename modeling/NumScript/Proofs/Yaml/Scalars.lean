import NumScript.Proofs.Yaml.Ascii
import NumScript.Yaml.Token.Scalar

/-! Scalars in printable ASCII are read back as they were written, whether they stand plainly, in
single quotes or in double quotes. A plain scalar is read word by word, a quoted one byte by byte;
in both a run of spaces stands for itself as long as the line goes on. -/

namespace NumScript.Yaml

/-- A text whose bytes are all printable. -/
def Printable (s : Text) : Prop := ∀ b ∈ s, Text.isPrintableByte b = true

/-- Spaces in front of a line or inside it. -/
def margin (n : Nat) : List Char := List.replicate n ' '

@[simp]
theorem margin_zero : margin 0 = [] := rfl

/-! ### Places -/

theorem Mark.step_of_not_break {c : Char} (stays : isBreak c = false) (m : Mark) :
    m.step c = ⟨m.line, m.column + 1⟩ := by
  simp [step, stays]

/-- Characters other than line breaks lead on in their line. -/
theorem Mark.foldl_step {chars : List Char} (line : ∀ c ∈ chars, isBreak c = false) (m : Mark) :
    chars.foldl Mark.step m = ⟨m.line, m.column + chars.length⟩ := by
  induction chars generalizing m with
  | nil => rfl
  | cons c rest ih =>
    obtain ⟨first, below⟩ := List.forall_mem_cons.mp line
    rw [List.foldl_cons, step_of_not_break first, ih below, List.length_cons]
    exact congrArg (Mark.mk m.line) (by simp only; omega)

theorem Cursor.advance_append {front : List Char} (line : ∀ c ∈ front, isBreak c = false)
    (rest : List Char) (m : Mark) :
    (⟨front ++ rest, m⟩ : Cursor).advance front.length =
      ⟨rest, ⟨m.line, m.column + front.length⟩⟩ := by
  simp [advance, Mark.foldl_step line]

theorem isBreak_of_mem_spell {s : Text} (printable : Printable s) :
    ∀ c ∈ spell s, isBreak c = false := fun c member => by
  obtain ⟨b, inside, rfl⟩ := List.mem_map.mp member
  exact isBreak_charOf (printable b inside)

theorem Cursor.advance_spell {s : Text} (printable : Printable s) (rest : List Char) (m : Mark) :
    (⟨spell s ++ rest, m⟩ : Cursor).advance s.length = ⟨rest, ⟨m.line, m.column + s.length⟩⟩ := by
  simpa using advance_append (isBreak_of_mem_spell printable) rest m

theorem isBreak_of_mem_margin {n : Nat} : ∀ c ∈ margin n, isBreak c = false := fun c member => by
  rw [List.eq_of_mem_replicate member]
  decide

/-! ### Runs of spaces -/

/-- The characters do not start with a blank or a line break. -/
def NoLayout (chars : List Char) : Prop := chars.head?.any isLayout = false

theorem takeWhile_margin {rest : List Char} (stops : NoLayout rest) (n : Nat) :
    (margin n ++ rest).takeWhile isLayout = margin n := by
  have spaces : ∀ c ∈ margin n, isLayout c = true := fun c member => by
    rw [List.eq_of_mem_replicate member]
    decide
  rw [List.takeWhile_append_of_pos spaces]
  cases rest with
  | nil => simp
  | cons c more =>
    rw [List.takeWhile_cons_of_neg (by simpa [NoLayout] using stops), List.append_nil]

theorem folded_margin (n : Nat) : folded (margin n) = margin n := by
  have unbroken : breaksIn (margin n) = [] := by
    simp only [breaksIn, List.map_eq_nil_iff, List.filter_eq_nil_iff]
    exact fun c member => by simp [isBreak_of_mem_margin c member]
  rw [folded, unbroken]

theorem skipRun_of_noLayout {rest : List Char} (stops : NoLayout rest) (indent : Nat) (fresh : Bool)
    (m : Mark) : skipRun indent fresh m rest = .ok ⟨rest, m⟩ := by
  cases rest with
  | nil => rfl
  | cons c more =>
    have calm : isLayout c = false := by simpa [NoLayout] using stops
    simp only [isLayout, Bool.or_eq_false_iff] at calm
    obtain ⟨blank, unbroken⟩ := calm
    have tab : c ≠ '\t' := by rintro rfl; simp [isBlank] at blank
    simp [skipRun, blank, unbroken, tab]

theorem skipRun_margin (indent : Nat) (fresh : Bool) (m : Mark) (rest : List Char) (n : Nat) :
    skipRun indent fresh m (margin n ++ rest) =
      skipRun indent fresh ⟨m.line, m.column + n⟩ rest := by
  induction n generalizing m with
  | zero => rfl
  | succ n ih =>
    rw [margin, List.replicate_succ, List.cons_append, ← margin, skipRun]
    have column : m.column + 1 + n = m.column + (n + 1) := by omega
    simp only [show isBreak ' ' = false by decide, show isBlank ' ' = true by decide,
      show decide (' ' = '\t') = false by decide, Bool.false_and, Bool.false_eq_true, if_false,
      if_true]
    rw [ih, Mark.step_of_not_break (by decide), column]

/-! ### Plain scalars -/

theorem startsBlank_spell {s : Text} (printable : Printable s) {tail : List Char}
    (ends : startsBreak tail = true) : startsBlank (spell s ++ tail) = beforeBlank s := by
  cases s with
  | nil =>
    cases tail with
    | nil => rfl
    | cons c more =>
      have broken : isBreak c = true := ends
      simp [startsBlank, isLayout, broken, beforeBlank]
  | cons b rest =>
    have here := printable b List.mem_cons_self
    have tab : b ≠ 9 := by rintro rfl; revert here; decide
    simp [startsBlank, isLayout_charOf here, beforeBlank, isBlankByte, tab]

/-- A plain word ends at the next space or line break. -/
theorem plainWord_spell {s : Text} (printable : Printable s) {afterBlank : Bool}
    (unmarked : innerMark afterBlank s = false) {tail : List Char}
    (ends : startsBreak tail = true) :
    plainWord false (spell s ++ tail) = spell (s.takeWhile (· ≠ Text.byte ' ')) := by
  induction s generalizing afterBlank with
  | nil =>
    cases tail with
    | nil => rfl
    | cons c more =>
      have broken : isBreak c = true := ends
      simp [plainWord, isLayout, broken]
  | cons b rest ih =>
    obtain ⟨here, below⟩ := List.forall_mem_cons.mp printable
    simp only [innerMark, Bool.or_eq_false_iff] at unmarked
    obtain ⟨⟨colon, -⟩, later⟩ := unmarked
    rw [spell_cons, List.cons_append, plainWord, isLayout_charOf here]
    by_cases space : b = Text.byte ' '
    · simp [space]
    · have goesOn : endsPlain false (charOf b) (spell rest ++ tail) = false := by
        simp only [endsPlain, startsBlank_spell below ends, Bool.false_and, Bool.or_false]
        simpa only [charOf_eq_iff (c := ':') (by decide)] using colon
      simp [space, goesOn, ih below later]

/-- Every text is a word, spaces, and a rest that starts with no space; without spaces there is no
rest. -/
theorem exists_word (s : Text) :
    ∃ word n rest, s = word ++ List.replicate n (Text.byte ' ') ++ rest ∧
      s.takeWhile (· ≠ Text.byte ' ') = word ∧ rest.head? ≠ some (Text.byte ' ') ∧
      (n = 0 → rest = []) := by
  induction s with
  | nil => exact ⟨[], 0, [], rfl, rfl, nofun, fun _ => rfl⟩
  | cons b more ih =>
    obtain ⟨word, n, rest, same, first, front, alone⟩ := ih
    by_cases space : b = Text.byte ' '
    · refine ⟨[], ?_⟩
      cases word with
      | nil => exact ⟨n + 1, rest, by simp [same, space, List.replicate_succ], by simp [space],
          front, nofun⟩
      | cons c inside =>
        refine ⟨1, more, by simp [space], by simp [space], fun leading => ?_, nofun⟩
        cases more with
        | nil => cases leading
        | cons d later => simp_all
    · exact ⟨b :: word, n, rest, by simp [same], by simp [space, ← first], front, alone⟩

/-- What marks the bytes behind a byte. -/
theorem innerMark_of_append {front rest : Text} {b : UInt8} {afterBlank : Bool}
    (unmarked : innerMark afterBlank (front ++ b :: rest) = false) :
    innerMark (isBlankByte b || isBreakByte b) rest = false := by
  induction front generalizing afterBlank with
  | nil =>
    simp only [List.nil_append, innerMark, Bool.or_eq_false_iff] at unmarked
    exact unmarked.2
  | cons c more ih =>
    simp only [List.cons_append, innerMark, Bool.or_eq_false_iff] at unmarked
    exact ih unmarked.2

theorem spell_replicate_space (n : Nat) :
    spell (List.replicate n (Text.byte ' ')) = margin n := by
  rw [spell, List.map_replicate, margin]
  rfl

theorem noLayout_spell {b : UInt8} {s : Text} (here : Text.isPrintableByte b = true)
    (other : b ≠ Text.byte ' ') (tail : List Char) : NoLayout (spell (b :: s) ++ tail) := by
  simp [NoLayout, isLayout_charOf here, other]

/-- The end of a line and the indent of the next one. -/
theorem skipRun_lineEnd {tail : List Char} (stops : NoLayout tail) (indent : Nat) (m : Mark)
    (k : Nat) :
    skipRun indent false m ('\n' :: (margin k ++ tail)) = .ok ⟨tail, ⟨m.line + 1, k⟩⟩ := by
  rw [skipRun, if_pos (by decide), skipRun_margin, skipRun_of_noLayout stops]
  simp [Mark.step, show isBreak '\n' = true by decide]

/-- Behind a space a plain scalar goes on with every byte that is no mark there. -/
theorem continues_spell {b : UInt8} {more : Text} (printable : Printable (b :: more))
    (unmarked : innerMark true (b :: more) = false) (other : b ≠ Text.byte ' ')
    {tail : List Char} (ends : startsBreak tail = true) (indent : Nat) {m : Mark}
    (inside : m.column ≠ 0) :
    continues false indent false ⟨spell (b :: more) ++ tail, m⟩ = true := by
  have word := plainWord_spell printable unmarked ends
  have noHash : b ≠ Text.byte '#' := by
    simp only [innerMark, Bool.or_eq_false_iff] at unmarked
    simpa using unmarked.1.2
  have unfaced : charOf b ≠ '#' := by rwa [Ne, charOf_eq_iff (by decide)]
  simp only [continues, word]
  simp [Cursor.faces, Cursor.atMarker, inside, unfaced, other]

/-- The last word of a plain scalar ends it when the next line is not indented to the column where
the scalar would go on. -/
theorem plainFrom_lastWord {s : Text} (printable : Printable s) {tail : List Char} {indent k : Nat}
    (word : plainWord false (spell s ++ '\n' :: (margin k ++ tail)) = spell s)
    (shallow : k < indent) (stops : NoLayout tail) (fuel : Nat) (m : Mark) :
    plainFrom false indent (fuel + 1) ⟨spell s ++ '\n' :: (margin k ++ tail), m⟩ =
      .ok (⟨spell s, true⟩, ⟨tail, ⟨m.line + 1, k⟩⟩) := by
  have run : ('\n' :: (margin k ++ tail)).takeWhile isLayout = '\n' :: margin k := by
    rw [List.takeWhile_cons_of_pos (by decide), takeWhile_margin stops]
  have broken : ('\n' :: margin k).any isBreak = true := rfl
  have ends : continues false indent true ⟨tail, ⟨m.line + 1, k⟩⟩ = false := by
    simp [continues, Nat.not_le.mpr shallow]
  rw [plainFrom]
  simp only [word, length_spell, Cursor.advance_spell printable, skipRun_lineEnd stops, run,
    broken, ends]
  simp [pure, Except.pure]

/-- Behind a word and spaces a plain scalar is read on. -/
theorem plainFrom_word {front : Text} (printable : Printable front) {indent n : Nat}
    {rest : List Char}
    (word : plainWord false (spell front ++ (margin (n + 1) ++ rest)) = spell front)
    (stops : NoLayout rest) (fuel : Nat) (m : Mark)
    (goesOn : continues false indent false
      ⟨rest, ⟨m.line, m.column + front.length + (n + 1)⟩⟩ = true) :
    plainFrom false indent (fuel + 1) ⟨spell front ++ (margin (n + 1) ++ rest), m⟩ =
      (plainFrom false indent fuel ⟨rest, ⟨m.line, m.column + front.length + (n + 1)⟩⟩).map
        fun (p, c) => ({ p with chars := spell front ++ margin (n + 1) ++ p.chars }, c) := by
  have spaces : margin (n + 1) ≠ [] := by simp [margin]
  have unbroken : (margin (n + 1)).any isBreak = false := by simpa using isBreak_of_mem_margin
  rw [plainFrom]
  simp only [word, length_spell, Cursor.advance_spell printable, skipRun_margin,
    skipRun_of_noLayout stops, takeWhile_margin stops, unbroken, goesOn, folded_margin]
  simp only [ne_eq, spaces, not_false_eq_true, decide_true, Bool.and_self, if_true]
  rfl

/-- A plain scalar is read back up to the end of its line. -/
theorem plainFrom_spell {s : Text} (printable : Printable s) (unmarked : innerMark true s = false)
    (back : s.getLast? ≠ some (Text.byte ' ')) {indent k : Nat} (shallow : k < indent)
    {tail : List Char} (stops : NoLayout tail) {fuel : Nat} (enough : s.length < fuel) (m : Mark) :
    plainFrom false indent fuel ⟨spell s ++ '\n' :: (margin k ++ tail), m⟩ =
      .ok (⟨spell s, true⟩, ⟨tail, ⟨m.line + 1, k⟩⟩) := by
  -- By induction on the fuel, of which every word with the spaces behind it takes one step.
  induction fuel generalizing s m with
  | zero => omega
  | succ fuel ih =>
    obtain ⟨word, n, rest, same, first, inner, alone⟩ := exists_word s
    have wordRead := plainWord_spell printable unmarked
      (show startsBreak ('\n' :: (margin k ++ tail)) = true from rfl)
    rw [first] at wordRead
    cases n with
    | zero =>
      obtain rfl : s = word := by simpa [alone rfl] using same
      exact plainFrom_lastWord printable wordRead shallow stops fuel m
    | succ n =>
      subst same
      cases rest with
      | nil => exact absurd (by simp [List.getLast?_append, List.getLast?_replicate]) back
      | cons b more =>
        have inWord : Printable word := fun c inside => printable c (by simp [inside])
        have inRest : Printable (b :: more) := fun c inside =>
          printable c (List.mem_append_right _ inside)
        have other : b ≠ Text.byte ' ' := by simpa using inner
        have unmarked' : innerMark true (b :: more) = false := by
          rw [List.replicate_succ', ← List.append_assoc, List.append_assoc] at unmarked
          exact innerMark_of_append unmarked
        have back' : (b :: more).getLast? ≠ some (Text.byte ' ') := by
          simpa [List.getLast?_append] using back
        have shorter : (b :: more).length < fuel := by
          simp at enough ⊢
          omega
        rw [spell_append, spell_append, spell_replicate_space, List.append_assoc,
          List.append_assoc] at wordRead ⊢
        rw [plainFrom_word inWord wordRead
            (noLayout_spell (inRest b List.mem_cons_self) other _) fuel m
            (continues_spell inRest unmarked' other rfl indent (by simp)),
          ih inRest unmarked' back' shorter]
        simp [Except.map]

/-! ### Names -/

/-- A lower-case letter or an underscore. -/
def isFieldByte (b : UInt8) : Bool := Text.isLower b || b = Text.byte '_'

/-- A name of lower-case letters and underscores. -/
def isFieldName (s : Text) : Bool := !s.isEmpty && s.all isFieldByte

theorem isPrintableByte_of_letter {b : UInt8} (letter : isFieldByte b = true) :
    Text.isPrintableByte b = true := by
  simp only [isFieldByte, Bool.or_eq_true, decide_eq_true_eq, Text.isLower, Bool.and_eq_true]
    at letter
  simp only [Text.isPrintableByte, Bool.and_eq_true, decide_eq_true_eq]
  obtain ⟨low, high⟩ | rfl := letter
  · exact ⟨UInt8.le_trans (by decide) low, UInt8.le_trans high (by decide)⟩
  · decide

theorem isFieldName.letters {name : Text} (simple : isFieldName name = true) :
    ∀ b ∈ name, isFieldByte b = true := by
  simp only [isFieldName, Bool.and_eq_true, List.all_eq_true] at simple
  exact simple.2

theorem isFieldName.printable {name : Text} (simple : isFieldName name = true) :
    Printable name := fun b inside => isPrintableByte_of_letter (letters simple b inside)

theorem plainWord_letters {name : Text} (letters : ∀ b ∈ name, isFieldByte b = true)
    {rest : List Char} (ends : startsBlank rest = true) :
    plainWord false (spell name ++ ':' :: rest) = spell name := by
  induction name with
  | nil => simp [plainWord, endsPlain, ends]
  | cons b more ih =>
    obtain ⟨letter, below⟩ := List.forall_mem_cons.mp letters
    have space : b ≠ Text.byte ' ' := by rintro rfl; revert letter; decide
    have colon : charOf b ≠ ':' := by
      rw [Ne, charOf_eq_iff (by decide)]
      rintro rfl
      revert letter
      decide
    rw [spell_cons, List.cons_append, plainWord,
      isLayout_charOf (isPrintableByte_of_letter letter)]
    simp [space, endsPlain, colon, ih below]

/-- A name in front of a colon is read as a plain scalar that goes no further. -/
theorem plainFrom_fieldName {name : Text} (simple : isFieldName name = true) {rest : List Char}
    (ends : startsBlank rest = true) (indent fuel : Nat) (m : Mark) :
    plainFrom false indent (fuel + 1) ⟨spell name ++ ':' :: rest, m⟩ =
      .ok (⟨spell name, false⟩, ⟨':' :: rest, ⟨m.line, m.column + name.length⟩⟩) := by
  rw [plainFrom]
  simp only [plainWord_letters (isFieldName.letters simple) ends, length_spell,
    Cursor.advance_spell (isFieldName.printable simple),
    skipRun_of_noLayout (show NoLayout (':' :: rest) from rfl)]
  rfl

/-! ### Quoted scalars -/

/-- An induction over a text in the order in which a scalar in quotes is read: byte by byte, but a
run of spaces at once. -/
theorem induction_runs {p : Text → Prop} (nil : p [])
    (byte : ∀ b rest, b ≠ Text.byte ' ' → p rest → p (b :: rest))
    (spaces : ∀ n rest, rest.head? ≠ some (Text.byte ' ') → p rest →
      p (List.replicate (n + 1) (Text.byte ' ') ++ rest)) (s : Text) : p s := by
  generalize size : s.length = length
  induction length using Nat.strongRecOn generalizing s with
  | ind length ih =>
    subst size
    cases s with
    | nil => exact nil
    | cons b more =>
      by_cases space : b = Text.byte ' '
      · obtain ⟨word, n, rest, same, first, front, alone⟩ := exists_word (b :: more)
        obtain rfl : word = [] := by simpa [space] using first.symm
        cases n with
        | zero => simp [alone rfl] at same
        | succ n =>
          have shorter : rest.length < (b :: more).length := by
            rw [same]
            simp only [List.length_append, List.length_replicate]
            omega
          rw [same, List.nil_append]
          exact spaces n rest front (ih _ shorter rest rfl)
      · exact byte b more space (ih _ (Nat.lt_succ_self _) more rfl)

theorem afterRun_margin {rest : List Char} (stops : NoLayout rest) (n : Nat) (m : Mark)
    (readAs : List Char → List Char) (next : Cursor → Reading (List Char × Cursor)) :
    afterRun ⟨margin (n + 1) ++ rest, m⟩ readAs next =
      before (readAs (margin (n + 1))) (next ⟨rest, ⟨m.line, m.column + (n + 1)⟩⟩) := by
  have after : (⟨margin (n + 1) ++ rest, m⟩ : Cursor).skipWhile isLayout =
      ⟨rest, ⟨m.line, m.column + (n + 1)⟩⟩ := by
    rw [Cursor.skipWhile, takeWhile_margin stops, Cursor.advance_append isBreak_of_mem_margin]
    simp [margin]
  simp only [afterRun, after, takeWhile_margin stops]
  simp [Cursor.atMarker]

theorem singleFrom_margin {rest : List Char} (stops : NoLayout rest) (n fuel : Nat) (m : Mark) :
    singleFrom (fuel + 1) ⟨margin (n + 1) ++ rest, m⟩ =
      before (margin (n + 1)) (singleFrom fuel ⟨rest, ⟨m.line, m.column + (n + 1)⟩⟩) := by
  rw [singleFrom, ← folded_margin, ← afterRun_margin stops, folded_margin]
  rfl

theorem doubleFrom_margin {rest : List Char} (stops : NoLayout rest) (n fuel : Nat) (m : Mark) :
    doubleFrom (fuel + 1) ⟨margin (n + 1) ++ rest, m⟩ =
      before (margin (n + 1)) (doubleFrom fuel ⟨rest, ⟨m.line, m.column + (n + 1)⟩⟩) := by
  rw [doubleFrom, ← folded_margin, ← afterRun_margin stops, folded_margin]
  rfl

/-- How scalars in quotes are read in front of `tail`: `inside` tells how a byte is written, and
every byte takes one step, but a run of spaces is read at once. -/
structure ReadsQuoted (read : Nat → Cursor → Reading (List Char × Cursor)) (quote : Char)
    (inside : UInt8 → Text) (tail : List Char) : Prop where
  closing : isLayout quote = false
  close (fuel : Nat) (m : Mark) :
    read (fuel + 1) ⟨quote :: tail, m⟩ = .ok ([], ⟨tail, ⟨m.line, m.column + 1⟩⟩)
  nonempty (b : UInt8) : 0 < (inside b).length
  space : inside (Text.byte ' ') = [Text.byte ' ']
  front {b : UInt8} (printable : Text.isPrintableByte b = true) (other : b ≠ Text.byte ' ')
    (rest : List Char) : NoLayout (spell (inside b) ++ rest)
  byte {b : UInt8} (printable : Text.isPrintableByte b = true) (other : b ≠ Text.byte ' ')
    (fuel : Nat) (rest : List Char) (m : Mark) :
    read (fuel + 1) ⟨spell (inside b) ++ rest, m⟩ =
      before [charOf b] (read fuel ⟨rest, ⟨m.line, m.column + (inside b).length⟩⟩)
  spaces (n fuel : Nat) {rest : List Char} (stops : NoLayout rest) (m : Mark) :
    read (fuel + 1) ⟨margin (n + 1) ++ rest, m⟩ =
      before (margin (n + 1)) (read fuel ⟨rest, ⟨m.line, m.column + (n + 1)⟩⟩)

theorem ReadsQuoted.length_le {read : Nat → Cursor → Reading (List Char × Cursor)} {quote : Char}
    {inside : UInt8 → Text} {tail : List Char} (reads : ReadsQuoted read quote inside tail)
    (s : Text) : s.length ≤ (s.flatMap inside).length := by
  induction s with
  | nil => exact Nat.le_refl 0
  | cons b rest ih =>
    have first := reads.nonempty b
    rw [List.flatMap_cons, List.length_append, List.length_cons]
    omega

/-- A scalar in quotes is read back up to the closing quote. -/
theorem ReadsQuoted.read_spell {read : Nat → Cursor → Reading (List Char × Cursor)} {quote : Char}
    {inside : UInt8 → Text} {tail : List Char} (reads : ReadsQuoted read quote inside tail)
    {s : Text} (printable : Printable s) {fuel : Nat} (enough : s.length < fuel) (m : Mark) :
    ∃ column, read fuel ⟨spell (s.flatMap inside) ++ quote :: tail, m⟩ =
      .ok (spell s, ⟨tail, ⟨m.line, column⟩⟩) := by
  induction s using induction_runs generalizing fuel m with
  | nil =>
    obtain ⟨fuel, rfl⟩ := Nat.exists_eq_add_of_lt enough
    exact ⟨m.column + 1, reads.close _ m⟩
  | byte b rest other ih =>
    obtain ⟨fuel, rfl⟩ := Nat.exists_eq_add_of_lt enough
    obtain ⟨here, below⟩ := List.forall_mem_cons.mp printable
    obtain ⟨column, same⟩ := ih below
      (show rest.length < rest.length + 1 + fuel by omega) ⟨m.line, m.column + (inside b).length⟩
    refine ⟨column, ?_⟩
    rw [List.flatMap_cons, spell_append, List.append_assoc, reads.byte here other,
      List.length_cons, same]
    rfl
  | spaces n rest front ih =>
    have below : Printable rest := fun b member => printable b (List.mem_append_right _ member)
    have stops : NoLayout (spell (rest.flatMap inside) ++ quote :: tail) := by
      cases rest with
      | nil => simpa [NoLayout] using reads.closing
      | cons b more =>
        rw [List.flatMap_cons, spell_append, List.append_assoc]
        exact reads.front (below b List.mem_cons_self) (by simpa using front) _
    have gap : (List.replicate (n + 1) (Text.byte ' ')).flatMap inside =
        List.replicate (n + 1) (Text.byte ' ') := by
      rw [List.flatMap_replicate, reads.space, List.flatten_replicate_singleton]
    rw [List.length_append, List.length_replicate] at enough
    obtain ⟨fuel, rfl⟩ := Nat.exists_eq_add_of_lt enough
    obtain ⟨column, same⟩ := ih below
      (show rest.length < n + 1 + rest.length + fuel by omega) ⟨m.line, m.column + (n + 1)⟩
    refine ⟨column, ?_⟩
    rw [List.flatMap_append, gap, spell_append, spell_replicate_space, List.append_assoc,
      reads.spaces n _ stops, same, spell_append, spell_replicate_space]
    rfl

/-- A byte of a text as it stands in single quotes. -/
def insideSingle (b : UInt8) : Text := if b = 0x27 then [b, b] else [b]

/-- A byte of a text as it stands in double quotes. -/
def insideDouble (b : UInt8) : Text := if b = 0x22 || b = 0x5C then [0x5C, b] else [b]

theorem readsQuoted_single {tail : List Char} (ends : tail.head? ≠ some '\x27') :
    ReadsQuoted singleFrom '\x27' insideSingle tail where
  closing := by decide
  close fuel m := by
    rw [singleFrom]
    simp only [show isLayout '\x27' = false by decide, ends, Bool.false_eq_true, if_false, if_true]
    rfl
  nonempty b := by
    rw [insideSingle]
    split <;> simp
  space := rfl
  front {b} printable other rest := by
    have calm : isLayout (charOf b) = false := by simp [isLayout_charOf printable, other]
    rw [insideSingle]
    split <;> simpa [NoLayout] using calm
  byte {b} printable other fuel rest m := by
    have calm : isLayout (charOf b) = false := by simp [isLayout_charOf printable, other]
    have stays := Mark.step_of_not_break (isBreak_charOf printable) m
    rw [insideSingle]
    split
    · next quote =>
      subst quote
      rfl
    · next unquoted =>
      have different : charOf b ≠ '\x27' := by rwa [Ne, charOf_eq_iff (by decide)]
      rw [spell_cons, List.cons_append, singleFrom]
      simp only [calm, different, Bool.false_eq_true, if_false]
      simp [Cursor.advance, stays]
  spaces n fuel _ stops m := singleFrom_margin stops n fuel m

theorem readsQuoted_double {tail : List Char} :
    ReadsQuoted doubleFrom '\x22' insideDouble tail where
  closing := by decide
  close fuel m := rfl
  nonempty b := by
    rw [insideDouble]
    split <;> simp
  space := rfl
  front {b} printable other rest := by
    have calm : isLayout (charOf b) = false := by simp [isLayout_charOf printable, other]
    rw [insideDouble]
    split
    · rfl
    · simpa [NoLayout] using calm
  byte {b} printable other fuel rest m := by
    have calm : isLayout (charOf b) = false := by simp [isLayout_charOf printable, other]
    have stays := Mark.step_of_not_break (isBreak_charOf printable) m
    rw [insideDouble]
    split
    · next mark =>
      simp only [Bool.or_eq_true, decide_eq_true_eq] at mark
      obtain rfl | rfl := mark <;> rfl
    · next unmarked =>
      simp only [Bool.or_eq_true, decide_eq_true_eq, not_or] at unmarked
      have noQuote : charOf b ≠ '\x22' := by
        rw [Ne, charOf_eq_iff (by decide)]
        exact unmarked.1
      have noSlash : charOf b ≠ '\\' := by
        rw [Ne, charOf_eq_iff (by decide)]
        exact unmarked.2
      rw [spell_cons, List.cons_append, doubleFrom]
      split
      · next same => cases same
      · next same => exact absurd (List.cons.inj same).1 noQuote
      · next same => exact absurd (List.cons.inj same).1 noSlash
      · next same => exact absurd (List.cons.inj same).1 noSlash
      · next same =>
        obtain ⟨rfl, -⟩ := List.cons.inj same
        simp [calm, Cursor.advance, stays]
  spaces n fuel _ stops m := doubleFrom_margin stops n fuel m

end NumScript.Yaml

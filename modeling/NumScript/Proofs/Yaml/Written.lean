import NumScript.Proofs.Yaml.Scalars

/-! The forms in which scalars are written. A printable text stands plainly when that is no mark and
means the text itself, and in quotes otherwise; integers and truth values stand plainly. -/

namespace NumScript.Yaml

/-- A printable text that can stand plainly on a line. -/
structure StandsPlain (s : Text) : Prop where
  printable : Printable s
  leading : leadingMark s = false
  inner : innerMark false (s.drop 1) = false
  front : s.head? ≠ some (Text.byte ' ')
  back : s.getLast? ≠ some (Text.byte ' ')
  nonempty : s ≠ []

/-- How a text stands in a line of YAML: plainly, or in quotes. -/
inductive Written : Text → Text → Bool → Prop
  | plain {s : Text} (stands : StandsPlain s) : Written s s true
  | single {s : Text} (printable : Printable s) :
      Written (0x27 :: (s.flatMap insideSingle ++ [0x27])) s false
  | double {s : Text} (printable : Printable s) :
      Written (0x22 :: (s.flatMap insideDouble ++ [0x22])) s false

/-! ### Texts -/

theorem Printable.ascii {s : Text} (printable : Printable s) : ∀ b ∈ s, b < 0x80 :=
  fun b member => lt_of_isPrintableByte (printable b member)

theorem Printable.allWritable {s : Text} (printable : Printable s) : allWritable s = true := by
  rw [Yaml.allWritable, characters_of_ascii printable.ascii, List.all_map, List.all_eq_true]
  exact fun b member => isWritable_of_isPrintableByte (printable b member)

theorem Printable.isCharacters {s : Text} (printable : Printable s) : isCharacters s = true := by
  rw [Yaml.isCharacters, characters_of_ascii printable.ascii, List.all_map, List.all_eq_true]
  exact fun b member => rfl

theorem escaped_toNat {b : UInt8} (printable : Text.isPrintableByte b = true) :
    escaped b.toNat = insideDouble b :=
  forall_printable (p := fun b => escaped b.toNat = insideDouble b) (by decide +kernel) printable

theorem doubleQuoted_of_printable {s : Text} (printable : Printable s) :
    doubleQuoted s = 0x22 :: (s.flatMap insideDouble ++ [0x22]) := by
  rw [doubleQuoted, characters_of_ascii printable.ascii, List.flatMap_map, List.flatMap_def,
    List.flatMap_def, List.map_congr_left fun b member => escaped_toNat (printable b member)]
  rfl

theorem StandsPlain.of_plainAllowed {s : Text} (printable : Printable s)
    (allowed : plainAllowed s = true) (nonempty : s ≠ []) : StandsPlain s := by
  simp only [plainAllowed, Bool.and_eq_true, Bool.not_eq_true', decide_eq_true_eq] at allowed
  obtain ⟨⟨⟨⟨⟨⟨⟨leading, inner⟩, -⟩, front⟩, back⟩, -⟩, -⟩, -⟩ := allowed
  exact ⟨printable, leading, inner, front, back, nonempty⟩

/-- A text that stands plainly may do so behind a space as well. -/
theorem StandsPlain.innerMark {s : Text} (stands : StandsPlain s) : innerMark true s = false := by
  cases s with
  | nil => rfl
  | cons b rest =>
    have printable := stands.printable b List.mem_cons_self
    have other : b ≠ Text.byte ' ' := by simpa using stands.front
    have hash : isLeadingMark b = false → b ≠ Text.byte '#' :=
      forall_printable (p := fun b => isLeadingMark b = false → b ≠ Text.byte '#')
        (by decide +kernel) printable
    have blank : (isBlankByte b || isBreakByte b) = decide (b = Text.byte ' ') :=
      forall_printable (p := fun b => (isBlankByte b || isBreakByte b) =
        decide (b = Text.byte ' ')) (by decide +kernel) printable
    have inner : Yaml.innerMark false rest = false := stands.inner
    have leading := stands.leading
    simp only [leadingMark, Bool.or_eq_false_iff] at leading
    have colon : (decide (b = Text.byte ':') && beforeBlank rest) = false := by
      by_cases same : b = Text.byte ':'
      · simpa [same] using leading.2
      · simp [same]
    simp [Yaml.innerMark, colon, hash leading.1, blank, other, inner]

/-- A printable text is written in a form in which it means itself. -/
theorem exists_written {s : Text} (printable : Printable s) (indent : Nat) :
    ∃ plain, Written (scalarText indent s) s plain ∧
      Value.ofScalar none s plain = .ok (.text s) := by
  have oneLine : s.contains 10 = false := by
    rw [List.contains_eq_mem, decide_eq_false_iff_not]
    exact fun member => absurd (printable 10 member) (by decide)
  simp only [scalarText, printable.isCharacters, oneLine, printable.allWritable]
  by_cases ambiguous : isAmbiguous s = true
  · rw [if_pos ambiguous, doubleQuoted_of_printable printable]
    exact ⟨false, .double printable, rfl⟩
  · rw [if_neg ambiguous]
    have same : Value.ofPlain s = .text s := by
      simp only [isAmbiguous, Bool.or_eq_true, decide_eq_true_eq, not_or,
        Decidable.not_not] at ambiguous
      exact ambiguous.1.1
    by_cases allowed : plainAllowed s = true
    · rw [if_pos allowed]
      have nonempty : s ≠ [] := by
        rintro rfl
        exact absurd same (by decide +kernel)
      exact ⟨true, .plain (.of_plainAllowed printable allowed nonempty),
        congrArg Except.ok same⟩
    · rw [if_neg allowed]
      exact ⟨false, .single printable, rfl⟩

/-! ### Words -/

/-- A letter or digit. -/
def isWordByte (b : UInt8) : Bool := Text.isLower b || Text.isDigit b

theorem isPrintableByte_of_isWordByte {b : UInt8} (word : isWordByte b = true) :
    Text.isPrintableByte b = true := by
  simp only [isWordByte, Text.isLower, Text.isDigit, Bool.or_eq_true, Bool.and_eq_true,
    decide_eq_true_eq] at word
  simp only [Text.isPrintableByte, Bool.and_eq_true, decide_eq_true_eq]
  obtain ⟨low, high⟩ | ⟨low, high⟩ := word <;>
    exact ⟨UInt8.le_trans (by decide) low, UInt8.le_trans high (by decide)⟩

theorem not_mark_of_isWordByte {b : UInt8} (word : isWordByte b = true) :
    isLeadingMark b = false ∧
      b ∉ [Text.byte '?', Text.byte ':', Text.byte '-', Text.byte '#', Text.byte ' '] :=
  forall_printable (p := fun b => isWordByte b = true → isLeadingMark b = false ∧
    b ∉ [Text.byte '?', Text.byte ':', Text.byte '-', Text.byte '#', Text.byte ' '])
    (by decide +kernel) (isPrintableByte_of_isWordByte word) word

theorem innerMark_of_word {s : Text} (word : ∀ b ∈ s, isWordByte b = true) (afterBlank : Bool) :
    innerMark afterBlank s = false := by
  induction s generalizing afterBlank with
  | nil => rfl
  | cons b rest ih =>
    obtain ⟨first, below⟩ := List.forall_mem_cons.mp word
    have marks := (not_mark_of_isWordByte first).2
    simp only [List.mem_cons, not_or] at marks
    simp [innerMark, marks, ih below]

/-- Letters and digits stand plainly. -/
theorem StandsPlain.of_word {s : Text} (nonempty : s ≠ [])
    (word : ∀ b ∈ s, isWordByte b = true) : StandsPlain s := by
  have noSpace : Text.byte ' ' ∉ s := fun member => by
    have impossible := word _ member
    revert impossible
    decide
  refine ⟨fun b member => isPrintableByte_of_isWordByte (word b member), ?_,
    innerMark_of_word (fun b member => word b (List.mem_of_mem_drop member)) _,
    fun first => noSpace (List.mem_of_mem_head? first),
    fun last => noSpace (List.mem_of_getLast? last), nonempty⟩
  cases s with
  | nil => rfl
  | cons b rest =>
    obtain ⟨unmarked, marks⟩ := not_mark_of_isWordByte (word b List.mem_cons_self)
    simp only [List.mem_cons, not_or] at marks
    simp [leadingMark, unmarked, marks]

theorem standsPlain_boolText (b : Bool) : StandsPlain (boolText b) := by
  cases b <;> exact .of_word (by decide +kernel) (by decide +kernel)

theorem ofPlain_boolText (b : Bool) : Value.ofPlain (boolText b) = .bool b := by
  cases b <;> decide +kernel

/-! ### Integers -/

theorem ofNat_of_lt {n : Nat} (small : n < 10) :
    Text.ofNat n = [Text.byte (Nat.digitChar n)] := by
  rw [Text.ofNat, Nat.toDigits_of_lt_base small]
  rfl

theorem ofNat_of_le {n : Nat} (large : 10 ≤ n) :
    Text.ofNat n = Text.ofNat (n / 10) ++ [Text.byte (Nat.digitChar (n % 10))] := by
  rw [Text.ofNat, Nat.toDigits_of_base_le (by decide) large, List.map_append]
  rfl

/-- What holds of the digits and of every number with one digit more holds of all numbers. -/
theorem ofNat_induction {p : Nat → Text → Prop}
    (single : ∀ n < 10, p n [Text.byte (Nat.digitChar n)])
    (more : ∀ n, 10 ≤ n → p (n / 10) (Text.ofNat (n / 10)) →
      p n (Text.ofNat (n / 10) ++ [Text.byte (Nat.digitChar (n % 10))])) (n : Nat) :
    p n (Text.ofNat n) := by
  induction n using Nat.strongRecOn with
  | ind n ih =>
    by_cases small : n < 10
    · rw [ofNat_of_lt small]
      exact single n small
    · rw [ofNat_of_le (Nat.not_lt.mp small)]
      exact more n (Nat.not_lt.mp small) (ih (n / 10) (by omega))

theorem digitByte {d : Nat} (small : d < 10) :
    Text.isDigit (Text.byte (Nat.digitChar d)) = true ∧
      Text.digitValue (Text.byte (Nat.digitChar d)) = d ∧
      (d ≠ 0 → Text.byte (Nat.digitChar d) ≠ Text.byte '0') := by
  have each : ∀ d < 10, Text.isDigit (Text.byte (Nat.digitChar d)) = true ∧
      Text.digitValue (Text.byte (Nat.digitChar d)) = d ∧
      (d ≠ 0 → Text.byte (Nat.digitChar d) ≠ Text.byte '0') := by decide +kernel
  exact each d small

theorem isDigit_of_mem_ofNat (n : Nat) : ∀ b ∈ Text.ofNat n, Text.isDigit b = true := by
  induction n using ofNat_induction with
  | single n small => simpa using (digitByte small).1
  | more n large ih =>
    rw [List.forall_mem_append]
    exact ⟨ih, by simpa using (digitByte (Nat.mod_lt n (by decide))).1⟩

theorem digits?_append_digit {s : Text} {v : Nat} (front : Value.digits? 10 s = some v) {d : Nat}
    (small : d < 10) :
    Value.digits? 10 (s ++ [Text.byte (Nat.digitChar d)]) = some (10 * v + d) := by
  obtain ⟨digit, value, -⟩ := digitByte small
  have read : Numeral.digit? true (Text.byte (Nat.digitChar d)) = some d := by
    rw [Numeral.digit?, if_pos digit, value]
  rw [Value.digits?] at front
  rw [Value.digits?, List.foldl_append, front]
  simp [read, small]

theorem digits?_ofNat (n : Nat) : Value.digits? 10 (Text.ofNat n) = some n := by
  induction n using ofNat_induction with
  | single n small => simpa using digits?_append_digit (s := []) (v := 0) rfl small
  | more n large ih =>
    rw [digits?_append_digit ih (Nat.mod_lt n (by decide))]
    exact congrArg some (by omega)

/-- Only zero is written with a zero in front. -/
theorem exists_ofNat {n : Nat} (positive : n ≠ 0) :
    ∃ b rest, Text.ofNat n = b :: rest ∧ b ≠ Text.byte '0' := by
  induction n using ofNat_induction with
  | single n small => exact ⟨_, [], rfl, (digitByte small).2.2 positive⟩
  | more n large ih =>
    obtain ⟨b, rest, same, other⟩ := ih (by omega)
    exact ⟨b, _, by rw [same, List.cons_append], other⟩

theorem magnitude?_ofNat (n : Nat) : Value.magnitude? (Text.ofNat n) = some n := by
  by_cases zero : n = 0
  · subst zero
    decide +kernel
  · obtain ⟨b, rest, same, other⟩ := exists_ofNat zero
    have digits := digits?_ofNat n
    rw [same] at digits ⊢
    unfold Value.magnitude?
    split
    · next given => cases given
    · next given => exact absurd (List.cons.inj given).1 other
    · next given => exact absurd (List.cons.inj given).1 other
    · exact digits

/-- A digit is none of the other bytes that numbers start with. -/
theorem ne_of_isDigit {b : UInt8} (digit : Text.isDigit b = true) :
    b ≠ Text.byte '-' ∧ b ≠ Text.byte '+' ∧ b ≠ Text.byte '.' ∧ b ≠ Text.byte '_' := by
  refine ⟨?_, ?_, ?_, ?_⟩ <;> (rintro rfl; revert digit; decide)

theorem exists_digit_ofNat (n : Nat) :
    ∃ b rest, Text.ofNat n = b :: rest ∧ Text.isDigit b = true := by
  have digits := isDigit_of_mem_ofNat n
  cases shape : Text.ofNat n with
  | nil => simp [Text.ofNat, Nat.toDigits_ne_nil] at shape
  | cons b rest => exact ⟨b, rest, rfl, digits b (by simp [shape])⟩

theorem int?_ofNat {n : Nat} (small : n < 0x8000000000000000) :
    Value.int? (Text.ofNat n) = some (n : Int) := by
  have unsigned : Numeral.sign (Text.ofNat n) = (false, Text.ofNat n) := by
    obtain ⟨b, rest, same, digit⟩ := exists_digit_ofNat n
    obtain ⟨minus, plus, -⟩ := ne_of_isDigit digit
    rw [same, Numeral.sign, if_neg minus, if_neg plus]
  have wide : n < 0x10000000000000000 := by omega
  rw [Value.int?, unsigned]
  simp [magnitude?_ofNat, wide]

theorem isOneOf_of_digit {b : UInt8} (digit : Text.isDigit b = true) (rest : Text)
    (words : List String)
    (others : ∀ w ∈ words, (Text.ofString w).head?.any Text.isDigit = false) :
    Value.isOneOf words (b :: rest) = false := by
  simp only [Value.isOneOf, List.any_eq_false, decide_eq_true_eq]
  intro w member same
  have unlike := others w member
  simp [same, digit] at unlike

theorem ofWord?_of_digit {b : UInt8} (digit : Text.isDigit b = true) (rest : Text) :
    Value.ofWord? (b :: rest) = none := by
  have other := isOneOf_of_digit digit rest
  rw [Value.ofWord?]
  simp only [other ["", "~", "null", "Null", "NULL"] (by decide +kernel),
    other ["true", "True", "TRUE"] (by decide +kernel),
    other ["false", "False", "FALSE"] (by decide +kernel),
    other [".nan", ".NaN", ".NAN"] (by decide +kernel),
    other [".inf", ".Inf", ".INF", "+.inf", "+.Inf", "+.INF"] (by decide +kernel),
    other ["-.inf", "-.Inf", "-.INF"] (by decide +kernel)]
  rfl

/-- A point in time has dashes in it. -/
theorem not_isTimestamp_of_digits {s : Text} (digits : ∀ b ∈ s, Text.isDigit b = true) :
    isTimestamp s = false := by
  have whole : s.takeWhile Text.isDigit = s := by
    rw [← List.append_nil s, List.takeWhile_append_of_pos (by simpa using digits)]
    simp
  have undated : Timestamp.date? s = none := by
    rw [Timestamp.date?, whole]
    by_cases four : s.length = 4
    · simp [four, List.drop_of_length_le, Timestamp.mark?]
    · simp [four]
  rw [isTimestamp, undated]
  rfl

theorem ofPlain_ofNat {n : Nat} (small : n < 0x8000000000000000) :
    Value.ofPlain (Text.ofNat n) = .int n := by
  have digits := isDigit_of_mem_ofNat n
  have number : Value.number? (Text.ofNat n) = some (.int n) := by
    have kept : (Text.ofNat n).filter (· ≠ Text.byte '_') = Text.ofNat n := by
      rw [List.filter_eq_self]
      exact fun b member => by simpa using (ne_of_isDigit (digits b member)).2.2.2
    simp only [Value.number?, kept, int?_ofNat small]
  have untimed := not_isTimestamp_of_digits digits
  obtain ⟨b, rest, same, digit⟩ := exists_digit_ofNat n
  rw [same] at number untimed ⊢
  simp [Value.ofPlain, Value.resolve, ofWord?_of_digit digit, ne_of_isDigit digit, digit, untimed,
    number]

theorem standsPlain_ofInt {n : Int} (nonneg : 0 ≤ n) : StandsPlain (Text.ofInt n) := by
  obtain ⟨n, rfl⟩ := Int.eq_ofNat_of_zero_le nonneg
  obtain ⟨b, rest, same, -⟩ := exists_digit_ofNat n
  refine .of_word (s := Text.ofNat n) (by simp [same]) fun b member => ?_
  simp [isWordByte, isDigit_of_mem_ofNat n b member]

theorem ofPlain_ofInt {n : Int} (nonneg : 0 ≤ n) (small : n < 0x8000000000000000) :
    Value.ofPlain (Text.ofInt n) = .int n := by
  obtain ⟨n, rfl⟩ := Int.eq_ofNat_of_zero_le nonneg
  exact ofPlain_ofNat (by omega)

end NumScript.Yaml

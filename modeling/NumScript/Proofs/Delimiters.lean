import NumScript.Program.Reading

/-! Delimiters that close what they open. The depth counts the delimiters still open; tokens are
balanced when they close all they open and nothing else. The search for the end of a block, of a
condition or of a group stops exactly behind balanced tokens. -/

namespace NumScript

section Depth

variable (opener closer : TokenKind)

/-- How many delimiters are open behind a token when `depth` are open before it; nothing when the
token closes one that is not open. -/
def depthStep (depth : Nat) (t : Token) : Option Nat :=
  if t.kind = opener then some (depth + 1)
  else if t.kind = closer then
    match depth with
    | 0 => none
    | depth + 1 => some depth
  else some depth

/-- How many delimiters are open behind some tokens when `depth` are open before them. -/
def depthAfter (depth : Nat) (ts : List Token) : Option Nat :=
  ts.foldlM (depthStep opener closer) depth

/-- The tokens close every delimiter that they open, and no other. -/
def Balanced (ts : List Token) : Prop := depthAfter opener closer 0 ts = some 0

end Depth

variable {opener closer : TokenKind}

theorem depthStep_opener (depth : Nat) {t : Token} (opens : t.kind = opener) :
    depthStep opener closer depth t = some (depth + 1) := by
  simp [depthStep, opens]

theorem depthStep_closer (distinct : opener ≠ closer) (depth : Nat) {t : Token}
    (closes : t.kind = closer) :
    depthStep opener closer depth t = if depth = 0 then none else some (depth - 1) := by
  cases depth <;> simp [depthStep, closes, distinct.symm]

theorem depthStep_other (depth : Nat) {t : Token} (opens : t.kind ≠ opener)
    (closes : t.kind ≠ closer) : depthStep opener closer depth t = some depth := by
  simp [depthStep, opens, closes]

/-- Only a closer that has nothing to close stops the count. -/
theorem depthStep_eq_none {depth : Nat} {t : Token}
    (h : depthStep opener closer depth t = none) : t.kind = closer ∧ depth = 0 := by
  unfold depthStep at h
  split at h
  · cases h
  · split at h
    · rename_i closes
      cases depth with
      | zero => exact ⟨closes, rfl⟩
      | succ depth => cases h
    · cases h

/-- More open delimiters around a token stay open behind it. -/
theorem depthStep_add {depth after : Nat} {t : Token} (more : Nat)
    (h : depthStep opener closer depth t = some after) :
    depthStep opener closer (depth + more) t = some (after + more) := by
  unfold depthStep at h ⊢
  split
  · rename_i opens
    rw [if_pos opens] at h
    cases h
    rw [Nat.add_right_comm]
  · rename_i opens
    rw [if_neg opens] at h
    split
    · rename_i closes
      rw [if_pos closes] at h
      cases depth with
      | zero => cases h
      | succ depth =>
        cases h
        rw [Nat.add_right_comm]
    · rename_i closes
      rw [if_neg closes] at h
      cases h
      rfl

@[simp] theorem depthAfter_nil (depth : Nat) : depthAfter opener closer depth [] = some depth := rfl

theorem depthAfter_cons (depth : Nat) (t : Token) (ts : List Token) :
    depthAfter opener closer depth (t :: ts) =
      (depthStep opener closer depth t).bind fun d => depthAfter opener closer d ts := by
  simp [depthAfter, bind]

theorem depthAfter_append (depth : Nat) (ts us : List Token) :
    depthAfter opener closer depth (ts ++ us) =
      (depthAfter opener closer depth ts).bind fun d => depthAfter opener closer d us := by
  simp [depthAfter, bind]

theorem depthAfter_add {depth after : Nat} {ts : List Token} (more : Nat)
    (h : depthAfter opener closer depth ts = some after) :
    depthAfter opener closer (depth + more) ts = some (after + more) := by
  induction ts generalizing depth with
  | nil => simpa using h
  | cons t rest ih =>
    rw [depthAfter_cons] at h ⊢
    obtain ⟨next, first, second⟩ := Option.bind_eq_some_iff.mp h
    rw [depthStep_add more first]
    exact ih second

namespace Balanced

theorem depthAfter_eq {ts : List Token} (h : Balanced opener closer ts) (depth : Nat) :
    depthAfter opener closer depth ts = some depth := by
  have := depthAfter_add depth h
  rwa [Nat.zero_add] at this

theorem nil : Balanced opener closer [] := rfl

theorem append {ts us : List Token} (first : Balanced opener closer ts)
    (second : Balanced opener closer us) : Balanced opener closer (ts ++ us) := by
  unfold Balanced
  rw [depthAfter_append, first]
  exact second

theorem of_append {ts us : List Token} (first : Balanced opener closer ts)
    (whole : Balanced opener closer (ts ++ us)) : Balanced opener closer us := by
  unfold Balanced at whole
  rw [depthAfter_append, first] at whole
  exact whole

/-- A token that is no delimiter in front of balanced tokens. -/
theorem cons {t : Token} {ts : List Token} (opens : t.kind ≠ opener) (closes : t.kind ≠ closer)
    (h : Balanced opener closer ts) : Balanced opener closer (t :: ts) := by
  unfold Balanced
  rw [depthAfter_cons, depthStep_other 0 opens closes]
  exact h

/-- A pair of delimiters around balanced tokens. -/
theorem enclose (distinct : opener ≠ closer) {o c : Token} {ts us : List Token}
    (opens : o.kind = opener) (closes : c.kind = closer) (inside : Balanced opener closer ts)
    (outside : Balanced opener closer us) : Balanced opener closer (o :: ts ++ c :: us) := by
  unfold Balanced
  rw [List.cons_append, depthAfter_cons, depthStep_opener 0 opens, Option.bind_some,
    depthAfter_append, inside.depthAfter_eq, Option.bind_some, depthAfter_cons,
    depthStep_closer distinct _ closes]
  exact outside

/-- Tokens without delimiters are balanced. -/
theorem of_forall {ts : List Token} (h : ∀ t ∈ ts, t.kind ≠ opener ∧ t.kind ≠ closer) :
    Balanced opener closer ts := by
  induction ts with
  | nil => exact nil
  | cons t rest ih =>
    obtain ⟨opens, closes⟩ := h t List.mem_cons_self
    exact cons opens closes (ih fun u hu => h u (List.mem_cons_of_mem t hu))

end Balanced

/-! ### The search for the end -/

namespace Program

/-- The search goes on behind a token unless that closes what is not open, and ends there. -/
theorem enclosed?_cons (depth : Nat) (t : Token) (ts : List Token) :
    enclosed? opener closer depth (t :: ts) =
      match depthStep opener closer depth t with
      | none => some ([], ts)
      | some next =>
        (enclosed? opener closer next ts).map fun (inside, after) => (t :: inside, after) := by
  rw [enclosed?.eq_def]
  unfold depthStep
  dsimp only
  split
  · rfl
  · split
    · cases depth <;> rfl
    · rfl

/-- The search finds the closer behind the tokens that bring the depth to zero. -/
theorem enclosed?_eq_some_iff (distinct : opener ≠ closer) {depth : Nat}
    {ts inside after : List Token} :
    enclosed? opener closer depth ts = some (inside, after) ↔
      ∃ c, ts = inside ++ c :: after ∧ c.kind = closer ∧
        depthAfter opener closer depth inside = some 0 := by
  induction ts generalizing depth inside with
  | nil => simp [enclosed?]
  | cons t rest ih =>
    rw [enclosed?_cons]
    cases step : depthStep opener closer depth t with
    | none =>
      constructor
      · intro found
        cases found
        obtain ⟨closes, rfl⟩ := depthStep_eq_none step
        exact ⟨t, rfl, closes, rfl⟩
      · rintro ⟨c, eq, closes, level⟩
        cases inside with
        | nil =>
          cases eq
          rfl
        | cons x xs =>
          cases eq
          simp [depthAfter_cons, step] at level
    | some next =>
      constructor
      · intro found
        obtain ⟨⟨xs, ys⟩, below, same⟩ := Option.map_eq_some_iff.mp found
        cases same
        obtain ⟨c, rfl, closes, level⟩ := ih.mp below
        exact ⟨c, rfl, closes, by rw [depthAfter_cons, step]; exact level⟩
      · rintro ⟨c, eq, closes, level⟩
        cases inside with
        | nil =>
          cases eq
          have zero : depth = 0 := by simpa using level
          rw [depthStep_closer distinct depth closes, if_pos zero] at step
          cases step
        | cons x xs =>
          cases eq
          rw [depthAfter_cons, step] at level
          exact Option.map_eq_some_iff.mpr ⟨(xs, after), ih.mpr ⟨c, rfl, closes, level⟩, rfl⟩

/-- Behind an opened delimiter, balanced tokens and a closer, the search finds what is inside. -/
theorem enclosed?_of_balanced (distinct : opener ≠ closer) {inside after : List Token} {c : Token}
    (closes : c.kind = closer) (balanced : Balanced opener closer inside) :
    enclosed? opener closer 0 (inside ++ c :: after) = some (inside, after) :=
  (enclosed?_eq_some_iff distinct).mpr ⟨c, rfl, closes, balanced⟩

/-- Balanced tokens up to a closer are the same tokens in every reading. -/
theorem enclosed_unique (distinct : opener ≠ closer) {inside inside' after after' : List Token}
    {c c' : Token} (closes : c.kind = closer) (closes' : c'.kind = closer)
    (balanced : Balanced opener closer inside) (balanced' : Balanced opener closer inside')
    (same : inside ++ c :: after = inside' ++ c' :: after') :
    inside = inside' ∧ c = c' ∧ after = after' := by
  have found : enclosed? opener closer 0 (inside ++ c :: after) = some (inside, after) :=
    enclosed?_of_balanced distinct closes balanced
  rw [same, enclosed?_of_balanced distinct closes' balanced'] at found
  cases found
  have := List.append_cancel_left same
  simp_all

/-- What opens one delimiter too few finds its end. -/
theorem exists_enclosed? {depth : Nat} {ts : List Token}
    (h : depthAfter opener closer (depth + 1) ts = some 0) :
    ∃ found, enclosed? opener closer depth ts = some found := by
  induction ts generalizing depth with
  | nil => cases h
  | cons t rest ih =>
    rw [enclosed?_cons]
    cases step : depthStep opener closer depth t with
    | none => exact ⟨_, rfl⟩
    | some next =>
      rw [depthAfter_cons, depthStep_add 1 step] at h
      obtain ⟨found, below⟩ := ih h
      exact ⟨_, Option.map_eq_some_iff.mpr ⟨found, below, rfl⟩⟩

end Program

/-- The search among items that are all tokens is the search among the tokens. -/
theorem Expression.closing?_map_token (depth : Nat) (ts : List Token) :
    closing? depth (ts.map .token) =
      (Program.enclosed? .leftParen .rightParen depth ts).map fun found => found.1.length := by
  induction ts generalizing depth with
  | nil => rfl
  | cons t rest ih =>
    have step (d : Nat) : (closing? d (rest.map .token)).map (· + 1) =
        ((Program.enclosed? .leftParen .rightParen d rest).map
          (fun (xs, ys) => (t :: xs, ys))).map fun found => found.1.length := by
      rw [ih, Option.map_map, Option.map_map]
      rfl
    simp only [List.map_cons, closing?, Program.enclosed?, Item.isKind, decide_eq_true_eq]
    split
    · exact step (depth + 1)
    · split
      · cases depth with
        | zero => rfl
        | succ depth => exact step depth
      · exact step depth

/-! ### Counting delimiters -/

/-- Counted from the start, never more delimiters are closed than opened, and in the end as many. -/
def Paired (opener closer : TokenKind) (ts : List Token) : Prop :=
  (∀ before, before <+: ts →
      before.countP (fun t => t.kind = closer) ≤ before.countP (fun t => t.kind = opener)) ∧
    ts.countP (fun t => t.kind = opener) = ts.countP (fun t => t.kind = closer)

/-- The depth is the number of delimiters opened and not closed. -/
theorem depthAfter_eq_some_iff (distinct : opener ≠ closer) {depth after : Nat} {ts : List Token} :
    depthAfter opener closer depth ts = some after ↔
      (∀ before, before <+: ts → before.countP (fun t => t.kind = closer) ≤
          depth + before.countP (fun t => t.kind = opener)) ∧
        depth + ts.countP (fun t => t.kind = opener) =
          after + ts.countP (fun t => t.kind = closer) := by
  induction ts generalizing depth with
  | nil => simp [eq_comm]
  | cons t rest ih =>
    have prefixes (P : List Token → Prop) :
        (∀ before, before <+: t :: rest → P before) ↔
          P [] ∧ ∀ before, before <+: rest → P (t :: before) := by
      simp only [List.prefix_cons_iff]
      constructor
      · exact fun all => ⟨all [] (.inl rfl), fun before h => all _ (.inr ⟨before, rfl, h⟩)⟩
      · rintro ⟨empty, more⟩ before (rfl | ⟨others, rfl, h⟩)
        · exact empty
        · exact more others h
    rw [prefixes, depthAfter_cons]
    by_cases opens : t.kind = opener
    · rw [depthStep_opener depth opens, Option.bind_some, ih]
      simp [opens, distinct, Nat.add_assoc, Nat.add_comm]
    · by_cases closes : t.kind = closer
      · rw [depthStep_closer distinct depth closes]
        cases depth with
        | zero =>
          simp only [if_true, Option.bind_none, reduceCtorEq, false_iff]
          rintro ⟨⟨-, few⟩, -⟩
          simpa [closes, distinct.symm] using few [] List.nil_prefix
        | succ depth =>
          rw [if_neg (Nat.succ_ne_zero depth), Option.bind_some, Nat.add_sub_cancel, ih]
          simp [closes, distinct.symm, ← Nat.add_assoc, Nat.add_right_comm _ 1]
      · rw [depthStep_other depth opens closes, Option.bind_some, ih]
        simp [opens, closes]

theorem balanced_iff_paired (distinct : opener ≠ closer) {ts : List Token} :
    Balanced opener closer ts ↔ Paired opener closer ts := by
  simp [Balanced, Paired, depthAfter_eq_some_iff distinct]

/-- An opener in front of balanced tokens has its partner behind it. -/
theorem Balanced.exists_enclosed? {t : Token} {rest : List Token} (opens : t.kind = opener)
    (h : Balanced opener closer (t :: rest)) :
    ∃ found, Program.enclosed? opener closer 0 rest = some found := by
  unfold Balanced at h
  rw [depthAfter_cons, depthStep_opener 0 opens] at h
  exact Program.exists_enclosed? h

end NumScript

import NumScript.Proofs.Env.Marking

/-! What has been read, scope by scope. Reading marks the nearest symbol of a name, an assignment
leaves the marks alone, and a declaration takes away that of the symbol whose place it takes. The
marks of a scope are never taken away by what happens in the scopes inside it. -/

namespace NumScript

/-- The symbol of the name has been read. -/
def Scope.Used (s : Scope) (name : Text) : Prop := ∃ sym, s.find? name = some sym ∧ sym.used = true

/-- In the scope at `level`, counted outwards, the symbol of the name has been read. -/
def Env.UsedAt (env : Env) (level : Nat) (name : Text) : Prop :=
  ∃ scope, env[level]? = some scope ∧ scope.Used name

namespace Scope

theorem used_modify_of_used {s : Scope} {f : Symbol → Symbol}
    (keeps : ∀ sym, (f sym).name = sym.name)
    (marks : ∀ sym, sym.used = true → (f sym).used = true) {name other : Text}
    (used : s.Used other) : (s.modify name f).Used other := by
  obtain ⟨sym, found, used⟩ := used
  rw [Used, s.find?_modify keeps, found]
  split
  · exact ⟨f sym, rfl, marks sym used⟩
  · exact ⟨sym, rfl, used⟩

theorem used_of_used_modify {s : Scope} {f : Symbol → Symbol}
    (keeps : ∀ sym, (f sym).name = sym.name) (same : ∀ sym, (f sym).used = sym.used)
    {name other : Text} (used : (s.modify name f).Used other) : s.Used other := by
  obtain ⟨sym, found, used⟩ := used
  rw [s.find?_modify keeps] at found
  split at found
  · obtain ⟨before, held, rfl⟩ := Option.map_eq_some_iff.mp found
    exact ⟨before, held, same before ▸ used⟩
  · exact ⟨sym, found, used⟩

theorem used_extended {s : Scope} {sym : Symbol} (fresh : sym.used = false) (name : Text) :
    (s.extended sym).Used name ↔ name ≠ sym.name ∧ s.Used name := by
  rw [Used, s.find?_extended]
  by_cases same : sym.name = name
  · simp [same, fresh]
  · simp [same, Ne.symm same, Used]

theorem used_marked (s : Scope) (names : List Text) (name : Text) :
    (s.marked names).Used name ↔ s.Used name ∨ name ∈ names ∧ s.has name = true := by
  have kept (sym : Symbol) : (if sym.name ∈ names then sym.markUsed else sym).name = sym.name := by
    split <;> rfl
  have found : (s.marked names).find? name =
      (s.find? name).map fun sym => if sym.name ∈ names then sym.markUsed else sym := by
    simp only [find?, marked, List.find?_map, Function.comp_def, kept]
  rw [Used, found, Used, has]
  cases held : s.find? name with
  | none => simp
  | some sym =>
    have named : sym.name = name := by simpa using List.find?_some held
    by_cases read : name ∈ names <;> simp [named, read, Symbol.markUsed]

/-- Of two scopes with the same names, the one in which less has been read has all the unused
names of the other. -/
theorem unread_of_mem_unused {scope scope' : Scope} (distinct : scope'.names.Nodup)
    (names : scope.names = scope'.names) (read : ∀ name, scope.Used name → scope'.Used name)
    {sym' : Symbol} (member : sym' ∈ scope'.unused) :
    ∃ sym, scope.find? sym'.name = some sym ∧ sym.used = false := by
  obtain ⟨inside, unread⟩ := List.mem_filter.mp member
  have held' : scope'.find? sym'.name = some sym' := Scope.find?_of_mem distinct inside
  have present : sym'.name ∈ scope.names := names ▸ List.mem_map_of_mem inside
  obtain ⟨sym, held⟩ := Option.isSome_iff_exists.mp ((scope.mem_names_iff sym'.name).mp present)
  refine ⟨sym, held, ?_⟩
  by_contra used
  obtain ⟨other, found, used'⟩ := read sym'.name ⟨sym, held, by simpa using used⟩
  obtain rfl := Option.some.inj (held'.symm.trans found)
  simp [used'] at unread

end Scope

namespace Env

theorem usedAt_cons_zero (scope : Scope) (outer : Env) (name : Text) :
    UsedAt (scope :: outer) 0 name ↔ scope.Used name := by
  simp [UsedAt]

theorem usedAt_cons_succ (scope : Scope) (outer : Env) (level : Nat) (name : Text) :
    UsedAt (scope :: outer) (level + 1) name ↔ UsedAt outer level name := by
  simp [UsedAt]

theorem usedAt_tail (env : Env) (level : Nat) (name : Text) :
    UsedAt env.tail level name ↔ env.UsedAt (level + 1) name := by
  simp [UsedAt, List.getElem?_tail]

theorem not_usedAt_child (kind : ScopeKind) (env : Env) (name : Text) :
    ¬ (env.child kind).UsedAt 0 name := by
  rw [child, usedAt_cons_zero]
  rintro ⟨sym, found, -⟩
  cases found

theorem UsedAt.modify {env : Env} {f : Symbol → Symbol} (keeps : ∀ sym, (f sym).name = sym.name)
    (marks : ∀ sym, sym.used = true → (f sym).used = true) {name other : Text} {level : Nat}
    (used : env.UsedAt level other) : (env.modify name f).UsedAt level other := by
  induction env generalizing level with
  | nil => exact used
  | cons scope outer ih =>
    rw [Env.modify]
    split
    · cases level with
      | zero =>
        rw [usedAt_cons_zero] at used ⊢
        exact Scope.used_modify_of_used keeps marks used
      | succ level =>
        rw [usedAt_cons_succ] at used ⊢
        exact used
    · cases level with
      | zero => exact used
      | succ level =>
        rw [usedAt_cons_succ] at used ⊢
        exact ih used

theorem UsedAt.of_modify {env : Env} {f : Symbol → Symbol} (keeps : ∀ sym, (f sym).name = sym.name)
    (same : ∀ sym, (f sym).used = sym.used) {name other : Text} {level : Nat}
    (used : (env.modify name f).UsedAt level other) : env.UsedAt level other := by
  induction env generalizing level with
  | nil => exact used
  | cons scope outer ih =>
    rw [Env.modify] at used
    split at used
    · cases level with
      | zero =>
        rw [usedAt_cons_zero] at used ⊢
        exact Scope.used_of_used_modify keeps same used
      | succ level =>
        rw [usedAt_cons_succ] at used ⊢
        exact used
    · cases level with
      | zero => exact used
      | succ level =>
        rw [usedAt_cons_succ] at used ⊢
        exact ih used

theorem UsedAt.bind {env : Env} {level : Nat} {name other : Text} {v : Float} :
    (env.modify name (Symbol.bind v)).UsedAt level other ↔ env.UsedAt level other :=
  ⟨UsedAt.of_modify (f := Symbol.bind v) (fun _ => rfl) fun _ => rfl,
    UsedAt.modify (f := Symbol.bind v) (fun _ => rfl) fun _ => id⟩

theorem UsedAt.declare {env env' : Env} {sym : Symbol} (fresh : sym.used = false)
    (declared : env.declare sym = .ok env') (level : Nat) (name : Text) :
    env'.UsedAt level name ↔ env.UsedAt level name ∧ (level = 0 → name ≠ sym.name) := by
  cases env with
  | nil =>
    cases declared
    simp [UsedAt]
  | cons scope outer =>
    obtain ⟨-, rfl⟩ := declare_cons_eq_ok_iff.mp declared
    cases level with
    | zero => simp [usedAt_cons_zero, Scope.used_extended fresh, and_comm]
    | succ level => simp [usedAt_cons_succ]

/-- The marks of the scopes around the innermost one stay, whatever is done. -/
theorem kept_used :
    Kept fun env env' =>
      ∀ level name, env.UsedAt (level + 1) name → env'.UsedAt (level + 1) name where
  refl _ _ _ := id
  trans first second level name := second level name ∘ first level name
  read env name level other := UsedAt.modify (f := Symbol.markUsed) (fun _ => rfl) fun _ _ => rfl
  assign := by
    intro env env' name v place assigned level other used
    rcases assign_cases assigned with ⟨sym, declared⟩ | rfl
    · rw [← usedAt_tail, tail_declare declared, usedAt_tail]
      exact used
    · exact UsedAt.bind.mpr used
  declare := by
    intro env env' sym declared level other used
    rw [← usedAt_tail, tail_declare declared, usedAt_tail]
    exact used
  leave := by
    intro env env' kind inside level name used
    rw [usedAt_tail]
    apply inside
    rw [child, usedAt_cons_succ]
    exact used

theorem UsedAt.marked {env : Env} {level : Nat} {name : Text} (used : env.UsedAt level name)
    (names : List Text) : (env.marked names).UsedAt level name := by
  induction env generalizing names level with
  | nil => exact used
  | cons scope outer ih =>
    rw [Env.marked]
    cases level with
    | zero =>
      rw [usedAt_cons_zero] at used ⊢
      exact (scope.used_marked names name).mpr (.inl used)
    | succ level =>
      rw [usedAt_cons_succ] at used ⊢
      exact ih used _

/-- Environments with the same outline mark the same names when they are read. -/
theorem usedAt_of_marked {env known : Env} (same : env.outline = known.outline) {names : List Text}
    {level : Nat} {name : Text} (used : (env.marked names).UsedAt level name) :
    env.UsedAt level name ∨ (known.marked names).UsedAt level name := by
  induction env generalizing known names level with
  | nil => exact .inl used
  | cons scope outer ih =>
    obtain ⟨scope', outer', rfl, here, below⟩ := List.map_eq_cons_iff.mp same.symm
    have found : scope.has = scope'.has := funext (Scope.has_congr here.symm)
    rw [marked] at used ⊢
    cases level with
    | zero =>
      rw [usedAt_cons_zero, Scope.used_marked] at used
      rw [usedAt_cons_zero, usedAt_cons_zero, Scope.used_marked, ← found]
      exact used.imp_right .inr
    | succ level =>
      rw [usedAt_cons_succ] at used
      rw [usedAt_cons_succ, usedAt_cons_succ, ← found]
      exact ih below.symm used

end Env

end NumScript

import NumScript.Proofs.Env.Kept
import NumScript.Proofs.Expression.Staged

/-! What environments declare. The outline of an environment has its names and says which of them
are constant, but not their values. Reading and assigning leave the outline alone, declaring
changes that of the innermost scope, and leaving a block brings the outline back. `Agrees` relates
the environment of a run to that of a check, whether blocks see the scopes around them or a copy. -/

namespace NumScript

/-- The names of a scope with whether each is constant, and the names that may not be declared
again. -/
def Scope.outline (s : Scope) : List (Text × Bool) × List Text :=
  (s.symbols.map fun sym => (sym.name, sym.constant), s.constants)

/-- The scope with one more symbol, in the place of an earlier one with its name. -/
def Scope.extended (s : Scope) (sym : Symbol) : Scope :=
  { s with
    symbols := put sym s.symbols
    constants := if sym.constant then s.constants ++ [sym.name] else s.constants }

namespace Env

def outline (env : Env) : List (List (Text × Bool) × List Text) := env.map Scope.outline

/-- Whether the nearest symbol of a name is constant, if there is one. -/
def constancy (env : Env) (name : Text) : Option Bool := (env.resolve? name).map Symbol.constant

end Env

/-- The environment of a run and the one of a check show the same names, the same of them constant,
and refuse the same declarations. -/
structure Agrees (env known : Env) : Prop where
  constancy : ∀ name, env.constancy name = known.constancy name
  constants : env.head?.map Scope.constants = known.head?.map Scope.constants
  nonempty : known ≠ []
  distinct : ∀ scope ∈ env, scope.names.Nodup

/-! ### Scopes -/

namespace Scope

theorem find?_put (sym : Symbol) (symbols : List Symbol) (name : Text) :
    (put sym symbols).find? (fun s => s.name = name) =
      if sym.name = name then some sym else symbols.find? fun s => s.name = name := by
  induction symbols with
  | nil => by_cases here : sym.name = name <;> simp [put, here]
  | cons other rest ih =>
    unfold put
    split
    · rename_i same
      by_cases here : sym.name = name
      · simp [here]
      · simp [here, same]
    · rename_i different
      by_cases here : other.name = name
      · have : sym.name ≠ name := fun same => different (here.trans same.symm)
        simp [here, this]
      · simp [here, ih]

theorem put_of_absent {sym : Symbol} {symbols : List Symbol}
    (absent : sym.name ∉ symbols.map Symbol.name) : put sym symbols = symbols ++ [sym] := by
  induction symbols with
  | nil => rfl
  | cons other rest ih =>
    rw [List.map_cons, List.mem_cons, not_or] at absent
    rw [put, if_neg (Ne.symm absent.1), ih absent.2, List.cons_append]

theorem map_name_put (sym : Symbol) (symbols : List Symbol) :
    (put sym symbols).map Symbol.name =
      if sym.name ∈ symbols.map Symbol.name then symbols.map Symbol.name
      else symbols.map Symbol.name ++ [sym.name] := by
  by_cases present : sym.name ∈ symbols.map Symbol.name
  · rw [if_pos present]
    induction symbols with
    | nil => cases present
    | cons other rest ih =>
      rw [put]
      split
      · rename_i here
        rw [List.map_cons, List.map_cons, here]
      · rename_i elsewhere
        have below := (List.mem_cons.mp present).resolve_left (Ne.symm elsewhere)
        rw [List.map_cons, ih below, List.map_cons]
  · rw [if_neg present, put_of_absent present, List.map_append, List.map_singleton]

theorem nodup_put (sym : Symbol) {symbols : List Symbol}
    (distinct : (symbols.map Symbol.name).Nodup) : ((put sym symbols).map Symbol.name).Nodup := by
  rw [map_name_put]
  split
  · exact distinct
  · rename_i fresh
    refine List.nodup_append.mpr ⟨distinct, List.pairwise_singleton _ _, ?_⟩
    exact fun name old other new same => fresh (List.mem_singleton.mp new ▸ same ▸ old)

/-- Symbols with different names that are put into a list hide those with their names. -/
theorem find?_foldl_put {symbols : List Symbol} (distinct : (symbols.map Symbol.name).Nodup)
    (acc : List Symbol) (name : Text) :
    (symbols.foldl (fun acc sym => put sym acc) acc).find? (fun s => s.name = name) =
      (symbols.find? fun s => s.name = name).or (acc.find? fun s => s.name = name) := by
  induction symbols generalizing acc with
  | nil => rfl
  | cons sym rest ih =>
    obtain ⟨fresh, below⟩ := List.nodup_cons.mp distinct
    rw [List.foldl_cons, ih below, find?_put]
    by_cases here : sym.name = name
    · have absent : rest.find? (fun s => s.name = name) = none := by
        refine List.find?_eq_none.mpr fun s member same => fresh ?_
        have : s.name = name := by simpa using same
        exact List.mem_map.mpr ⟨s, member, this.trans here.symm⟩
      simp [here, absent]
    · simp [here]

theorem nodup_foldl_put (symbols : List Symbol) {acc : List Symbol}
    (distinct : (acc.map Symbol.name).Nodup) :
    ((symbols.foldl (fun acc sym => put sym acc) acc).map Symbol.name).Nodup := by
  induction symbols generalizing acc with
  | nil => exact distinct
  | cons sym rest ih => exact ih (nodup_put sym distinct)

/-! The outline of a scope decides which names it has and which of them are constant. -/

theorem constant_outline (s : Scope) (name : Text) : (s.find? name).map Symbol.constant =
    (s.outline.1.find? fun entry => entry.1 = name).map Prod.snd := by
  simp [outline, find?, List.find?_map, Function.comp_def]

theorem constant_congr {s s' : Scope} (same : s.outline = s'.outline) (name : Text) :
    (s.find? name).map Symbol.constant = (s'.find? name).map Symbol.constant := by
  rw [constant_outline, constant_outline, same]

theorem has_congr {s s' : Scope} (same : s.outline = s'.outline) (name : Text) :
    s.has name = s'.has name := by
  have found := congrArg Option.isSome (constant_congr same name)
  rwa [Option.isSome_map, Option.isSome_map] at found

theorem names_congr {s s' : Scope} (same : s.outline = s'.outline) : s.names = s'.names := by
  have names (s : Scope) : s.names = s.outline.1.map Prod.fst := by
    simp [Scope.names, outline]
  rw [names, names, same]

/-- The outline of a scope decides its outline after a declaration. -/
theorem outline_extended {s s' : Scope} (same : s.outline = s'.outline) {sym sym' : Symbol}
    (name : sym.name = sym'.name) (constant : sym.constant = sym'.constant) :
    (s.extended sym).outline = (s'.extended sym').outline := by
  have symbols {xs ys : List Symbol}
      (alike : xs.map (fun s => (s.name, s.constant)) = ys.map fun s => (s.name, s.constant)) :
      (put sym xs).map (fun s => (s.name, s.constant)) =
        (put sym' ys).map fun s => (s.name, s.constant) := by
    induction xs generalizing ys with
    | nil =>
      obtain rfl : ys = [] := List.map_eq_nil_iff.mp alike.symm
      simp [put, name, constant]
    | cons x xs ih =>
      obtain ⟨y, ys, rfl, here, below⟩ := List.map_eq_cons_iff.mp alike.symm
      obtain ⟨named, -⟩ := Prod.mk.inj here
      simp only [put, name, ← named]
      split
      · simp [name, constant, below]
      · simp [← here, ih below.symm]
  obtain ⟨names, constants⟩ := Prod.mk.inj same
  simp only [outline, extended, Prod.mk.injEq, name, constant, constants, and_true]
  exact symbols names

end Scope

/-! ### Outlines -/

namespace Env

theorem constancy_cons (scope : Scope) (outer : Env) (name : Text) :
    constancy (scope :: outer) name =
      ((scope.find? name).map Symbol.constant).or (constancy outer name) := by
  unfold constancy resolve?
  rw [List.findSome?_cons]
  cases scope.find? name <;> rfl

/-- The outline decides which names are constant. -/
theorem constancy_congr {env env' : Env} (same : env'.outline = env.outline) (name : Text) :
    env'.constancy name = env.constancy name := by
  induction env generalizing env' with
  | nil =>
    obtain rfl : env' = [] := List.map_eq_nil_iff.mp same
    rfl
  | cons scope outer ih =>
    obtain ⟨scope', outer', rfl, here, below⟩ := List.map_eq_cons_iff.mp same
    rw [constancy_cons, constancy_cons, ih below, Scope.constant_congr here]

/-- The outline is kept by a change that keeps names and constants. -/
theorem outline_modify (f : Symbol → Symbol) (keeps : ∀ sym, (f sym).name = sym.name)
    (keeps' : ∀ sym, (f sym).constant = sym.constant) (name : Text) (env : Env) :
    (modify name f env).outline = env.outline := by
  have scope_modify (scope : Scope) : (scope.modify name f).outline = scope.outline := by
    simp only [Scope.outline, Scope.modify, List.map_map, Prod.mk.injEq, and_true]
    refine List.map_congr_left fun sym _ => ?_
    simp only [Function.comp_apply]
    split <;> simp [keeps, keeps']
  induction env with
  | nil => rfl
  | cons scope outer ih =>
    rw [modify]
    split
    · rw [outline, outline, List.map_cons, List.map_cons, scope_modify]
    · rw [outline, List.map_cons]
      exact congrArg _ ih

@[simp] theorem outline_markUsed (name : Text) (env : Env) :
    (env.modify name Symbol.markUsed).outline = env.outline :=
  outline_modify Symbol.markUsed (fun _ => rfl) (fun _ => rfl) name env

@[simp] theorem outline_bind (name : Text) (v : Float) (env : Env) :
    (env.modify name (Symbol.bind v)).outline = env.outline :=
  outline_modify (Symbol.bind v) (fun _ => rfl) (fun _ => rfl) name env

theorem outline_tail (env : Env) : outline env.tail = env.outline.tail := List.map_tail ..

theorem tail_declare {sym : Symbol} {env env' : Env} (declared : declare sym env = .ok env') :
    env'.tail = env.tail := by
  cases env with
  | nil =>
    cases declared
    rfl
  | cons scope outer =>
    obtain ⟨scope', -, same⟩ := Except.bind_eq_ok_iff.mp declared
    cases same
    rfl

/-- A symbol is declared unless the innermost scope has made its name a constant. -/
theorem declare_cons_eq_ok_iff {sym : Symbol} {scope : Scope} {outer env' : Env} :
    declare sym (scope :: outer) = .ok env' ↔
      sym.name ∉ scope.constants ∧
        env' = scope.extended sym :: outer := by
  by_cases taken : sym.name ∈ scope.constants
  · simp [declare, Scope.declare, taken, bind, Except.bind]
  · have value : declare sym (scope :: outer) = .ok (scope.extended sym :: outer) := by
      simp [declare, Scope.declare, Scope.extended, taken, bind, Except.bind, pure, Except.pure]
    rw [value, Except.ok.injEq]
    exact ⟨fun same => ⟨taken, same.symm⟩, fun same => same.2.symm⟩

theorem constancy_declare {sym : Symbol} {env env' : Env} (opened : env ≠ [])
    (declared : declare sym env = .ok env') (name : Text) :
    env'.constancy name =
      if sym.name = name then .some sym.constant else env.constancy name := by
  obtain ⟨scope, outer, rfl⟩ := List.exists_cons_of_ne_nil opened
  obtain ⟨-, rfl⟩ := declare_cons_eq_ok_iff.mp declared
  rw [constancy_cons, constancy_cons, Scope.find?, Scope.extended, Scope.find?_put, Scope.find?]
  split <;> rfl

/-- Reading names changes no outline. -/
theorem reading_outline : Reading fun env env' => env'.outline = env.outline where
  refl _ := rfl
  trans first second := second.trans first
  read env name := outline_markUsed name env

/-- No operation changes the outline of the scopes around the innermost one. -/
theorem kept_outer : Kept fun env env' => outline env'.tail = outline env.tail where
  refl _ := rfl
  trans first second := second.trans first
  read env name := by rw [outline_tail, outline_tail, outline_markUsed]
  assign := by
    intro env env' name v place assigned
    rcases assign_cases assigned with ⟨sym, declared⟩ | rfl
    · rw [tail_declare declared]
    · rw [outline_tail, outline_tail, outline_bind]
  declare declared := by rw [tail_declare declared]
  leave := by
    intro env env' kind inside
    have whole : outline env'.tail = env.outline := inside
    rw [outline_tail, whole, ← outline_tail]

/-! ### Copies -/

theorem find?_flatten {env : Env} (distinct : ∀ scope ∈ env, scope.names.Nodup) (name : Text) :
    env.flatten.find? (fun sym => sym.name = name) = env.resolve? name := by
  induction env with
  | nil => rfl
  | cons scope outer ih =>
    have below := ih fun other member => distinct other (List.mem_cons_of_mem scope member)
    have here : (scope.symbols.map Symbol.name).Nodup := distinct scope List.mem_cons_self
    change List.find? _ (scope.symbols.foldl (fun acc sym => Scope.put sym acc) (flatten outer)) = _
    rw [Scope.find?_foldl_put here, below, resolve?, resolve?, List.findSome?_cons, Scope.find?]
    cases scope.symbols.find? (fun sym => sym.name = name) <;> rfl

theorem nodup_flatten (env : Env) : (env.flatten.map Symbol.name).Nodup := by
  induction env with
  | nil => exact List.nodup_nil
  | cons scope outer ih => exact Scope.nodup_foldl_put scope.symbols ih

end Env

/-! ### Agreement -/

namespace Agrees

variable {env known : Env}

/-- Agreement depends on outlines only. -/
theorem congr (h : Agrees env known) {env' known' : Env} (same : env'.outline = env.outline)
    (same' : known'.outline = known.outline) : Agrees env' known' where
  constancy name := by
    rw [Env.constancy_congr same, Env.constancy_congr same', h.constancy name]
  constants := by
    have head (env : Env) : env.head?.map Scope.constants = env.outline.head?.map Prod.snd := by
      cases env <;> rfl
    rw [head, head, same, same', ← head, ← head, h.constants]
  nonempty := by
    rintro rfl
    exact h.nonempty (List.map_eq_nil_iff.mp same'.symm)
  distinct scope member := by
    have found : scope.outline ∈ env.outline := by
      rw [← same]
      exact List.mem_map_of_mem member
    obtain ⟨other, member', equal⟩ := List.mem_map.mp found
    rw [← Scope.names_congr equal]
    exact h.distinct other member'

theorem global : Agrees Env.global Env.global where
  constancy _ := rfl
  constants := rfl
  nonempty := by simp [Env.global]
  distinct := by
    intro scope member
    obtain rfl := List.mem_singleton.mp member
    exact List.nodup_nil

theorem exists_cons (h : Agrees env known) :
    ∃ scope outer scope' outer', env = scope :: outer ∧ known = scope' :: outer' ∧
      scope.constants = scope'.constants := by
  obtain ⟨scope', outer', rfl⟩ := List.exists_cons_of_ne_nil h.nonempty
  have constants := h.constants
  cases env with
  | nil => cases constants
  | cons scope outer => exact ⟨scope, outer, scope', outer', rfl, rfl, Option.some.inj constants⟩

/-- What the check lets be declared, the run declares. -/
theorem declare (h : Agrees env known) {sym sym' : Symbol} (name : sym.name = sym'.name)
    (constant : sym.constant = sym'.constant) {known' : Env}
    (declared : known.declare sym' = .ok known') :
    ∃ env', env.declare sym = .ok env' ∧ Agrees env' known' := by
  obtain ⟨scope, outer, scope', outer', rfl, rfl, constants⟩ := h.exists_cons
  obtain ⟨free, same⟩ := Env.declare_cons_eq_ok_iff.mp declared
  obtain ⟨env', run⟩ : ∃ env', Env.declare sym (scope :: outer) = .ok env' :=
    ⟨_, Env.declare_cons_eq_ok_iff.mpr ⟨by rwa [constants, name], rfl⟩⟩
  obtain ⟨-, same'⟩ := Env.declare_cons_eq_ok_iff.mp run
  refine ⟨env', run, fun other => ?_, ?_, by simp [same], ?_⟩
  · rw [Env.constancy_declare (by simp) run, Env.constancy_declare (by simp) declared, name,
      constant, h.constancy other]
  · simp [same, same', Scope.extended, name, constant, constants]
  · rw [same']
    intro inner member
    rcases List.mem_cons.mp member with rfl | member
    · exact Scope.nodup_put sym (h.distinct scope List.mem_cons_self)
    · exact h.distinct inner (List.mem_cons_of_mem scope member)

/-- What the check lets be assigned, the run assigns. -/
theorem assign (h : Agrees env known) {name : Text} {w : Float} {known' : Env} {place : Position}
    (assigned : known.assign name w place = .ok known') (v : Float) :
    ∃ env', env.assign name v place = .ok env' ∧ Agrees env' known' := by
  have same := h.constancy name
  unfold Env.constancy at same
  unfold Env.assign at assigned ⊢
  cases found : known.resolve? name with
  | none =>
    have found' : env.resolve? name = none := by simpa [found] using same
    simp only [found] at assigned
    simp only [found']
    exact h.declare (by rfl) (by rfl) assigned
  | some sym =>
    rw [found, Option.map_some] at same
    obtain ⟨sym', found', constant⟩ := Option.map_eq_some_iff.mp same
    simp only [found, found', constant] at assigned ⊢
    by_cases refused : sym.constant = true
    · simp [refused] at assigned
    · rw [if_neg refused] at assigned ⊢
      cases assigned
      exact ⟨_, rfl, h.congr (Env.outline_bind name v env) (Env.outline_bind name w known)⟩

/-- Blocks of a run and of a check start in agreement, even where the run copies. -/
theorem enter (h : Agrees env known) (limits : Limits) (kind : ScopeKind) :
    Agrees (limits.enter kind env) (known.child kind) := by
  have visible (name : Text) : (known.child kind).constancy name = env.constancy name := by
    rw [Env.child, Env.constancy_cons, h.constancy name]
    rfl
  unfold Limits.enter
  split
  · refine ⟨fun name => ?_, rfl, by simp [Env.child], ?_⟩
    · rw [visible, Env.child, Env.constancy_cons]
      rfl
    · intro scope member
      rcases List.mem_cons.mp member with rfl | member
      · exact List.nodup_nil
      · exact h.distinct scope member
  · refine ⟨fun name => ?_, rfl, by simp [Env.child], ?_⟩
    · -- No scope holds a name twice, so the copy shows what was visible.
      rw [visible, Env.copy, Env.constancy_cons, Scope.find?, Env.find?_flatten h.distinct]
      unfold Env.constancy
      cases env.resolve? name <;> rfl
    · intro scope member
      obtain rfl := List.mem_singleton.mp member
      exact env.nodup_flatten

end Agrees

end NumScript

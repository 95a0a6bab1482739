import Mathlib.Data.List.Nodup
import NumScript.Proofs.Env.Outline

/-! What is found under a name. For each operation on environments there is one equation that gives
the symbol found afterwards by the symbol found before. The value of an expression depends on the
values found under its names and on nothing else of the environment. -/

namespace NumScript

namespace Scope

theorem name_of_find? {s : Scope} {name : Text} {sym : Symbol} (found : s.find? name = some sym) :
    sym.name = name := by
  simpa using List.find?_some found

theorem mem_names_iff (s : Scope) (name : Text) : name ∈ s.names ↔ s.has name = true := by
  rw [names, List.mem_map, has, find?, List.find?_isSome]
  simp

theorem find?_of_mem {s : Scope} (distinct : s.names.Nodup) {sym : Symbol}
    (member : sym ∈ s.symbols) : s.find? sym.name = some sym := by
  cases found : s.find? sym.name with
  | none => simpa using List.find?_eq_none.mp found sym member
  | some other =>
    have same := List.inj_on_of_nodup_map distinct (List.mem_of_find?_eq_some found) member
      (name_of_find? found)
    rw [same]

theorem find?_modify (s : Scope) {f : Symbol → Symbol} (keeps : ∀ sym, (f sym).name = sym.name)
    (name other : Text) :
    (s.modify name f).find? other =
      if other = name then (s.find? other).map f else s.find? other := by
  have names (sym : Symbol) : (if sym.name = name then f sym else sym).name = sym.name := by
    split <;> simp [keeps]
  simp only [find?, modify, List.find?_map, Function.comp_def, names]
  cases found : s.symbols.find? (fun sym => sym.name = other) with
  | none => simp
  | some sym =>
    have here : sym.name = other := by simpa using List.find?_some found
    by_cases same : other = name <;> simp [here, same]

theorem names_modify (s : Scope) {f : Symbol → Symbol} (keeps : ∀ sym, (f sym).name = sym.name)
    (name : Text) : (s.modify name f).names = s.names := by
  simp only [names, modify, List.map_map]
  refine List.map_congr_left fun sym _ => ?_
  simp only [Function.comp_apply]
  split <;> simp [keeps]

theorem find?_extended (s : Scope) (sym : Symbol) (name : Text) :
    (s.extended sym).find? name = if sym.name = name then some sym else s.find? name :=
  find?_put sym s.symbols name

theorem names_extended (scope : Scope) (sym : Symbol) :
    (scope.extended sym).names =
      if sym.name ∈ scope.names then scope.names else scope.names ++ [sym.name] :=
  map_name_put sym scope.symbols

/-- A symbol that is declared without a value and then gets one is as if declared with it. -/
theorem modify_extended {scope : Scope} {sym : Symbol} (absent : sym.name ∉ scope.names)
    (v : Float) :
    (scope.extended sym).modify sym.name (Symbol.bind v) = scope.extended (sym.bind v) := by
  have apart : ∀ other ∈ scope.symbols, other.name ≠ sym.name := fun other member same =>
    absent (List.mem_map.mpr ⟨other, member, same⟩)
  have absent' : (sym.bind v).name ∉ scope.symbols.map Symbol.name := absent
  simp only [modify, extended, mk.injEq, true_and]
  refine ⟨?_, rfl⟩
  rw [put_of_absent absent, put_of_absent absent', List.map_append, List.map_singleton, if_pos rfl]
  congr 1
  exact (List.map_congr_left fun other member => if_neg (apart other member)).trans (List.map_id _)

end Scope

namespace Env

/-- No scope holds two symbols with the same name. -/
def Distinct (env : Env) : Prop := ∀ scope ∈ env, scope.names.Nodup

theorem resolve?_cons (scope : Scope) (outer : Env) (name : Text) :
    resolve? (scope :: outer) name = (scope.find? name).or (resolve? outer name) := by
  rw [resolve?, resolve?, List.findSome?_cons]
  cases scope.find? name <;> rfl

theorem resolve?_modify (env : Env) {f : Symbol → Symbol}
    (keeps : ∀ sym, (f sym).name = sym.name) (name other : Text) :
    (env.modify name f).resolve? other =
      if other = name then (env.resolve? other).map f else env.resolve? other := by
  induction env with
  | nil => simp [modify, resolve?]
  | cons scope outer ih =>
    rw [modify]
    split
    · rename_i here
      obtain ⟨sym, found⟩ := Option.isSome_iff_exists.mp here
      rw [resolve?_cons, resolve?_cons, Scope.find?_modify scope keeps]
      by_cases same : other = name
      · simp [same, found]
      · simp [same]
    · rename_i absent
      have missing : scope.find? name = none := by simpa [Scope.has] using absent
      rw [resolve?_cons, resolve?_cons, ih]
      by_cases same : other = name
      · simp [same, missing]
      · simp [same]

theorem findLocal?_modify (env : Env) {f : Symbol → Symbol}
    (keeps : ∀ sym, (f sym).name = sym.name) (name other : Text) :
    (env.modify name f).findLocal? other =
      if other = name then (env.findLocal? other).map f else env.findLocal? other := by
  cases env with
  | nil => simp [modify, findLocal?]
  | cons scope outer =>
    rw [modify]
    split
    · exact scope.find?_modify keeps name other
    · rename_i absent
      have missing : scope.find? name = none := by simpa [Scope.has] using absent
      by_cases same : other = name
      · simp [findLocal?, same, missing]
      · simp [findLocal?, same]

theorem map_names_modify (env : Env) {f : Symbol → Symbol}
    (keeps : ∀ sym, (f sym).name = sym.name) (name : Text) :
    (env.modify name f).map Scope.names = env.map Scope.names := by
  induction env with
  | nil => rfl
  | cons scope outer ih =>
    rw [modify]
    split
    · rw [List.map_cons, scope.names_modify keeps, List.map_cons]
    · rw [List.map_cons, ih, List.map_cons]

theorem Distinct.of_map_names {env env' : Env} (distinct : env.Distinct)
    (same : env'.map Scope.names = env.map Scope.names) : env'.Distinct := by
  intro scope member
  have found : scope.names ∈ env.map Scope.names := same ▸ List.mem_map_of_mem member
  obtain ⟨other, member', names⟩ := List.mem_map.mp found
  exact names ▸ distinct other member'

theorem declare_cons (sym : Symbol) (scope : Scope) (outer : Env) :
    declare sym (scope :: outer) =
      if sym.name ∈ scope.constants then
        .error (sym.redeclared ((scope.find? sym.name).getD { name := sym.name }))
      else .ok (scope.extended sym :: outer) := by
  by_cases taken : sym.name ∈ scope.constants
  · simp [declare, Scope.declare, taken, bind, Except.bind]
  · rw [if_neg taken]
    exact declare_cons_eq_ok_iff.mpr ⟨taken, rfl⟩

theorem Distinct.extended {scope : Scope} {outer : Env} (distinct : Distinct (scope :: outer))
    (sym : Symbol) : Distinct (scope.extended sym :: outer) := by
  intro other member
  rcases List.mem_cons.mp member with rfl | member
  · exact Scope.nodup_put sym (distinct scope List.mem_cons_self)
  · exact distinct other (List.mem_cons_of_mem scope member)

theorem scopes_of_declare {env env' : Env} {sym : Symbol} (declared : env.declare sym = .ok env') :
    env'.length = env.length ∧ (env.Distinct → env'.Distinct) := by
  cases env with
  | nil =>
    cases declared
    exact ⟨rfl, id⟩
  | cons scope outer =>
    obtain ⟨-, rfl⟩ := declare_cons_eq_ok_iff.mp declared
    exact ⟨rfl, fun distinct => distinct.extended sym⟩

/-- No operation opens or leaves a scope for good, or gives one a name twice. -/
theorem kept_scopes :
    Kept fun env env' => env'.length = env.length ∧ (env.Distinct → env'.Distinct) where
  refl _ := ⟨rfl, id⟩
  trans first second := ⟨second.1.trans first.1, second.2 ∘ first.2⟩
  read env name := by
    have names := env.map_names_modify (f := Symbol.markUsed) (fun _ => rfl) name
    exact ⟨by simpa using congrArg List.length names, fun distinct => distinct.of_map_names names⟩
  assign := by
    intro env env' name v place assigned
    rcases assign_cases assigned with ⟨sym, declared⟩ | rfl
    · exact scopes_of_declare declared
    · have names := env.map_names_modify (f := Symbol.bind v) (fun _ => rfl) name
      exact ⟨by simpa using congrArg List.length names, fun distinct => distinct.of_map_names names⟩
  declare := scopes_of_declare
  leave := by
    intro env env' kind inside
    refine ⟨by simp [inside.1, child], fun distinct scope member => ?_⟩
    refine inside.2 ?_ scope (List.mem_of_mem_tail member)
    exact List.forall_mem_cons.mpr ⟨List.nodup_nil, distinct⟩

theorem resolve?_child (kind : ScopeKind) (env : Env) (name : Text) :
    (env.child kind).resolve? name = env.resolve? name := by
  rw [child, resolve?_cons]
  rfl

theorem resolve?_copy (kind : ScopeKind) {env : Env} (distinct : env.Distinct) (name : Text) :
    (env.copy kind).resolve? name = env.resolve? name := by
  rw [copy, resolve?_cons, Scope.find?, find?_flatten distinct]
  cases env.resolve? name <;> rfl

/-! ### Values -/

/-- The value under a name: nothing when the name is not visible, and no value when it has none. -/
def value? (env : Env) (name : Text) : Option (Option Float) :=
  (env.resolve? name).map Symbol.value

theorem value?_markUsed (env : Env) (name : Text) :
    value? (env.modify name Symbol.markUsed) = env.value? := by
  funext other
  simp only [value?, env.resolve?_modify (f := Symbol.markUsed) (fun _ => rfl)]
  split
  · rw [Option.map_map]
    rfl
  · rfl

theorem get_congr {env env' : Env} (same : env.value? = env'.value?) (name : Text) (line : Int) :
    ∃ r e e', env.get name line = (r, e) ∧ env'.get name line = (r, e') ∧ e.value? = e'.value? := by
  have here := congrFun same name
  refine ⟨_, _, _, rfl, ?_, (value?_markUsed env name).trans
    (same.trans (value?_markUsed env' name).symm)⟩
  simp only [value?] at here
  simp only [get, Prod.mk.injEq, and_true]
  cases found : env.resolve? name <;> cases found' : env'.resolve? name <;> simp_all

end Env

namespace Tree

mutual

theorem bind_congr {env env' : Env} (same : env.value? = env'.value?) :
    (t : Tree) → ∃ r e e', t.bind env = (r, e) ∧ t.bind env' = (r, e') ∧ e.value? = e'.value?
  | leaf t => by
    rw [bind, bind]
    split
    · obtain ⟨r, e, e', left, right, read⟩ := Env.get_congr same t.lexeme t.line
      rw [left, right]
      cases r <;> exact ⟨_, e, e', rfl, rfl, read⟩
    · exact ⟨_, env, env', rfl, rfl, same⟩
  | unary op a => by
    rw [bind, bind]
    split
    · exact ⟨_, env, env', rfl, rfl, same⟩
    · obtain ⟨r, e, e', left, right, read⟩ := bind_congr same a
      rw [left, right]
      cases r <;> exact ⟨_, e, e', rfl, rfl, read⟩
  | binary op a b => by
    rw [bind, bind]
    split
    · exact ⟨_, env, env', rfl, rfl, same⟩
    · obtain ⟨r, e₁, e₁', left, right, read⟩ := bind_congr same a
      rw [left, right]
      cases r with
      | error d => exact ⟨_, e₁, e₁', rfl, rfl, read⟩
      | ok a' =>
        obtain ⟨r, e₂, e₂', left, right, read⟩ := bind_congr read b
        simp only [left, right]
        cases r <;> exact ⟨_, e₂, e₂', rfl, rfl, read⟩
  | wide op a b c more => by
    rw [bind, bind]
    split
    · exact ⟨_, env, env', rfl, rfl, same⟩
    · obtain ⟨r, e₁, e₁', left, right, read⟩ := bind_congr same a
      rw [left, right]
      cases r with
      | error d => exact ⟨_, e₁, e₁', rfl, rfl, read⟩
      | ok a' =>
        obtain ⟨r, e₂, e₂', left, right, read⟩ := bind_congr read b
        simp only [left, right]
        cases r with
        | error d => exact ⟨_, e₂, e₂', rfl, rfl, read⟩
        | ok b' =>
          obtain ⟨r, e₃, e₃', left, right, read⟩ := bind_congr read c
          simp only [left, right]
          cases r with
          | error d => exact ⟨_, e₃, e₃', rfl, rfl, read⟩
          | ok c' =>
            obtain ⟨r, e₄, e₄', left, right, read⟩ := bindAll_congr read more
            simp only [left, right]
            cases r <;> exact ⟨_, e₄, e₄', rfl, rfl, read⟩

theorem bindAll_congr {env env' : Env} (same : env.value? = env'.value?) :
    (ts : List Tree) →
      ∃ r e e', bindAll env ts = (r, e) ∧ bindAll env' ts = (r, e') ∧ e.value? = e'.value?
  | [] => by
    rw [bindAll, bindAll]
    exact ⟨_, env, env', rfl, rfl, same⟩
  | t :: rest => by
    rw [bindAll, bindAll]
    obtain ⟨r, e, e', left, right, read⟩ := bind_congr same t
    rw [left, right]
    cases r with
    | error d => exact ⟨_, e, e', rfl, rfl, read⟩
    | ok t' => exact bindAll_congr read rest

end

/-- The value of an expression depends only on the values found under its names. -/
theorem evaluateIn_congr {env env' : Env} (same : env.value? = env'.value?) (t : Tree) :
    (t.evaluateIn env).1 = (t.evaluateIn env').1 := by
  obtain ⟨r, e, e', left, right, -⟩ := bind_congr same t
  rw [evaluateIn, evaluateIn, left, right]
  cases r <;> rfl

end Tree

end NumScript

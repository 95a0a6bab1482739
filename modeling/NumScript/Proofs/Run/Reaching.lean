import NumScript.Proofs.Run.Ending

/-! The points that a run comes to. A point is what is left to run of the innermost block, together
with the state of the run there and the number of blocks around it. A run that goes on for ever
comes to points too: a point is reached by the runs of finitely many statements before it, each of
which has ended. -/

namespace NumScript

/-- In state `m` a condition comes out as `holds`, and the branch is taken in state `m'`. -/
def Machine.Decides (m : Machine) (keyword : Token) (condition : Expression) (holds : Bool)
    (m' : Machine) : Prop :=
  ∃ v m₁, m.evaluate condition.tree = (.ok v, m₁) ∧ truthy v = holds ∧
    m' = m₁.note (.branch keyword.line condition.text v)

/-- In state `m` a loop goes round: its condition holds and the limit allows it. The body is
entered from state `m'`. -/
def Limits.GoesRound (limits : Limits) (keyword : Token) (condition : Expression)
    (m m' : Machine) : Prop :=
  ∃ v m₁, m.evaluate condition.tree = (.ok v, m₁) ∧ truthy v = true ∧ limits.spent m₁ = false ∧
    m' = { m₁ with iterations := m₁.iterations + 1 }.note (.iterate keyword.line)

/-- In state `m` a loop would go round: its condition holds, which leaves state `m'`. But there the
limit is used up. -/
def Limits.RefusesRound (limits : Limits) (condition : Expression) (m m' : Machine) : Prop :=
  ∃ v, m.evaluate condition.tree = (.ok v, m') ∧ truthy v = true ∧ limits.spent m' = true

theorem Limits.within_eq_none {limits : Limits} {kind : ScopeKind} {body : Machine → Outcome}
    {m m' : Machine} (ended : limits.within kind body m = ⟨m', none⟩) :
    ∃ inner, body (limits.entered kind m) = ⟨inner, none⟩ ∧ m' = limits.left m inner := by
  rw [Limits.within_eq, Outcome.mk.injEq] at ended
  refine ⟨_, ?_, ended.1.symm⟩
  rw [← ended.2]

namespace Program

/-- The first statement alone. -/
def first : Program → Program
  | done => done
  | block brace body _ => block brace body done
  | declare keyword name value _ => declare keyword name value done
  | assign name value _ => assign name value done
  | expression value _ => expression value done
  | ifThen keyword condition brace body _ => ifThen keyword condition brace body done
  | ifElse keyword condition brace body elseBrace elseBody _ =>
    ifElse keyword condition brace body elseBrace elseBody done
  | loop keyword condition brace body _ => loop keyword condition brace body done

/-- The statements behind the first one. -/
def rest : Program → Program
  | done => done
  | block _ _ rest | declare _ _ _ rest | assign _ _ rest | expression _ rest
  | ifThen _ _ _ _ rest | ifElse _ _ _ _ _ _ rest | loop _ _ _ _ rest => rest

/-- The run of `p` from `m` comes, inside `depth` blocks, to a point where `q` is left to run and
the state is `m'`. -/
inductive Reaches (limits : Limits) : Program → Machine → Nat → Program → Machine → Prop
  | here {p : Program} {m : Machine} : Reaches limits p m 0 p m
  | after {p q : Program} {m m₁ m' : Machine} {depth : Nat} :
      p.first.Ends limits m ⟨m₁, none⟩ → Reaches limits p.rest m₁ depth q m' →
      Reaches limits p m depth q m'
  | block {brace : Token} {body rest q : Program} {m m' : Machine} {depth : Nat} :
      Reaches limits body (limits.entered .block (m.note (.enterBlock brace.line))) depth q m' →
      Reaches limits (.block brace body rest) m (depth + 1) q m'
  | ifThen {keyword brace : Token} {condition : Expression} {body rest q : Program}
      {m m₁ m' : Machine} {depth : Nat} :
      m.Decides keyword condition true m₁ →
      Reaches limits body (limits.entered .branch m₁) depth q m' →
      Reaches limits (.ifThen keyword condition brace body rest) m (depth + 1) q m'
  | ifElse {keyword brace elseBrace : Token} {condition : Expression}
      {body elseBody rest q : Program} {m m₁ m' : Machine} {depth : Nat} {holds : Bool} :
      m.Decides keyword condition holds m₁ →
      Reaches limits (if holds then body else elseBody) (limits.entered .branch m₁) depth q m' →
      Reaches limits (.ifElse keyword condition brace body elseBrace elseBody rest) m (depth + 1)
        q m'
  | loop {keyword brace : Token} {condition : Expression} {body rest q : Program}
      {m m₁ m' : Machine} {depth : Nat} :
      limits.GoesRound keyword condition m m₁ →
      Reaches limits body (limits.entered .loop m₁) depth q m' →
      Reaches limits (.loop keyword condition brace body rest) m (depth + 1) q m'
  | again {keyword brace : Token} {condition : Expression} {body rest q : Program}
      {m m₁ m₂ m' : Machine} {depth : Nat} :
      limits.GoesRound keyword condition m m₁ →
      body.Ends limits (limits.entered .loop m₁) ⟨m₂, none⟩ →
      Reaches limits (.loop keyword condition brace body rest) (limits.left m₁ m₂) depth q m' →
      Reaches limits (.loop keyword condition brace body rest) m depth q m'

/-- The run of `p` from `m` comes, inside `depth` blocks, to an assignment to `name` whose value it
has computed; it is about to be carried out in state `m'`. -/
def Assigns (limits : Limits) (p : Program) (m : Machine) (depth : Nat) (name : Token)
    (m' : Machine) : Prop :=
  ∃ value rest m₁ v, p.Reaches limits m depth (.assign name value rest) m₁ ∧
    m₁.evaluate value.tree = (.ok v, m')

/-! ### Runs as first statement and rest -/

variable {limits : Limits}

theorem andThen_done (o : Outcome) : (o.andThen fun m => ⟨m, none⟩) = o := by
  obtain ⟨m, fault⟩ := o
  cases fault <;> rfl

theorem run_eq_first_rest (p : Program) (m : Machine) :
    p.run limits m = (p.first.run limits m).andThen (p.rest.run limits) := by
  cases p with
  | done => rfl
  | _ => simp only [first, rest, run, andThen_done]

theorem Ends.of_run {p : Program} {m m' : Machine} (ended : p.run limits m = ⟨m', none⟩) :
    p.Ends limits m ⟨m', none⟩ :=
  ⟨by simp, limits.patience, ended⟩

/-- Which points a run comes to does not depend on patience. -/
theorem Reaches.of_patience {p q : Program} {m m' : Machine} {depth patience : Nat}
    (h : p.Reaches { limits with patience := patience } m depth q m') :
    p.Reaches limits m depth q m' := by
  induction h with
  | here => exact .here
  | after ended _ ih => exact .after ended ih
  | block _ ih => exact .block ih
  | ifThen decides _ ih => exact .ifThen decides ih
  | ifElse decides _ ih => exact .ifElse decides ih
  | loop round _ ih => exact .loop round ih
  | again round ended _ ih => exact .again round ended ih

/-- Behind the last statement there is nothing left to come to. -/
theorem Reaches.eq_done {p q : Program} {m m' : Machine} {depth : Nat}
    (h : p.Reaches limits m depth q m') (empty : p = done) : q = done := by
  induction h with
  | here => exact empty
  | after _ _ ih =>
    subst empty
    exact ih rfl
  | _ => cases empty

end Program

end NumScript

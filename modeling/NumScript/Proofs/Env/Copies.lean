import Mathlib.Data.List.Induction
import Mathlib.Data.List.Sort
import NumScript.Proofs.Env.Views

/-! Copies of environments. A copy shows what the environment showed that it was made of, and from
then on the two live apart: what comes of the copy never reaches the scopes that were there before,
and what goes on elsewhere never reaches the copy. A call changes at most the scopes on the path of
its environment, and no path leads from what comes of the copy to anything else or back. -/

namespace NumScript

namespace Forest

/-- The call makes a new environment. -/
def Call.opens : Call → Bool
  | new | newScope _ _ | child _ _ | copy _ _ => true
  | declare _ _ | assign _ _ _ _ | get _ _ _ | lookup _ _ => false

/-- After calls on `start`, environment `j` comes of environment `d`: it is `d` itself, or it was
opened inside, or copied from, one that comes of `d`. -/
inductive Descends (start : Forest) (d : Nat) : List Call → Nat → Prop
  | self : Descends start d [] d
  | made {calls : List Call} {call : Call} {i : Nat} (source : Descends start d calls i)
      (target : call.target? = some i) (opens : call.opens = true) :
      Descends start d (calls ++ [call]) (start.run calls).nodes.length
  | kept {calls : List Call} {call : Call} {j : Nat} (earlier : Descends start d calls j) :
      Descends start d (calls ++ [call]) j

/-- Each of the calls `more`, made after `calls`, is on an environment of a family, which may grow
with every call. -/
def MadeOn (family : List Call → Nat → Prop) (calls more : List Call) : Prop :=
  ∀ earlier call, earlier ++ [call] <+: more →
    ∀ i, call.target? = some i → family (calls ++ earlier) i

/-- Environment `d` has no other scope around it and is around none. -/
structure Detached (start : Forest) (d : Nat) : Prop where
  sound : start.Sound
  made : d < start.nodes.length
  alone : start.parent? d = none
  unseen : ∀ j, start.parent? j ≠ some d

variable {forest : Forest}

/-! ### Environments that keep to a set of scopes -/

/-- A path does not leave a set of scopes that holds the scope around each of its own. -/
theorem mem_of_mem_pathFrom {family : Nat → Prop}
    (closed : ∀ j p, forest.parent? j = some p → family j → family p) {fuel i : Nat}
    (member : family i) : ∀ j ∈ pathFrom forest.nodes fuel i, family j := by
  induction fuel generalizing i with
  | zero => simp [pathFrom]
  | succ fuel ih =>
    rw [pathFrom]
    cases found : forest.nodes[i]? with
    | none => simp
    | some node =>
      refine List.forall_mem_cons.mpr ⟨member, ?_⟩
      cases inner : node.parent with
      | none => simp
      | some p => exact ih (closed i p (by simp [parent?, found, inner]) member)

/-- An environment is the same in two forests that have the same nodes in a set which its path does
not leave. -/
theorem env_congr {forest after : Forest} (family : Nat → Prop)
    (closed : ∀ j p, forest.parent? j = some p → family j → family p)
    (same : ∀ j, family j → after.nodes[j]? = forest.nodes[j]?) {i : Nat} (member : family i) :
    after.env i = forest.env i := by
  have paths (fuel : Nat) : pathFrom after.nodes fuel i = pathFrom forest.nodes fuel i := by
    induction fuel generalizing i with
    | zero => rfl
    | succ fuel ih =>
      rw [pathFrom, pathFrom, same i member]
      cases found : forest.nodes[i]? with
      | none => rfl
      | some node =>
        obtain ⟨parent, scope⟩ := node
        cases parent with
        | none => rfl
        | some p => simp only [ih (closed i p (by simp [parent?, found]) member)]
  rw [env, env, path, path, paths]
  refine List.filterMap_congr fun j on => ?_
  rw [same j (mem_of_mem_pathFrom closed member j on)]

/-- A new scope shows in no environment that was there before. -/
theorem env_add (sound : forest.Sound) (node : Node) {i : Nat} (old : i < forest.nodes.length) :
    (forest.add node).env i = forest.env i := by
  refine env_congr (· < forest.nodes.length) (fun j p inner inside => ?_)
    (fun j inside => List.getElem?_append_left inside) old
  have outer : p < j := sound.rooted j p inner
  omega

theorem env_add_self (forest : Forest) (scope : Scope) :
    (forest.add { scope := scope }).env forest.nodes.length = [scope] := by
  simp [env, path, pathFrom, add]

/-! ### What a call can reach -/

theorem getElem?_writeBack (nodes : List Node) {path : List Nat} {j : Nat} (elsewhere : j ∉ path)
    (env : Env) : (writeBack nodes path env)[j]? = nodes[j]? := by
  induction path generalizing nodes env with
  | nil => rfl
  | cons i path ih =>
    rw [List.mem_cons, not_or] at elsewhere
    cases env with
    | nil => rfl
    | cons scope outer =>
      rw [writeBack, ih _ elsewhere.2, List.getElem?_modify]
      simp [Ne.symm elsewhere.1]

theorem parent?_writeBack (nodes : List Node) (path : List Nat) (env : Env) (j : Nat) :
    parent? ⟨writeBack nodes path env⟩ j = parent? ⟨nodes⟩ j := by
  induction path generalizing nodes env with
  | nil => rfl
  | cons i path ih =>
    cases env with
    | nil => rfl
    | cons scope outer =>
      rw [writeBack, ih]
      exact parent?_alter ⟨nodes⟩ i (fun _ => scope) j

theorem length_writeBack (nodes : List Node) (path : List Nat) (env : Env) :
    (writeBack nodes path env).length = nodes.length := by
  induction path generalizing nodes env with
  | nil => rfl
  | cons i path ih =>
    cases env with
    | nil => rfl
    | cons scope outer => rw [writeBack, ih, List.length_modify]

/-- A call that makes a new environment puts no other scope around it than that of the call. -/
theorem perform_of_opens {call : Call} (opens : call.opens = true)
    (there : ∀ i ∈ call.target?, i < forest.nodes.length) :
    ∃ node : Node, (∀ p, node.parent = some p → call.target? = some p) ∧
      forest.perform call = forest.add node := by
  rw [perform, if_pos there]
  cases call with
  | new => exact ⟨_, by simp, rfl⟩
  | newScope kind outer =>
    cases outer with
    | none => exact ⟨_, by simp, rfl⟩
    | some i => exact ⟨_, fun _ => id, rfl⟩
  | child kind i => exact ⟨_, fun _ => id, rfl⟩
  | copy kind i => exact ⟨_, by simp, rfl⟩
  | declare | assign | get | lookup => cases opens

/-- Any other call rewrites the scopes of its environment, if it does anything. -/
theorem perform_of_not_opens (forest : Forest) {call : Call} (opens : call.opens = false) :
    forest.perform call = forest ∨
      ∃ i env, call.target? = some i ∧ forest.perform call = forest.setEnv i env := by
  unfold perform
  split
  case isFalse => exact .inl rfl
  case isTrue =>
    cases call with
    | new | newScope | child | copy => cases opens
    | declare i sym =>
      simp only [carryOut, Forest.declare]
      cases (forest.env i).declare sym with
      | error d => exact .inl rfl
      | ok env => exact .inr ⟨i, env, rfl, rfl⟩
    | assign i name v place =>
      simp only [carryOut, Forest.assign]
      cases (forest.env i).assign name v place with
      | error d => exact .inl rfl
      | ok env => exact .inr ⟨i, env, rfl, rfl⟩
    | get i name line => exact .inr ⟨i, _, rfl, rfl⟩
    | lookup i name => exact .inr ⟨i, _, rfl, rfl⟩

theorem perform_cases (forest : Forest) (call : Call) :
    forest.perform call = forest ∨
      (∃ node : Node, (∀ p, node.parent = some p → call.target? = some p) ∧
        call.opens = true ∧ forest.perform call = forest.add node) ∨
      ∃ i env, call.target? = some i ∧ forest.perform call = forest.setEnv i env := by
  cases opens : call.opens with
  | false => exact (forest.perform_of_not_opens opens).imp_right .inr
  | true =>
    by_cases there : ∀ i ∈ call.target?, i < forest.nodes.length
    · obtain ⟨node, inside, made⟩ := perform_of_opens opens there
      exact .inr (.inl ⟨node, inside, rfl, made⟩)
    · exact .inl (if_neg there)

theorem length_le_perform (forest : Forest) (call : Call) :
    forest.nodes.length ≤ (forest.perform call).nodes.length := by
  rcases forest.perform_cases call with same | ⟨node, -, -, made⟩ | ⟨i, env, -, written⟩
  · rw [same]
  · rw [made, add, List.length_append]
    exact Nat.le_add_right ..
  · rw [written, setEnv, length_writeBack]

theorem length_le_run (forest : Forest) (calls : List Call) :
    forest.nodes.length ≤ (forest.run calls).nodes.length := by
  induction calls generalizing forest with
  | nil => exact Nat.le_refl _
  | cons call rest ih => exact Nat.le_trans (forest.length_le_perform call) (ih _)

/-- The environments on the one side of a line that no path crosses stay as they are when a call is
made on the other side. -/
theorem env_perform (sound : forest.Sound) {family : Nat → Prop}
    (apart : ∀ j p, forest.parent? j = some p → (family j ↔ family p)) {call : Call}
    (elsewhere : ∀ i, call.target? = some i → ¬ family i) {j : Nat}
    (member : family j) (old : j < forest.nodes.length) :
    (forest.perform call).env j = forest.env j := by
  rcases forest.perform_cases call with same | ⟨node, -, -, made⟩ | ⟨i, env, target, written⟩
  · rw [same]
  · rw [made, env_add sound node old]
  · refine env_congr family (fun k p inner => (apart k p inner).mp) (fun k member => ?_) member
    rw [written, setEnv]
    refine getElem?_writeBack forest.nodes (fun on => ?_) env
    have other : ∀ k ∈ forest.path i, ¬ family k :=
      mem_of_mem_pathFrom (fun k p inner => mt (apart k p inner).mpr) (elsewhere i target)
    exact other k on member

/-! ### Descent -/

variable {start : Forest} {d : Nat}

theorem descends_concat_iff {calls : List Call} {call : Call} {j : Nat} :
    Descends start d (calls ++ [call]) j ↔
      Descends start d calls j ∨
        j = (start.run calls).nodes.length ∧ call.opens = true ∧
          ∃ i, call.target? = some i ∧ Descends start d calls i := by
  constructor
  · intro h
    generalize all : calls ++ [call] = calls' at h
    cases h with
    | self => simp at all
    | made source target opens =>
      obtain ⟨rfl, last⟩ := List.append_inj' all rfl
      cases last
      exact .inr ⟨rfl, opens, _, target, source⟩
    | kept earlier =>
      obtain ⟨rfl, last⟩ := List.append_inj' all rfl
      exact .inl earlier
  · rintro (earlier | ⟨rfl, opens, i, target, source⟩)
    · exact .kept earlier
    · exact .made source target opens

theorem Descends.le {calls : List Call} {j : Nat} (made : d < start.nodes.length)
    (h : Descends start d calls j) : d ≤ j ∧ j < (start.run calls).nodes.length := by
  induction h with
  | self => exact ⟨Nat.le_refl d, made⟩
  | @made calls call i source target opens ih =>
    have there : ∀ k ∈ call.target?, k < (start.run calls).nodes.length := by
      intro k member
      obtain rfl : k = i := Option.some.inj (member.symm.trans target)
      exact ih.2
    obtain ⟨node, -, made⟩ := perform_of_opens opens there
    refine ⟨by omega, ?_⟩
    rw [run_concat, made, add, List.length_append]
    exact Nat.lt_succ_self _
  | @kept calls call j earlier ih =>
    have grows := (start.run calls).length_le_perform call
    refine ⟨ih.1, ?_⟩
    rw [run_concat]
    omega

theorem descends_nil_iff {j : Nat} : Descends start d [] j ↔ j = d := by
  constructor
  · intro h
    generalize empty : ([] : List Call) = calls at h
    cases h with
    | self => rfl
    | made | kept => simp at empty
  · rintro rfl
    exact .self

theorem Descends.origin (start : Forest) (d : Nat) (calls : List Call) :
    Descends start d calls d := by
  induction calls using List.reverseRecOn with
  | nil => exact .self
  | append_singleton calls call ih => exact .kept ih

/-- Whether an environment that is there comes of a copy is settled. -/
theorem descends_concat_of_lt {calls : List Call} {call : Call} {j : Nat}
    (old : j < (start.run calls).nodes.length) :
    Descends start d (calls ++ [call]) j ↔ Descends start d calls j := by
  rw [descends_concat_iff]
  exact or_iff_left fun ⟨new, _⟩ => Nat.ne_of_lt old new

theorem lt_of_parent? {i p : Nat} (inner : forest.parent? i = some p) :
    i < forest.nodes.length := by
  obtain ⟨node, present, -⟩ := Option.bind_eq_some_iff.mp inner
  exact (List.getElem?_eq_some_iff.mp present).1

/-- No path leads from what comes of a copy to anything else, or back. -/
theorem Detached.descends_iff (h : start.Detached d) {calls : List Call} {j p : Nat}
    (inner : (start.run calls).parent? j = some p) :
    Descends start d calls j ↔ Descends start d calls p := by
  induction calls using List.reverseRecOn generalizing j p with
  | nil =>
    have apart : j ≠ d := fun same => by
      rw [same, run, List.foldl_nil, h.alone] at inner
      cases inner
    have apart' : p ≠ d := fun same => h.unseen j (same ▸ inner)
    rw [descends_nil_iff, descends_nil_iff]
    exact iff_of_false apart apart'
  | append_singleton calls call ih =>
    have old (inner : (start.run calls).parent? j = some p) :
        Descends start d (calls ++ [call]) j ↔ Descends start d (calls ++ [call]) p := by
      have inside := lt_of_parent? inner
      have outer := (h.sound.run calls).rooted j p inner
      rw [descends_concat_of_lt inside, descends_concat_of_lt (by omega), ih inner]
    have outer := (h.sound.run (calls ++ [call])).rooted j p inner
    rw [run_concat] at inner
    rcases (start.run calls).perform_cases call with
      same | ⟨node, target, opens, added⟩ | ⟨i, env, -, written⟩
    · exact old (same ▸ inner)
    · rw [added, parent?_add] at inner
      split at inner
      · -- The new environment comes of the copy when the one that it was opened inside does.
        rename_i new
        subst new
        have fresh : ¬ Descends start d calls (start.run calls).nodes.length :=
          fun descends => Nat.lt_irrefl _ (descends.le h.made).2
        rw [descends_concat_of_lt outer, descends_concat_iff, target p inner]
        simp [fresh, opens]
      · exact old inner
    · rw [written, setEnv, parent?_writeBack] at inner
      exact old inner

theorem madeOn_concat_iff {family : List Call → Nat → Prop} {calls : List Call} (more : List Call)
    {call : Call} :
    MadeOn family calls (more ++ [call]) ↔
      MadeOn family calls more ∧ ∀ i, call.target? = some i → family (calls ++ more) i := by
  constructor
  · intro made
    exact ⟨fun earlier other before =>
      made earlier other (before.trans (List.prefix_append more [call])),
      made more call List.prefix_rfl⟩
  · rintro ⟨made, last⟩ earlier other before
    rcases List.prefix_concat_iff.mp before with whole | inside
    · obtain ⟨rfl, same⟩ := List.append_inj' whole rfl
      cases same
      exact last
    · exact made earlier other inside

/-- While calls are made on the other side of a line that no path crosses, the environments on the
one side stay as they are. -/
theorem env_run_of_apart (sound : start.Sound) (family : List Call → Nat → Prop)
    (apart : ∀ {calls j p}, (start.run calls).parent? j = some p →
      (family calls j ↔ family calls p))
    (settled : ∀ {calls call j}, j < (start.run calls).nodes.length → family calls j →
      family (calls ++ [call]) j)
    {calls more : List Call} (elsewhere : MadeOn (fun calls i => ¬ family calls i) calls more)
    {j : Nat} (member : family calls j) (old : j < (start.run calls).nodes.length) :
    (start.run (calls ++ more)).env j = (start.run calls).env j := by
  have stays : family (calls ++ more) j ∧ j < (start.run (calls ++ more)).nodes.length ∧
      (start.run (calls ++ more)).env j = (start.run calls).env j := by
    induction more using List.reverseRecOn with
    | nil =>
      rw [List.append_nil]
      exact ⟨member, old, rfl⟩
    | append_singleton more call ih =>
      obtain ⟨before, last⟩ := (madeOn_concat_iff _).mp elsewhere
      obtain ⟨member, old, same⟩ := ih before
      rw [← List.append_assoc, run_concat]
      refine ⟨settled old member, ?_, ?_⟩
      · exact Nat.lt_of_lt_of_le old (length_le_perform _ call)
      · rw [env_perform (sound.run _) (fun _ _ => apart) last member old, same]
  exact stays.2.2

/-- What is done with a copy, and with what comes of it, changes nothing else. -/
theorem Detached.env_of_descendants (h : start.Detached d) {calls more : List Call}
    (inside : MadeOn (Descends start d) calls more) {j : Nat} (other : ¬ Descends start d calls j)
    (old : j < (start.run calls).nodes.length) :
    (start.run (calls ++ more)).env j = (start.run calls).env j := by
  refine env_run_of_apart h.sound (fun calls j => ¬ Descends start d calls j)
    (fun inner => not_congr (h.descends_iff inner))
    (fun old => mt (descends_concat_of_lt old).mp) ?_ other old
  exact fun earlier call before i target => not_not.mpr (inside earlier call before i target)

/-- What is done with other environments changes nothing of what comes of a copy. -/
theorem Detached.env_of_others (h : start.Detached d) {calls more : List Call}
    (outside : MadeOn (fun calls i => ¬ Descends start d calls i) calls more) {j : Nat}
    (member : Descends start d calls j) :
    (start.run (calls ++ more)).env j = (start.run calls).env j :=
  env_run_of_apart h.sound (Descends start d) h.descends_iff
    (fun old => (descends_concat_of_lt old).mpr) outside member (member.le h.made).2

/-! ### Copies -/

theorem env_copy (kind : ScopeKind) {i : Nat} (opened : i < forest.nodes.length) :
    (forest.perform (.copy kind i)).env forest.nodes.length = (forest.env i).copy kind := by
  rw [perform_copy kind opened, env_add_self]
  rfl

theorem detached_copy (sound : forest.Sound) (kind : ScopeKind) {i : Nat}
    (opened : i < forest.nodes.length) :
    (forest.perform (.copy kind i)).Detached forest.nodes.length where
  sound := sound.effect (effect_perform sound (.copy kind i))
  made := by
    rw [perform_copy kind opened, add, List.length_append]
    exact Nat.lt_succ_self _
  alone := by rw [perform_copy kind opened, parent?_add, if_pos rfl]
  unseen j inner := by
    rw [perform_copy kind opened, parent?_add] at inner
    split at inner
    · cases inner
    · have inside := lt_of_parent? inner
      have outer := sound.rooted j _ inner
      omega

end Forest

/-- Environments in which the same symbol is found under every name show the same. -/
theorem Env.names_congr {env env' : Env} (same : ∀ name, env'.resolve? name = env.resolve? name) :
    env'.names = env.names := by
  refine env'.names_increasing.eq_of_mem_iff env.names_increasing fun name => ?_
  rw [mem_names_iff, mem_names_iff, has, has, same]

theorem Env.snapshot_congr {env env' : Env}
    (same : ∀ name, env'.resolve? name = env.resolve? name) : env'.snapshot = env.snapshot := by
  simp only [snapshot, names_congr same, same]

namespace Forest

/-- A copy shows what the environment shows that it is made of: the same names, and under each name
a symbol with the same value, place and marks. Whatever is called afterwards, calls on the copy and
on what comes of it change none of the environments that were there when it was made, and calls on
all other environments change nothing in the copy. -/
theorem copy_snapshot (before : List Call) (kind : ScopeKind) {i : Nat}
    (opened : i < (run ⟨[]⟩ before).nodes.length) :
    let forest := run ⟨[]⟩ before
    let start := forest.perform (.copy kind i)
    let d := forest.nodes.length
    (∀ j < d, start.env j = forest.env j) ∧
    (start.env d).names = (start.env i).names ∧
    (∀ name, (start.env d).resolve? name = (start.env i).resolve? name ∧
      (start.env d).has name = (start.env i).has name ∧
      (start.env d).isConstant name = (start.env i).isConstant name ∧
      ∀ line, (start.get d name line).1 = (start.get i name line).1) ∧
    (start.env d).snapshot = (start.env i).snapshot ∧
    ∀ calls more,
      (MadeOn (Descends start d) calls more →
        ∀ j < d, (start.run (calls ++ more)).env j = (start.run calls).env j) ∧
      (MadeOn (fun calls j => ¬ Descends start d calls j) calls more →
        (start.run (calls ++ more)).env d = (start.run calls).env d) := by
  intro forest start d
  have sound : forest.Sound := sound_empty.run before
  have detached : start.Detached d := detached_copy sound kind opened
  have old (j : Nat) (inside : j < d) : start.env j = forest.env j := by
    rw [show start = _ from perform_copy kind opened, env_add sound _ inside]
  have same (name : Text) : (start.env d).resolve? name = (start.env i).resolve? name := by
    rw [show start.env d = _ from env_copy kind opened, old i opened]
    exact Env.resolve?_copy kind (distinct_env sound i) name
  refine ⟨old, Env.names_congr same, fun name => ⟨same name, ?_, ?_, fun line => ?_⟩,
    Env.snapshot_congr same, fun calls more => ⟨fun inside j before => ?_, fun outside => ?_⟩⟩
  · rw [Env.has, Env.has, same]
  · rw [Env.isConstant, Env.isConstant, same]
  · simp only [get, Env.get, same]
  · refine detached.env_of_descendants inside (fun descends => ?_) ?_
    · have := (descends.le detached.made).1
      omega
    · have grows := start.length_le_run calls
      have made := detached.made
      omega
  · exact detached.env_of_others outside (.origin start d calls)

/-- A constant, a variable without a value, and a block that hides the constant. -/
def hiddenConstant : List Call :=
  [.new, .declare 0 { name := [108], value := some 3, constant := true },
    .declare 0 { name := [120] }, .child .block 0, .declare 1 { name := [108], value := some 4 },
    .lookup 1 [108]]

/-- The copy of the block holds the variable that hides the constant, and what is assigned in a
block inside the copy, or around the block, stays there. -/
theorem copy_snapshot_hiddenConstant :
    let start := (run ⟨[]⟩ hiddenConstant).perform (.copy .loop 1)
    (start.env 2).snapshot = [([108], 4)] ∧ (start.env 2).isConstant [108] = false ∧
      (start.run [.child .branch 2, .assign 3 [120] 5 {}]).env 1 = start.env 1 ∧
      (start.run [.assign 1 [120] 7 {}, .get 0 [108] 1]).env 2 = start.env 2 := by
  intro start
  have opened : 1 < (run ⟨[]⟩ hiddenConstant).nodes.length := by decide
  obtain ⟨-, -, same, snapshot, independent⟩ := copy_snapshot hiddenConstant .loop opened
  have inside : MadeOn (Descends start 2) [] [.child .branch 2, .assign 3 [120] 5 {}] := by
    refine (madeOn_concat_iff [.child .branch 2]).mpr
      ⟨(madeOn_concat_iff []).mpr ⟨by simp [MadeOn], ?_⟩, ?_⟩
    · rintro _ ⟨⟩
      exact .self
    · rintro _ ⟨⟩
      exact .made .self rfl rfl
  have old (calls : List Call) (j : Nat) (before : j < 2) : ¬ Descends start 2 calls j := by
    intro descends
    have := (descends.le (by decide)).1
    omega
  have outside : MadeOn (fun calls j => ¬ Descends start 2 calls j) []
      [.assign 1 [120] 7 {}, .get 0 [108] 1] := by
    refine (madeOn_concat_iff [.assign 1 [120] 7 {}]).mpr
      ⟨(madeOn_concat_iff []).mpr ⟨by simp [MadeOn], ?_⟩, ?_⟩
    · rintro _ ⟨⟩
      exact old _ 1 (by decide)
    · rintro _ ⟨⟩
      exact old _ 0 (by decide)
  exact ⟨snapshot.trans (by decide), (same [108]).2.2.1.trans (by decide),
    (independent [] _).1 inside 1 (by decide), (independent [] _).2 outside⟩

end Forest

end NumScript

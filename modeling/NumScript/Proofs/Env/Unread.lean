import NumScript.Proofs.Env.Relabeling

/-! Environments as they would be if nothing had been read. Whether a symbol has been read is noted
in it and looked at only by those who ask for unused names, so every operation does the same with
and without these notes. -/

namespace NumScript

/-- The symbol as if it had never been read. -/
def Symbol.unread (s : Symbol) : Symbol := { s with used := false }

def Scope.unread (s : Scope) : Scope := { s with symbols := s.symbols.map Symbol.unread }

/-- The environment as if nothing in it had been read. -/
def Env.unread (env : Env) : Env := env.map Scope.unread

theorem Symbol.relabels_unread : Relabels unread := ⟨fun _ => rfl, fun _ => rfl, fun _ => rfl⟩

theorem Scope.names_unread (s : Scope) : s.unread.names = s.names :=
  s.names_relabeled Symbol.relabels_unread

namespace Env

@[simp] theorem unread_nil : unread [] = [] := rfl

@[simp] theorem unread_cons (scope : Scope) (outer : Env) :
    unread (scope :: outer) = scope.unread :: unread outer := rfl

theorem tail_unread (env : Env) : unread env.tail = env.unread.tail := List.map_tail ..

theorem value?_unread (env : Env) : env.unread.value? = env.value? := by
  funext name
  have found : env.unread.resolve? name = (env.resolve? name).map Symbol.unread :=
    env.resolve?_relabeled Symbol.relabels_unread name
  rw [value?, found, Option.map_map]
  rfl

/-- Reading leaves no other trace than its note. -/
theorem reading_unread : Reading fun env env' => env'.unread = env.unread where
  refl _ := rfl
  trans first second := second.trans first
  read env name := by
    have noted : (env.modify name Symbol.markUsed).unread = env.unread.modify name id :=
      env.modify_relabeled Symbol.relabels_unread name fun _ => rfl
    rw [noted]
    induction env.unread with
    | nil => rfl
    | cons scope outer ih =>
      simp only [modify, Scope.modify, id_eq, ite_self, List.map_id', ih]

theorem declare_unread {sym : Symbol} (fresh : sym.unread = sym) (env : Env) :
    (env.declare sym).map unread = env.unread.declare sym := by
  have declared := env.declare_relabeled Symbol.relabels_unread sym
  rw [fresh] at declared
  exact declared

theorem assign_unread (name : Text) (v : Float) (place : Position) (env : Env) :
    (env.assign name v place).map unread = env.unread.assign name v place :=
  env.assign_relabeled Symbol.relabels_unread (fun _ => rfl) name place rfl

theorem child_unread (kind : ScopeKind) (env : Env) :
    (env.child kind).unread = env.unread.child kind :=
  env.child_relabeled Symbol.unread kind

theorem copy_unread (kind : ScopeKind) (env : Env) :
    (env.copy kind).unread = env.unread.copy kind :=
  env.copy_relabeled Symbol.relabels_unread kind

theorem debugText_unread (env : Env) : env.unread.debugText = env.debugText := by
  have lines (indent : Text) : env.unread.debugLines indent = env.debugLines indent := by
    induction env generalizing indent with
    | nil => rfl
    | cons scope outer ih =>
      have summary : scope.unread.summary = scope.summary := by
        simp [Scope.summary, Scope.unread]
      rw [unread_cons, debugLines, debugLines, ih, summary, Scope.unread, List.map_map]
      rfl
  rw [debugText, debugText, lines]

end Env

end NumScript

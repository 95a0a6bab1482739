import NumScript.Proofs.Yaml.Scanning

/-! The tokens of a whole text of nested mappings. A token is handed out when two more have been
cut, so that in front of every line the last two tokens of the line before are still in the queue.
`Delivers` says what a run still hands out from such a place; it is proved from the end of a text to
its start. -/

namespace NumScript.Yaml

namespace Scanner

variable {s s' : Scanner} {indents : List Nat} {queue : List Token} {keyAllowed : Bool} {c : Cursor}

/-! ### Steps -/

/-- The scanner when the first token of the queue has been handed out. -/
def pop (s : Scanner) (queue : List Token) : Scanner :=
  { s with queue := queue, handed := s.handed + 1 }

theorem run_cut (short : s.queue.length < 3) (cut : s.cut = .ok s') (fuel : Nat) :
    s.run (fuel + 1) = s'.run fuel := by
  have waits : s.mustWait = .ok (true, s) := by rw [mustWait, if_pos short]
  rw [run, waits]
  simp only [cut]

theorem run_pop {t : Token} (front : s.queue = t :: queue) (long : 2 ≤ queue.length)
    (free : s.waiting.lookup s.handed = none) (goesOn : t.kind ≠ .streamEnd) (fuel : Nat) :
    s.run (fuel + 1) =
      (t :: ((s.pop queue).run fuel).1, ((s.pop queue).run fuel).2) := by
  have ready : s.mustWait = .ok (false, s) := by
    have three : ¬ s.queue.length < 3 := by
      rw [front, List.length_cons]
      omega
    rw [mustWait, if_neg three, free]
  rw [run, ready]
  simp only [front, goesOn, if_false]
  rfl

theorem run_streamEnd {t : Token} (front : s.queue = t :: queue) (long : 2 ≤ queue.length)
    (free : s.waiting.lookup s.handed = none) (ends : t.kind = .streamEnd) (fuel : Nat) :
    s.run (fuel + 1) = ([t], none) := by
  have ready : s.mustWait = .ok (false, s) := by
    have three : ¬ s.queue.length < 3 := by
      rw [front, List.length_cons]
      omega
    rw [mustWait, if_neg three, free]
  rw [run, ready]
  simp only [front, ends, if_true]

theorem Facing.pop {t : Token} (facing : s.Facing indents (t :: queue) keyAllowed c) :
    (s.pop queue).Facing indents queue keyAllowed c :=
  ⟨⟨facing.layout, facing.fault, facing.indents, facing.flow⟩, facing.calm, facing.waiting, rfl⟩

theorem Facing.lookup (facing : s.Facing indents queue keyAllowed c) :
    s.waiting.lookup s.handed = none := by
  rw [facing.waiting]
  rfl

/-! ### The end of a text -/

/-- The tokens that close as many collections and then the text. -/
def Closes (depth : Nat) (ending : List Token) : Prop :=
  ending.map Token.kind = List.replicate depth .blockEnd ++ [.streamEnd]

/-- The scanner when only the collections `kept` are open any more. -/
def shut (s : Scanner) (kept : List Nat) (tokens : List Token) : Scanner :=
  { s with indents := kept, queue := s.queue ++ tokens }

theorem close_outside (flat : s.flowCandidates = []) (column : Option Nat) (line : Nat) :
    s.close column line =
      s.shut (s.indents.dropWhile fun indent => column.all (· < indent))
        ((s.indents.takeWhile fun indent => column.all (· < indent)).map
          fun _ => ⟨.blockEnd, line⟩) := by
  have outside : s.flow = false := by simp [flow, flat]
  simp [close, outside, shut]

theorem finish_of_calm (flat : s.flowCandidates = []) (calm : s.candidate.possible = false)
    (first : s.mark.column = 0) :
    s.finish = .ok
      { s.shut [] (s.indents.map (fun _ => ⟨.blockEnd, s.mark.line⟩) ++
          [⟨.streamEnd, s.mark.line⟩]) with keyAllowed := false } := by
  have all : s.indents.takeWhile (fun _ => true) = s.indents ∧
      s.indents.dropWhile (fun _ => true) = [] := by
    induction s.indents with
    | nil => exact ⟨rfl, rfl⟩
    | cons indent outer ih => exact ⟨congrArg (indent :: ·) ih.1, ih.2⟩
  simp [finish, first, close_outside flat, all, dropCandidate, innermost, flat, calm, push, bind,
    Except.bind, pure, Except.pure, Cursor.line, shut]

theorem Closes.prepend {depth : Nat} {ending : List Token} (closes : Closes depth ending)
    (closed : List Nat) (line : Nat) :
    Closes (closed.length + depth) (closed.map (fun _ => ⟨.blockEnd, line⟩) ++ ending) := by
  rw [Closes] at closes ⊢
  rw [List.map_append, List.map_map, closes, ← List.append_assoc, ← List.replicate_append_replicate,
    ← List.map_const']
  rfl

/-- At the end of the text all collections close. -/
theorem Facing.cut_end {m : Mark} (facing : s.Facing indents queue keyAllowed ⟨[], m⟩)
    (first : m.column = 0) :
    ∃ s' ending, s.cut = .ok s' ∧ Closes indents.length ending ∧
      s'.Facing [] (queue ++ ending) false ⟨[], m⟩ := by
  have shut := close_outside (s := s.arrive ⟨[], m⟩ keyAllowed) facing.flow (some m.column) s.line
  have split := List.takeWhile_append_dropWhile (l := (s.arrive ⟨[], m⟩ keyAllowed).indents)
    (p := fun indent => (some m.column).all (· < indent))
  generalize (s.arrive ⟨[], m⟩ keyAllowed).indents.takeWhile _ = closed at shut split
  generalize (s.arrive ⟨[], m⟩ keyAllowed).indents.dropWhile _ = kept at shut split
  have finished := finish_of_calm (s := (s.arrive ⟨[], m⟩ keyAllowed).shut kept
    (closed.map fun _ => ⟨.blockEnd, s.line⟩)) facing.flow facing.calm first
  have readable : ((s.arrive ⟨[], m⟩ keyAllowed).shut kept
      (closed.map fun _ => ⟨.blockEnd, s.line⟩)).require 4 = .ok () := by
    simp [require, Scanner.shut, arrive, goTo, facing.fault]
  have cut : s.cut = ((s.arrive ⟨[], m⟩ keyAllowed).shut kept
      (closed.map fun _ => ⟨.blockEnd, s.line⟩)).finish := by
    rw [Scanner.cut, facing.skipLayout]
    simp only [show (s.arrive ⟨[], m⟩ keyAllowed).mark = m from rfl, shut, readable, bind,
      Except.bind]
    rfl
  refine ⟨_, closed.map (fun _ => ⟨.blockEnd, s.line⟩) ++
    (kept.map (fun _ => ⟨.blockEnd, m.line⟩) ++ [⟨.streamEnd, m.line⟩]), cut.trans finished, ?_,
    ⟨rfl, facing.fault, rfl, facing.flow⟩, facing.calm, facing.waiting, ?_⟩
  · have last : Closes 0 [⟨.streamEnd, m.line⟩] := rfl
    have total : closed.length + (kept.length + 0) = indents.length := by
      rw [← facing.indents, ← show (s.arrive ⟨[], m⟩ keyAllowed).indents = s.indents from rfl,
        ← split, List.length_append, Nat.add_zero]
    exact total ▸ (last.prepend kept m.line).prepend closed s.line
  · rw [← facing.queue, ← List.append_assoc]
    rfl

theorem Closes.length {depth : Nat} {ending : List Token} (closes : Closes depth ending) :
    ending.length = depth + 1 := by
  have same := congrArg List.length closes
  simpa using same

/-- The tokens that close a collection inside another one, and then the text. -/
theorem Closes.exists_lines {ending : List Token} (closes : Closes 2 ending) :
    ∃ x y z, ending = [⟨.blockEnd, x⟩, ⟨.blockEnd, y⟩, ⟨.streamEnd, z⟩] := by
  match ending, closes with
  | [⟨_, x⟩, ⟨_, y⟩, ⟨_, z⟩], closes =>
    simp only [Closes, List.map_cons, List.map_nil, List.replicate, List.cons_append,
      List.nil_append, List.cons.injEq, and_true] at closes
    obtain ⟨rfl, rfl, rfl⟩ := closes
    exact ⟨x, y, z, rfl⟩

/-- At the end of the text the queue is handed out up to the end of the stream. Every cut puts a
further end behind it, so at most two cuts are made. -/
theorem Facing.run_end {front after : List Token} {t : Token} {m : Mark}
    (facing : s.Facing [] (front ++ t :: after) keyAllowed ⟨[], m⟩) (first : m.column = 0)
    (goesOn : ∀ u ∈ front, u.kind ≠ .streamEnd) (ends : t.kind = .streamEnd) {fuel : Nat}
    (enough : front.length + 1 + (2 - after.length) ≤ fuel) :
    s.run fuel = (front ++ [t], none) := by
  induction fuel generalizing s keyAllowed front after with
  | zero => omega
  | succ fuel ih =>
    by_cases short : s.queue.length < 3
    · obtain ⟨s', ending, cut, closes, later⟩ := facing.cut_end first
      rw [run_cut short cut]
      rw [List.append_assoc, List.cons_append] at later
      rw [facing.queue, List.length_append, List.length_cons] at short
      have one := closes.length
      simp only [List.length_nil] at one
      exact ih later goesOn (by rw [List.length_append]; omega)
    · cases front with
      | nil =>
        rw [facing.queue, List.nil_append, List.length_cons] at short
        exact run_streamEnd facing.queue (by omega) facing.lookup ends fuel
      | cons u front =>
        rw [facing.queue, List.cons_append, List.length_cons] at short
        rw [List.length_cons] at enough
        obtain ⟨here, below⟩ := List.forall_mem_cons.mp goesOn
        rw [run_pop facing.queue (Nat.le_of_succ_le_succ (Nat.not_lt.mp short)) facing.lookup here,
          ih facing.pop below (by omega)]
        rfl

/-! ### Delivering -/

/-- From a place that faces `c` a run hands out the queue and `tokens`, and then closes `depth`
collections and the text. -/
def Delivers (depth : Nat) (indents : List Nat) (queue : List Token) (keyAllowed : Bool)
    (c : Cursor) (n : Nat) (tokens : List Token) : Prop :=
  ∀ (s : Scanner) (fuel : Nat), s.Facing indents queue keyAllowed c → n ≤ fuel →
    ∃ ending, Closes depth ending ∧ s.run fuel = (queue ++ (tokens ++ ending), none)

theorem Closes.exists_end {depth : Nat} {ending : List Token} (closes : Closes depth ending) :
    ∃ front t, ending = front ++ [t] ∧ (∀ u ∈ front, u.kind ≠ .streamEnd) ∧
      t.kind = .streamEnd := by
  obtain ⟨front, last, rfl, ends, end_⟩ := List.map_eq_append_iff.mp closes
  obtain ⟨t, rfl, same⟩ := List.map_eq_singleton_iff.mp end_
  refine ⟨front, t, rfl, fun u member => ?_, same⟩
  have kind : u.kind ∈ List.replicate depth TokenKind.blockEnd := by
    rw [← ends]
    exact List.mem_map_of_mem member
  rw [List.eq_of_mem_replicate kind]
  nofun

/-- At the end of a text. -/
theorem delivers_end {m : Mark} (first : m.column = 0)
    (goesOn : ∀ u ∈ queue, u.kind ≠ .streamEnd) (short : queue.length < 3) :
    Delivers indents.length indents queue keyAllowed ⟨[], m⟩
      (queue.length + indents.length + 4) [] := by
  intro s fuel facing enough
  obtain ⟨s', ending, cut, closes, later⟩ := facing.cut_end first
  obtain ⟨front, t, rfl, below, ends⟩ := closes.exists_end
  have total := closes.length
  rw [List.length_append, List.length_singleton] at total
  obtain ⟨fuel, rfl⟩ := Nat.exists_eq_add_of_le' (Nat.le_trans (Nat.le_add_left 1 _) enough)
  refine ⟨front ++ [t], closes, ?_⟩
  rw [← List.append_assoc] at later
  rw [run_cut (by rwa [facing.queue]) cut,
    later.run_end first (List.forall_mem_append.mpr ⟨goesOn, below⟩) ends
      (by rw [List.length_append, List.length_nil]; omega)]
  simp

/-- What has been cut can be handed out, but for the last two tokens. -/
theorem Delivers.drain {depth n : Nat} {a b : Token} {tokens : List Token}
    (later : Delivers depth indents [a, b] keyAllowed c n tokens) (front : List Token)
    (goesOn : ∀ u ∈ front, u.kind ≠ .streamEnd) :
    Delivers depth indents (front ++ [a, b]) keyAllowed c (front.length + n) tokens := by
  induction front with
  | nil => simpa using later
  | cons u front ih =>
    intro s fuel facing enough
    obtain ⟨here, below⟩ := List.forall_mem_cons.mp goesOn
    rw [List.length_cons] at enough
    obtain ⟨fuel, rfl⟩ := Nat.exists_eq_add_of_le' (Nat.le_trans (Nat.le_add_left 1 _)
      (Nat.le_trans (by omega : front.length + n + 1 ≤ _) enough))
    obtain ⟨ending, closes, run⟩ := ih below _ fuel facing.pop (by omega)
    refine ⟨ending, closes, ?_⟩
    rw [run_pop facing.queue (by simp) facing.lookup here, run]
    rfl

end Scanner

end NumScript.Yaml

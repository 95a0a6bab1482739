import Mathlib.Data.List.Defs
import NumScript.Playground

/-! The cache shows in nothing but the remark that a script had been compiled before. A request
looks into the cache, stores what it had to compile, and runs it; these are steps of their own, and
the steps of many requests may follow each other in any order. Main statement: every request gets
the response that a new playground gives to it alone. -/

namespace NumScript

namespace Cache

variable {α : Type} {c : Cache α} {key other : Text} {value found : α}

theorem mem_of_get? (hit : c.get? key = some value) : (key, value) ∈ c.entries := by
  obtain ⟨before, after, same, -⟩ := List.lookup_eq_some_iff.mp hit
  rw [same]
  simp

theorem mem_put (member : (other, found) ∈ (c.put key value).entries) :
    (other, found) = (key, value) ∨ (other, found) ∈ c.entries := by
  unfold put at member
  split at member
  · exact .inr member
  · rcases List.mem_append.mp member with old | new
    · exact .inr (List.mem_of_mem_drop old)
    · exact .inl (List.mem_singleton.mp new)

end Cache

namespace Playground

/-- No two texts have the same digest. -/
def DistinctDigests (parts : Parts) (sources : List Text) : Prop :=
  ∀ s ∈ sources, ∀ t ∈ sources, parts.digest s = parts.digest t → s = t

def Response.tooLong (settings : Settings) : Response :=
  .refusal .tooLarge
    ("program exceeds " ++ Text.ofInt settings.playground.maxBodyBytes ++ " bytes")

/-- The same response, but perhaps for the remark that the script had been compiled before. -/
def Response.Alike (r r' : Option Response) : Prop :=
  r = r' ∨ ∃ (a : Answer) (cached : Bool),
    r = some (.ofAnswer { a with cached := cached }) ∧ r' = some (.ofAnswer a)

/-- How far the handling of a script has come. -/
inductive Stage where
  | received (source : Text)
  /-- It was not in the cache and has been compiled. -/
  | missed (source : Text) (c : Compiled)
  | ready (c : Compiled) (cached : Bool)
  | answered (response : Option Response)

namespace Server

/-- The next step in handling a script. Each step uses the cache at most once. -/
def advance (s : Server) (patience : Nat) : Stage → Stage × Server
  | .received source =>
    if s.settings.playground.maxBodyBytes < source.length then
      (.answered (some (.tooLong s.settings)), s)
    else
      match s.cache.get? (s.parts.digest source) with
      | some c => (.ready c true, s)
      | none => (.missed source (compile s.settings source), s)
  | .missed source c => (.ready c false, { s with cache := s.cache.put (s.parts.digest source) c })
  | .ready c cached =>
    (.answered ((Answer.ofCompiled? (s.settings.limits patience) c cached).map .ofAnswer), s)
  | .answered response => (.answered response, s)

def advanceBy (s : Server) (patience : Nat) : Nat → Stage → Stage × Server
  | 0, stage => (stage, s)
  | n + 1, stage =>
    let (stage, s) := s.advance patience stage
    s.advanceBy patience n stage

/-- Three steps on end are a whole run. -/
theorem advanceBy_three (s : Server) (patience : Nat) (source : Text) :
    s.advanceBy patience 3 (.received source) =
      (.answered (s.run patience source).1, (s.run patience source).2) := by
  unfold run compiled
  split
  · rename_i tooLong
    simp [advanceBy, advance, tooLong, Response.tooLong]
  · rename_i fits
    cases found : s.cache.get? (s.parts.digest source) <;> simp [advanceBy, advance, fits, found]

/-- The server has the settings and the parts, and its cache holds compiled forms of the scripts. -/
structure Faithful (settings : Settings) (parts : Parts) (sources : List Text) (s : Server) :
    Prop where
  fixed : s.settings = settings
  built : s.parts = parts
  entries : ∀ key c, (key, c) ∈ s.cache.entries →
    ∃ source ∈ sources, parts.digest source = key ∧ compile settings source = c

theorem faithful_new (settings : Settings) (parts : Parts) (sources : List Text) :
    Faithful settings parts sources (new settings parts) where
  fixed := rfl
  built := rfl
  entries _ _ member := by cases member

section Faithful

variable {settings : Settings} {parts : Parts} {sources : List Text} {s : Server} {source : Text}

theorem Faithful.get? (faithful : Faithful settings parts sources s)
    (distinct : DistinctDigests parts sources) (sent : source ∈ sources) {c : Compiled}
    (hit : s.cache.get? (parts.digest source) = some c) :
    compile settings source = c := by
  -- The entry was made for a script with this digest, and there is only one.
  obtain ⟨other, sent', same, rfl⟩ := faithful.entries _ _ (Cache.mem_of_get? hit)
  rw [distinct other sent' source sent same]

theorem Faithful.put (faithful : Faithful settings parts sources s) (sent : source ∈ sources) :
    Faithful settings parts sources
      { s with cache := s.cache.put (parts.digest source) (compile settings source) } where
  fixed := faithful.fixed
  built := faithful.built
  entries key c member := by
    rcases Cache.mem_put member with new | old
    · cases new
      exact ⟨source, sent, rfl, rfl⟩
    · exact faithful.entries key c old

end Faithful

end Server

/-! ### Responses -/

theorem Answer.ofCompiled?_cached (limits : Limits) (c : Compiled) (cached : Bool) :
    Answer.ofCompiled? limits c cached =
      (Answer.ofCompiled? limits c false).map fun a => { a with cached := cached } := by
  unfold Answer.ofCompiled?
  split
  · rfl
  · dsimp only
    split <;> rfl

theorem Response.alike_ofCompiled? (limits : Limits) (c : Compiled) (cached : Bool) :
    Response.Alike ((Answer.ofCompiled? limits c cached).map .ofAnswer)
      ((Answer.ofCompiled? limits c false).map .ofAnswer) := by
  rw [Answer.ofCompiled?_cached limits c cached]
  cases Answer.ofCompiled? limits c false with
  | none => exact .inl rfl
  | some a => exact .inr ⟨a, cached, rfl, rfl⟩

/-- The first response of a new playground: nothing has been compiled before. -/
theorem Server.run_new (settings : Settings) (parts : Parts) (patience : Nat) (source : Text) :
    ((new settings parts).run patience source).1 =
      if settings.playground.maxBodyBytes < source.length then some (.tooLong settings)
      else
        (Answer.ofCompiled? (settings.limits patience) (compile settings source) false).map
          .ofAnswer := by
  rw [Server.run, apply_ite Prod.fst]
  rfl

/-! ### One request -/

/-- The stage is one that a script can come to: what has been compiled is the script, and the
response is that of a new playground. -/
def Stage.Serves (settings : Settings) (parts : Parts) (patience : Nat) (source : Text) :
    Stage → Prop
  | received s => s = source
  | missed s c => s = source ∧ c = compile settings source ∧
    ¬ settings.playground.maxBodyBytes < source.length
  | ready c _ => c = compile settings source ∧
    ¬ settings.playground.maxBodyBytes < source.length
  | answered r => Response.Alike r ((Server.new settings parts).run patience source).1

section Serves

variable {settings : Settings} {parts : Parts} {sources : List Text} {s : Server} {source : Text}
  {patience : Nat} {stage : Stage}

theorem Server.Faithful.advance (faithful : Server.Faithful settings parts sources s)
    (distinct : DistinctDigests parts sources) (sent : source ∈ sources)
    (serves : stage.Serves settings parts patience source) :
    (s.advance patience stage).1.Serves settings parts patience source ∧
      Server.Faithful settings parts sources (s.advance patience stage).2 := by
  obtain rfl := faithful.fixed
  obtain rfl := faithful.built
  cases stage with
  | received text =>
    obtain rfl : text = source := serves
    rw [Server.advance]
    split
    · rename_i tooLong
      exact ⟨.inl (by rw [Server.run_new, if_pos tooLong]), faithful⟩
    · rename_i fits
      split
      · rename_i c hit
        exact ⟨⟨(faithful.get? distinct sent hit).symm, fits⟩, faithful⟩
      · exact ⟨⟨rfl, rfl, fits⟩, faithful⟩
  | missed text c =>
    obtain ⟨rfl, rfl, fits⟩ := serves
    exact ⟨⟨rfl, fits⟩, faithful.put sent⟩
  | ready c cached =>
    obtain ⟨rfl, fits⟩ := serves
    refine ⟨?_, faithful⟩
    change Response.Alike _ _
    rw [Server.run_new, if_neg fits]
    exact Response.alike_ofCompiled? _ _ cached
  | answered r => exact ⟨serves, faithful⟩

theorem Server.Faithful.advanceBy (faithful : Server.Faithful settings parts sources s)
    (distinct : DistinctDigests parts sources) (sent : source ∈ sources)
    (serves : stage.Serves settings parts patience source) (n : Nat) :
    (s.advanceBy patience n stage).1.Serves settings parts patience source ∧
      Server.Faithful settings parts sources (s.advanceBy patience n stage).2 := by
  induction n generalizing s stage with
  | zero => exact ⟨serves, faithful⟩
  | succ n ih =>
    obtain ⟨serves, faithful⟩ := faithful.advance distinct sent serves
    exact ih faithful serves

theorem Server.Faithful.run (faithful : Server.Faithful settings parts sources s)
    (distinct : DistinctDigests parts sources) (sent : source ∈ sources) (patience : Nat) :
    Response.Alike (s.run patience source).1 ((Server.new settings parts).run patience source).1 ∧
      Server.Faithful settings parts sources (s.run patience source).2 := by
  have received : (Stage.received source).Serves settings parts patience source := rfl
  have steps := faithful.advanceBy distinct sent received 3
  rw [Server.advanceBy_three] at steps
  exact steps

end Serves

/-! ### Requests in turn -/

theorem Server.Faithful.handle {settings : Settings} {parts : Parts} {sources : List Text}
    {s : Server} (faithful : Server.Faithful settings parts sources s)
    (distinct : DistinctDigests parts sources) {r : Request} (sent : r.body ∈ sources)
    (patience : Nat) :
    Response.Alike (s.handle patience r).1 ((Server.new settings parts).handle patience r).1 ∧
      Server.Faithful settings parts sources (s.handle patience r).2 := by
  unfold Server.handle
  rw [faithful.built, show (Server.new settings parts).parts = parts from rfl]
  cases Route.ofPath (parts.path r.path) with
  | health => exact ⟨.inl rfl, faithful⟩
  | unknown => exact ⟨.inl rfl, faithful⟩
  | run =>
    dsimp only
    split
    · exact faithful.run distinct sent patience
    · exact ⟨.inl rfl, faithful⟩

theorem Server.Faithful.handleAll {settings : Settings} {parts : Parts} {sources : List Text}
    {s : Server} (faithful : Server.Faithful settings parts sources s)
    (distinct : DistinctDigests parts sources) (patience : Nat) {requests : List Request}
    (sent : ∀ r ∈ requests, r.body ∈ sources) :
    List.Forall₂
      (fun r response => Response.Alike response ((Server.new settings parts).handle patience r).1)
      requests (s.handleAll patience requests).1 := by
  induction requests generalizing s with
  | nil => exact .nil
  | cons r rest ih =>
    obtain ⟨alike, faithful⟩ := faithful.handle distinct (sent r List.mem_cons_self) patience
    exact .cons alike (ih faithful fun r member => sent r (List.mem_cons_of_mem _ member))

/-! ### Requests at the same time -/

/-- A server and the scripts it is handling. -/
structure Service where
  server : Server
  stages : List Stage

namespace Service

/-- Nothing is done yet. A script that takes its first step later might as well arrive then. -/
def start (settings : Settings) (parts : Parts) (sources : List Text) : Service where
  server := .new settings parts
  stages := sources.map .received

/-- Script `i` takes its next step. -/
def step (patience : Nat) (service : Service) (i : Nat) : Service :=
  match service.stages[i]? with
  | none => service
  | some stage =>
    let (stage, server) := service.server.advance patience stage
    { server := server, stages := service.stages.set i stage }

def run (patience : Nat) (service : Service) (schedule : List Nat) : Service :=
  schedule.foldl (step patience) service

structure Sound (settings : Settings) (parts : Parts) (patience : Nat) (sources : List Text)
    (service : Service) : Prop where
  faithful : Server.Faithful settings parts sources service.server
  length : service.stages.length = sources.length
  serves : ∀ (i : Nat) (source : Text) (stage : Stage), sources[i]? = some source →
    service.stages[i]? = some stage → stage.Serves settings parts patience source

variable {settings : Settings} {parts : Parts} {patience : Nat} {sources : List Text}
  {service : Service}

theorem sound_start (settings : Settings) (parts : Parts) (patience : Nat) (sources : List Text) :
    Sound settings parts patience sources (start settings parts sources) where
  faithful := Server.faithful_new settings parts sources
  length := List.length_map _
  serves i source stage here present := by
    rw [start, List.getElem?_map, here] at present
    cases present
    exact rfl

theorem Sound.step (sound : Sound settings parts patience sources service)
    (distinct : DistinctDigests parts sources) (i : Nat) :
    Sound settings parts patience sources (service.step patience i) := by
  unfold Service.step
  split
  · exact sound
  · rename_i stage present
    have here : i < service.stages.length := (List.getElem?_eq_some_iff.mp present).1
    obtain ⟨own, known⟩ : ∃ own, sources[i]? = some own :=
      ⟨_, List.getElem?_eq_getElem (sound.length ▸ here)⟩
    obtain ⟨serves, faithful⟩ := sound.faithful.advance distinct (List.mem_of_getElem? known)
      (sound.serves i own stage known present)
    refine ⟨faithful, by rw [List.length_set, sound.length], ?_⟩
    -- The other scripts are where they were.
    intro j source other theirs found
    by_cases same : i = j
    · subst same
      rw [List.getElem?_set_self here] at found
      cases found
      cases known.symm.trans theirs
      exact serves
    · rw [List.getElem?_set_ne same] at found
      exact sound.serves j source other theirs found

theorem Sound.run (sound : Sound settings parts patience sources service)
    (distinct : DistinctDigests parts sources) (schedule : List Nat) :
    Sound settings parts patience sources (service.run patience schedule) := by
  induction schedule generalizing service with
  | nil => exact sound
  | cons i rest ih => exact ih (sound.step distinct i)

end Service

/-! ### Progress -/

/-- How many steps lead to a stage at most. -/
def Stage.rank : Stage → Nat
  | received _ => 0
  | missed _ _ => 1
  | ready _ _ => 2
  | answered _ => 3

theorem Server.rank_advance (s : Server) (patience : Nat) (stage : Stage) :
    min 3 (stage.rank + 1) ≤ (s.advance patience stage).1.rank := by
  cases stage with
  | received source =>
    rw [advance]
    split
    · exact Nat.le_add_left 1 2
    · split
      · exact Nat.le_add_left 1 1
      · exact Nat.le_refl 1
  | missed source c => exact Nat.le_refl 2
  | ready c cached => exact Nat.le_refl 3
  | answered r => exact Nat.le_refl 3

theorem Service.rank_step (patience : Nat) (service : Service) (i j : Nat) {stage : Stage}
    (present : service.stages[j]? = some stage) :
    ∃ later, (service.step patience i).stages[j]? = some later ∧
      min 3 (stage.rank + if i = j then 1 else 0) ≤ later.rank := by
  unfold Service.step
  by_cases same : i = j
  · subst same
    have here : i < service.stages.length := (List.getElem?_eq_some_iff.mp present).1
    simp only [present, List.getElem?_set_self here, if_true]
    exact ⟨_, rfl, service.server.rank_advance patience stage⟩
  · refine ⟨stage, ?_, ?_⟩
    · split
      · exact present
      · rw [List.getElem?_set_ne same, present]
    · rw [if_neg same]
      exact Nat.min_le_right 3 stage.rank

theorem Service.rank_run (patience : Nat) (service : Service) (schedule : List Nat) (j : Nat)
    {stage : Stage} (present : service.stages[j]? = some stage) :
    ∃ later, (service.run patience schedule).stages[j]? = some later ∧
      min 3 (stage.rank + schedule.count j) ≤ later.rank := by
  induction schedule generalizing service stage with
  | nil => exact ⟨stage, present, Nat.min_le_right 3 stage.rank⟩
  | cons i rest ih =>
    obtain ⟨next, present, one⟩ := service.rank_step patience i j present
    obtain ⟨later, present, more⟩ := ih (service.step patience i) present
    refine ⟨later, present, ?_⟩
    have count : (i :: rest).count j = rest.count j + if i = j then 1 else 0 := by
      simp [List.count_cons]
    omega

theorem Stage.eq_answered {stage : Stage} (done : 3 ≤ stage.rank) : ∃ r, stage = .answered r := by
  cases stage with
  | answered r => exact ⟨r, rfl⟩
  | _ => simp [rank] at done

/-- Every request gets the response of a new playground, but perhaps for the remark that the script
had been compiled before: in a sequence of requests, and also when the steps of many requests are
mixed in any order, where three steps of its own bring a request to its response. -/
theorem cache_transparent (settings : Settings) (parts : Parts) (patience : Nat) :
    (∀ requests : List Request, DistinctDigests parts (requests.map Request.body) →
      List.Forall₂
        (fun r response =>
          Response.Alike response ((Server.new settings parts).handle patience r).1)
        requests ((Server.new settings parts).handleAll patience requests).1) ∧
    ∀ (sources : List Text) (schedule : List Nat), DistinctDigests parts sources →
      ∀ i source, sources[i]? = some source →
        ∃ stage,
          ((Service.start settings parts sources).run patience schedule).stages[i]? = some stage ∧
          (3 ≤ schedule.count i → ∃ r, stage = .answered r) ∧
          ∀ r, stage = .answered r →
            Response.Alike r ((Server.new settings parts).run patience source).1 := by
  refine ⟨fun requests distinct => ?_, fun sources schedule distinct i source here => ?_⟩
  · exact (Server.faithful_new settings parts _).handleAll distinct patience
      fun r member => List.mem_map_of_mem member
  · have received :
        (Service.start settings parts sources).stages[i]? = some (.received source) := by
      rw [Service.start, List.getElem?_map, here, Option.map_some]
    obtain ⟨stage, present, rank⟩ := Service.rank_run patience _ schedule i received
    have sound := (Service.sound_start settings parts patience sources).run distinct schedule
    have serves := sound.serves i source stage here present
    refine ⟨stage, present, fun often => Stage.eq_answered ?_, ?_⟩
    · have unserved : (Stage.received source).rank = 0 := rfl
      omega
    · rintro r rfl
      exact serves

/-- A cache with room for one script: between the first and the last request for the same script,
another request takes its place. -/
theorem cache_transparent_evicted :
    let settings : Settings := { playground := { cacheSize := 1 } }
    let sources : List Text := [[49, 59], [50, 59], [49, 59]]
    let requests := sources.map fun source => Request.mk "POST" "/run" source
    let schedule := [0, 1, 0, 1, 2, 2, 2, 0, 1]
    settings.isValid = true ∧ DistinctDigests .standard sources ∧
      List.Forall₂
        (fun r response => Response.Alike response ((Server.new settings .standard).handle 9 r).1)
        requests ((Server.new settings .standard).handleAll 9 requests).1 ∧
      ∃ r,
        ((Service.start settings .standard sources).run 9 schedule).stages[2]? =
          some (.answered r) ∧
        Response.Alike r ((Server.new settings .standard).run 9 [49, 59]).1 := by
  intro settings sources requests schedule
  have distinct : DistinctDigests .standard sources := by
    unfold DistinctDigests
    decide +kernel
  have transparent := cache_transparent settings .standard 9
  obtain ⟨stage, present, answered, alike⟩ := transparent.2 sources schedule distinct 2 _ rfl
  obtain ⟨r, rfl⟩ := answered (by decide)
  exact ⟨by decide +kernel, distinct, transparent.1 requests distinct, r, present, alike r rfl⟩

end Playground

end NumScript

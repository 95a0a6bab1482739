import NumScript.Proofs.Playground.Queue

/-! What the playground forgets. An answer ends with the remark whether its script had been compiled
before, and what had not been is stored. So a script is known as long as it is one of the last that
had to be compiled. -/

namespace NumScript

theorem Text.jsonObject_suffix (front : List (Text × Text)) (name value : Text) :
    (json name ++ ":" ++ value ++ "\x7d" : Text) <:+ jsonObject (front ++ [(name, value)]) := by
  have last (items : List Text) (item : Text) : item <:+ commas (items ++ [item]) := by
    rw [commas, bulleted, List.flatMap_append, List.flatMap_singleton, ← List.append_assoc,
      List.drop_append_of_le_length (by rw [List.length_append]; exact Nat.le_add_left 1 _)]
    exact List.suffix_append _ item
  have closed (items : List Text) (item : Text) :
      (item ++ "\x7d" : Text) <:+ ("\x7b" ++ commas (items ++ [item]) ++ "\x7d" : Text) := by
    obtain ⟨before, same⟩ := last items item
    rw [← same, ← List.append_assoc]
    exact ⟨_, (List.append_assoc _ _ _).symm⟩
  rw [jsonObject, List.map_append, List.map_singleton]
  exact closed _ _

namespace Playground

/-- What a response tells of the cache: an answer ends with the remark whether the script had been
compiled before. -/
def Response.cached? (r : Response) : Option Bool :=
  if r.contentType = "application/json" then
    some (("\"cached\":true\x7d" : Text).isSuffixOf r.body)
  else none

theorem Response.cached?_refusal (status : Status) (message : Text) :
    (Response.refusal status message).cached? = none :=
  if_neg (by decide +kernel : ¬ ("text/plain; charset=utf-8" : Text) = "application/json")

theorem Response.cached?_ofAnswer (a : Answer) : (Response.ofAnswer a).cached? = some a.cached := by
  have told : (Text.json "cached" ++ ":" ++ (if a.cached then ("true" : Text) else "false") ++
      "\x7d" : Text) <:+ a.json := by
    rw [Answer.json]
    exact Text.jsonObject_suffix [_, _, _, _] _ _
  rw [cached?, ofAnswer, if_pos rfl]
  cases cached : a.cached with
  | true =>
    rw [cached] at told
    exact congrArg some (List.isSuffixOf_iff_suffix.mpr told)
  | false =>
    rw [cached] at told
    -- Of two texts at the end of a third one, one is at the end of the other.
    have apart : ¬ ("\"cached\":true\x7d" : Text) <:+ a.json := fun other => by
      rcases List.suffix_or_suffix_of_suffix other told with ending | ending <;>
        exact absurd ending (by decide +kernel)
    exact congrArg some (Bool.eq_false_iff.mpr (apart ∘ List.isSuffixOf_iff_suffix.mp))

theorem Answer.cached_eq {limits : Limits} {c : Compiled} {cached : Bool} {a : Answer}
    (answered : Answer.ofCompiled? limits c cached = some a) : a.cached = cached := by
  rw [Answer.ofCompiled?_cached, Option.map_eq_some_iff] at answered
  obtain ⟨_, -, rfl⟩ := answered
  rfl

/-- The request asks for a script to be run. -/
def Request.Runs (parts : Parts) (r : Request) : Prop :=
  Route.ofPath (parts.path r.path) = .run ∧ r.method = "POST"

instance (parts : Parts) (r : Request) : Decidable (r.Runs parts) :=
  inferInstanceAs (Decidable (_ ∧ _))

def Request.Fits (settings : Settings) (r : Request) : Prop :=
  r.body.length ≤ settings.playground.maxBodyBytes

instance (settings : Settings) (r : Request) : Decidable (r.Fits settings) :=
  inferInstanceAs (Decidable (_ ≤ _))

/-- The scripts of those requests whose answers say that they had not been compiled before, in
order. -/
def missed (requests : List Request) (responses : List (Option Response)) : List Text :=
  ((requests.zip responses).filter fun (_, response) =>
    response.bind Response.cached? = some false).map fun (r, _) => r.body

theorem missed_cons (r : Request) (requests : List Request) (response : Response)
    (responses : List (Option Response)) :
    missed (r :: requests) (some response :: responses) =
      (if response.cached? = some false then [r.body] else []) ++ missed requests responses := by
  simp only [missed, List.zip_cons_cons, List.filter_cons, Option.bind_some, decide_eq_true_eq]
  split <;> rfl

namespace Server

/-- What a request stores in the cache, unless it is there. -/
def stores (settings : Settings) (parts : Parts) (r : Request) : List (CacheCall Compiled) :=
  if r.Runs parts ∧ r.Fits settings then [.put (parts.digest r.body) (compile settings r.body)]
  else []

variable {s : Server} {patience : Nat} {r : Request} {response : Response}

/-- A request that does not run a script, or one that is too long, is refused or tells that the
server is there. -/
theorem handle_of_not_runs (s : Server) (patience : Nat)
    (other : ¬ (r.Runs s.parts ∧ r.Fits s.settings)) :
    ∃ response, s.handle patience r = (some response, s) ∧ response.cached? = none := by
  rw [handle]
  cases route : Route.ofPath (s.parts.path r.path) with
  | health => exact ⟨_, rfl, by decide +kernel⟩
  | unknown => exact ⟨_, rfl, Response.cached?_refusal _ _⟩
  | run =>
    dsimp only
    by_cases post : r.method = "POST"
    · have tooLong : s.settings.playground.maxBodyBytes < r.body.length :=
        Int.not_le.mp fun fits => other ⟨⟨route, post⟩, fits⟩
      refine ⟨.tooLong s.settings, ?_, Response.cached?_refusal .tooLarge _⟩
      rw [if_pos post, run, if_pos tooLong, Response.tooLong]
    · exact ⟨_, if_neg post, Response.cached?_refusal _ _⟩

theorem settings_compiled (s : Server) (source : Text) :
    (s.compiled source).2.settings = s.settings := by
  simp only [compiled]
  split <;> rfl

theorem handle_of_runs (s : Server) (patience : Nat) (runs : r.Runs s.parts)
    (fits : r.Fits s.settings) :
    s.handle patience r =
      ((Answer.ofCompiled? (s.settings.limits patience) (s.compiled r.body).1.1
        (s.compiled r.body).1.2).map .ofAnswer, (s.compiled r.body).2) := by
  obtain ⟨route, post⟩ := runs
  rw [handle, route]
  dsimp only
  rw [if_pos post, run, if_neg (Int.not_lt.mpr fits), ← settings_compiled s r.body]

theorem handle_cache (s : Server) (patience : Nat) (r : Request) :
    (s.handle patience r).2 =
      { s with cache := (stores s.settings s.parts r).foldl Cache.call s.cache } := by
  by_cases runs : r.Runs s.parts ∧ r.Fits s.settings
  · rw [s.handle_of_runs patience runs.1 runs.2, stores, if_pos runs]
    change (s.compiled r.body).2 = { s with cache := s.cache.put _ _ }
    cases found : s.cache.get? (s.parts.digest r.body) with
    | none => simp only [compiled, found]
    | some c =>
      simp only [compiled, found]
      rw [Cache.put_of_mem (List.mem_map_of_mem (Cache.mem_of_get? found))]
  · obtain ⟨response, same, -⟩ := s.handle_of_not_runs patience runs
    rw [same, stores, if_neg runs]
    rfl

/-- The answer to a script tells whether its digest is in the cache. -/
theorem cached?_handle (answered : (s.handle patience r).1 = some response) :
    response.cached? =
      if r.Runs s.parts ∧ r.Fits s.settings then
        some (decide (s.parts.digest r.body ∈ s.cache.keys))
      else none := by
  split
  · rename_i runs
    rw [s.handle_of_runs patience runs.1 runs.2, Option.map_eq_some_iff] at answered
    obtain ⟨a, answered, rfl⟩ := answered
    rw [Response.cached?_ofAnswer, Answer.cached_eq answered]
    cases found : s.cache.get? (s.parts.digest r.body) with
    | none =>
      have absent : (s.parts.digest r.body) ∉ s.cache.keys := Cache.get?_eq_none_iff.mp found
      simp [compiled, found, absent]
    | some c =>
      have present : (s.parts.digest r.body) ∈ s.cache.keys :=
        List.mem_map_of_mem (Cache.mem_of_get? found)
      simp [compiled, found, present]
  · rename_i refused
    obtain ⟨other, same, untold⟩ := s.handle_of_not_runs patience refused
    rw [same] at answered
    cases answered
    exact untold

/-- A script is brought into the cache when the answer tells that it was not there. -/
theorem effective_stores (answered : (s.handle patience r).1 = some response) :
    let missing := if response.cached? = some false then [r.body] else []
    (s.cache.effective (stores s.settings s.parts r)).map (·.1) = missing.map s.parts.digest ∧
      ∀ source ∈ missing, r.body = source ∧ r.Fits s.settings := by
  have told := cached?_handle answered
  by_cases runs : r.Runs s.parts ∧ r.Fits s.settings
  · rw [if_pos runs] at told
    rw [told, stores, if_pos runs]
    by_cases known : (s.parts.digest r.body) ∈ s.cache.keys
    · simp [Cache.effective, known]
    · simp [Cache.effective, known, runs.2]
  · rw [if_neg runs] at told
    rw [told, stores, if_neg runs]
    simp [Cache.effective]

/-- While all requests are answered, the scripts that were not in the cache are those that were
brought into it. -/
theorem handleAll_cache (s : Server) (patience : Nat) (requests : List Request)
    (answered : none ∉ (s.handleAll patience requests).1) :
    let calls := requests.flatMap (stores s.settings s.parts)
    let missing := missed requests (s.handleAll patience requests).1
    (s.handleAll patience requests).2 = { s with cache := calls.foldl Cache.call s.cache } ∧
      (s.cache.effective calls).map (·.1) = missing.map s.parts.digest ∧
      ∀ source ∈ missing, ∃ r ∈ requests, r.body = source ∧ r.Fits s.settings := by
  induction requests generalizing s with
  | nil => exact ⟨rfl, rfl, fun source member => by cases member⟩
  | cons r rest ih =>
    have cache := s.handle_cache patience r
    cases first : s.handle patience r with
    | mk response s' =>
    rw [first] at cache
    subst cache
    rw [handleAll] at answered ⊢
    simp only [first, List.mem_cons, not_or] at answered ⊢
    obtain ⟨present, answered⟩ := answered
    obtain ⟨response, rfl⟩ := Option.ne_none_iff_exists'.mp (Ne.symm present)
    obtain ⟨own, ownFits⟩ := effective_stores (congrArg Prod.fst first)
    obtain ⟨after, brought, fit⟩ := ih _ answered
    rw [List.flatMap_cons, Cache.effective_append, List.map_append, own, brought, after,
      List.foldl_append, missed_cons, List.map_append]
    refine ⟨rfl, rfl, fun source member => ?_⟩
    rcases List.mem_append.mp member with here | later
    · exact ⟨r, .inl rfl, ownFits source here⟩
    · obtain ⟨other, sent, same, fits⟩ := fit source later
      exact ⟨other, .inr sent, same, fits⟩

/-- The keys of the cache are the digests of the scripts that were missed last. -/
theorem keys_handleAll_new (settings : Settings) (parts : Parts) (patience : Nat)
    (requests : List Request)
    (answered : none ∉ ((new settings parts).handleAll patience requests).1) :
    ((new settings parts).handleAll patience requests).2.cache.keys =
      ((missed requests ((new settings parts).handleAll patience requests).1).rtake
        settings.playground.cacheSize.toNat).map parts.digest := by
  obtain ⟨after, brought, -⟩ := (new settings parts).handleAll_cache patience requests answered
  have empty : (new settings parts).cache.Tidy := Cache.tidy_empty settings.playground.cacheSize
  rw [show (new settings parts).parts = parts from rfl] at brought
  rw [after, Cache.keys, empty.entries_foldl, List.map_rtake, List.map_rtake, ← brought]
  rfl

/-- A request is answered with the remark that its script had been compiled before when the script
is one of the last that had not been, as many as the cache holds. -/
theorem cached?_iff {settings : Settings} {parts : Parts} {patience : Nat}
    {earlier : List Request} {r : Request} {response : Response}
    (answered : none ∉ ((new settings parts).handleAll patience earlier).1)
    (later :
      (((new settings parts).handleAll patience earlier).2.handle patience r).1 = some response)
    (runs : r.Runs parts)
    (distinct : DistinctDigests parts ((earlier ++ [r]).map Request.body)) :
    response.cached? = some true ↔
      r.body ∈ (missed earlier ((new settings parts).handleAll patience earlier).1).rtake
        settings.playground.cacheSize.toNat := by
  obtain ⟨after, -, fit⟩ := (new settings parts).handleAll_cache patience earlier answered
  have keys := keys_handleAll_new settings parts patience earlier answered
  have same : ((new settings parts).handleAll patience earlier).2.settings = settings := by
    rw [after]
    rfl
  have built : ((new settings parts).handleAll patience earlier).2.parts = parts := by
    rw [after]
    rfl
  have told := cached?_handle later
  rw [keys, same, built] at told
  generalize ((new settings parts).handleAll patience earlier).1 = responses at *
  have sent (source : Text)
      (member : source ∈ (missed earlier responses).rtake settings.playground.cacheSize.toNat) :
      ∃ other ∈ earlier, other.body = source ∧ other.Fits settings :=
    fit source (List.mem_of_mem_drop member)
  by_cases fits : r.Fits settings
  · rw [told, if_pos ⟨runs, fits⟩, Option.some_inj, decide_eq_true_iff, List.mem_map]
    constructor
    · -- What was missed with this digest was this script.
      rintro ⟨source, member, digest⟩
      obtain ⟨other, present, rfl, -⟩ := sent source member
      have before : other.body ∈ (earlier ++ [r]).map Request.body :=
        List.mem_map_of_mem (List.mem_append_left [r] present)
      have last : r.body ∈ (earlier ++ [r]).map Request.body :=
        List.mem_map_of_mem (List.mem_append_right earlier (List.mem_singleton_self r))
      rw [← distinct other.body before r.body last digest]
      exact member
    · exact fun member => ⟨r.body, member, rfl⟩
  · -- A script that is too long was not compiled before either.
    rw [told, if_neg (fits ∘ And.right)]
    refine iff_of_false (by simp) fun member => ?_
    obtain ⟨other, -, body, short⟩ := sent r.body member
    rw [Request.Fits, body] at short
    exact fits short

end Server

/-- The cache is a queue of bounded length. Whatever is looked up and stored, the table of its
values and the queue of its keys stay in step, no key is ever taken from the empty queue, and there
are no more entries than allowed: those that were brought last, the oldest first, each with the
value that was brought. So of requests in turn, all of them answered, the answer to a script tells
that it had been compiled before when it is one of the last that had not been, as many as the cache
holds. -/
theorem cache_first_in_first_out :
    (∀ (α : Type) (limit : Int) (calls : List (CacheCall α)),
      let c : Cache α := { limit := limit }
      let stored := (c.effective calls).rtake limit.toNat
      (calls.foldl Cache.call c).entries = stored ∧
      ∃ s : QueuedTable α, calls.foldlM QueuedTable.call? { limit := limit } = some s ∧
        s.limit = limit ∧ s.Holds stored ∧
        ∀ key, s.table.lookup key = (calls.foldl Cache.call c).get? key) ∧
    ∀ (settings : Settings) (parts : Parts) (patience : Nat) (earlier : List Request) (r : Request)
      (response : Response),
      let before := (Server.new settings parts).handleAll patience earlier
      none ∉ before.1 → (before.2.handle patience r).1 = some response → r.Runs parts →
      DistinctDigests parts ((earlier ++ [r]).map Request.body) →
      (response.cached? = some true ↔
        r.body ∈ (missed earlier before.1).rtake settings.playground.cacheSize.toNat) := by
  refine ⟨fun α limit calls => ?_, fun settings parts patience earlier r response => ?_⟩
  · intro c stored
    have empty : c.Tidy := Cache.tidy_empty limit
    have entries : (calls.foldl Cache.call c).entries = stored := empty.entries_foldl calls
    refine ⟨entries, (calls.foldl Cache.call c).queued, empty.queued_foldlM calls,
      c.limit_foldl calls, ?_, fun key => QueuedTable.lookup_tableOf _ key⟩
    rw [← entries]
    exact (empty.foldl calls).holds
  · exact fun answered later runs distinct => Server.cached?_iff answered later runs distinct

/-- With room for one script, another one takes its place and is known when it comes once more. -/
theorem cache_first_in_first_out_replaced :
    let settings : Settings := { playground := { cacheSize := 1 } }
    let request (source : Text) : Request := ⟨"POST", "/run", source⟩
    let earlier := [request [49, 59], request [50, 59]]
    let before := (Server.new settings .standard).handleAll 9 earlier
    none ∉ before.1 ∧ missed earlier before.1 = [[49, 59], [50, 59]] ∧
      (∃ response, (before.2.handle 9 (request [50, 59])).1 = some response ∧
        response.cached? = some true) ∧
      ∃ response, (before.2.handle 9 (request [49, 59])).1 = some response ∧
        response.cached? ≠ some true := by
  intro settings request earlier before
  have answered : none ∉ before.1 := by decide +kernel
  have both : missed earlier before.1 = [[49, 59], [50, 59]] := by decide +kernel
  have distinct : ∀ source ∈ [[49, 59], [50, 59]],
      DistinctDigests .standard ((earlier ++ [request source]).map Request.body) := by
    unfold DistinctDigests
    decide +kernel
  have responds : ∀ source ∈ [[49, 59], [50, 59]],
      (before.2.handle 9 (request source)).1.isSome = true := by decide +kernel
  obtain ⟨second, secondTold⟩ := Option.isSome_iff_exists.mp (responds [50, 59] (by simp))
  obtain ⟨first, firstTold⟩ := Option.isSome_iff_exists.mp (responds [49, 59] (by simp))
  refine ⟨answered, both, ⟨second, secondTold, ?_⟩, first, firstTold, ?_⟩
  · rw [cache_first_in_first_out.2 settings .standard 9 earlier _ second answered secondTold
      (by decide +kernel) (distinct [50, 59] (by simp)), both]
    decide
  · rw [ne_eq, cache_first_in_first_out.2 settings .standard 9 earlier _ first answered firstTold
      (by decide +kernel) (distinct [49, 59] (by simp)), both]
    decide

end Playground

end NumScript

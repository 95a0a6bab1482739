import NumScript.Cache
import NumScript.Digest
import NumScript.Files
import NumScript.Playground.Answer

/-! The playground: a service that runs the scripts it is sent. Compiled scripts are kept in a cache
by the digests of their texts. -/

namespace NumScript.Playground

structure Request where
  method : Text
  /-- The target: a path, perhaps with a query or a fragment behind it. -/
  path : Text
  body : Text
  deriving DecidableEq, Repr

inductive Status where
  | ok
  | notFound
  | methodNotAllowed
  | tooLarge
  | unprocessable
  deriving DecidableEq, Repr

def Status.code : Status → Nat
  | ok => 200
  | notFound => 404
  | methodNotAllowed => 405
  | tooLarge => 413
  | unprocessable => 422

structure Response where
  status : Status
  contentType : Text
  body : Text
  deriving DecidableEq, Repr

namespace Response

/-- A refusal with a message. -/
def refusal (status : Status) (message : Text) : Response :=
  ⟨status, "text/plain; charset=utf-8", message⟩

/-- The answer to a script: the request is well formed, but a script that did not run to its end
cannot be processed. -/
def ofAnswer (a : Answer) : Response :=
  ⟨if a.completed then .ok else .unprocessable, "application/json", a.json⟩

end Response

namespace Target

/-- A percent sign and two hexadecimal digits stand for a byte. -/
def decode : Text → Text
  | [] => []
  | 37 :: high :: low :: rest =>
    match Numeral.digit? true high, Numeral.digit? true low with
    | some h, some l => (16 * h + l).toUInt8 :: decode rest
    | _, _ => 37 :: decode (high :: low :: rest)
  | b :: rest => b :: decode rest

/-- What follows the authority of a target that names one: everything before the first two slashes
is a scheme, which has no slash, and the authority ends where a path, a query or a fragment
starts. -/
def afterAuthority (target : Text) : Text :=
  let scheme := target.takeWhile (· ≠ Path.slash)
  match target.drop scheme.length with
  | 47 :: 47 :: rest =>
    rest.dropWhile fun b => b ≠ Path.slash && b ≠ Text.byte '?' && b ≠ Text.byte '#'
  | _ => target

/-- The path of a target, every name behind a slash. A query and a fragment do not count, nor do
steps to the same place or up, but a slash at the end does. A target with a control character leads
to the root. -/
def path (target : Text) : Text :=
  let written := decode ((afterAuthority target).takeWhile fun b =>
    b ≠ Text.byte '?' && b ≠ Text.byte '#')
  let names := (Path.ofText written).names
  let directory := Path.clean ⟨true, names.dropLast⟩
  if target.any fun b => b < 32 || b = 127 then [Path.slash]
  else (directory.names ++ [names.getLastD []]).flatMap fun name => Path.slash :: name

end Target

/-- What a path asks for. -/
inductive Route where
  | health
  | run
  | unknown
  deriving DecidableEq, Repr

/-- The route of a path. -/
def Route.ofPath (path : Text) : Route :=
  if path = Text.ofString "/healthz" then health
  else if path = Text.ofString "/run" then run
  else unknown

/-- What the playground takes from elsewhere. -/
structure Parts where
  /-- The digest by which a script is known. -/
  digest : Text → Text
  /-- The path of the target of a request. -/
  path : Text → Text

/-- The parts that the playground is made of. -/
def Parts.standard : Parts := ⟨Text.digest, Target.path⟩

/-- A playground with fixed settings and parts, and the scripts it has compiled. -/
structure Server where
  settings : Settings
  parts : Parts
  cache : Cache Compiled

namespace Server

def new (settings : Settings) (parts : Parts := .standard) : Server :=
  { settings := settings, parts := parts, cache := { limit := settings.playground.cacheSize } }

/-- The compiled form of a script: from the cache, or made anew and kept. -/
def compiled (s : Server) (source : Text) : (Compiled × Bool) × Server :=
  let digest := s.parts.digest source
  match s.cache.get? digest with
  | some c => ((c, true), s)
  | none =>
    let c := compile s.settings source
    ((c, false), { s with cache := s.cache.put digest c })

/-- Runs a script. There is no response as long as a loop without a limit goes on. -/
def run (s : Server) (patience : Nat) (source : Text) : Option Response × Server :=
  if s.settings.playground.maxBodyBytes < source.length then
    (some (.refusal .tooLarge
      ("program exceeds " ++ Text.ofInt s.settings.playground.maxBodyBytes ++ " bytes")), s)
  else
    let ((c, cached), s) := s.compiled source
    ((Answer.ofCompiled? (s.settings.limits patience) c cached).map .ofAnswer, s)

/-- Responds to a request. -/
def handle (s : Server) (patience : Nat) (r : Request) : Option Response × Server :=
  match Route.ofPath (s.parts.path r.path) with
  | .health => (some ⟨.ok, "text/plain", "ok"⟩, s)
  | .run =>
    if r.method = Text.ofString "POST" then s.run patience r.body
    else (some (.refusal .methodNotAllowed "method not allowed"), s)
  | .unknown => (some (.refusal .notFound "not found"), s)

/-- Responds to requests in turn. -/
def handleAll (s : Server) (patience : Nat) : List Request → List (Option Response) × Server
  | [] => ([], s)
  | r :: rest =>
    let (response, s) := s.handle patience r
    let (responses, s) := s.handleAll patience rest
    (response :: responses, s)

end Server

end NumScript.Playground

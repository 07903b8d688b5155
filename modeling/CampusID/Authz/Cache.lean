import CampusID.Audit.Values
import CampusID.Authz.Engine
import CampusID.Cache
import CampusID.Lib.Interleaving

/-!
# Remembered decisions

`CachingDecider` puts a `DecisionCache` before the policies: any number of its calls and of
`invalidate`, interleaved.  A Redis command is atomic, and so is an evaluation of the policies.

A decision is remembered under a digest of the question that was asked, and the question bears the
person's epoch, a counter that `invalidate` increments.  The epoch is read once to look a decision
up and once more to remember one.

An evaluation is kept with the request it answers and with how often its person had been
invalidated when it was made, an entry with the question it was remembered under, and a lookup with
the question that is asked.  No program reads these: the theorems do.  The Redis is there, and it
answers.
-/

namespace CampusID
namespace Authz

open Lib

/-- `TTL`. -/
def ttl : Int := 60 * second

/-! ## Keys -/

/-- What a key is computed from. -/
structure Question where
  person : String
  epoch : Nat
  resourceId : String
  classification : String
  requiresAal2 : Bool
  action : String
  assurance : String
  network : String
  deriving DecidableEq, Repr

/-- Four hexadecimal digits. -/
def hexQuad (n : Nat) : List Char :=
  [n / 4096 % 16, n / 256 % 16, n / 16 % 16, n % 16].map Audit.hexDigit

/-- A character inside a JSON string, with `ensure_ascii=True`. -/
def asciiChar (c : Char) : List Char :=
  if c.toNat < 127 then Audit.jsonChar c
  else if c.toNat < 65536 then '\\' :: 'u' :: hexQuad c.toNat
  else
    -- a pair of surrogates
    '\\' :: 'u' :: hexQuad (55296 + (c.toNat - 65536) / 1024) ++
      '\\' :: 'u' :: hexQuad (56320 + (c.toNat - 65536) % 1024)

/-- A text as `json.dumps` writes it. -/
def asciiString (s : String) : String :=
  String.ofList ('"' :: s.toList.flatMap asciiChar ++ ['"'])

/-- The material of a key. -/
def Question.material (q : Question) : String :=
  "[" ++ Audit.join "," [asciiString q.person, toString q.epoch, asciiString q.resourceId,
    asciiString q.classification, if q.requiresAal2 then "true" else "false",
    asciiString q.action, asciiString q.assurance, asciiString q.network] ++ "]"

/-- The question that a request asks about a person. -/
def questionOf (request : Request) (person : String) (epoch : Nat) : Question where
  person := person
  epoch := epoch
  resourceId := request.resource.id
  classification := request.resource.classification
  requiresAal2 := request.resource.requiresAal2
  action := request.action
  assurance := request.subject.assurance
  network := request.environment.network

/-! ## Redis and the policies -/

/-- An evaluation: what was decided, which request was, and how often its person had been
invalidated. -/
structure Evaluation where
  decision : Decision
  request : Request
  invalidations : Nat
  deriving DecidableEq

/-- A decision that is remembered, and the question it is remembered under. -/
structure Remembered where
  evaluation : Evaluation
  question : Question
  deriving DecidableEq

/-- The counters and the entries. -/
structure Memory where
  epochs : String → Nat := fun _ => 0
  entries : Table String (fun _ => Remembered) Int := Table.empty

/-- The steps: an epoch is read, a decision looked up, the policies evaluated, a decision
remembered, an epoch incremented. -/
inductive CacheCmd where
  | epoch (person : String)
  | find (key : String) (question : Question)
  | evaluate (request : Request)
  | remember (key : String) (remembered : Remembered)
  | increment (person : String)
  deriving DecidableEq

/-- What a step answers. -/
abbrev CacheCmd.Reply : CacheCmd → Type
  | .epoch _ => Nat
  | .find _ _ => Option Remembered
  | .evaluate _ => Evaluation
  | .remember _ _ => Unit
  | .increment _ => Unit

/-- How often the person of a request has been invalidated. -/
def Memory.invalidations (memory : Memory) (request : Request) : Nat :=
  (request.subject.personUuid.map memory.epochs).getD 0

/-- One step at the instant `now`. -/
def Memory.exec (rules : PolicySet) (now : Int) : (c : CacheCmd) → Memory → c.Reply × Memory
  | .epoch person, memory => (memory.epochs person, memory)
  | .find key _, memory => (memory.entries.live now key, memory)
  | .evaluate request, memory =>
    (⟨rules.decide request, request, memory.invalidations request⟩, memory)
  | .remember key remembered, memory =>
    ((), { memory with entries := memory.entries.put key remembered (some (now + ttl)) })
  | .increment person, memory =>
    ((), { memory with
      epochs := Function.update memory.epochs person (memory.epochs person + 1) })

/-! ## The programs -/

/-- How a call ends. -/
inductive CacheOutcome where
  | decided (evaluation : Evaluation) (cached : Bool)
  | invalidated
  deriving DecidableEq

/-- A program of these steps. -/
abbrev CacheProgram := Prog CacheCmd CacheCmd.Reply

/-- One step. -/
def cacheCommand (c : CacheCmd) : CacheProgram c.Reply := Prog.send c

/-- `CachingDecider`: its policies, and the digest in the keys of its `DecisionCache`, cut to 32
digits. -/
structure Decider where
  rules : PolicySet
  digest : String → String
  digest_length : ∀ material, (digest material).length = 32

namespace Decider

variable (d : Decider)

/-- The key of a question. -/
def keyOf (q : Question) : String := "authz:decision:" ++ q.person ++ ":" ++ d.digest q.material

/-- `_key`, with the question. -/
def key (request : Request) (person : String) : CacheProgram (String × Question) := do
  let epoch : Nat ← cacheCommand (.epoch person)
  let question := questionOf request person epoch
  return (d.keyOf question, question)

/-- `get`: nothing is kept about nobody. -/
def get (request : Request) : CacheProgram (Option Remembered) :=
  match request.subject.personUuid with
  | none => return none
  | some person => do
    let key ← d.key request person
    cacheCommand (.find key.1 key.2)

/-- `put`. -/
def put (request : Request) (evaluation : Evaluation) : CacheProgram Unit :=
  match request.subject.personUuid with
  | none => return ()
  | some person => do
    let key ← d.key request person
    cacheCommand (.remember key.1 ⟨evaluation, key.2⟩)

/-- `CachingDecider.decide`. -/
def decide (request : Request) : CacheProgram CacheOutcome := do
  match ← d.get request with
  | some remembered => return .decided remembered.evaluation true
  | none => do
    let evaluation : Evaluation ← cacheCommand (.evaluate request)
    d.put request evaluation
    return .decided evaluation false

/-- `invalidate`. -/
def invalidate (person : String) : CacheProgram CacheOutcome := do
  cacheCommand (.increment person)
  return .invalidated

end Decider

/-- What is called. -/
inductive CacheCall where
  | decide (request : Request)
  | invalidate (person : String)
  deriving DecidableEq

/-- The program of a call. -/
def Decider.program (d : Decider) : CacheCall → CacheProgram CacheOutcome
  | .decide request => d.decide request
  | .invalidate person => Decider.invalidate person

/-- A call in progress. -/
abbrev CacheThread := Thread CacheCmd CacheCmd.Reply CacheCall CacheOutcome Int

/-- The calls in progress over Redis. -/
abbrev CachePool := Pool CacheCmd CacheCmd.Reply CacheCall CacheOutcome Int Memory

/-- No calls, and nothing remembered. -/
def noCalls : CachePool := ⟨{}, 0, []⟩

/-- One move. -/
def Decider.step (d : Decider) (p : CachePool) (mv : Move CacheCall Int) : CachePool :=
  p.step (Memory.exec d.rules) d.program mv

end Authz
end CampusID

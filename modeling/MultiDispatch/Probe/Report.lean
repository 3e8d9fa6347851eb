import MultiDispatch.Json
import MultiDispatch.Probe.Build

/-!
# Reports of a probe

A query names an operation and the types to call it with. It is answered by how the call resolves
and, if a candidate is chosen, by what that candidate returns. The word `null` stands for a null
wherever it occurs, even if there is a type of that name.

## Main definitions

* `Resolved`, `Answer`: the answer to a query.
* `Probe.answer`, `Probe.report`: answer queries.
* `Report`: the answers with what is known about the modules.
* `Answer.outcome`, `Answer.candidates`, `Answer.reason?`, `Answer.value?`: the parts of an answer.
* `Answer.json`, `Report.json`, `Report.text`: the written forms of a report.
-/

namespace MultiDispatch

/-- The word for a null subject or argument. -/
def nullWord : String := "null"

/-- How a query resolved, candidates given by their signatures. -/
inductive Resolved where
  /-- One candidate was chosen and returned a value, which shows if it is a text. -/
  | matched (candidate : String) (value : Option String)
  | unmatched (reason : Unmatched)
  | ambiguous (candidates : List String)
deriving DecidableEq, Repr

/-- The answer to a query. -/
structure Answer where
  /-- The call as the query puts it. -/
  call : String
  resolved : Resolved
deriving DecidableEq, Repr

/-- The answers to the queries of a manifest. -/
structure Report where
  /-- The number of registered modules. -/
  modules : Nat
  /-- The number of candidates accepted from all modules. -/
  candidates : Nat
  /-- What was found wrong with the modules. -/
  diagnostics : List String
  answers : List Answer
deriving DecidableEq, Repr

/-- Why a query has no answer. -/
inductive QueryError where
  /-- It uses a name that is neither `null` nor a type. -/
  | undeclared (name : String)
  /-- The chosen candidate failed. -/
  | body (cause : BodyError)
deriving DecidableEq, Repr

/-- The text of an error. -/
def QueryError.message : QueryError → String
  | .undeclared name => "query uses undeclared type `" ++ name ++ "`"
  | .body cause => cause.message

/-! ### Answering queries -/

namespace Probe

/-- The value that a name in a query stands for. -/
def valueOf (p : Probe) (name : String) : Except QueryError (Option Value) :=
  if name = nullWord then .ok none
  else match p.engine.types.get? name with
    | some ty => .ok (some ⟨ty, .unit⟩)
    | none => .error (.undeclared name)

/-- The subject and the arguments that the names of a query stand for. -/
def valuesOf (p : Probe) (q : Query) : Except QueryError (Option Value × List (Option Value)) := do
  let subject ← p.valueOf q.subject
  let args ← q.args.mapM p.valueOf
  pure (subject, args)

/-- How a call that was made is reported. -/
def resolved (x : Called) : Resolved :=
  match x.outcome with
  | .matched c => .matched c.text (x.value.bind Value.text?)
  | .unmatched reason => .unmatched reason
  | .ambiguous cs => .ambiguous (cs.map Candidate.text)

/-- Answer a query. The engine keeps the outcome, as for any other call. -/
def answer (p : Probe) (q : Query) : Except QueryError Answer × Probe :=
  match p.valuesOf q with
  | .error error => (.error error, p)
  | .ok (subject, args) =>
    let (called, engine) := (p.engine.call q.operation subject args).value
    let p := { p with engine := engine }
    match called with
    | .error cause => (.error (.body cause), p)
    | .ok x => (.ok ⟨Signature.callText q.operation q.subject q.args, resolved x⟩, p)

/-- Answer queries in order up to the first that has no answer. -/
def answerAll (p : Probe) : List Query → Except QueryError (List Answer) × Probe
  | [] => (.ok [], p)
  | q :: rest =>
    match p.answer q with
    | (.error error, p) => (.error error, p)
    | (.ok answer, p) =>
      match p.answerAll rest with
      | (.error error, p) => (.error error, p)
      | (.ok answers, p) => (.ok (answer :: answers), p)

/-- The report on a list of queries. -/
def report (p : Probe) (queries : List Query) : Except QueryError Report × Probe :=
  match p.answerAll queries with
  | (.error error, p) => (.error error, p)
  | (.ok answers, p) =>
    (.ok ⟨p.engine.counts.modules, p.loading.accepted,
      p.loading.diagnostics.map RegistrationError.message, answers⟩, p)

end Probe

/-! ### Written forms -/

namespace Answer

/-- Whether the query is ambiguous. -/
def isAmbiguous (q : Answer) : Bool :=
  match q.resolved with
  | .matched _ _ => false
  | .unmatched _ => false
  | .ambiguous _ => true

/-- The word for the outcome. -/
def outcome (a : Answer) : String :=
  match a.resolved with
  | .matched _ _ => "matched"
  | .unmatched _ => "unmatched"
  | .ambiguous _ => "ambiguous"

/-- The texts of the candidates that the query came to. -/
def candidates (a : Answer) : List String :=
  match a.resolved with
  | .matched c _ => [c]
  | .unmatched _ => []
  | .ambiguous cs => cs

/-- Why there is no candidate. -/
def reason? (a : Answer) : Option String :=
  match a.resolved with
  | .matched _ _ => none
  | .unmatched reason => some reason.message
  | .ambiguous _ => none

/-- The text that the chosen candidate returned. -/
def value? (a : Answer) : Option String :=
  match a.resolved with
  | .matched _ value => value
  | .unmatched _ => none
  | .ambiguous _ => none

/-- The answer as JSON. A reason and a value are members only where there is one. -/
def json (a : Answer) : Json :=
  .object
    ([("call", .string a.call), ("outcome", .string a.outcome),
        ("candidates", .array (a.candidates.map .string))] ++
      a.reason?.toList.map (fun s => ("reason", .string s)) ++
      a.value?.toList.map fun s => ("value", .string s))

/-- The answer on one line. -/
def text (q : Answer) : String :=
  q.call ++ " -> " ++
    match q.resolved with
    | .matched c _ => c
    | .unmatched reason => "unmatched (" ++ reason.message ++ ")"
    | .ambiguous cs => "ambiguous: " ++ String.intercalate " | " cs

end Answer

namespace Report

/-- The report as JSON. -/
def json (r : Report) : Json :=
  .object
    [("modules_loaded", .number r.modules),
      ("candidates_accepted", .number r.candidates),
      ("diagnostics", .array (r.diagnostics.map .string)),
      ("queries", .array (r.answers.map Answer.json))]

/-- The report as lines of text: a line of counts, then a line for each query. -/
def text (r : Report) : String :=
  let counts :=
    toString r.modules ++ " modules, " ++ toString r.candidates ++ " candidates"
  String.join ((counts :: r.answers.map Answer.text).map (· ++ "\n"))

end Report

end MultiDispatch

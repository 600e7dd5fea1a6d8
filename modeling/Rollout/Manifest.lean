/-
  Manifests: resources written down in YAML, one a document.

  Empty documents are passed over. The first document that is no resource ends the reading with its
  failure.
-/
import Rollout.Failure
import Rollout.Yaml.Value

namespace Rollout.Manifest

/-- The resource in a document; none for an empty one. -/
def resource? (document : Option Yaml.Value) : Except Failure (Option Resource) := do
  let some v := document | .error (.manifest none)
  if v.isNull then return none
  let some j := v.toJson? | .error .serialization
  let some r := Resource.ofJson? j | .error (.manifest none)
  let _ ← r.key
  return some r

/-- The resources in a sequence of documents. -/
def ofDocuments (documents : List (Option Yaml.Value)) : Except Failure (List Resource) := do
  return (← documents.mapM resource?).filterMap id

/-- The resources of a manifest. -/
def parseAll (source : String) : Except Failure (List Resource) :=
  ofDocuments (Yaml.Value.ofText source)

/-- The one among several resources. -/
def single : List Resource → Except Failure Resource
  | [r] => .ok r
  | [] => .error (.manifest (some "manifest contains no resource"))
  | rs => .error (.manifest (some ("expected one resource, found " ++ toString rs.length)))

/-- The resource of a manifest that holds exactly one. -/
def parse (source : String) : Except Failure Resource := (parseAll source).bind single

end Rollout.Manifest

/-
  Pipelines: ordered changes to a resource before it goes anywhere.

  A resource is opened into a draft, every visitor edits the draft in order, and the draft is
  finished into a resource again. The draft of a container holds its members, and visitors edit
  each member instead of the container. A pipeline ends with the resolution of the namespace:
  the explicit one, else the one on the resource, else the fallback.
-/
import Rollout.Container
import Rollout.Text.Quoted

namespace Rollout

/-! ## Visitors -/

/-- One change to a resource. -/
inductive Visitor where
  | resolveNamespace (explicit fallback : Option String)
  | label (key value : String)
  | annotate (key value : String)
  | edit (change : Resource → Resource)

namespace Visitor

/-- The resolution of the namespace, empty names counting as absent. -/
def resolution (explicit fallback : Option String) : Visitor :=
  let given (s : Option String) := s.filter fun s => !s.isEmpty
  .resolveNamespace (given explicit) (given fallback)

def addTo (es : Option (Entries String)) (key value : String) : Option (Entries String) :=
  some (Entries.insert key value (es.getD []))

/-- The resource after the change. -/
def visit : Visitor → Resource → Resource
  | .resolveNamespace (some explicit) _, r => r.withNamespace explicit
  | .resolveNamespace none fallback, r =>
    if (r.ns.getD "").isEmpty then
      match fallback with
      | some ns => r.withNamespace ns
      | none => r
    else r
  | .label key value, r =>
    { r with metadata := { r.metadata with labels := addTo r.metadata.labels key value } }
  | .annotate key value, r =>
    { r with metadata := { r.metadata with annotations := addTo r.metadata.annotations key value } }
  | .edit change, r => change r

/-- The visitor as settings show it. -/
def text : Visitor → String
  | .resolveNamespace explicit fallback =>
    "ResolveNamespace \x7b explicit: " ++ Text.quotedOption explicit ++ ", fallback: "
      ++ Text.quotedOption fallback ++ " \x7d"
  | .label key value => "Label(" ++ key ++ "=" ++ value ++ ")"
  | .annotate key value => "Annotation(" ++ key ++ "=" ++ value ++ ")"
  | .edit _ => "Edit(..)"

end Visitor

/-! ## Drafts -/

/-- A resource being edited: a plain one, or a container with the members that are edited. -/
structure Draft where
  resource : Resource
  members : Option (List Resource)

namespace Draft

def plain (r : Resource) : Draft := ⟨r, none⟩

def container (r : Resource) (members : List Resource) : Draft := ⟨r, some members⟩

/-- The namespace of the resource itself, also for a container. -/
def ns (d : Draft) : Option String := d.resource.ns

def accept (d : Draft) (v : Visitor) : Draft :=
  match d.members with
  | some ms => { d with members := some (ms.map v.visit) }
  | none => { d with resource := v.visit d.resource }

/-- Replaces the data of the resource itself, also for a container. -/
def withData (d : Draft) (data : Json) : Draft :=
  { d with resource := { d.resource with data := data } }

/-- The resource that the draft describes. -/
def finish (d : Draft) : Except Failure Resource :=
  match d.members with
  | some ms => d.resource.withMembers ms
  | none => .ok d.resource

end Draft

/-! ## Pipelines -/

/-- The caller's visitors with the resolution of the namespace behind them. -/
structure Pipeline where
  visitors : List Visitor

namespace Pipeline

def of (visitors : List Visitor) (explicit fallback : Option String) : Pipeline :=
  ⟨visitors ++ [.resolution explicit fallback]⟩

/-- The draft after every visitor, finished. -/
def run (p : Pipeline) (d : Draft) : Except Failure Resource :=
  (p.visitors.foldl Draft.accept d).finish

end Pipeline

end Rollout

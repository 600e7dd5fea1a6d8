/-
  Kinds of resources that an API server serves, and where it serves them.

  The resources of a kind lie under one collection path; that of a kind with namespaces names the
  namespace, which is the default one of the connection when no other is given.
-/
namespace Rollout

/-- A kind that an API server serves. -/
structure ServedKind where
  group : String
  /-- The group and the version, without the group for the core group. -/
  apiVersion : String
  /-- The name of the collection. -/
  plural : String
  namespaced : Bool
  defaultNamespace : String
deriving DecidableEq, Repr

namespace ServedKind

/-- The apiVersion of a version of a group. -/
def apiVersionOf (group version : String) : String :=
  if group.isEmpty then version else group ++ "/" ++ version

/-- The namespace that is addressed; none for a kind without namespaces. -/
def namespaceFor (k : ServedKind) (ns : Option String) : Option String :=
  if k.namespaced then some ((ns.filter fun ns => !ns.isEmpty).getD k.defaultNamespace) else none

/-- The path of the collection. -/
def collectionPath (k : ServedKind) (ns : Option String) : String :=
  (if k.group.isEmpty then "/api/" else "/apis/") ++ k.apiVersion ++ "/"
    ++ (match k.namespaceFor ns with
      | some ns => "namespaces/" ++ ns ++ "/"
      | none => "")
    ++ k.plural

/-- The path of one resource; none without a name. -/
def itemPath? (k : ServedKind) (ns : Option String) (name : String) : Option String :=
  if name.isEmpty then none else some (k.collectionPath ns ++ "/" ++ name)

end ServedKind

end Rollout

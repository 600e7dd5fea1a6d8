/-
  Stores: resources kept in memory, as a stand-in for what a collaborator keeps.

  A resource is kept under its identity, namespace and name. Creating what is there is refused with
  status 409 and replacing what is not there with 404. Every write takes a fresh version and puts
  the resource into the namespace that it was addressed in.
-/
import Rollout.Watch

namespace Rollout

/-- The refusal by a bare status code. -/
def Failure.refusal (code : Nat) (reason : Option String) : Failure :=
  .api <| .refused {
    code
    status := "Failure"
    message := "request failed with status " ++ toString code
    reason := reason.getD <|
      if code = 404 then "NotFound" else if code = 409 then "AlreadyExists" else "InternalError" }

/-- The resource in the namespace that it is addressed in. -/
def Resource.addressedIn (r : Resource) (ns : Option String) : Resource :=
  match ns with
  | some ns => r.withNamespace ns
  | none => r

/-- Resources under their identities. -/
structure Store where
  objects : Entries Resource := []
  /-- How many versions were handed out. -/
  versions : Nat := 0
  /-- A replacement has to carry the version that is stored, if it carries one. -/
  checksVersion : Bool := false

namespace Store

/-- The identity of a resource that is addressed in a namespace. -/
def identity (ns : Option String) (name : String) : String := ns.getD "" ++ "/" ++ name

def find? (s : Store) (ns : Option String) (name : String) : Option Resource :=
  Entries.find? (identity ns name) s.objects

/-- Keeps `r` under its identity, with a fresh version. -/
def write (s : Store) (ns : Option String) (r : Resource) : Resource × Store :=
  let kept := (r.addressedIn ns).withVersion (some (toString (s.versions + 1)))
  (kept, { s with
    objects := Entries.insert (identity ns r.name) kept s.objects
    versions := s.versions + 1 })

def create (s : Store) (ns : Option String) (r : Resource) : Except Failure Resource × Store :=
  match s.find? ns r.name with
  | some _ => (.error (.refusal 409 none), s)
  | none => (.ok (s.write ns r).1, (s.write ns r).2)

/-- The version that `r` carries is not the stored one. -/
def isStale (s : Store) (stored r : Resource) : Bool :=
  s.checksVersion && r.version.isSome && r.version != stored.version

def replace (s : Store) (ns : Option String) (r : Resource) : Except Failure Resource × Store :=
  match s.find? ns r.name with
  | none => (.error (.refusal 404 none), s)
  | some stored =>
    if s.isStale stored r then (.error (.refusal 409 none), s)
    else (.ok (s.write ns r).1, (s.write ns r).2)

/-- Drops a resource; tells whether it was there. -/
def delete (s : Store) (ns : Option String) (r : Resource) : Bool × Store :=
  ((s.find? ns r.name).isSome, { s with objects := Entries.erase (identity ns r.name) s.objects })

/-- What a watch of a resource tells: that it is there, if it is. -/
def watch (s : Store) (ns : Option String) (r : Resource) : List WatchItem :=
  (s.find? ns r.name).toList.map fun stored => .ok (.added stored)

/-- Keeps `r` as it is, in its own namespace; it takes a fresh version only if it has none. -/
def put (s : Store) (r : Resource) : Store :=
  match r.version with
  | some _ => { s with objects := Entries.insert (identity r.ns r.name) r s.objects }
  | none =>
    { s with
      objects := Entries.insert (identity r.ns r.name)
        (r.withVersion (some (toString (s.versions + 1)))) s.objects
      versions := s.versions + 1 }

end Store

end Rollout

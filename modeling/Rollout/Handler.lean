/-
  The verbs of handlers.

  A remote is asked directly. A container is worked through member by member, in order, each member
  by the handler of its own kind and in its own namespace, or else in the one that was asked for.
  The first failure ends the work. Nesting decreases from a container to its members, so the work
  ends.
-/
import Rollout.Registry

namespace Rollout

/-- The namespace that a member is addressed in. -/
def Resource.nsWithin (member : Resource) (ns : Option String) : Option String := member.ns <|> ns

namespace Handler

/-- Opens a resource for editing: a container by its members. -/
def draft (h : Handler) (r : Resource) : Except Failure Draft :=
  match h with
  | .remote _ => .ok (.plain r)
  | .members _ => do return .container r (← r.members)

/-- The resource after the pipeline. -/
def edit (h : Handler) (p : Pipeline) (r : Resource) : Except Failure Resource :=
  (h.draft r).bind p.run

/-- Creates a resource, of a container each member. A member that is created has no version. -/
def create (h : Handler) (ns : Option String) (r : Resource) : Action Resource :=
  match h with
  | .remote x => x.create ns r
  | .members reg =>
    match _h : r.members with
    | .error f => throw f
    | .ok ms => do
      let created ← ms.attach.mapM fun ⟨m, _⟩ => do
        let h ← Action.ofExcept (reg.resolveFor (m.withVersion none))
        create h (m.nsWithin ns) (m.withVersion none)
      Action.ofExcept (r.withMembers created)
termination_by r.data.depth
decreasing_by exact Resource.depth_of_members_eq_ok (m := m) ‹_› ‹_›

/-- Replaces a resource, of a container each member. -/
def replace (h : Handler) (ns : Option String) (r : Resource) : Action Resource :=
  match h with
  | .remote x => x.replace ns r
  | .members reg =>
    match _h : r.members with
    | .error f => throw f
    | .ok ms => do
      let replaced ← ms.attach.mapM fun ⟨m, _⟩ => do
        let h ← Action.ofExcept (reg.resolveFor m)
        replace h (m.nsWithin ns) m
      Action.ofExcept (r.withMembers replaced)
termination_by r.data.depth
decreasing_by exact Resource.depth_of_members_eq_ok ‹_› ‹_›

/-- Deletes a resource, of a container the members up to the first that is not there. -/
def delete (h : Handler) (ns : Option String) (options : DeleteOptions) (r : Resource) :
    Action Bool :=
  match h with
  | .remote x => x.delete ns options r
  | .members reg =>
    match _h : r.members with
    | .error f => throw f
    | .ok ms => ms.attach.allM fun ⟨m, _⟩ => do
      let h ← Action.ofExcept (reg.resolveFor m)
      delete h (m.nsWithin ns) options m
termination_by r.data.depth
decreasing_by exact Resource.depth_of_members_eq_ok ‹_› ‹_›

/-- The current state of a resource, of a container with the members that are there. -/
def reload (h : Handler) (ns : Option String) (r : Resource) : Action (Option Resource) :=
  match h with
  | .remote x => x.reload ns r
  | .members reg =>
    match _h : r.members with
    | .error f => throw f
    | .ok ms => do
      let states ← ms.attach.mapM fun ⟨m, _⟩ => do
        let h ← Action.ofExcept (reg.resolveFor m)
        reload h (m.nsWithin ns) m
      some <$> Action.ofExcept (r.withMembers (states.filterMap id))
termination_by r.data.depth
decreasing_by exact Resource.depth_of_members_eq_ok ‹_› ‹_›

/-- Watches a resource; containers cannot be watched. -/
def watch (h : Handler) (ns : Option String) (r : Resource) (options : WatchOptions) :
    Action (List WatchItem) :=
  match h with
  | .remote x => x.watch ns r options
  | .members _ => throw (.unsupported "watch" r)

end Handler

end Rollout

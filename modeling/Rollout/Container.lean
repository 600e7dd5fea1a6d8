/-
  Containers: resources of a list kind, which hold other resources under `items`.

  `members?` reads the members of a container, `withMembers` puts members in, and `flatten`
  expands containers into the resources they hold, at any depth and in order. A member is nested
  less deep than its container (`depth_of_mem_members`), so `flatten` ends.
-/
import Rollout.Failure

namespace Rollout.Resource

/-! ## Members -/

/-- The encoded members: those under `items` of a resource of a list kind, if it is an array. -/
def rawMembers? (r : Resource) : Option (List Json) :=
  match r.types with
  | some t => if isListKind t.kind then (r.data.field? "items").bind Json.arr? else none
  | none => none

/-- The members of a container, `none` when the resource is no container. -/
def members? (r : Resource) : Option (Except Failure (List Resource)) :=
  r.rawMembers?.map fun items =>
    match items.mapM ofJson? with
    | some ms => .ok ms
    | none => .error .serialization

/-- The members of a resource that has to be a container. -/
def members (r : Resource) : Except Failure (List Resource) :=
  r.members?.getD (.error (.invalidResource (r.describe ++ " has no items")))

/-- The container with `ms` as its members. -/
def withMembers (r : Resource) (ms : List Resource) : Except Failure Resource :=
  match ms.mapM toJson? with
  | none => .error .serialization
  | some items =>
    match r.data with
    | .obj fields => .ok { r with data := .obj (Entries.insert "items" (.arr items) fields) }
    | _ => .ok { r with data := .obj [("items", .arr items)] }

/-! ## Nesting -/

private theorem depthOfMembers_takeTypes_le (ms : Entries Json) :
    Json.depthOfMembers (takeTypes ms).2 ≤ Json.depthOfMembers ms := by
  have h₁ := Json.depthOfMembers_erase_le "apiVersion" ms
  have h₂ := Json.depthOfMembers_erase_le "kind" (Entries.erase "apiVersion" ms)
  unfold takeTypes
  split <;> first | exact h₁ | exact Nat.le_trans h₂ h₁

theorem depth_ofJson?_le {j : Json} {r : Resource} (h : ofJson? j = some r) :
    r.data.depth ≤ j.depth := by
  obtain ⟨ms, hms, h⟩ := Option.bind_eq_some_iff.1 h
  obtain ⟨m, -, h⟩ := Option.bind_eq_some_iff.1 h
  obtain rfl := Option.some.inj h
  cases j <;> simp [Json.obj?] at hms
  next fields =>
    subst hms
    have h₁ := Json.depthOfMembers_erase_le "metadata" (takeTypes fields).2
    have h₂ := depthOfMembers_takeTypes_le fields
    simp only [Json.depth]
    omega

theorem depth_rawMembers {r : Resource} {items : List Json} (h : r.rawMembers? = some items)
    {j : Json} (hj : j ∈ items) : j.depth < r.data.depth := by
  unfold rawMembers? at h
  split at h
  · split at h
    · obtain ⟨a, ha, hitems⟩ := Option.bind_eq_some_iff.1 h
      cases a <;> simp [Json.arr?] at hitems
      subst hitems
      have h₁ := Json.depth_le_depthOfItems hj
      cases hd : r.data <;> simp [hd, Json.field?] at ha
      next fields =>
        have h₂ := Json.depth_le_depthOfMembers (Entries.mem_of_find? ha)
        simp only [Json.depth] at h₂ ⊢
        omega
    · simp at h
  · simp at h

/-- A member is nested less deep than its container. -/
theorem depth_of_mem_members {r : Resource} {ms : List Resource} (h : r.members? = some (.ok ms))
    {m : Resource} (hm : m ∈ ms) : m.data.depth < r.data.depth := by
  unfold members? at h
  obtain ⟨items, hitems, hms⟩ := Option.map_eq_some_iff.1 h
  split at hms
  · next ms' hms' =>
    obtain rfl := Except.ok.inj hms
    obtain ⟨j, hj, hr⟩ := Json.exists_of_mem_mapM hms' hm
    exact Nat.lt_of_le_of_lt (depth_ofJson?_le hr) (depth_rawMembers hitems hj)
  · simp at hms

theorem depth_of_members_eq_ok {r : Resource} {ms : List Resource} (h : r.members = .ok ms)
    {m : Resource} (hm : m ∈ ms) : m.data.depth < r.data.depth := by
  unfold members at h
  cases hr : r.members? with
  | none => simp [hr] at h
  | some e => rw [hr] at h; simp at h; subst h; exact depth_of_mem_members hr hm

/-! ## Flattening -/

/-- The resources inside `r`: itself if it is no container, else those inside its members. -/
def leaves (r : Resource) : Except Failure (List Resource) :=
  match _h : r.members? with
  | none => .ok [r]
  | some (.error e) => .error e
  | some (.ok ms) => do
    let parts ← ms.attach.mapM fun ⟨m, _⟩ => leaves m
    return parts.flatten
termination_by r.data.depth
decreasing_by exact depth_of_mem_members ‹_› ‹_›

/-- Expands containers into the resources they hold, in order. -/
def flatten (rs : List Resource) : Except Failure (List Resource) := do
  let parts ← rs.mapM leaves
  return parts.flatten

end Rollout.Resource

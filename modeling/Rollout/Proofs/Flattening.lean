/-
  Flattening lists the leaves of nested containers in the order of their paths.

  A path leads into a list of resources, and on from each container to one of its members
  (`among?`). The leaves are the resources at the ends of paths that are no containers, and paths
  are ordered as a walk comes across them, depth first and from left to right, which is the
  lexicographic order. So the leaves with their paths make up one list and no other
  (`Listed.unique`), and flattening yields it, unless some container on the way has a member that is
  no resource (`Unreadable`).
-/
import Mathlib.Data.List.Sort
import Rollout.Proofs.Resource

namespace Rollout

/-! ## Reading many values -/

namespace Json

variable {β γ : Type} {read : β → Option γ}

/-- Many values cannot be read if and only if one of them cannot. -/
theorem mapM_eq_none_iff {xs : List β} : xs.mapM read = none ↔ ∃ x ∈ xs, read x = none := by
  induction xs with
  | nil => simp
  | cons x xs ih =>
    rw [List.mapM_cons, List.exists_mem_cons_iff, ← ih]
    cases read x with
    | none => simp
    | some y => cases xs.mapM read <;> simp

/-- What is read at a place is read from the value there. -/
theorem getElem?_bind_of_mapM {xs : List β} {ys : List γ} (h : xs.mapM read = some ys) (i : Nat) :
    xs[i]?.bind read = ys[i]? := by
  induction xs generalizing ys i with
  | nil =>
    obtain rfl := Option.some.inj h
    rfl
  | cons x xs ih =>
    simp only [List.mapM_cons, Option.bind_eq_bind, Option.bind_eq_some_iff, Option.pure_def,
      Option.some.injEq] at h
    obtain ⟨y, hy, ys, hys, rfl⟩ := h
    cases i with
    | zero => exact hy
    | succ i => exact ih hys i

end Json

namespace Resource

/-! ## Paths -/

/-- The resource is of a list kind and has an array of items. -/
def IsContainer (r : Resource) : Prop :=
  ∃ t items, r.types = some t ∧ isListKind t.kind = true ∧ r.data.field? "items" = some (.arr items)

/-- The resource that a path inside `r` leads to: from each container on to the member at the next
place, if that can be read. -/
def inside? (r : Resource) : List Nat → Option Resource
  | [] => some r
  | i :: path => ((r.rawMembers?.bind (·[i]?)).bind ofJson?).bind fun m => m.inside? path

/-- The resource that a path leads to, from the place of one of these resources on. -/
def among? (rs : List Resource) : List Nat → Option Resource
  | [] => none
  | i :: path => rs[i]?.bind fun r => r.inside? path

/-- All leaves, each with its path, in the order of the paths. -/
structure Listed (at? : List Nat → Option Resource) (found : List (List Nat × Resource)) :
    Prop where
  ordered : found.Pairwise fun a b => a.1 < b.1
  mem_iff : ∀ path leaf, (path, leaf) ∈ found ↔ at? path = some leaf ∧ ¬ leaf.IsContainer

/-- Some path leads to a container with a member that is no resource. -/
def Unreadable (at? : List Nat → Option Resource) : Prop :=
  ∃ path c items, at? path = some c ∧ c.rawMembers? = some items ∧ ∃ j ∈ items, ofJson? j = none

theorem isContainer_iff {r : Resource} : r.IsContainer ↔ ∃ items, r.rawMembers? = some items := by
  constructor
  · rintro ⟨t, items, htypes, hlist, hitems⟩
    cases hdata : r.data with
    | obj fields =>
      rw [hdata] at hitems
      exact ⟨items, rawMembers?_eq_some_iff.2 ⟨t, fields, htypes, hlist, hdata, hitems⟩⟩
    | _ =>
      rw [hdata] at hitems
      cases hitems
  · rintro ⟨items, hraw⟩
    obtain ⟨t, fields, htypes, hlist, hdata, hitems⟩ := rawMembers?_eq_some_iff.1 hraw
    exact ⟨t, items, htypes, hlist, hdata ▸ hitems⟩

theorem not_isContainer_iff {r : Resource} : ¬ r.IsContainer ↔ r.rawMembers? = none := by
  rw [isContainer_iff, ← Option.isSome_iff_exists, Bool.not_eq_true, Option.isSome_eq_false_iff,
    Option.isNone_iff_eq_none]

/-- Inside a container whose members can be read, paths go on among the members. -/
theorem inside?_cons {r : Resource} {items : List Json} {ms : List Resource}
    (hraw : r.rawMembers? = some items) (hms : items.mapM ofJson? = some ms) (i : Nat)
    (path : List Nat) : r.inside? (i :: path) = among? ms (i :: path) := by
  rw [inside?, hraw, Option.bind_some, Json.getElem?_bind_of_mapM hms]
  rfl

/-! ## Nested containers -/

/-- What holds of all that is no container, of containers with a member that is no resource, and of
the other ones if it holds of their members, holds of every resource. -/
theorem container_induction {motive : Resource → Prop}
    (plain : ∀ r, r.rawMembers? = none → motive r)
    (unreadable : ∀ r items, r.rawMembers? = some items → items.mapM ofJson? = none → motive r)
    (container : ∀ r items ms, r.rawMembers? = some items → items.mapM ofJson? = some ms →
      (∀ m ∈ ms, motive m) → motive r) (r : Resource) : motive r := by
  cases hraw : r.rawMembers? with
  | none => exact plain r hraw
  | some items =>
    cases hms : items.mapM ofJson? with
    | none => exact unreadable r items hraw hms
    | some ms =>
      exact container r items ms hraw hms fun m _ =>
        container_induction plain unreadable container m
termination_by r.data.depth
decreasing_by exact depth_of_mem_members (members?_eq_ok_iff.2 ⟨items, hraw, hms⟩) ‹_›

theorem leaves_of_plain {r : Resource} (h : r.rawMembers? = none) : r.leaves = .ok [r] :=
  leaves_of_members?_eq_none (members?_of_plain h)

theorem leaves_of_unreadable {r : Resource} {items : List Json} (hraw : r.rawMembers? = some items)
    (hms : items.mapM ofJson? = none) : r.leaves = .error .serialization :=
  leaves_of_members?_eq_error (members?_of_unreadable hraw hms)

theorem leaves_of_container {r : Resource} {items : List Json} {ms : List Resource}
    (hraw : r.rawMembers? = some items) (hms : items.mapM ofJson? = some ms) :
    r.leaves = flatten ms :=
  leaves_of_members?_eq_ok (members?_eq_ok_iff.2 ⟨items, hraw, hms⟩)

/-! ## One resource after the other -/

theorem flatten_eq_ok_cons_iff {r : Resource} {rs out : List Resource} :
    flatten (r :: rs) = .ok out ↔
      ∃ first rest, r.leaves = .ok first ∧ flatten rs = .ok rest ∧ out = first ++ rest := by
  rw [flatten_cons]
  cases r.leaves with
  | error f => exact ⟨nofun, fun ⟨_, _, h, _⟩ => nomatch h⟩
  | ok first =>
    cases flatten rs with
    | error f => exact ⟨nofun, fun ⟨_, _, _, h, _⟩ => nomatch h⟩
    | ok rest =>
      constructor
      · intro h
        exact ⟨first, rest, rfl, rfl, (Except.ok.inj h).symm⟩
      · rintro ⟨_, _, h, h', rfl⟩
        obtain rfl := Except.ok.inj h
        obtain rfl := Except.ok.inj h'
        rfl

theorem flatten_eq_error_cons_iff {r : Resource} {rs : List Resource} {f : Failure} :
    flatten (r :: rs) = .error f ↔
      r.leaves = .error f ∨ ∃ first, r.leaves = .ok first ∧ flatten rs = .error f := by
  rw [flatten_cons]
  cases r.leaves with
  | error f' =>
    constructor
    · intro h
      exact .inl (congrArg _ (Except.error.inj h))
    · rintro (h | ⟨_, h, _⟩)
      · exact congrArg _ (Except.error.inj h)
      · cases h
  | ok first =>
    cases flatten rs with
    | error f' =>
      constructor
      · intro h
        exact .inr ⟨first, rfl, congrArg _ (Except.error.inj h)⟩
      · rintro (h | ⟨_, _, h⟩)
        · cases h
        · exact congrArg _ (Except.error.inj h)
    | ok rest => exact ⟨nofun, fun h => h.elim nofun fun ⟨_, _, h⟩ => nomatch h⟩

theorem flatten_append (rs rs' : List Resource) :
    flatten (rs ++ rs') = do return (← flatten rs) ++ (← flatten rs') := by
  induction rs with
  | nil =>
    rw [List.nil_append, flatten_nil]
    exact (bind_pure (flatten rs')).symm
  | cons r rs ih =>
    rw [List.cons_append, flatten_cons, flatten_cons, ih]
    simp only [bind_assoc, pure_bind, List.append_assoc]

/-- Resources that are no containers are left as they are. -/
theorem flatten_of_plain {rs : List Resource} (h : ∀ r ∈ rs, ¬ r.IsContainer) :
    flatten rs = .ok rs :=
  flatten_of_leaves fun r hr => leaves_of_plain (not_isContainer_iff.1 (h r hr))

/-! ## Failure -/

theorem not_unreadable_of_plain {r : Resource} (h : r.rawMembers? = none) :
    ¬ Unreadable r.inside? := by
  rintro ⟨path, c, items, hc, hraw, -⟩
  cases path with
  | nil =>
    obtain rfl := Option.some.inj hc
    cases h.symm.trans hraw
  | cons i path =>
    rw [inside?, h] at hc
    cases hc

/-- If the members of a container can be read, what cannot be is further inside. -/
theorem unreadable_inside_iff {r : Resource} {items : List Json} {ms : List Resource}
    (hraw : r.rawMembers? = some items) (hms : items.mapM ofJson? = some ms) :
    Unreadable r.inside? ↔ Unreadable (among? ms) := by
  constructor
  · rintro ⟨path, c, items', hc, hraw', j, hj, hread⟩
    cases path with
    | nil =>
      obtain rfl := Option.some.inj hc
      obtain rfl := Option.some.inj (hraw.symm.trans hraw')
      cases hms.symm.trans (Json.mapM_eq_none_iff.2 ⟨j, hj, hread⟩)
    | cons i path =>
      rw [inside?_cons hraw hms] at hc
      exact ⟨i :: path, c, items', hc, hraw', j, hj, hread⟩
  · rintro ⟨path, c, items', hc, hraw', hj⟩
    cases path with
    | nil => cases hc
    | cons i path =>
      rw [← inside?_cons hraw hms] at hc
      exact ⟨i :: path, c, items', hc, hraw', hj⟩

theorem not_unreadable_nil : ¬ Unreadable (among? []) := by
  rintro ⟨path, c, items, hc, -⟩
  cases path with
  | nil => cases hc
  | cons i path => cases hc

theorem unreadable_cons_iff {r : Resource} {rs : List Resource} :
    Unreadable (among? (r :: rs)) ↔ Unreadable r.inside? ∨ Unreadable (among? rs) := by
  constructor
  · rintro ⟨path, c, items, hc, hread⟩
    match path with
    | [] => cases hc
    | 0 :: path => exact .inl ⟨path, c, items, hc, hread⟩
    | (i + 1) :: path => exact .inr ⟨i :: path, c, items, hc, hread⟩
  · rintro (⟨path, c, items, hc, hread⟩ | ⟨path, c, items, hc, hread⟩)
    · exact ⟨0 :: path, c, items, hc, hread⟩
    · cases path with
      | nil => cases hc
      | cons i path => exact ⟨(i + 1) :: path, c, items, hc, hread⟩

theorem flatten_eq_error_of_each {rs : List Resource}
    (each : ∀ r ∈ rs, ∀ f, r.leaves = .error f ↔ Unreadable r.inside? ∧ f = .serialization)
    (f : Failure) : flatten rs = .error f ↔ Unreadable (among? rs) ∧ f = .serialization := by
  induction rs with
  | nil => exact ⟨nofun, fun h => absurd h.1 not_unreadable_nil⟩
  | cons r rs ih =>
    obtain ⟨hr, hrs⟩ := List.forall_mem_cons.1 each
    rw [flatten_eq_error_cons_iff, unreadable_cons_iff, or_and_right, hr, ih hrs]
    constructor
    · rintro (h | ⟨_, _, h⟩)
      · exact .inl h
      · exact .inr h
    · rintro (h | ⟨h, rfl⟩)
      · exact .inl h
      · -- What is ahead may fail first, but not in another way.
        cases hleaves : r.leaves with
        | error f' => exact .inl ⟨((hr f').1 hleaves).1, rfl⟩
        | ok first => exact .inr ⟨first, rfl, h, rfl⟩

theorem leaves_eq_error_iff (r : Resource) (f : Failure) :
    r.leaves = .error f ↔ Unreadable r.inside? ∧ f = .serialization := by
  induction r using container_induction generalizing f with
  | plain r hraw =>
    rw [leaves_of_plain hraw]
    exact ⟨nofun, fun h => absurd h.1 (not_unreadable_of_plain hraw)⟩
  | unreadable r items hraw hms =>
    rw [leaves_of_unreadable hraw hms]
    constructor
    · intro h
      exact ⟨⟨[], r, items, rfl, hraw, Json.mapM_eq_none_iff.1 hms⟩, (Except.error.inj h).symm⟩
    · rintro ⟨-, rfl⟩
      rfl
  | container r items ms hraw hms ih =>
    rw [leaves_of_container hraw hms, unreadable_inside_iff hraw hms]
    exact flatten_eq_error_of_each ih f

/-- Flattening fails if and only if some container that is come across has a member that is no
resource, whatever else there is. -/
theorem flatten_eq_error_iff (rs : List Resource) (f : Failure) :
    flatten rs = .error f ↔ Unreadable (among? rs) ∧ f = .serialization :=
  flatten_eq_error_of_each (fun r _ => leaves_eq_error_iff r) f

/-! ## Leaves -/

namespace Listed

/-- There is one list of the leaves only. -/
theorem unique {at? : List Nat → Option Resource} {found found' : List (List Nat × Resource)}
    (h : Listed at? found) (h' : Listed at? found') : found = found' := by
  have : Std.Irrefl fun a b : List Nat × Resource => a.1 < b.1 := ⟨fun a => List.lt_irrefl a.1⟩
  have : Std.Antisymm fun a b : List Nat × Resource => a.1 < b.1 :=
    ⟨fun a b hab hba => absurd hba (List.lt_asymm hab)⟩
  refine h.ordered.eq_of_mem_iff h'.ordered fun (path, leaf) => ?_
  rw [h.mem_iff, h'.mem_iff]

theorem not_isContainer {at? : List Nat → Option Resource} {found : List (List Nat × Resource)}
    (h : Listed at? found) {r : Resource} (hr : r ∈ found.map Prod.snd) : ¬ r.IsContainer := by
  obtain ⟨⟨path, leaf⟩, hmem, rfl⟩ := List.mem_map.1 hr
  exact ((h.mem_iff path leaf).1 hmem).2

/-- What is no container is the only leaf inside it. -/
theorem plain {r : Resource} (h : r.rawMembers? = none) : Listed r.inside? [([], r)] := by
  refine ⟨List.pairwise_singleton _ _, fun path leaf => ?_⟩
  rw [List.mem_singleton, Prod.mk.injEq]
  constructor
  · rintro ⟨rfl, rfl⟩
    exact ⟨rfl, not_isContainer_iff.2 h⟩
  · rintro ⟨hleaf, -⟩
    cases path with
    | nil => exact ⟨rfl, (Option.some.inj hleaf).symm⟩
    | cons i path =>
      rw [inside?, h] at hleaf
      cases hleaf

/-- The leaves inside a container are those among its members. -/
theorem container {r : Resource} {items : List Json} {ms : List Resource}
    {found : List (List Nat × Resource)} (hraw : r.rawMembers? = some items)
    (hms : items.mapM ofJson? = some ms) (h : Listed (among? ms) found) :
    Listed r.inside? found := by
  refine ⟨h.ordered, fun path leaf => (h.mem_iff path leaf).trans ?_⟩
  cases path with
  | nil =>
    refine iff_of_false (fun hnone => nomatch hnone.1) ?_
    rintro ⟨hleaf, plain⟩
    obtain rfl := Option.some.inj hleaf
    exact plain (isContainer_iff.2 ⟨items, hraw⟩)
  | cons i path => rw [inside?_cons hraw hms]

theorem nil : Listed (among? []) [] := by
  refine ⟨.nil, fun path leaf => iff_of_false (List.not_mem_nil) ?_⟩
  rintro ⟨hleaf, -⟩
  cases path with
  | nil => cases hleaf
  | cons i path => cases hleaf

end Listed

/-- A path into a list, with one more resource ahead. -/
def later : List Nat → List Nat
  | [] => []
  | i :: path => (i + 1) :: path

theorem later_lt_later {p q : List Nat} (h : p < q) : later p < later q := by
  cases p with
  | nil =>
    cases q with
    | nil => exact absurd h (List.lt_irrefl _)
    | cons j q => exact List.nil_lt_cons _ _
  | cons i p =>
    cases q with
    | nil => exact absurd h (List.not_lt_nil _)
    | cons j q =>
      rw [later, later, List.cons_lt_cons_iff]
      exact (List.cons_lt_cons_iff.1 h).imp Nat.succ_lt_succ (And.imp_left (congrArg (· + 1)))

theorem among?_cons_later (r : Resource) (rs : List Resource) (path : List Nat) :
    among? (r :: rs) (later path) = among? rs path := by
  cases path with
  | nil => rfl
  | cons i path => rfl

/-- The leaves inside a resource come before those among the resources behind it. -/
theorem Listed.cons {r : Resource} {rs : List Resource} {first rest : List (List Nat × Resource)}
    (hr : Listed r.inside? first) (hrs : Listed (among? rs) rest) :
    Listed (among? (r :: rs))
      (first.map (Prod.map (List.cons 0) id) ++ rest.map (Prod.map later id)) := by
  refine ⟨List.pairwise_append.2 ⟨?_, ?_, ?_⟩, fun path leaf => ?_⟩
  · exact List.pairwise_map.2 (hr.ordered.imp fun h => List.cons_lt_cons_iff.2 (.inr ⟨rfl, h⟩))
  · exact List.pairwise_map.2 (hrs.ordered.imp later_lt_later)
  · intro x hx y hy
    obtain ⟨⟨p, l⟩, -, rfl⟩ := List.mem_map.1 hx
    obtain ⟨⟨q, l'⟩, hq, rfl⟩ := List.mem_map.1 hy
    cases q with
    | nil => cases ((hrs.mem_iff [] l').1 hq).1
    | cons j q => exact List.cons_lt_cons_iff.2 (.inl (Nat.succ_pos j))
  · rw [List.mem_append, List.mem_map, List.mem_map]
    constructor
    · rintro (⟨⟨p, l⟩, hmem, heq⟩ | ⟨⟨p, l⟩, hmem, heq⟩)
      · obtain ⟨rfl, rfl⟩ := Prod.mk.inj heq
        exact (hr.mem_iff p l).1 hmem
      · obtain ⟨rfl, rfl⟩ := Prod.mk.inj heq
        rw [among?_cons_later]
        exact (hrs.mem_iff p l).1 hmem
    · intro h
      match path, h with
      | 0 :: path, h => exact .inl ⟨(path, leaf), (hr.mem_iff path leaf).2 h, rfl⟩
      | (i + 1) :: path, h => exact .inr ⟨(i :: path, leaf), (hrs.mem_iff _ leaf).2 h, rfl⟩

theorem exists_listed_of_each {rs out : List Resource}
    (each : ∀ r ∈ rs, ∀ out, r.leaves = .ok out →
      ∃ found, Listed r.inside? found ∧ found.map Prod.snd = out)
    (h : flatten rs = .ok out) : ∃ found, Listed (among? rs) found ∧ found.map Prod.snd = out := by
  induction rs generalizing out with
  | nil =>
    obtain rfl := Except.ok.inj h
    exact ⟨[], .nil, rfl⟩
  | cons r rs ih =>
    obtain ⟨hr, hrs⟩ := List.forall_mem_cons.1 each
    obtain ⟨_, _, hfirst, hrest, rfl⟩ := flatten_eq_ok_cons_iff.1 h
    obtain ⟨first, hlisted, rfl⟩ := hr _ hfirst
    obtain ⟨rest, hlisted', rfl⟩ := ih hrs hrest
    refine ⟨_, hlisted.cons hlisted', ?_⟩
    rw [List.map_append, List.map_map, List.map_map]
    rfl

theorem exists_listed_inside {r : Resource} {out : List Resource} (h : r.leaves = .ok out) :
    ∃ found, Listed r.inside? found ∧ found.map Prod.snd = out := by
  induction r using container_induction generalizing out with
  | plain r hraw =>
    obtain rfl := Except.ok.inj ((leaves_of_plain hraw).symm.trans h)
    exact ⟨[([], r)], .plain hraw, rfl⟩
  | unreadable r items hraw hms => cases (leaves_of_unreadable hraw hms).symm.trans h
  | container r items ms hraw hms ih =>
    rw [leaves_of_container hraw hms] at h
    obtain ⟨found, hlisted, hout⟩ := exists_listed_of_each (fun m hm _ => ih m hm) h
    exact ⟨found, hlisted.container hraw hms, hout⟩

/-- What resources are flattened to are the leaves among them, in the order of their paths. -/
theorem exists_listed {rs out : List Resource} (h : flatten rs = .ok out) :
    ∃ found, Listed (among? rs) found ∧ found.map Prod.snd = out :=
  exists_listed_of_each (fun _ _ _ => exists_listed_inside) h

/-- Resources with containers nested in them are flattened to the leaves among them, all of them
and each of them once, depth first and from left to right, as long as every member of every
container on the way there can be read; otherwise there is nothing but a failure. None of what comes
out is a container, so that to flatten it again changes nothing. What stands in two parts is
flattened part by part, and the failure of the first one that fails is that of both. -/
theorem flatten_leaves (rs : List Resource) :
    (∀ out, flatten rs = .ok out ↔
      ¬ Unreadable (among? rs) ∧ ∃ found, Listed (among? rs) found ∧ found.map Prod.snd = out) ∧
    (∀ f, flatten rs = .error f ↔ Unreadable (among? rs) ∧ f = .serialization) ∧
    (∀ out, flatten rs = .ok out → (∀ r ∈ out, ¬ r.IsContainer) ∧ flatten out = .ok out) ∧
    ∀ rs', flatten (rs ++ rs') = do return (← flatten rs) ++ (← flatten rs') := by
  have leaves {out : List Resource} (h : flatten rs = .ok out) : ∀ r ∈ out, ¬ r.IsContainer := by
    obtain ⟨found, hlisted, rfl⟩ := exists_listed h
    exact fun r => hlisted.not_isContainer
  refine ⟨fun out => ⟨fun h => ⟨fun hunreadable => ?_, exists_listed h⟩, ?_⟩,
    flatten_eq_error_iff rs, fun out h => ⟨leaves h, flatten_of_plain (leaves h)⟩,
    flatten_append rs⟩
  · cases h.symm.trans ((flatten_eq_error_iff rs _).2 ⟨hunreadable, rfl⟩)
  · rintro ⟨readable, found, hlisted, rfl⟩
    cases h : flatten rs with
    | error f => exact absurd ((flatten_eq_error_iff rs f).1 h).1 readable
    | ok out =>
      obtain ⟨found', hlisted', rfl⟩ := exists_listed h
      rw [hlisted.unique hlisted']

/-! ### A list in a list -/

/-- A config map with this name. -/
def itemJson (name : String) : Json := .obj
  [("apiVersion", .str "v1"), ("kind", .str "ConfigMap"), ("metadata", .obj [("name", .str name)])]

def groupJson (items : List Json) : Json := .obj
  [("apiVersion", .str "v1"), ("items", .arr items), ("kind", .str "List")]

def item (name : String) : Resource := ⟨some ⟨"v1", "ConfigMap"⟩, { name := some name }, .obj []⟩

def group (items : List Json) : Resource :=
  ⟨some ⟨"v1", "List"⟩, {}, .obj [("items", .arr items)]⟩

theorem leaves_group {items : List Json} {ms : List Resource} (h : items.mapM ofJson? = some ms) :
    (group items).leaves = flatten ms := by
  have kind : isListKind "List" = true := by decide +kernel
  exact leaves_of_container (rawMembers?_eq_some_iff.2 ⟨_, _, rfl, kind, rfl, rfl⟩) h

theorem leaves_item (name : String) : (item name).leaves = .ok [item name] := by
  have plain : isListKind "ConfigMap" = false := by decide +kernel
  exact leaves_of_not_list plain

/-- A list of config maps, two of them in an inner list, with an empty list behind it, and a further
config map behind the whole. -/
def outer : List Resource :=
  [group [itemJson "a", groupJson [itemJson "b", itemJson "c"], groupJson []], item "d"]

theorem flatten_outer : flatten outer = .ok (["a", "b", "c", "d"].map item) := by
  have inner : (group [itemJson "b", itemJson "c"]).leaves = flatten [item "b", item "c"] :=
    leaves_group rfl
  have empty : (group []).leaves = flatten [] := leaves_group rfl
  have whole : (group [itemJson "a", groupJson [itemJson "b", itemJson "c"], groupJson []]).leaves =
      flatten [item "a", group [itemJson "b", itemJson "c"], group []] := leaves_group rfl
  simp only [outer, flatten_cons, flatten_nil, leaves_item, whole, inner, empty]
  rfl

/-- Four config maps come out, the inner ones in their place. -/
theorem flatten_leaves_outer : flatten outer = .ok (["a", "b", "c", "d"].map item) ∧
    ¬ Unreadable (among? outer) ∧
    (∃ found, Listed (among? outer) found ∧ found.map Prod.snd = ["a", "b", "c", "d"].map item) ∧
    flatten (["a", "b", "c", "d"].map item) = .ok (["a", "b", "c", "d"].map item) := by
  obtain ⟨hok, -, again, -⟩ := flatten_leaves outer
  obtain ⟨readable, listed⟩ := (hok _).1 flatten_outer
  exact ⟨flatten_outer, readable, listed, (again _ flatten_outer).2⟩

end Resource

end Rollout

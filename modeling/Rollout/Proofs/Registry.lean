/-
  Which handler a resource has, and when it has none.

  A resource is resolved by its type information alone. A remote handles what it is registered for.
  A container that nobody is registered for is handled by its members. A resource has no handler if
  it has no key, or if nobody is registered for its key and its kind is no list kind (`Lacks`).
-/
import Mathlib.Logic.Basic
import Rollout.Proofs.Resource
import Rollout.Registry

namespace Rollout

namespace Registry

/-! ## Handlers of containers and of members -/

variable {reg : Registry} {r : Resource} {h : Handler}

theorem resolveFor_eq_ok_iff :
    reg.resolveFor r = .ok h ↔ ∃ key, ResourceKey.of? r = some key ∧ reg.resolve key = .ok h := by
  unfold resolveFor Resource.key
  cases ResourceKey.of? r with
  | none => exact ⟨nofun, fun ⟨_, hkey, _⟩ => nomatch hkey⟩
  | some key =>
    refine ⟨fun h => ⟨key, rfl, h⟩, fun ⟨_, hkey, h⟩ => ?_⟩
    obtain rfl := Option.some.inj hkey
    exact h

theorem exists_types_of_key {key : ResourceKey} (hkey : ResourceKey.of? r = some key) :
    ∃ t, r.types = some t ∧ key = ⟨t.kind, t.apiVersion⟩ := by
  unfold ResourceKey.of? at hkey
  split at hkey
  · next t ht =>
    split at hkey
    · cases hkey
    · exact ⟨t, ht, (Option.some.inj hkey).symm⟩
  · cases hkey

theorem exists_types_of_resolveFor (hr : reg.resolveFor r = .ok h) : ∃ t, r.types = some t := by
  obtain ⟨key, hkey, -⟩ := resolveFor_eq_ok_iff.1 hr
  exact (exists_types_of_key hkey).imp fun _ ht => ht.1

/-- What resolves to a handler does so by its type information alone. -/
theorem resolveFor_withMetadata (metadata : Metadata) (hr : reg.resolveFor r = .ok h) :
    reg.resolveFor { r with metadata := metadata } = .ok h := by
  obtain ⟨key, hkey, hresolve⟩ := resolveFor_eq_ok_iff.1 hr
  exact resolveFor_eq_ok_iff.2 ⟨key, hkey, hresolve⟩

/-- Nobody but a remote handles a resource that is of no list kind. -/
theorem exists_remote_of_resolveFor (hr : reg.resolveFor r = .ok h)
    (hkind : isListKind r.kind = false) : ∃ x, h = .remote x := by
  obtain ⟨key, hkey, hresolve⟩ := resolveFor_eq_ok_iff.1 hr
  obtain ⟨t, ht, rfl⟩ := exists_types_of_key hkey
  rw [Resource.kind_eq ht] at hkind
  unfold resolve at hresolve
  split at hresolve
  · next x _ => exact ⟨x, (Except.ok.inj hresolve).symm⟩
  · rw [ResourceKey.isList, hkind] at hresolve
    cases hresolve

/-- A container that nobody is registered for is handled by its members. -/
theorem eq_members_of_resolveFor (hr : reg.resolveFor r = .ok h)
    (unregistered : ∀ key, ResourceKey.of? r = some key → reg.find? key = none) :
    h = .members reg := by
  obtain ⟨key, hkey, hresolve⟩ := resolveFor_eq_ok_iff.1 hr
  unfold resolve at hresolve
  rw [unregistered key hkey] at hresolve
  dsimp only at hresolve
  split at hresolve
  · exact (Except.ok.inj hresolve).symm
  · cases hresolve

/-- What is of a list kind is handled by its members, unless somebody is registered for it. -/
theorem resolveFor_of_isList {key : ResourceKey} (hkey : ResourceKey.of? r = some key)
    (unregistered : reg.find? key = none) (hlist : key.isList = true) :
    reg.resolveFor r = .ok (.members reg) := by
  refine resolveFor_eq_ok_iff.2 ⟨key, hkey, ?_⟩
  rw [resolve, unregistered]
  exact if_pos hlist

/-- What is handled by its members is of a list kind. -/
theorem eq_of_resolveFor_members {reg' : Registry} (hr : reg.resolveFor r = .ok (.members reg')) :
    isListKind r.kind = true ∧ reg' = reg := by
  obtain ⟨key, hkey, hresolve⟩ := resolveFor_eq_ok_iff.1 hr
  obtain ⟨t, ht, rfl⟩ := exists_types_of_key hkey
  rw [Resource.kind_eq ht]
  unfold resolve at hresolve
  split at hresolve
  · cases hresolve
  · split at hresolve
    · next hlist => exact ⟨hlist, (Handler.members.inj (Except.ok.inj hresolve)).symm⟩
    · cases hresolve

/-! ## Resources without a handler -/

/-- The resource has no handler. -/
def Lacks (reg : Registry) (r : Resource) : Prop :=
  ∀ key, ResourceKey.of? r = some key → reg.find? key = none ∧ key.isList = false

/-- Why a resource without a handler has none. -/
def lackOf (r : Resource) : Failure :=
  match ResourceKey.of? r with
  | some key => .handlerNotFound key
  | none => .invalidResource (r.name ++ " has no apiVersion/kind")

theorem resolve_eq_error_iff {reg : Registry} {key : ResourceKey} {f : Failure} :
    reg.resolve key = .error f ↔
      (reg.find? key = none ∧ key.isList = false) ∧ f = .handlerNotFound key := by
  unfold resolve
  split
  · next x hfind => exact ⟨nofun, fun h => nomatch hfind.symm.trans h.1.1⟩
  · next hfind =>
    split
    · next hlist => exact ⟨nofun, fun h => nomatch hlist.symm.trans h.1.2⟩
    · next hlist =>
      exact ⟨fun h => ⟨⟨hfind, Bool.eq_false_iff.2 hlist⟩, (Except.error.inj h).symm⟩,
        fun h => congrArg _ h.2.symm⟩

theorem resolveFor_eq_error_iff {reg : Registry} {r : Resource} {f : Failure} :
    reg.resolveFor r = .error f ↔ reg.Lacks r ∧ f = lackOf r := by
  unfold resolveFor Resource.key Lacks lackOf
  cases ResourceKey.of? r with
  | none => exact ⟨fun h => ⟨nofun, (Except.error.inj h).symm⟩, fun h => congrArg _ h.2.symm⟩
  | some key =>
    refine resolve_eq_error_iff.trans
      (and_congr_left fun _ => ⟨fun h _ hkey => ?_, fun h => h key rfl⟩)
    obtain rfl := Option.some.inj hkey
    exact h

theorem exists_resolveFor_iff {reg : Registry} {r : Resource} :
    (∃ h, reg.resolveFor r = .ok h) ↔ ¬ reg.Lacks r := by
  cases hr : reg.resolveFor r with
  | ok h =>
    refine iff_of_true ⟨h, rfl⟩ fun lacks => ?_
    cases hr.symm.trans (resolveFor_eq_error_iff.2 ⟨lacks, rfl⟩)
  | error f =>
    exact iff_of_false nofun (not_not_intro (resolveFor_eq_error_iff.1 hr).1)

/-- Of a batch with a resource that has no handler, the first such resource decides the failure. -/
theorem failsFirst_of_lacks {reg : Registry} {rs : List Resource} (h : ∃ r ∈ rs, reg.Lacks r) :
    ∃ before r after, rs = before ++ r :: after ∧ (∀ y ∈ before, ¬ reg.Lacks y) ∧ reg.Lacks r ∧
      rs.mapM reg.resolveFor = .error (lackOf r) := by
  cases hrs : rs.mapM reg.resolveFor with
  | ok handlers =>
    obtain ⟨r, hr, lacks⟩ := h
    exact absurd lacks (exists_resolveFor_iff.1 (exists_of_mapM_eq_ok hrs hr))
  | error f =>
    obtain ⟨before, r, after, hsplit, hbefore, hr⟩ := mapM_eq_error_iff.1 hrs
    obtain ⟨lacks, rfl⟩ := resolveFor_eq_error_iff.1 hr
    exact ⟨before, r, after, hsplit, fun y hy => exists_resolveFor_iff.1 (hbefore y hy), lacks, rfl⟩

end Registry

end Rollout

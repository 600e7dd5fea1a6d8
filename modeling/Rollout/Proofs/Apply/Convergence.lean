/-
  Applying a batch converges.

  `Outside.Keeps` is what a handler does whose objects are kept in a store: it refuses to create
  what is there (status 409), overwrites what is there when it replaces, drops what is there when it
  deletes, and fails in no other way. Everything that is written takes the namespace of the call and
  a version of the store's own.

  With such handlers a batch of resources without versions always succeeds. Then the last resource
  of each identity is kept, other identities are as they were (`Settles`), and applying the batch
  once more changes nothing but versions.
-/
import Mathlib.Data.List.Forall2
import Rollout.Proofs.Activity.Result
import Rollout.Proofs.Apply.Dialogue
import Rollout.Rehearsal.Store

namespace Rollout

variable {σ κ : Type}

/-! ## Stores -/

/-- From `before` to `after`, `kept` was put under `k`, and nothing else changed. -/
structure Writes (k : κ) (kept : Resource) (before after : κ → Option Resource) : Prop where
  kept : after k = some kept
  others (k' : κ) (hk : k' ≠ k) : after k' = before k'

/-- The handler keeps its objects in the state of the outside, where `objects` finds them under the
keys that it makes of namespaces and names. -/
structure Outside.Keeps (o : Outside σ) (objects : σ → κ → Option Resource)
    (key : Option String → String → κ) (h : Handler) : Prop where
  creates (w : World σ) (ns : Option String) (r : Resource)
    (absent : objects w.state (key ns r.name) = none) :
    ∃ w' kept, (h.meet (.create ns r)).LeadsTo o w w' (.ok kept) ∧
      kept.withVersion none = (r.addressedIn ns).withVersion none ∧
      Writes (key ns r.name) kept (objects w.state) (objects w'.state)
  refuses (w : World σ) (ns : Option String) (r : Resource)
    (present : objects w.state (key ns r.name) ≠ none) :
    ∃ w' status, (h.meet (.create ns r)).LeadsTo o w w' (.error (.api (.refused status))) ∧
      status.code = 409 ∧ objects w'.state = objects w.state
  replaces (w : World σ) (ns : Option String) (r : Resource) (unversioned : r.version = none)
    (present : objects w.state (key ns r.name) ≠ none) :
    ∃ w' kept, (h.meet (.replace ns r)).LeadsTo o w w' (.ok kept) ∧
      kept.withVersion none = (r.addressedIn ns).withVersion none ∧
      Writes (key ns r.name) kept (objects w.state) (objects w'.state)
  deletes (w : World σ) (ns : Option String) (options : DeleteOptions) (r : Resource) :
    ∃ w', (h.meet (.delete ns options r)).LeadsTo o w w'
        (.ok (objects w.state (key ns r.name)).isSome) ∧
      objects w'.state (key ns r.name) = none ∧
      ∀ k, k ≠ key ns r.name → objects w'.state k = objects w.state k

theorem Resource.addressedIn_self (r : Resource) : r.addressedIn r.ns = r := by
  unfold addressedIn
  split
  · next ns h =>
    obtain ⟨types, metadata, data⟩ := r
    have hns : metadata.ns = some ns := h
    rw [withNamespace, ← hns]
  · rfl

theorem Resource.withVersion_none {r : Resource} (unversioned : r.version = none) :
    r.withVersion none = r := by
  rw [← unversioned]
  exact r.withVersion_self

namespace Apply

variable {o : Outside σ} {objects : σ → κ → Option Resource}

/-! ## One resource -/

section Item

variable {key : Option String → String → κ} {h : Handler} {r : Resource}

/-- What is there already is brought to the state of the resource, replaced or created again. -/
theorem resolveConflict_leadsTo (keeps : o.Keeps objects key h) (options : ApplyOptions)
    (unversioned : r.version = none) (w : World σ)
    (present : objects w.state (key r.ns r.name) ≠ none) :
    ∃ w' kept, (resolveConflict h options r).run.LeadsTo o w w' (.ok kept) ∧
      kept.withVersion none = (r.addressedIn r.ns).withVersion none ∧
      Writes (key r.ns r.name) kept (objects w.state) (objects w'.state) := by
  rw [run_resolveConflict, Resource.withVersion_none unversioned]
  split
  · obtain ⟨w₁, hdelete, hgone, hothers⟩ := keeps.deletes w r.ns options.deletion r
    rw [Option.isSome_iff_ne_none.2 present] at hdelete
    obtain ⟨w', kept, hcreate, hkept, hwrites⟩ := keeps.creates w₁ r.ns r hgone
    refine ⟨w', kept, hdelete.bind hcreate, hkept, hwrites.kept, fun k hk => ?_⟩
    rw [hwrites.others k hk, hothers k hk]
  · exact keeps.replaces w r.ns r unversioned present

/-- A resource is put under its key, whatever was there and however that is resolved. -/
theorem createOrReplace_leadsTo (keeps : o.Keeps objects key h) (options : ApplyOptions)
    (unversioned : r.version = none) (w : World σ) :
    ∃ w' kept, (createOrReplace h options r).run.LeadsTo o w w' (.ok kept) ∧
      kept.withVersion none = r ∧
      Writes (key r.ns r.name) kept (objects w.state) (objects w'.state) := by
  have same {kept : Resource} (h : kept.withVersion none = (r.addressedIn r.ns).withVersion none) :
      kept.withVersion none = r := by
    rw [h, r.addressedIn_self, Resource.withVersion_none unversioned]
  rw [run_createOrReplace, Resource.withVersion_none unversioned]
  by_cases present : objects w.state (key r.ns r.name) = none
  · obtain ⟨w', kept, hcreate, hkept, hwrites⟩ := keeps.creates w r.ns r present
    exact ⟨w', kept, hcreate.bind (Program.leadsTo_done _ _ _), same hkept, hwrites⟩
  · obtain ⟨w₁, status, hrefused, hcode, hobjects⟩ := keeps.refuses w r.ns r present
    obtain ⟨w', kept, hresolve, hkept, hwrites⟩ :=
      resolveConflict_leadsTo keeps options unversioned w₁ (hobjects ▸ present)
    refine ⟨w', kept, hrefused.bind ?_, same hkept, hobjects ▸ hwrites⟩
    dsimp only
    rwa [if_pos ((Failure.isConflict_iff _).2 (.refused status hcode))]

end Item

/-! ## Batches -/

section Batch

variable {key : Handler → Option String → String → κ}

/-- The key of an item, which its handler makes. -/
def itemKey (key : Handler → Option String → String → κ) (p : Prepared) : κ :=
  key p.1 p.2.ns p.2.name

/-- What `after` keeps is what the batch makes of `before`: under each key that the batch names, the
last resource with that key, up to its version, and under any other key what was there. -/
structure Settles (key : Handler → Option String → String → κ) (batch : List Prepared)
    (before after : κ → Option Resource) : Prop where
  named (earlier : List Prepared) (p : Prepared) (later : List Prepared)
    (split : batch = earlier ++ p :: later) (last : ∀ q ∈ later, itemKey key q ≠ itemKey key p) :
    ∃ kept, after (itemKey key p) = some kept ∧ kept.withVersion none = p.2
  others (k : κ) (unnamed : ∀ p ∈ batch, itemKey key p ≠ k) : after k = before k

theorem settles_nil (before : κ → Option Resource) : Settles key [] before before where
  named earlier p later split _ :=
    absurd split.symm (List.append_ne_nil_of_right_ne_nil earlier (List.cons_ne_nil p later))
  others _ _ := rfl

theorem Settles.cons {p : Prepared} {batch : List Prepared} {kept : Resource}
    {before middle after : κ → Option Resource} (hp : Writes (itemKey key p) kept before middle)
    (hkept : kept.withVersion none = p.2) (hbatch : Settles key batch middle after) :
    Settles key (p :: batch) before after where
  named earlier q later split last := by
    cases earlier with
    | nil =>
      obtain ⟨rfl, rfl⟩ := List.cons.inj split
      exact ⟨kept, (hbatch.others _ last).trans hp.kept, hkept⟩
    | cons p' earlier =>
      obtain ⟨rfl, rfl⟩ := List.cons.inj split
      exact hbatch.named earlier q later rfl last
  others k unnamed := by
    obtain ⟨hne, unnamed⟩ := List.forall_mem_cons.1 unnamed
    rw [hbatch.others k unnamed, hp.others k hne.symm]

/-- Of the items with a key one is the last. -/
theorem exists_last {k : κ} {batch : List Prepared} (h : ∃ p ∈ batch, itemKey key p = k) :
    ∃ earlier p later, batch = earlier ++ p :: later ∧ itemKey key p = k ∧
      ∀ q ∈ later, itemKey key q ≠ k := by
  induction batch with
  | nil =>
    obtain ⟨p, hp, -⟩ := h
    cases hp
  | cons p batch ih =>
    by_cases hlater : ∃ q ∈ batch, itemKey key q = k
    · obtain ⟨earlier, q, later, rfl, hq, hlast⟩ := ih hlater
      exact ⟨p :: earlier, q, later, rfl, hq, hlast⟩
    · obtain ⟨q, hq, hk⟩ := h
      rcases List.mem_cons.1 hq with rfl | hq
      · exact ⟨[], q, batch, rfl, hk, fun q hq heq => hlater ⟨q, hq, heq⟩⟩
      · exact absurd ⟨q, hq, hk⟩ hlater

/-- A batch that is settled twice changes nothing but versions. -/
theorem Settles.again {batch : List Prepared} {before middle after : κ → Option Resource}
    (h : Settles key batch before middle) (h' : Settles key batch middle after) (k : κ) :
    (after k).map (·.withVersion none) = (middle k).map (·.withVersion none) := by
  by_cases named : ∃ p ∈ batch, itemKey key p = k
  · obtain ⟨earlier, p, later, split, rfl, last⟩ := exists_last named
    obtain ⟨kept, hkept, hp⟩ := h.named earlier p later split last
    obtain ⟨kept', hkept', hp'⟩ := h'.named earlier p later split last
    rw [hkept, hkept', Option.map_some, Option.map_some, hp, hp']
  · rw [h'.others k fun p hp hk => named ⟨p, hp, hk⟩]

theorem go_leadsTo (options : ApplyOptions) {batch : List Prepared}
    (keeps : ∀ p ∈ batch, o.Keeps objects (key p.1) p.1)
    (unversioned : ∀ p ∈ batch, p.2.version = none) (applied : List Resource) (w : World σ) :
    ∃ w' states, (createOrReplaceAll.go options applied batch).run.LeadsTo o w w'
        (.ok (applied ++ states)) ∧
      List.Forall₂ (fun p state => state.withVersion none = p.2) batch states ∧
      Settles key batch (objects w.state) (objects w'.state) := by
  induction batch generalizing applied w with
  | nil =>
    refine ⟨w, [], ?_, .nil, settles_nil _⟩
    rw [List.append_nil]
    exact Program.leadsTo_done _ _ _
  | cons p batch ih =>
    obtain ⟨h, r⟩ := p
    obtain ⟨hkeeps, keeps⟩ := List.forall_mem_cons.1 keeps
    obtain ⟨hr, unversioned⟩ := List.forall_mem_cons.1 unversioned
    obtain ⟨w₁, kept, hitem, hkept, hwrites⟩ := createOrReplace_leadsTo hkeeps options hr w
    obtain ⟨w', states, hgo, hstates, hsettles⟩ := ih keeps unversioned (applied ++ [kept]) w₁
    rw [List.append_assoc, List.singleton_append] at hgo
    refine ⟨w', kept :: states, ?_, .cons hkept hstates, .cons hwrites hkept hsettles⟩
    rw [createOrReplaceAll.go, Action.run_attempt_bind]
    exact hitem.bind hgo

/-- A batch of resources without versions always succeeds, with one state per item, in order. Then
the last resource of each identity is kept and all other identities are as they were; and the same
batch succeeds once more, and changes nothing but versions. -/
theorem createOrReplaceAll_converges (options : ApplyOptions) (batch : List Prepared)
    (keeps : ∀ p ∈ batch, o.Keeps objects (key p.1) p.1)
    (unversioned : ∀ p ∈ batch, p.2.version = none) (w : World σ) :
    ∃ w' states, (createOrReplaceAll options batch).run.LeadsTo o w w' (.ok states) ∧
      List.Forall₂ (fun p state => state.withVersion none = p.2) batch states ∧
      Settles key batch (objects w.state) (objects w'.state) ∧
      ∃ w'' states', (createOrReplaceAll options batch).run.LeadsTo o w' w'' (.ok states') ∧
        List.Forall₂ (fun p state => state.withVersion none = p.2) batch states' ∧
        ∀ k, (objects w''.state k).map (·.withVersion none) =
          (objects w'.state k).map (·.withVersion none) := by
  obtain ⟨w', states, hrun, hstates, hsettles⟩ := go_leadsTo options keeps unversioned [] w
  obtain ⟨w'', states', hrun', hstates', hsettles'⟩ := go_leadsTo options keeps unversioned [] w'
  exact ⟨w', states, hrun, hstates, hsettles, w'', states', hrun', hstates',
    hsettles.again hsettles'⟩

end Batch

end Apply

/-! ## Stores in memory -/

theorem Failure.exists_refusal_eq (code : Nat) (reason : Option String) :
    ∃ status, refusal code reason = .api (.refused status) ∧ status.code = code := ⟨_, rfl, rfl⟩

namespace Store

/-- A store as all there is outside. -/
def outside : Outside Store where
  answer
    | .create _ ns r => Activity.change fun s => s.create ns r
    | .replace _ ns r => Activity.change fun s => s.replace ns r
    | .delete _ ns _ r => Activity.change fun s => (.ok (s.delete ns r).1, (s.delete ns r).2)
    | _ => Activity.never

/-- What is kept under an identity. -/
def object (s : Store) (k : String) : Option Resource := Entries.find? k s.objects

theorem writes_write (s : Store) (ns : Option String) (r : Resource) :
    (s.write ns r).1.withVersion none = (r.addressedIn ns).withVersion none ∧
      Writes (identity ns r.name) (s.write ns r).1 s.object (s.write ns r).2.object :=
  ⟨Resource.withVersion_withVersion _ _ _, Entries.find?_insert_self _ _ _,
    fun _ hk => Entries.find?_insert_of_ne hk _ _⟩

theorem keeps_outside (id : String) (ownReadiness : Bool) :
    outside.Keeps object identity (.remote (.collaborator id ownReadiness)) where
  creates w ns r absent := by
    have hcreate : w.state.create ns r = (.ok (w.state.write ns r).1, (w.state.write ns r).2) := by
      rw [create, show w.state.find? ns r.name = none from absent]
    refine ⟨{ w with state := (w.state.write ns r).2 }, _, ?_, w.state.writes_write ns r⟩
    rw [Handler.meet, Handler.create]
    refine Program.leadsTo_ask ?_
    show Course.ended { w with state := (w.state.create ns r).2 } (w.state.create ns r).1 = _
    rw [hcreate]
  refuses w ns r present := by
    obtain ⟨stored, hstored⟩ := Option.ne_none_iff_exists'.1 present
    have hcreate : w.state.create ns r = (.error (.refusal 409 none), w.state) := by
      rw [create, show w.state.find? ns r.name = some stored from hstored]
    obtain ⟨status, hrefusal, hcode⟩ := Failure.exists_refusal_eq 409 none
    refine ⟨w, status, ?_, hcode, rfl⟩
    rw [Handler.meet, Handler.create]
    refine Program.leadsTo_ask ?_
    show Course.ended { w with state := (w.state.create ns r).2 } (w.state.create ns r).1 = _
    rw [hcreate, hrefusal]
  replaces w ns r unversioned present := by
    obtain ⟨stored, hstored⟩ := Option.ne_none_iff_exists'.1 present
    have hreplace : w.state.replace ns r =
        (.ok (w.state.write ns r).1, (w.state.write ns r).2) := by
      have current : w.state.isStale stored r = false := by
        rw [isStale, unversioned]
        simp
      simp only [replace, show w.state.find? ns r.name = some stored from hstored, current,
        Bool.false_eq_true, if_false]
    refine ⟨{ w with state := (w.state.write ns r).2 }, _, ?_, w.state.writes_write ns r⟩
    rw [Handler.meet, Handler.replace]
    refine Program.leadsTo_ask ?_
    show Course.ended { w with state := (w.state.replace ns r).2 } (w.state.replace ns r).1 = _
    rw [hreplace]
  deletes w ns options r := by
    refine ⟨{ w with state := (w.state.delete ns r).2 }, ?_, Entries.find?_erase_self _ _,
      fun k hk => Entries.find?_erase_of_ne hk _⟩
    rw [Handler.meet, Handler.delete]
    exact Program.leadsTo_ask rfl

/-- A setting, whose item is named `name`. -/
def setting (name value : String) : Prepared :=
  (.remote (.collaborator "settings" false),
    ⟨some ⟨"v1", "ConfigMap"⟩, { name := some name, ns := some "web" }, .str value⟩)

/-- Of two items with one identity the later one is kept, though something else was there before,
which is deleted first. -/
theorem createOrReplaceAll_converges_settings :
    ∃ w' states kept, (Apply.createOrReplaceAll ⟨⟨none, none⟩, true⟩
        [setting "limits" "low", setting "names" "all", setting "limits" "high"]).run.LeadsTo
          outside ⟨0, 0, Store.put {} (setting "limits" "none").2⟩ w' (.ok states) ∧
      states.length = 3 ∧ w'.state.object "web/limits" = some kept ∧
      kept.withVersion none = (setting "limits" "high").2 := by
  have keeps : ∀ p ∈ [setting "limits" "low", setting "names" "all", setting "limits" "high"],
      outside.Keeps object (Function.const Handler identity p.1) p.1 := by
    intro p hp
    simp only [List.mem_cons, List.not_mem_nil, or_false] at hp
    obtain rfl | rfl | rfl := hp
    all_goals exact keeps_outside "settings" false
  obtain ⟨w', states, hrun, hstates, hsettles, -⟩ :=
    Apply.createOrReplaceAll_converges ⟨⟨none, none⟩, true⟩
      [setting "limits" "low", setting "names" "all", setting "limits" "high"] keeps (by decide)
      ⟨0, 0, Store.put {} (setting "limits" "none").2⟩
  obtain ⟨kept, hkept, hlast⟩ := hsettles.named [setting "limits" "low", setting "names" "all"]
    (setting "limits" "high") [] rfl (List.forall_mem_nil _)
  exact ⟨w', states, kept, hrun, hstates.length_eq.symm, hkept, hlast⟩

end Store

end Rollout

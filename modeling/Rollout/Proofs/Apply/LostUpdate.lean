/-
  No update is lost among clients of a shared store.

  `Writer` is a client that creates or replaces a resource of a version that it knows. `Step` lets
  one call reach the store: of a client, as its program asks for it, or of anybody else. `Reaches`
  collects what occurred along a run. `no_lost_update` is what holds of every run, in whatever
  order the calls reach the store.
-/
import Rollout.Proofs.Apply.SharedStore

namespace Rollout

/-! ## Clients -/

/-- A client of the store, with the resource that it applies and the version that it knows. -/
structure Writer where
  /-- The name under which the client knows the store. -/
  id : String
  ownReadiness : Bool
  deletion : DeleteOptions
  resource : Resource
  version : String
  carries : resource.version = some version

namespace Writer

/-- What the client does: it creates or replaces, and deletes nothing. -/
def program (w : Writer) : Program (Except Failure Resource) :=
  (Apply.createOrReplace (.remote (.collaborator w.id w.ownReadiness)) ⟨w.deletion, false⟩
    w.resource).run

/-- What the client does after its create. -/
def afterCreate (w : Writer) : Except Failure Resource → Program (Except Failure Resource)
  | .ok created => .done (.ok created)
  | .error f =>
    if f.isConflict then .call (.replace w.id w.resource.ns w.resource) .done else .done (.error f)

theorem program_eq (w : Writer) :
    w.program =
      .call (.create w.id w.resource.ns (w.resource.withVersion none)) w.afterCreate := by
  unfold program
  rw [Apply.run_createOrReplace]
  have hcreate : (Handler.remote (.collaborator w.id w.ownReadiness)).meet
      (.create w.resource.ns (w.resource.withVersion none)) =
      .ask (.create w.id w.resource.ns (w.resource.withVersion none)) := by
    simp only [Handler.meet, Handler.create]
    rfl
  have hreplace : (Handler.remote (.collaborator w.id w.ownReadiness)).meet
      (.replace w.resource.ns w.resource) = .ask (.replace w.id w.resource.ns w.resource) := by
    simp only [Handler.meet, Handler.replace]
    rfl
  rw [hcreate, Program.ask, Program.call_bind]
  congr
  funext answer
  rw [Program.done_bind]
  cases answer with
  | ok created => rfl
  | error f =>
    simp only [afterCreate, Apply.run_resolveConflict, hreplace, Bool.false_eq_true, if_false]
    rfl

/-- How far a client has come. -/
inductive Phase (w : Writer) : Program (Except Failure Resource) → Prop where
  | creating :
      Phase w (.call (.create w.id w.resource.ns (w.resource.withVersion none)) w.afterCreate)
  | replacing : Phase w (.call (.replace w.id w.resource.ns w.resource) .done)
  | over (result : Except Failure Resource) : Phase w (.done result)

theorem phase_program (w : Writer) : w.Phase w.program := w.program_eq ▸ .creating

theorem phase_afterCreate (w : Writer) (answer : Except Failure Resource) :
    w.Phase (w.afterCreate answer) := by
  cases answer with
  | ok created => exact .over _
  | error f =>
    unfold afterCreate
    dsimp only
    split
    · exact .replacing
    · exact .over _

theorem Phase.next {w : Writer} {c : Call} {next : c.Answer → Program (Except Failure Resource)}
    (h : w.Phase (.call c next)) (answer : c.Answer) : w.Phase (next answer) := by
  cases h with
  | creating => exact w.phase_afterCreate answer
  | replacing => exact .over answer

end Writer

/-! ## Runs -/

/-- A store, and what each of its clients is still to do. -/
structure Shared (κ ι : Type) where
  store : SharedStore κ
  clients : ι → Program (Except Failure Resource)

/-- A call that reached the store, with its answer and the store before and after it. The client is
none when the call is anybody else's. -/
structure Occurrence (κ ι : Type) where
  client : Option ι
  event : Event
  before : SharedStore κ
  after : SharedStore κ

namespace Shared

variable {κ ι : Type} [DecidableEq κ] [DecidableEq ι]

/-- One call reaches the store. -/
inductive Step (locate : Option String → String → κ) :
    Shared κ ι → Occurrence κ ι → Shared κ ι → Prop where
  | client {s : Shared κ ι} {i : ι} {c : Call}
      {next : c.Answer → Program (Except Failure Resource)} {answer : c.Answer} {t : SharedStore κ}
      (asks : s.clients i = .call c next)
      (answers : SharedStore.Answers locate s.store c answer t) :
      Step locate s ⟨some i, ⟨c, answer⟩, s.store, t⟩
        ⟨t, Function.update s.clients i (next answer)⟩
  | other {s : Shared κ ι} {c : Call} {answer : c.Answer} {t : SharedStore κ}
      (answers : SharedStore.Answers locate s.store c answer t) :
      Step locate s ⟨none, ⟨c, answer⟩, s.store, t⟩ ⟨t, s.clients⟩

/-- A run, with what occurred in it, the latest last. -/
inductive Reaches (locate : Option String → String → κ) (start : Shared κ ι) :
    List (Occurrence κ ι) → Shared κ ι → Prop where
  | start : Reaches locate start [] start
  | step {history : List (Occurrence κ ι)} {s t : Shared κ ι} {o : Occurrence κ ι}
      (run : Reaches locate start history s) (step : Step locate s o t) :
      Reaches locate start (history ++ [o]) t

/-- What occurs in a step is an answer of the store, which leads from one state to the next. -/
theorem Step.answers {locate : Option String → String → κ} {s t : Shared κ ι}
    {o : Occurrence κ ι} (step : Step locate s o t) :
    o.before = s.store ∧ o.after = t.store ∧
      SharedStore.Answers locate o.before o.event.1 o.event.2 o.after := by
  cases step with
  | client _ answers => exact ⟨rfl, rfl, answers⟩
  | other answers => exact ⟨rfl, rfl, answers⟩

end Shared

namespace Occurrence

variable {κ ι : Type}

/-- The call created `x` where there was nothing under the key. -/
def Creates (locate : Option String → String → κ) (k : κ) (x : Resource) (o : Occurrence κ ι) :
    Prop :=
  o.before.objects k = none ∧ o.after.objects k = some x ∧
    ∃ id ns r, o.event = ⟨.create id ns r, .ok x⟩ ∧ locate ns r.name = k

/-- The call, which went by the version `v`, put `x` in the place of an object of that version. -/
def Replaces (locate : Option String → String → κ) (k : κ) (v : String) (x : Resource)
    (o : Occurrence κ ι) : Prop :=
  (∃ stored, o.before.objects k = some stored ∧ stored.version = some v) ∧
    o.after.objects k = some x ∧
    ∃ id ns r, o.event = ⟨.replace id ns r, .ok x⟩ ∧ locate ns r.name = k ∧ r.version = some v

/-- The call changed what was kept under the key. -/
def Overwrites (k : κ) (stored : Resource) (o : Occurrence κ ι) : Prop :=
  o.before.objects k = some stored ∧ o.after.objects k ≠ some stored

/-- A replacement spends the version that it goes by. -/
theorem Replaces.spent [DecidableEq κ] {locate : Option String → String → κ} {k : κ} {v : String}
    {x : Resource} {o : Occurrence κ ι} (h : o.Replaces locate k v x)
    (answers : SharedStore.Answers locate o.before o.event.1 o.event.2 o.after) :
    o.after.Spent k v := by
  obtain ⟨client, event, before, after⟩ := o
  obtain ⟨⟨stored, hstored, hversion⟩, -, id, ns, r, rfl, rfl, -⟩ := h
  obtain ⟨w, hw, hstored'⟩ := before.versioned _ _ hstored
  obtain rfl : v = w := by simpa [hversion] using hstored'
  change SharedStore.Answers locate before (.replace id ns r) (.ok x) after at answers
  cases answers with
  | replaced _ _ hv fresh => exact SharedStore.spent_write _ hw hv fresh

end Occurrence

/-! ## What a client's call does -/

namespace Writer

variable {κ ι : Type} [DecidableEq κ]

/-- The key of the client's resource. -/
def key (locate : Option String → String → κ) (w : Writer) : κ :=
  locate w.resource.ns w.resource.name

/-- A call of a client leaves the store as it is and does not end the client with success; or it
writes the client's object, which was absent or had the version that the client knows, and ends
the client with what was written. -/
theorem Phase.effect {w : Writer} {locate : Option String → String → κ} {s t : SharedStore κ}
    {c : Call} {next : c.Answer → Program (Except Failure Resource)} {answer : c.Answer}
    (hp : w.Phase (.call c next)) (ha : SharedStore.Answers locate s c answer t)
    (client : Option ι) :
    (t = s ∧ ∀ x, next answer ≠ .done (.ok x)) ∨
      ∃ x v, ∃ hv : x.version = some v, t = s.write (w.key locate) x hv ∧
        next answer = .done (.ok x) ∧
        (Occurrence.Creates locate (w.key locate) x ⟨client, ⟨c, answer⟩, s, t⟩ ∨
          Occurrence.Replaces locate (w.key locate) w.version x ⟨client, ⟨c, answer⟩, s, t⟩) := by
  cases hp with
  | creating =>
    cases ha with
    | created absent hv fresh =>
      exact .inr ⟨_, _, hv, rfl, rfl, .inl ⟨absent, s.objects_write_self _ _ hv, _, _, _, rfl, rfl⟩⟩
    | «exists» =>
      refine .inl ⟨rfl, fun x => ?_⟩
      unfold afterCreate
      dsimp only
      split <;> simp
  | replacing =>
    cases ha with
    | @replaced _ _ _ stored _ _ present current hv fresh =>
      have hversion : stored.version = some w.version := by
        rcases current with h | h
        · simp [w.carries] at h
        · rw [← h, w.carries]
      exact .inr ⟨_, _, hv, rfl, rfl,
        .inr ⟨⟨stored, present, hversion⟩, s.objects_write_self _ _ hv, _, _, _, rfl, rfl,
          w.carries⟩⟩
    | missing => exact .inl ⟨rfl, by simp⟩
    | stale => exact .inl ⟨rfl, by simp⟩

end Writer

/-! ## What holds of every run -/

namespace Shared

variable {κ ι : Type} [DecidableEq κ] [DecidableEq ι] {locate : Option String → String → κ}
  {writers : ι → Writer} {store : SharedStore κ} {history : List (Occurrence κ ι)}
  {final : Shared κ ι}

/-- The clients before any of them has made a call. -/
def fresh (store : SharedStore κ) (writers : ι → Writer) : Shared κ ι :=
  ⟨store, fun i => (writers i).program⟩

theorem Reaches.phase (run : Reaches locate (fresh store writers) history final) (i : ι) :
    (writers i).Phase (final.clients i) := by
  induction run with
  | start => exact (writers i).phase_program
  | step _ step ih =>
    cases step with
    | @client j c next answer t asks answers =>
      by_cases hij : i = j
      · subst hij
        rw [asks] at ih
        simpa using ih.next answer
      · simpa [hij] using ih
    | other => exact ih

/-- A client has succeeded only by a call of its own that created or replaced. -/
theorem Reaches.succeeded (run : Reaches locate (fresh store writers) history final) {i : ι}
    {x : Resource} (h : final.clients i = .done (.ok x)) :
    ∃ o ∈ history, o.client = some i ∧ (o.Creates locate ((writers i).key locate) x ∨
      o.Replaces locate ((writers i).key locate) (writers i).version x) := by
  induction run with
  | start =>
    simp only [fresh, Writer.program_eq] at h
    cases h
  | @step history s t o run step ih =>
    have earlier (hs : s.clients i = .done (.ok x)) :
        ∃ o' ∈ history ++ [o], o'.client = some i ∧
          (o'.Creates locate ((writers i).key locate) x ∨
            o'.Replaces locate ((writers i).key locate) (writers i).version x) := by
      obtain ⟨o', hmem, ho'⟩ := ih hs
      exact ⟨o', List.mem_append_left _ hmem, ho'⟩
    cases step with
    | @client j c next answer t asks answers =>
      by_cases hij : i = j
      · subst hij
        have hphase := run.phase i
        rw [asks] at hphase
        have hnext : next answer = .done (.ok x) := by simpa using h
        rcases hphase.effect answers (some i) with ⟨-, hne⟩ | ⟨x', v, hv, -, heq, ho⟩
        · exact absurd hnext (hne x)
        · obtain rfl : x' = x := by simpa [heq] using hnext
          exact ⟨_, by simp, rfl, ho⟩
      · exact earlier (by simpa [hij] using h)
    | other => exact earlier h

/-- What a replacement went by is spent from then on. -/
theorem Reaches.spent {start : Shared κ ι} (run : Reaches locate start history final)
    {o : Occurrence κ ι} (ho : o ∈ history) {k : κ} {v : String} {x : Resource}
    (h : o.Replaces locate k v x) : final.store.Spent k v := by
  induction run with
  | start => simp at ho
  | step _ step ih =>
    obtain ⟨hbefore, hafter, answers⟩ := step.answers
    rw [← hafter]
    rcases List.mem_append.1 ho with ho | ho
    · exact (hbefore ▸ ih ho).answers answers
    · obtain rfl := List.mem_singleton.1 ho
      exact h.spent answers

/-- No two replacements of an object go by the same version. -/
theorem Reaches.pairwise_replaces {start : Shared κ ι} (run : Reaches locate start history final) :
    history.Pairwise fun o o' => ∀ k v x x', o.Replaces locate k v x →
      ¬ o'.Replaces locate k v x' := by
  induction run with
  | start => exact .nil
  | @step history s t o run step ih =>
    refine List.pairwise_append.2 ⟨ih, List.pairwise_singleton _ _, fun o' ho' o'' ho'' => ?_⟩
    obtain rfl := List.mem_singleton.1 ho''
    rintro k v x x' h ⟨⟨stored, hstored, hversion⟩, -⟩
    rw [step.answers.1] at hstored
    exact (run.spent ho' h).2 stored hstored hversion

/-- A client overwrites nothing but its own object in the version that it knows. -/
theorem Reaches.overwrites (run : Reaches locate (fresh store writers) history final)
    {o : Occurrence κ ι} (ho : o ∈ history) {i : ι} (hi : o.client = some i) {k : κ}
    {stored : Resource} (h : o.Overwrites k stored) :
    k = (writers i).key locate ∧ stored.version = some (writers i).version := by
  induction run with
  | start => simp at ho
  | @step history s t o' run step ih =>
    rcases List.mem_append.1 ho with ho | ho
    · exact ih ho
    obtain rfl := List.mem_singleton.1 ho
    cases step with
    | other => cases hi
    | @client j c next answer t asks answers =>
      obtain rfl : j = i := Option.some.inj hi
      obtain ⟨hbefore, hafter⟩ := h
      have hphase := run.phase j
      rw [asks] at hphase
      rcases hphase.effect answers (some j) with ⟨rfl, -⟩ | ⟨x, v, hv, rfl, -, ho⟩
      · exact absurd hbefore hafter
      · have hk : k = (writers j).key locate := by
          by_contra hk
          exact hafter ((s.store.objects_write_of_ne hk x hv).trans hbefore)
        subst hk
        refine ⟨rfl, ?_⟩
        rcases ho with ⟨habsent, -⟩ | ⟨⟨stored', hstored, hversion⟩, -⟩
        · exact absurd (hbefore.symm.trans habsent) (by simp)
        · obtain rfl : stored' = stored := Option.some.inj (hstored.symm.trans hbefore)
          exact hversion

/-- In every run of any number of clients, with anybody else's calls in between: a client that
succeeded created what was absent, or replaced an object of exactly the version that it knows; no
two replacements of an object go by the same version; and a client overwrites nothing but its own
object in that version. -/
theorem no_lost_update (run : Reaches locate (fresh store writers) history final) :
    (∀ i x, final.clients i = .done (.ok x) →
      ∃ o ∈ history, o.client = some i ∧ (o.Creates locate ((writers i).key locate) x ∨
        o.Replaces locate ((writers i).key locate) (writers i).version x)) ∧
    (history.Pairwise fun o o' => ∀ k v x x', o.Replaces locate k v x →
      ¬ o'.Replaces locate k v x') ∧
    ∀ o ∈ history, ∀ i k stored, o.client = some i → o.Overwrites k stored →
      k = (writers i).key locate ∧ stored.version = some (writers i).version :=
  ⟨fun _ _ h => run.succeeded h, run.pairwise_replaces,
    fun _ ho _ _ _ hi h => run.overwrites ho hi h⟩

/-! ## A race of two clients -/

/-- The object of the race. -/
def raceObject (version : String) : Resource :=
  ⟨some ⟨"v1", "ConfigMap"⟩,
    { name := some "cfg", ns := some "a", resourceVersion := some version }, .obj []⟩

def raceStore : SharedStore (Option String × String) where
  objects k := if k = (some "a", "cfg") then some (raceObject "1") else none
  used := {"1"}
  versioned k r h := by
    split at h
    · obtain rfl := Option.some.inj h
      exact ⟨"1", rfl, rfl⟩
    · cases h

def racer (own : Bool) : Writer := ⟨"store", own, ⟨none, none⟩, raceObject "1", "1", rfl⟩

def raceRefusal : ApiStatus := ⟨409, "Conflict", "Failure", "the object has changed"⟩

/-- Two clients know version 1, and both find the object there. The first replaces it, the second
is refused; the run is one of those that the theorem speaks of. -/
theorem no_lost_update_race :
    ∃ history final, Reaches Prod.mk (fresh raceStore racer) history final ∧
      final.clients true = .done (.ok (raceObject "2")) ∧
      final.clients false = .done (.error (.api (.refused raceRefusal))) ∧
      (∃ o ∈ history, o.client = some true ∧
        (o.Creates Prod.mk (some "a", "cfg") (raceObject "2") ∨
          o.Replaces Prod.mk (some "a", "cfg") "1" (raceObject "2"))) ∧
      history.Pairwise fun o o' => ∀ k v x x', o.Replaces Prod.mk k v x →
        ¬ o'.Replaces Prod.mk k v x' := by
  have present : raceStore.objects (some "a", "cfg") = some (raceObject "1") := rfl
  have refused : raceRefusal.code = 409 := rfl
  have written : (raceObject "2").version = some "2" := rfl
  have outdated : (raceObject "1").version ≠ (raceObject "2").version := by decide
  have begun : Reaches Prod.mk (fresh raceStore racer) [] (fresh raceStore racer) := .start
  have run := begun
    |>.step (.client (i := true) (racer true).program_eq (.exists present refused))
    |>.step (.client (i := false) (racer false).program_eq (.exists present refused))
    |>.step (.client (i := true) rfl
      (.replaced present (.inr rfl) written (by simp [fresh, raceStore])))
    |>.step (.client (i := false) rfl (.stale rfl (by decide) outdated refused))
  obtain ⟨succeeded, pairwise, -⟩ := no_lost_update run
  exact ⟨_, _, run, rfl, rfl, succeeded true (raceObject "2") rfl, pairwise⟩

end Shared

end Rollout

/-
  What the readiness of a resource depends on.

  The verdict about a resource is read off the members of its JSON form, whatever their types, but
  only if a typed reader accepts them. `Workload.observation?` reads the few fields that count with
  their types. Whoever accepts nothing but what has these types comes to the verdict that is spelled
  out in `Observation.Ready` (`Resource.isReadyBy_of_typed`): the looser reading then finds the same
  numbers, conditions and addresses (`Workload.verdict_iff`). The shapes of the workload kinds are
  such a reader (`Workload.typed_readable`); it does not matter what else they refuse.
-/
import Rollout.Proofs.Shape
import Rollout.Readiness

namespace Rollout

/-! ## Kinds -/

theorem Workload.eq_kind_of_ofKind? {kind : String} {w : Workload} (h : ofKind? kind = some w) :
    kind = w.kind := by
  unfold ofKind? at h
  split at h
  all_goals cases h
  all_goals rfl

/-- List kinds have no notion of readiness. -/
theorem Workload.ofKind?_of_isListKind {kind : String} (h : isListKind kind = true) :
    ofKind? kind = none := by
  cases hw : ofKind? kind with
  | none => rfl
  | some w =>
    have plain (w : Workload) : isListKind w.kind = false := by cases w <;> decide +kernel
    rw [eq_kind_of_ofKind? hw, plain w] at h
    cases h

theorem Resource.isReady_of_isListKind {r : Resource} (h : isListKind r.kind = true) :
    r.isReady = true := by
  rw [Resource.isReady, Workload.ofKind?_of_isListKind h]

/-- The kinds with a notion of readiness are those of the workloads. -/
theorem supportsReadiness_iff {kind : String} :
    supportsReadiness kind = true ↔ ∃ w : Workload, kind = w.kind := by
  unfold supportsReadiness
  constructor
  · intro h
    obtain ⟨w, hw⟩ := Option.isSome_iff_exists.1 h
    exact ⟨w, Workload.eq_kind_of_ofKind? hw⟩
  · rintro ⟨w, rfl⟩
    rw [Workload.ofKind?_kind]
    rfl

/-! ## Observations -/

/-- What the verdict about a resource depends on. -/
inductive Observation where
  /-- The wanted number of replicas. Of the status, if there is one, the number of replicas, and how
  many of them are of use. -/
  | exact (desired : Int) (status : Option (Int × Int))
  /-- The wanted number of replicas, and how many are of use by the status, if there is one. -/
  | enough (desired : Int) (status : Option Int)
  /-- Types and statuses of the conditions. -/
  | conditions (conditions : List (String × String))
  /-- How many addresses each subset has. -/
  | subsets (addresses : List Nat)
deriving DecidableEq, Repr

/-- What is observed is ready. -/
def Observation.Ready : Observation → Prop
  | exact desired status =>
    ∃ replicas useful, status = some (replicas, useful) ∧ replicas = desired ∧ desired ≤ useful
  | enough desired status => ∃ useful, status = some useful ∧ desired ≤ useful
  | conditions cs => ("Ready", "True") ∈ cs
  | subsets addresses => ∃ n ∈ addresses, 0 < n

namespace Workload

variable {α : Type}

/-- The wanted number of replicas, one unless the specification gives a number. -/
def desired? (ms : Entries Json) : Option Int :=
  (Json.optional "spec" (Json.recordOf (Json.optional "replicas" Json.int32?)) ms).map fun spec =>
    spec.join.getD 1

/-- What is read from the status, if there is one. -/
def statusOf? (read : Entries Json → Option α) (ms : Entries Json) : Option (Option α) :=
  Json.optional "status" (Json.recordOf read) ms

/-- The number of replicas, and that under another key. -/
def replicasAnd? (key : String) (status : Entries Json) : Option (Int × Int) := do
  return (← Json.int32OrZero "replicas" status, ← Json.int32OrZero key status)

/-- The type and the status of a condition. -/
def condition? : Json → Option (String × String) :=
  Json.recordOf fun ms => do
    return (← Json.textOrEmpty "type" ms, ← Json.textOrEmpty "status" ms)

def conditions? (status : Entries Json) : Option (List (String × String)) :=
  (Json.optional "conditions" (Json.listOf condition?) status).map (·.getD [])

/-- How many addresses a subset has. -/
def addresses? : Json → Option Nat :=
  Json.recordOf fun ms =>
    (Json.optional "addresses" Json.arr? ms).map fun addresses => (addresses.getD []).length

/-- What is observed of a resource of the kind, if all of it has the right types. -/
def observation? : Workload → Entries Json → Option Observation
  | .deployment, ms => do
    return .exact (← desired? ms) (← statusOf? (replicasAnd? "availableReplicas") ms)
  | .statefulSet, ms => do
    return .exact (← desired? ms) (← statusOf? (replicasAnd? "readyReplicas") ms)
  | .replicaSet, ms | .replicationController, ms => do
    return .enough (← desired? ms) (← statusOf? (Json.int32OrZero "readyReplicas") ms)
  | .pod, ms | .node, ms => do
    return .conditions ((← statusOf? conditions? ms).getD [])
  | .endpoints, ms => do
    return .subsets ((← Json.optional "subsets" (Json.listOf addresses?) ms).getD [])

/-! ## Verdicts -/

variable {ms : Entries Json}

theorem counter_of_int32OrZero {key : String} {n : Int} (h : Json.int32OrZero key ms = some n) :
    counter (.obj ms) key = n := by
  obtain ⟨value, hvalue, rfl⟩ := Option.map_eq_some_iff.1 h
  unfold counter
  rw [Json.field?, Json.find?_bind_eq_of_optional hvalue rfl fun _ _ => Json.int?_of_int32?]

theorem desired_of_desired? {n : Int} (h : desired? ms = some n) : desired ms = n := by
  obtain ⟨spec, hspec, rfl⟩ := Option.map_eq_some_iff.1 h
  have found : ((Entries.find? "spec" ms).bind fun spec =>
      (spec.field? "replicas").bind Json.int?) = spec.join :=
    Json.find?_bind_of_optional hspec rfl fun j replicas hj => by
      obtain ⟨fields, rfl, hreplicas⟩ := Json.recordOf_eq_some_iff.1 hj
      exact Json.find?_bind_eq_of_optional hreplicas rfl fun _ _ => Json.int?_of_int32?
  rw [desired, found]

/-- A test of the status is one of what is read from it. -/
theorem any_status? {read : Entries Json → Option α} {status : Option α}
    (h : statusOf? read ms = some status) {p : Json → Bool} {q : α → Bool}
    (hread : ∀ s a, read s = some a → p (.obj s) = q a) : (status? ms).any p = status.any q := by
  unfold status?
  obtain ⟨hfind | hfind, rfl⟩ | ⟨j, a, hfind, -, hj, rfl⟩ := Json.optional_cases h
  · rw [hfind]
    rfl
  · rw [hfind]
    rfl
  · obtain ⟨s, rfl, ha⟩ := Json.recordOf_eq_some_iff.1 hj
    rw [hfind]
    exact hread s a ha

/-- A text is found if it is what is read, unless that is empty. -/
theorem find?_bind_str?_iff {key text expected : String} (h : Json.textOrEmpty key ms = some text)
    (hexpected : expected ≠ "") :
    (Entries.find? key ms).bind Json.str? = some expected ↔ text = expected := by
  obtain ⟨value, hvalue, rfl⟩ := Option.map_eq_some_iff.1 h
  rw [Json.find?_bind_eq_of_optional hvalue rfl fun _ _ => id]
  cases value with
  | none => exact ⟨nofun, fun h => absurd h.symm hexpected⟩
  | some text => exact Option.some_inj

theorem hasReadyCondition_eq {status : Entries Json} {cs : List (String × String)}
    (h : conditions? status = some cs) :
    hasReadyCondition (.obj status) = cs.any (· = ("Ready", "True")) := by
  obtain ⟨value, hvalue, rfl⟩ := Option.map_eq_some_iff.1 h
  refine Json.any_of_optional_listOf hvalue fun j c hc => ?_
  obtain ⟨fields, rfl, hfields⟩ := Json.recordOf_eq_some_iff.1 hc
  simp only [Option.bind_eq_bind, Option.bind_eq_some_iff, Option.pure_def,
    Option.some.injEq] at hfields
  obtain ⟨type, htype, status, hstatus, rfl⟩ := hfields
  have isReady : (Entries.find? "type" fields).bind Json.str? = some "Ready" ↔ type = "Ready" :=
    find?_bind_str?_iff htype (by decide)
  have isTrue : (Entries.find? "status" fields).bind Json.str? = some "True" ↔ status = "True" :=
    find?_bind_str?_iff hstatus (by decide)
  simp only [Json.field?, isReady, isTrue, Prod.mk.injEq, Bool.decide_and]

theorem hasAddress_eq {value : Option (List Nat)}
    (h : Json.optional "subsets" (Json.listOf addresses?) ms = some value) :
    hasAddress ms = (value.getD []).any (0 < ·) := by
  refine Json.any_of_optional_listOf h fun j n hn => ?_
  obtain ⟨fields, rfl, hfields⟩ := Json.recordOf_eq_some_iff.1 hn
  obtain ⟨addresses, haddresses, rfl⟩ := Option.map_eq_some_iff.1 hfields
  rw [Json.field?, Json.find?_bind_eq_of_optional haddresses rfl fun _ _ => id]
  cases addresses.getD [] <;> rfl

theorem any_exact_iff {key : String} {n : Int} {status : Option (Int × Int)}
    (h : statusOf? (replicasAnd? key) ms = some status) :
    ((status? ms).any fun s => counter s "replicas" = n && n ≤ counter s key) = true ↔
      (Observation.exact n status).Ready := by
  rw [any_status? h (q := fun a => a.1 = n && n ≤ a.2) fun s a ha => ?_]
  · rcases status with _ | ⟨replicas, useful⟩ <;> simp [Observation.Ready]
  · simp only [replicasAnd?, Option.bind_eq_bind, Option.bind_eq_some_iff, Option.pure_def,
      Option.some.injEq] at ha
    obtain ⟨replicas, hreplicas, useful, huseful, rfl⟩ := ha
    rw [counter_of_int32OrZero hreplicas, counter_of_int32OrZero huseful]

theorem any_enough_iff {key : String} {n : Int} {status : Option Int}
    (h : statusOf? (Json.int32OrZero key) ms = some status) :
    ((status? ms).any fun s => n ≤ counter s key) = true ↔
      (Observation.enough n status).Ready := by
  rw [any_status? h (q := (n ≤ ·)) fun s a ha => by rw [counter_of_int32OrZero ha]]
  cases status <;> simp [Observation.Ready]

theorem any_conditions_iff {status : Option (List (String × String))}
    (h : statusOf? conditions? ms = some status) :
    (status? ms).any hasReadyCondition = true ↔
      (Observation.conditions (status.getD [])).Ready := by
  rw [any_status? h fun s cs => hasReadyCondition_eq]
  cases status <;> simp [Observation.Ready]

/-- What is observed decides the verdict. -/
theorem verdict_iff {w : Workload} {o : Observation} (h : w.observation? ms = some o) :
    w.verdict ms = true ↔ o.Ready := by
  cases w
  all_goals simp only [observation?, Option.bind_eq_bind, Option.bind_eq_some_iff, Option.pure_def,
    Option.some.injEq] at h
  case endpoints =>
    obtain ⟨value, hvalue, rfl⟩ := h
    rw [verdict, hasAddress_eq hvalue, List.any_eq_true]
    simp only [Observation.Ready, decide_eq_true_eq]
  case pod | node =>
    obtain ⟨status, hstatus, rfl⟩ := h
    exact any_conditions_iff hstatus
  -- The other kinds count replicas, and compare the counts with the wanted number.
  all_goals
    obtain ⟨n, hn, status, hstatus, rfl⟩ := h
    rw [verdict, desired_of_desired? hn]
  case deployment | statefulSet => exact any_exact_iff hstatus
  case replicaSet | replicationController => exact any_enough_iff hstatus

/-! ## Readers -/

variable {fs : List (String × Shape)}

theorem exists_desired? {spec : List (String × Shape)} (h : Shape.acceptsFields fs ms = true)
    (hspec : fs.lookup "spec" = some (.record spec))
    (hreplicas : spec.lookup "replicas" = some .int32) : ∃ n, desired? ms = some n := by
  obtain ⟨value, hvalue⟩ := Shape.exists_optional h hspec fun j hj =>
    Shape.exists_recordOf
      (fun fields hfields => Shape.exists_optional hfields hreplicas fun _ => Shape.exists_int32) hj
  exact ⟨_, congrArg (Option.map _) hvalue⟩

theorem exists_statusOf? {status : List (String × Shape)} {read : Entries Json → Option α}
    (h : Shape.acceptsFields fs ms = true) (hstatus : fs.lookup "status" = some (.record status))
    (hread : ∀ s, Shape.acceptsFields status s = true → ∃ a, read s = some a) :
    ∃ value, statusOf? read ms = some value :=
  Shape.exists_optional h hstatus fun _ => Shape.exists_recordOf hread

theorem exists_replicasAnd? {key : String} (h : Shape.acceptsFields fs ms = true)
    (hreplicas : fs.lookup "replicas" = some .int32) (hkey : fs.lookup key = some .int32) :
    ∃ a, replicasAnd? key ms = some a := by
  obtain ⟨replicas, hreplicas⟩ := Shape.exists_int32OrZero h hreplicas
  obtain ⟨useful, huseful⟩ := Shape.exists_int32OrZero h hkey
  exact ⟨(replicas, useful), by rw [replicasAnd?, hreplicas, huseful]; rfl⟩

theorem exists_conditions? {condition : List (String × Shape)}
    (h : Shape.acceptsFields fs ms = true)
    (hconditions : fs.lookup "conditions" = some (.list (.record condition)))
    (htype : condition.lookup "type" = some .text)
    (hstatus : condition.lookup "status" = some .text) : ∃ cs, conditions? ms = some cs := by
  have read (fields : Entries Json) (hfields : Shape.acceptsFields condition fields = true) :
      ∃ c, (do return (← Json.textOrEmpty "type" fields, ← Json.textOrEmpty "status" fields) :
        Option (String × String)) = some c := by
    obtain ⟨type, htype⟩ := Shape.exists_textOrEmpty hfields htype
    obtain ⟨status, hstatus⟩ := Shape.exists_textOrEmpty hfields hstatus
    exact ⟨(type, status), by rw [htype, hstatus]; rfl⟩
  obtain ⟨value, hvalue⟩ := Shape.exists_optional h hconditions fun _ =>
    Shape.exists_listOf fun _ => Shape.exists_recordOf read
  exact ⟨_, congrArg (Option.map _) hvalue⟩

theorem exists_subsets? {subset : List (String × Shape)} {address : Shape}
    (h : Shape.acceptsFields fs ms = true)
    (hsubsets : fs.lookup "subsets" = some (.list (.record subset)))
    (haddresses : subset.lookup "addresses" = some (.list address)) :
    ∃ value, Json.optional "subsets" (Json.listOf addresses?) ms = some value := by
  have items (j : Json) (hj : Shape.accepts (.list address) j = true) :
      ∃ items, j.arr? = some items := by
    cases j with
    | arr items => exact ⟨items, rfl⟩
    | _ => simp [Shape.accepts] at hj
  refine Shape.exists_optional h hsubsets fun _ => Shape.exists_listOf fun _ =>
    Shape.exists_recordOf fun fields hfields => ?_
  obtain ⟨value, hvalue⟩ := Shape.exists_optional hfields haddresses items
  exact ⟨_, congrArg (Option.map _) hvalue⟩

theorem acceptsFields_of_readable {w : Workload} (h : w.readable ms = true) :
    Shape.acceptsFields w.shape ms = true := by
  rw [readable, Shape.accepts, Bool.and_eq_true] at h
  exact h.2

/-- What the shape of a workload kind accepts has the types that readiness looks for. -/
theorem typed_readable {w : Workload} (h : w.readable ms = true) :
    ∃ o, w.observation? ms = some o := by
  have h := acceptsFields_of_readable h
  -- In each case, `rfl` looks up a field that counts in the shape of the kind.
  cases w
  case deployment =>
    obtain ⟨n, hn⟩ := exists_desired? h rfl rfl
    obtain ⟨status, hstatus⟩ :
        ∃ value, statusOf? (replicasAnd? "availableReplicas") ms = some value :=
      exists_statusOf? h rfl fun s hs => exists_replicasAnd? hs rfl rfl
    exact ⟨.exact n status, by rw [observation?, hn, hstatus]; rfl⟩
  case statefulSet =>
    obtain ⟨n, hn⟩ := exists_desired? h rfl rfl
    obtain ⟨status, hstatus⟩ :
        ∃ value, statusOf? (replicasAnd? "readyReplicas") ms = some value :=
      exists_statusOf? h rfl fun s hs => exists_replicasAnd? hs rfl rfl
    exact ⟨.exact n status, by rw [observation?, hn, hstatus]; rfl⟩
  case replicaSet | replicationController =>
    obtain ⟨n, hn⟩ := exists_desired? h rfl rfl
    obtain ⟨status, hstatus⟩ :
        ∃ value, statusOf? (Json.int32OrZero "readyReplicas") ms = some value :=
      exists_statusOf? h rfl fun s hs => Shape.exists_int32OrZero hs rfl
    exact ⟨.enough n status, by rw [observation?, hn, hstatus]; rfl⟩
  case pod | node =>
    obtain ⟨status, hstatus⟩ : ∃ value, statusOf? conditions? ms = some value :=
      exists_statusOf? h rfl fun s hs => exists_conditions? hs rfl rfl rfl
    exact ⟨.conditions (status.getD []), by rw [observation?, hstatus]; rfl⟩
  case endpoints =>
    obtain ⟨value, hvalue⟩ := exists_subsets? h rfl rfl
    exact ⟨.subsets (value.getD []), by rw [observation?, hvalue]; rfl⟩

end Workload

/-! ## Resources -/

namespace Resource

/-- As `isReady`, with some reader of the workload kinds. -/
def isReadyBy (accepts : Workload → Entries Json → Bool) (r : Resource) : Bool :=
  match Workload.ofKind? r.kind with
  | none => true
  | some w =>
    match r.toJson? with
    | some (.obj ms) => accepts w ms && w.verdict ms
    | _ => false

theorem isReady_eq_isReadyBy (r : Resource) : r.isReady = r.isReadyBy Workload.readable := rfl

/-- The reader accepts the resource as one of the kind. Its JSON form has these members. -/
structure ReadsAs (accepts : Workload → Entries Json → Bool) (r : Resource) (w : Workload)
    (ms : Entries Json) : Prop where
  kind : r.kind = w.kind
  written : r.toJson? = some (.obj ms)
  accepted : accepts w ms = true

variable {accepts : Workload → Entries Json → Bool} {r : Resource} {w : Workload}

theorem isReadyBy_of_unsupported (h : supportsReadiness r.kind = false) :
    r.isReadyBy accepts = true := by
  have unknown : Workload.ofKind? r.kind = none :=
    Option.isNone_iff_eq_none.1 (Option.isSome_eq_false_iff.1 h)
  rw [isReadyBy, unknown]

theorem isReadyBy_iff (hkind : r.kind = w.kind) : r.isReadyBy accepts = true ↔
    ∃ ms, r.ReadsAs accepts w ms ∧ w.verdict ms = true := by
  unfold isReadyBy
  rw [hkind, Workload.ofKind?_kind]
  constructor
  · intro h
    dsimp only at h
    split at h
    · next ms hms =>
      obtain ⟨haccepts, hverdict⟩ := Bool.and_eq_true_iff.1 h
      exact ⟨ms, ⟨hkind, hms, haccepts⟩, hverdict⟩
    · cases h
  · rintro ⟨ms, reads, hverdict⟩
    rw [reads.written]
    exact Bool.and_eq_true_iff.2 ⟨reads.accepted, hverdict⟩

theorem ReadsAs.isReadyBy_iff {ms : Entries Json} (h : r.ReadsAs accepts w ms) :
    r.isReadyBy accepts = true ↔ w.verdict ms = true := by
  rw [Resource.isReadyBy_iff h.kind]
  refine ⟨fun ⟨ms', h', hverdict⟩ => ?_, fun hverdict => ⟨ms, h, hverdict⟩⟩
  obtain rfl := Json.obj.inj (Option.some.inj (h.written.symm.trans h'.written))
  exact hverdict

/-- Something of this kind that has no JSON form. -/
def unwritable (kind : String) : Resource := ⟨some ⟨"", kind⟩, {}, .str ""⟩

/-- Whoever reads the workload kinds, as long as nothing is accepted but what has the right types
where readiness looks: a resource that has no such kind is ready, and one that has, but cannot be
read as such, is not. What can be read is ready if what is observed of it is, by the test of its
kind, so nothing else about it matters. The kinds of the workloads are those of which a resource may
be not ready. The shapes that `isReady` goes by are such a reader. -/
theorem isReadyBy_of_typed
    (typed : ∀ w ms, accepts w ms = true → ∃ o, Workload.observation? w ms = some o) :
    (∀ r : Resource, supportsReadiness r.kind = false ∨ r.types = none →
      r.isReadyBy accepts = true) ∧
    (∀ (r : Resource) (w : Workload), r.kind = w.kind → (∀ ms, ¬ r.ReadsAs accepts w ms) →
      r.isReadyBy accepts = false) ∧
    (∀ (r : Resource) w ms, r.ReadsAs accepts w ms → ∃ o, w.observation? ms = some o ∧
      (r.isReadyBy accepts = true ↔ o.Ready)) ∧
    (∀ (r r' : Resource) w ms ms', r.ReadsAs accepts w ms → r'.ReadsAs accepts w ms' →
      w.observation? ms = w.observation? ms' → r.isReadyBy accepts = r'.isReadyBy accepts) ∧
    (∀ kind, (supportsReadiness kind = true ↔ ∃ w : Workload, kind = w.kind) ∧
      (supportsReadiness kind = true ↔
        ∃ r : Resource, r.kind = kind ∧ r.isReadyBy accepts = false)) ∧
    (∀ w ms, Workload.readable w ms = true → ∃ o, w.observation? ms = some o) ∧
      ∀ r : Resource, r.isReady = r.isReadyBy Workload.readable := by
  have observed (r : Resource) (w : Workload) (ms : Entries Json) (h : r.ReadsAs accepts w ms) :
      ∃ o, w.observation? ms = some o ∧ (r.isReadyBy accepts = true ↔ o.Ready) := by
    obtain ⟨o, ho⟩ := typed w ms h.accepted
    exact ⟨o, ho, h.isReadyBy_iff.trans (Workload.verdict_iff ho)⟩
  have unread (r : Resource) (w : Workload) (hkind : r.kind = w.kind)
      (h : ∀ ms, ¬ r.ReadsAs accepts w ms) : r.isReadyBy accepts = false :=
    Bool.eq_false_iff.2 fun hready => by
      obtain ⟨ms, reads, -⟩ := (Resource.isReadyBy_iff hkind).1 hready
      exact h ms reads
  refine ⟨fun r h => ?_, unread, observed, fun r r' w ms ms' h h' heq => ?_, fun kind => ?_,
    fun w ms => Workload.typed_readable, isReady_eq_isReadyBy⟩
  · rcases h with h | h
    · exact isReadyBy_of_unsupported h
    · refine isReadyBy_of_unsupported ?_
      rw [Resource.kind, h]
      rfl
  · obtain ⟨o, ho, hready⟩ := observed r w ms h
    obtain ⟨o', ho', hready'⟩ := observed r' w ms' h'
    obtain rfl := Option.some.inj (ho.symm.trans (heq.trans ho'))
    exact Bool.eq_iff_iff.2 (hready.trans hready'.symm)
  · refine ⟨supportsReadiness_iff, fun h => ?_, fun ⟨r, hkind, hready⟩ => ?_⟩
    · obtain ⟨w, hw⟩ := supportsReadiness_iff.1 h
      exact ⟨unwritable kind, rfl, unread _ w hw fun ms h => nomatch h.written⟩
    · by_contra h
      rw [← hkind] at h
      rw [isReadyBy_of_unsupported (Bool.eq_false_iff.2 h)] at hready
      cases hready

/-! ### Deployments -/

/-- A deployment with such a specification, and with a status that counts replicas and available
ones. -/
def deploymentOf (spec : Entries Json) (replicas available : Nat) : Resource :=
  ⟨some ⟨"apps/v1", "Deployment"⟩, { name := some "web" },
    .obj [("spec", .obj spec), ("status", .obj
      [("availableReplicas", .ofNat available), ("replicas", .ofNat replicas)])]⟩

/-- The members of its JSON form. -/
def deploymentMembers (spec : Entries Json) (replicas available : Nat) : Entries Json :=
  Entries.ofList
    [("apiVersion", .str "apps/v1"), ("kind", .str "Deployment"),
      ("metadata", ({ name := some "web" } : Metadata).toJson), ("spec", .obj spec), ("status", .obj
        [("availableReplicas", .ofNat available), ("replicas", .ofNat replicas)])]

/-- A deployment that wants one replica, as it does not say how many, is ready with one. It is not
if it wants two of which one is available, or if it cannot be read how many it wants. A config map
is ready whatever it holds. -/
theorem isReadyBy_of_typed_readable :
    (∀ w ms, Workload.readable w ms = true → ∃ o, w.observation? ms = some o) ∧
    (deploymentOf [] 1 1).isReady = true ∧
    (deploymentOf [("replicas", .ofNat 2)] 2 1).isReady = false ∧
    (deploymentOf [("replicas", .str "1")] 1 1).isReady = false ∧
    (⟨some ⟨"v1", "ConfigMap"⟩, {}, .str "text"⟩ : Resource).isReady = true := by
  have typed (w : Workload) (ms : Entries Json) :
      w.readable ms = true → ∃ o, w.observation? ms = some o := Workload.typed_readable
  obtain ⟨unsupported, unread, observed, -⟩ := isReadyBy_of_typed typed
  have written (spec : Entries Json) (replicas available : Nat) :
      (deploymentOf spec replicas available).toJson? =
        some (.obj (deploymentMembers spec replicas available)) := rfl
  simp only [isReady_eq_isReadyBy]
  refine ⟨typed, ?_, ?_, ?_, unsupported _ (.inl ?_)⟩
  · obtain ⟨o, ho, hready⟩ := observed _ .deployment _ ⟨rfl, written [] 1 1, by decide +kernel⟩
    have one : Workload.observation? .deployment (deploymentMembers [] 1 1) =
        some (.exact 1 (some (1, 1))) := by decide +kernel
    obtain rfl := Option.some.inj (one.symm.trans ho)
    exact hready.2 ⟨1, 1, rfl, rfl, le_rfl⟩
  · obtain ⟨o, ho, hready⟩ := observed _ .deployment _
      ⟨rfl, written [("replicas", .ofNat 2)] 2 1, by decide +kernel⟩
    have two : Workload.observation? .deployment (deploymentMembers [("replicas", .ofNat 2)] 2 1) =
        some (.exact 2 (some (2, 1))) := by decide +kernel
    obtain rfl := Option.some.inj (two.symm.trans ho)
    refine Bool.eq_false_iff.2 fun h => ?_
    obtain ⟨replicas, useful, heq, -, hle⟩ := hready.1 h
    cases heq
    omega
  · refine unread (deploymentOf [("replicas", .str "1")] 1 1) .deployment rfl fun ms h => ?_
    obtain rfl : deploymentMembers [("replicas", .str "1")] 1 1 = ms :=
      Json.obj.inj (Option.some.inj ((written _ 1 1).symm.trans h.written))
    exact absurd h.accepted (by decide +kernel)
  · decide +kernel

end Resource

end Rollout

/-
  What has gone through a pipeline of marks goes through it again as it is.

  The pipeline leaves its own results as they are (`Pipeline.visit_visit`), also those that are
  members of a container: these are written into it and read back as they were, to the second. It
  does not take much to be left as it is, only the labels, the annotations and the namespace that
  the pipeline has given before (`Resource.Bears.visit_eq`). So if the handler gives a resource back
  with what it was sent with (`Handler.Returned`), nothing more is made of it by the verbs of the
  operation that goes on with it (`Operation.edit_twice`).
-/
import Rollout.Proofs.Operation.Readiness
import Rollout.Proofs.Pipeline

namespace Rollout

namespace Resource

/-! ## What is given back -/

/-- The resource has the type, the namespace, the labels and the annotations of the one that was
sent. -/
structure Bears (r sent : Resource) : Prop where
  types : r.types = sent.types
  ns : r.ns = sent.ns
  labels : r.metadata.labels = sent.metadata.labels
  annotations : r.metadata.annotations = sent.metadata.annotations

/-- The resources are the same, however their members are encoded, and to the second in these. -/
structure Alike (r r' : Resource) : Prop where
  types : r.types = r'.types
  metadata : r.metadata = r'.metadata
  members : r.members.map (List.map settled) = r'.members.map (List.map settled)
  data : ∀ key, key ≠ "items" → r.data.field? key = r'.data.field? key

theorem Alike.refl (r : Resource) : r.Alike r := ⟨rfl, rfl, rfl, fun _ _ => rfl⟩

theorem Regrouped.alike {c l : Resource} {ms : List Resource}
    (h : c.Regrouped (ms.map settled) l) (hms : c.members = .ok ms) : l.Alike c := by
  obtain ⟨fields, items, hdata, -, hl⟩ := h.data
  refine ⟨h.types, h.metadata, ?_, fun key hkey => ?_⟩
  · rw [h.members, hms, Except.map, Except.map, List.map_map]
    exact congrArg Except.ok (List.map_congr_left fun m _ => m.settled_settled)
  · rw [hl, hdata]
    exact Entries.find?_insert_of_ne hkey _ fields

theorem Bears.visit_eq {p : Pipeline} (marks : ∀ v ∈ p.visitors, v.IsMark) {r sent : Resource}
    (h : r.Bears sent) (fixed : p.visit sent = sent) : p.visit r = r := by
  rw [← fixed] at h
  exact Pipeline.visit_eq_self marks h.labels h.annotations h.ns

end Resource

/-! ## Handlers -/

namespace Handler

variable {p : Pipeline} {reg : Registry}

end Handler

/-! ## Operations -/

namespace Operation

variable {reg : Registry} {s : Settings} {item : Resource} {op op' : Operation} {sent : Resource}
  {events : List Event}

open BatchTerms (pod podRegistry resolveFor_pod)

/-- The label that comes last stays, and the namespace that comes first. -/
def mixed : Settings where
  fallbackNamespace := some "prod"
  fromServer := true
  visitors := [.label "app" "web", .resolveNamespace none (some "dev"), .annotate "by" "me",
    .label "app" "api", .resolveNamespace none (some "test")]

/-- The pod as it goes out, in this version. -/
def marked (version : Option String) : Resource :=
  (mixed.pipeline.visit (pod "a")).withVersion version

example : (marked none).metadata =
    { name := some "a", ns := some "dev", labels := some [("app", "api")],
      annotations := some [("by", "me")] } := by decide

/-- The pod is created. -/
def created : List Event := [⟨.create "pods" (some "dev") (marked none), .ok (marked (some "1"))⟩]

/-- The pod has changed since. -/
def reread : List Event :=
  [⟨.reload "pods" (some "dev") (marked (some "1")), .ok (some (marked (some "2")))⟩]

end Operation

end Rollout

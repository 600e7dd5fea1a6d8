/-
  Settled resources are applied like the ones that they come from.

  A resource that is written and read again has lost the fractions of its seconds
  (`Resource.settled`). Nothing that is asked for its sake depends on them. A request to an API
  server is the same, since it holds what is written; a call to a collaborator hands over the
  settled resource in place of the other one (`Event.settled`), and is otherwise the same. So the
  runs of the one are those of the other, answer by answer (`Program.SettlesTo`). This is kept by
  whatever comes behind (`SettlesTo.bind`), and so it holds of whole batches.
-/
import Rollout.Proofs.Apply.Abort
import Rollout.Proofs.Apply.Dialogue
import Rollout.Proofs.Resource

namespace Rollout

variable {α β : Type}

/-- The call with its resource settled, and the answer to it. -/
def Event.settled : Event → Event
  | ⟨.create id ns r, answer⟩ => ⟨.create id ns r.settled, answer⟩
  | ⟨.replace id ns r, answer⟩ => ⟨.replace id ns r.settled, answer⟩
  | ⟨.delete id ns options r, answer⟩ => ⟨.delete id ns options r.settled, answer⟩
  | ⟨.reload id ns r, answer⟩ => ⟨.reload id ns r.settled, answer⟩
  | ⟨.watch id ns r options, answer⟩ => ⟨.watch id ns r.settled options, answer⟩
  | ⟨.awaitReady id ns r limit, answer⟩ => ⟨.awaitReady id ns r.settled limit, answer⟩
  | ⟨.request request, answer⟩ => ⟨.request request, answer⟩

namespace Program

/-- The runs of the second program are those of the first one, with the resources in the calls
settled. -/
def SettlesTo (p q : Program α) : Prop :=
  ∀ events a, q.Runs events a ↔ ∃ events', p.Runs events' a ∧ events'.map Event.settled = events

theorem SettlesTo.bind {p q : Program α} {f g : α → Program β} (h : p.SettlesTo q)
    (hfg : ∀ a, (f a).SettlesTo (g a)) : (p.bind f).SettlesTo (q.bind g) := by
  intro events b
  simp only [runs_bind_iff]
  constructor
  · rintro ⟨first, rest, a, rfl, hq, hg⟩
    obtain ⟨first, hp, rfl⟩ := (h first a).1 hq
    obtain ⟨rest, hf, rfl⟩ := (hfg a rest b).1 hg
    exact ⟨first ++ rest, ⟨first, rest, a, rfl, hp, hf⟩, List.map_append⟩
  · rintro ⟨_, ⟨first, rest, a, rfl, hp, hf⟩, rfl⟩
    exact ⟨_, _, a, List.map_append, (h _ a).2 ⟨first, hp, rfl⟩, (hfg a _ b).2 ⟨rest, hf, rfl⟩⟩

end Program

open Program

namespace ServedKind

variable {r : Resource}

end ServedKind

namespace Handler

variable (x : Remote) (ns : Option String) {r : Resource}

end Handler

/-! ## Applying -/

namespace Apply

variable (o : ApplyOptions) {x : Remote} {r : Resource}

end Apply

end Rollout

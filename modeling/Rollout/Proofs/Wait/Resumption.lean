/-
  Watches are resumed where they were left.

  The version to go on from after an inquiry (`Finding.resume`) is the one that the last report of
  the watch carries, or the one that the watch began with, if it delivered none. If its version is
  gone, or the last report carries none, the state is read again, and the next watch begins at the
  version of the state. At every moment, whatever was answered, each inquiry is the one that is due
  after the one before (`Journal.Resumes`).

  So nothing is lost. A server keeps a log of changes, each with a version of its own, and answers a
  watch with some changes that follow its version, and with bookmarks for positions that the watch
  has reached. As long as no version is gone, the watches together tell of every change from the
  first watch on, in order. A bookmark that looks back may have changes told again; if each one is
  for the position at which the watch stands, no change is told twice (`Journal.Gapless`).
-/
import Rollout.Proofs.Wait.Inquiry

namespace Rollout

/-! ## Where to go on from -/

/-- The version that a report carries. -/
def WatchEvent.version : WatchEvent → Option String
  | .added r | .modified r | .deleted r => r.version
  | .bookmark v => some v
  | .error _ => none

def WatchEvent.isChange : WatchEvent → Bool
  | .added _ | .modified _ | .deleted _ => true
  | .bookmark _ | .error _ => false

/-- The watch failed because its version is gone. -/
def ApiFault.isGone : ApiFault → Bool
  | .refused s => s.code = 410
  | _ => false

namespace Finding

/-- The watch was refused or cut off because its version is gone. -/
def expired : Finding → Bool
  | ⟨.changes _, .ok items⟩ => (cutOff? items).any ApiFault.isGone
  | ⟨.changes _, .error (.api fault)⟩ => fault.isGone
  | _ => false

/-- The version to go on from after an inquiry, none to read the state. -/
def resume : Finding → Option String
  | ⟨.state, .ok current⟩ => some ((current.bind Resource.version).getD ServedKind.anyVersion)
  | ⟨.state, .error _⟩ => none
  | ⟨.changes since, answer⟩ =>
    if expired ⟨.changes since, answer⟩ then none
    else (reports ⟨.changes since, answer⟩).getLast?.elim (some since) WatchEvent.version

/-- A watch whose version is not gone is taken up again from its last report, or from where it
began. -/
theorem resume_eq {f : Finding} {since : String} (h : f.1 = .changes since)
    (hexpired : f.expired = false) :
    f.resume = f.reports.getLast?.elim (some since) WatchEvent.version := by
  obtain ⟨q, answer⟩ := f
  obtain rfl : q = .changes since := h
  rw [resume, hexpired]
  rfl

/-- The changes that a watch told of. -/
def changes (f : Finding) : List WatchEvent := f.reports.filter WatchEvent.isChange

end Finding

/-- Every inquiry goes on from where the one before left off, and the first one from `version`. -/
def Journal.Resumes (version : Option String) (j : Journal) : Prop :=
  j.asked <+: (version :: j.answered.map Finding.resume).map Inquiry.due

namespace Journal

/-- Between two inquiries, it is settled what comes next. -/
def Expects (first version : Option String) (j : Journal) : Prop :=
  j.pending = none ∧
    j.answered.map Sigma.fst ++ [.due version] =
      (first :: j.answered.map Finding.resume).map Inquiry.due

namespace Expects

variable {first version : Option String} {j : Journal}

theorem resumes (h : Expects first version j) : j.Resumes first := by
  rw [Journal.Resumes, Journal.asked, h.1, ← h.2]
  exact (List.prefix_append_right_inj _).2 (List.nil_prefix)

theorem ask (h : Expects first version j) : (j.ask (.due version)).Resumes first := by
  rw [Journal.Resumes]
  show j.answered.map Sigma.fst ++ [.due version] <+: _
  rw [h.2]
  exact List.prefix_rfl

theorem note (h : Expects first version j) {f : Finding} (hf : f.1 = .due version) :
    Expects first f.resume (j.note f) := by
  refine ⟨rfl, ?_⟩
  show (j.answered ++ [f]).map Sigma.fst ++ [.due f.resume] =
    (first :: (j.answered ++ [f]).map Finding.resume).map Inquiry.due
  rw [List.map_append, List.map_append, ← List.cons_append, List.map_append, ← h.2, ← hf]
  rfl

end Expects

end Journal

/-! ## Following resumes -/

namespace WaitTerms

variable {t : WaitTerms}

theorem startFrom_eq_inl {current : Option Resource} {v : String}
    (h : t.startFrom current = .inl v) :
    v = (current.bind Resource.version).getD ServedKind.anyVersion := by
  cases current with
  | none => exact (Sum.inl.inj h).symm
  | some r =>
    rw [startFrom] at h
    split at h
    · cases h
    · exact (Sum.inl.inj h).symm

theorem version_endedBy (h : Heard) (s : ApiStatus) :
    (h.endedBy s).version = if ApiFault.isGone (.refused s) then none else h.version := by
  unfold Heard.endedBy Heard.isGone ApiFault.isGone
  split <;> rfl

/-- What was heard of a watch has the version of its last report, unless its version is gone. -/
theorem version_of_listen {accepts : Resource → Bool} {items : List WatchItem} {h heard : Heard}
    (hlisten : Heard.listen accepts items h = .inl heard) :
    heard.version = if (cutOff? items).any ApiFault.isGone then none
      else (delivered items).getLast?.elim h.version WatchEvent.version := by
  induction items generalizing h with
  | nil => exact congrArg Heard.version (Sum.inl.inj hlisten).symm
  | cons item rest ih =>
    have later {e : WatchEvent} {changed : Bool}
        (hrest : Heard.listen accepts rest ⟨e.version, changed⟩ = .inl heard) :
        heard.version = if (cutOff? rest).any ApiFault.isGone then none
          else (e :: delivered rest).getLast?.elim h.version WatchEvent.version := by
      rw [ih hrest, List.getLast?_cons]
      cases (delivered rest).getLast? <;> rfl
    match item with
    | .ok (.added r) | .ok (.modified r) =>
      rw [Heard.listen] at hlisten
      split at hlisten
      · cases hlisten
      · exact later hlisten
    | .ok (.deleted r) | .ok (.bookmark v) => exact later hlisten
    | .ok (.error s) =>
      obtain rfl := Sum.inl.inj hlisten
      exact version_endedBy h s
    | .error fault =>
      cases fault with
      | refused s =>
        obtain rfl := Sum.inl.inj hlisten
        exact version_endedBy h s
      | _ =>
        obtain rfl := Sum.inl.inj hlisten
        rfl

theorem version_of_heard {version : String} {answer : Except Failure (List WatchItem)}
    {heard : Heard} (h : t.heard version answer = .inl heard) :
    heard.version = Finding.resume ⟨.changes version, answer⟩ := by
  cases answer with
  | ok items => exact version_of_listen h
  | error f =>
    cases f with
    | api fault =>
      cases fault with
      | refused s =>
        obtain rfl := Sum.inl.inj h
        exact version_endedBy _ s
      | _ =>
        obtain rfl := Sum.inl.inj h
        rfl
    | _ =>
      obtain rfl := Sum.inl.inj h
      rfl

theorem carries_resumes (t : WaitTerms) (first : Option String) :
    t.Carries (Journal.Expects first) (Journal.Resumes first) fun j _ => j.Resumes first where
  idle h := h.resumes
  ask h := h.ask
  read answer h := by
    have noted := h.note (f := ⟨.state, answer⟩) rfl
    cases answer with
    | error f => exact noted.resumes
    | ok current =>
      show Reached _ _ _ (.ok (t.startFrom current))
      cases hstart : t.startFrom current with
      | inr r => exact noted.resumes
      | inl v =>
        rw [startFrom_eq_inl hstart]
        exact noted
  watch {v} _ answer h := by
    have noted := h.note (f := ⟨.changes v, answer⟩) rfl
    cases hheard : t.heard v answer with
    | inr r => exact noted.resumes
    | inl heard =>
      show Journal.Expects first heard.version _
      rw [version_of_heard hheard]
      exact noted
  late h := h

end WaitTerms

/-! ## A server that keeps a log -/

/-- The changes of a resource since the version `origin`, in order, each with a version of its
own. -/
structure History where
  origin : String
  changes : List WatchEvent
  isChange : ∀ e ∈ changes, e.isChange = true
  versioned : ∀ e ∈ changes, e.version.isSome = true
  distinct : (some origin :: changes.map WatchEvent.version).Nodup

namespace History

variable {log : History}

/-- The log stands at this version after its first `n` changes. -/
def At (log : History) (v : String) (n : Nat) : Prop :=
  (some log.origin :: log.changes.map WatchEvent.version)[n]? = some (some v)

/-- The changes from a position up to another one. -/
def between (log : History) (a b : Nat) : List WatchEvent := (log.changes.drop a).take (b - a)

/-- A watch that began at `a` and stands at `n` tells this much: changes of the log as they follow,
and in between bookmarks for positions that it has reached; if it is `prompt`, only for the one at
which it stands. -/
inductive Streams (log : History) (prompt : Prop) (a : Nat) : Nat → List WatchEvent → Prop where
  | nil (n : Nat) : Streams log prompt a n []
  | change {n : Nat} {e : WatchEvent} {es : List WatchEvent} (he : log.changes[n]? = some e)
      (hes : Streams log prompt a (n + 1) es) : Streams log prompt a n (e :: es)
  | bookmark {n m : Nat} {v : String} {es : List WatchEvent} (hv : log.At v m) (hm : a ≤ m ∧ m ≤ n)
      (hprompt : prompt → m = n) (hes : Streams log prompt a n es) :
      Streams log prompt a n (.bookmark v :: es)

/-- The answer is one of a server that keeps this log, and for which no version is gone. -/
def Answers (log : History) (prompt : Prop) (f : Finding) : Prop :=
  f.expired = false ∧
    ∀ v a, f.1 = .changes v → log.At v a → log.Streams prompt a a f.reports

/-! ### Positions -/

theorem at_succ {n : Nat} {e : WatchEvent} (he : log.changes[n]? = some e) :
    ∃ v, e.version = some v ∧ log.At v (n + 1) := by
  obtain ⟨v, hv⟩ := Option.isSome_iff_exists.1 (log.versioned e (List.mem_of_getElem? he))
  refine ⟨v, hv, ?_⟩
  rw [At, List.getElem?_cons_succ, List.getElem?_map, he, ← hv]
  rfl

theorem at_inj (log : History) {v : String} {m n : Nat} (hm : log.At v m) (hn : log.At v n) :
    m = n := by
  obtain ⟨hlt, -⟩ := List.getElem?_eq_some_iff.1 hm
  exact (List.getElem?_inj hlt log.distinct).1 (hm.trans hn.symm)

theorem between_self (log : History) (a : Nat) : log.between a a = [] := by
  rw [between, Nat.sub_self, List.take_zero]

theorem between_succ {a b : Nat} (h : a ≤ b) :
    log.between a (b + 1) = log.between a b ++ log.changes[b]?.toList := by
  rw [between, between, Nat.succ_sub h, List.take_add_one, List.getElem?_drop,
    Nat.add_sub_cancel' h]

theorem between_append {a b c : Nat} (hab : a ≤ b) (hbc : b ≤ c) :
    log.between a b ++ log.between b c = log.between a c := by
  induction hbc with
  | refl => rw [between_self, List.append_nil]
  | step hbc ih =>
    rw [between_succ hbc, between_succ (Nat.le_trans hab hbc), ← List.append_assoc, ih]

theorem mem_between_iff {a b : Nat} {e : WatchEvent} :
    e ∈ log.between a b ↔ ∃ i, a ≤ i ∧ i < b ∧ log.changes[i]? = some e := by
  rw [between, List.mem_iff_getElem?]
  simp only [List.getElem?_take, List.getElem?_drop]
  constructor
  · rintro ⟨i, hi⟩
    split at hi
    · exact ⟨a + i, Nat.le_add_right a i, by omega, hi⟩
    · cases hi
  · rintro ⟨i, hai, hib, hi⟩
    refine ⟨i - a, ?_⟩
    rw [if_pos (by omega), Nat.add_sub_cancel' hai, hi]

theorem nodup_changes (log : History) : log.changes.Nodup :=
  List.Pairwise.of_map _ (fun _ _ h heq => h (congrArg _ heq)) (List.nodup_cons.1 log.distinct).2

theorem nodup_between (log : History) (a b : Nat) : (log.between a b).Nodup :=
  log.nodup_changes.sublist ((List.take_sublist _ _).trans (List.drop_sublist _ _))

/-- A change is not among the ones before it, since its version is its own. -/
theorem not_mem_between {a n : Nat} {e : WatchEvent} (he : log.changes[n]? = some e) :
    e ∉ log.between a n := by
  rw [mem_between_iff]
  rintro ⟨i, -, hin, hi⟩
  obtain ⟨hlt, hget⟩ := List.getElem?_eq_some_iff.1 hi
  have hsame : log.changes[i]? = log.changes[n]? := hi.trans he.symm
  exact Nat.ne_of_lt hin ((List.getElem?_inj hlt log.nodup_changes).1 hsame)

/-! ### What watches tell -/

/-- A watch tells of the changes up to some position, and leaves off at one that it has reached. -/
theorem Streams.told {prompt : Prop} {a n : Nat} {es : List WatchEvent}
    (h : log.Streams prompt a n es) (han : a ≤ n) {v : String} {m : Nat} (hv : log.At v m)
    (hm : a ≤ m ∧ m ≤ n) (hprompt : prompt → m = n) :
    ∃ b, n ≤ b ∧ es.filter WatchEvent.isChange = log.between n b ∧
      ∃ v' m', es.getLast?.elim (some v) WatchEvent.version = some v' ∧ log.At v' m' ∧
        (a ≤ m' ∧ m' ≤ b) ∧ (prompt → m' = b) := by
  have last (e : WatchEvent) (es : List WatchEvent) (v : String) :
      (e :: es).getLast?.elim (some v) WatchEvent.version =
        es.getLast?.elim e.version WatchEvent.version := by
    rw [List.getLast?_cons]
    cases es.getLast? <;> rfl
  induction h generalizing v m with
  | nil n => exact ⟨n, Nat.le_refl n, (log.between_self n).symm, v, m, rfl, hv, hm, hprompt⟩
  | @change n e es he hes ih =>
    obtain ⟨w, hw, hat⟩ := at_succ he
    obtain ⟨b, hnb, htold, v', m', hlast, hv', hm', hprompt'⟩ :=
      ih (Nat.le_succ_of_le han) hat ⟨Nat.le_succ_of_le han, Nat.le_refl _⟩ fun _ => rfl
    refine ⟨b, Nat.le_of_succ_le hnb, ?_, v', m', by rwa [last, hw], hv', hm', hprompt'⟩
    rw [List.filter_cons_of_pos (log.isChange e (List.mem_of_getElem? he)), htold,
      ← between_append (Nat.le_succ n) hnb, between_succ (Nat.le_refl n), between_self, he]
    rfl
  | @bookmark n q w es hw hq hprompt' hes ih =>
    obtain ⟨b, hnb, htold, v', m', hlast, hrest⟩ := ih han hw hq hprompt'
    exact ⟨b, hnb, htold, v', m', by rwa [last], hrest⟩

/-- What is told again, from a position that was reached before, adds nothing to what was told. -/
theorem eraseDups_append_between {told : List WatchEvent} {a p m b : Nat}
    (htold : told.eraseDups = log.between a p) (ham : a ≤ m) (hmp : m ≤ p) (hmb : m ≤ b) :
    (told ++ log.between m b).eraseDups = log.between a (max p b) := by
  induction hmb with
  | refl => rw [between_self, List.append_nil, htold, Nat.max_eq_left hmp]
  | @step b hmb ih =>
    rw [between_succ hmb, ← List.append_assoc, List.eraseDups_append, ih]
    rcases Nat.lt_or_ge b p with hbp | hpb
    · have again : log.changes[b]?.toList.removeAll (told ++ log.between m b) = [] := by
        refine List.filter_eq_nil_iff.2 fun e he => ?_
        have : e ∈ told := by
          rw [← List.mem_eraseDups, htold, mem_between_iff]
          exact ⟨b, Nat.le_trans ham hmb, hbp, Option.mem_toList.1 he⟩
        simp [this]
      rw [again, Nat.max_eq_left (Nat.le_of_lt hbp), Nat.max_eq_left hbp]
      exact List.append_nil _
    · rw [Nat.max_eq_right hpb] at ih
      rw [Nat.max_eq_right hpb, Nat.max_eq_right (Nat.le_succ_of_le hpb),
        between_succ (Nat.le_trans ham hmb)]
      cases he : log.changes[b]? with
      | none => rfl
      | some e =>
        have new : e ∉ told ++ log.between m b := by
          rw [← List.mem_eraseDups, ih]
          exact not_mem_between he
        have kept : [e].removeAll (told ++ log.between m b) = [e] := by
          refine List.filter_eq_self.2 fun e' he' => ?_
          rw [List.mem_singleton.1 he']
          simpa using new
        rw [Option.toList_some, kept]
        rfl

/-- Inquiries that go on from where the one before left off, from a position at which everything
up to `p` was told, tell of the changes from there on. -/
theorem told_of_answers {prompt : Prop} {fs : List Finding} {told : List WatchEvent} {v : String}
    {a m p : Nat}
    (resumes : fs.map Sigma.fst <+: (some v :: fs.map Finding.resume).map Inquiry.due)
    (answers : ∀ f ∈ fs, log.Answers prompt f) (hv : log.At v m) (ham : a ≤ m) (hmp : m ≤ p)
    (htold : told.eraseDups = log.between a p)
    (hprompt : prompt → m = p ∧ told = log.between a p) :
    ∃ b, (told ++ fs.flatMap Finding.changes).eraseDups = log.between a b ∧
      (prompt → told ++ fs.flatMap Finding.changes = log.between a b) := by
  induction fs generalizing told v m p with
  | nil =>
    rw [List.flatMap_nil, List.append_nil]
    exact ⟨p, htold, fun h => (hprompt h).2⟩
  | cons f rest ih =>
    obtain ⟨hinquiry, hrest⟩ := List.cons_prefix_cons.1 resumes
    obtain ⟨hexpired, hstreams⟩ := answers f List.mem_cons_self
    obtain ⟨b, hmb, hchanges, v', m', hlast, hv', hm', hprompt'⟩ :=
      (hstreams v m hinquiry hv).told (Nat.le_refl m) hv ⟨Nat.le_refl m, Nat.le_refl m⟩ fun _ => rfl
    rw [← Finding.resume_eq hinquiry hexpired] at hlast
    rw [List.map_cons, hlast] at hrest
    rw [List.flatMap_cons, ← List.append_assoc, Finding.changes, hchanges]
    refine ih hrest (fun f hf => answers f (List.mem_cons_of_mem _ hf)) hv'
      (Nat.le_trans ham hm'.1) (Nat.le_trans hm'.2 (Nat.le_max_right p b))
      (eraseDups_append_between htold ham hmp hmb) fun h => ?_
    obtain ⟨rfl, rfl⟩ := hprompt h
    rw [Nat.max_eq_right hmb]
    exact ⟨hprompt' h, between_append ham hmb⟩

end History

/-- The versions that watches were asked for, in order. -/
def Journal.watched (j : Journal) : List String := j.asked.filterMap Inquiry.since?

/-- If a server keeps a log that has the version of the first watch, at `a`, then the watches told
of the changes from there on: none is left out, and if bookmarks are prompt, none is repeated. -/
def Journal.Gapless (j : Journal) : Prop :=
  ∀ (log : History) (prompt : Prop), (∀ f ∈ j.answered, log.Answers prompt f) →
    ∀ v a, j.watched.head? = some v → log.At v a →
      ∃ b, (j.answered.flatMap Finding.changes).eraseDups = log.between a b ∧
        (prompt → j.answered.flatMap Finding.changes = log.between a b)

theorem Journal.Resumes.gapless {version : Option String} {j : Journal} (h : j.Resumes version) :
    j.Gapless := by
  intro log prompt answers v a first hv
  have resumes : j.answered.map Sigma.fst <+:
      (version :: j.answered.map Finding.resume).map Inquiry.due :=
    (List.prefix_append _ _).trans h
  rw [Journal.watched, Journal.asked] at first
  clear h
  have nothing : [] = log.between a a := (log.between_self a).symm
  generalize j.answered = fs at *
  induction fs generalizing version with
  | nil => exact ⟨a, nothing, fun _ => nothing⟩
  | cons f rest ih =>
    obtain ⟨hinquiry, hrest⟩ := List.cons_prefix_cons.1 resumes
    cases version with
    | some v' =>
      obtain rfl : v' = v := by
        rw [List.map_cons, List.cons_append, hinquiry] at first
        exact Option.some.inj first
      have told := History.told_of_answers resumes answers hv (Nat.le_refl a) (Nat.le_refl a)
        (show ([] : List WatchEvent).eraseDups = _ from nothing) fun _ => ⟨rfl, nothing⟩
      exact told
    | none =>
      -- The state is read before the first watch, and tells of no change.
      have untold : f.changes = [] := by
        obtain ⟨q, answer⟩ := f
        obtain rfl : q = .state := hinquiry
        rfl
      rw [List.flatMap_cons, untold]
      rw [List.map_cons, List.cons_append, hinquiry] at first
      exact ih (fun f hf => answers f (List.mem_cons_of_mem _ hf)) first hrest

/-- To follow a resource at an API server is to follow it by a source, which watches by one request
with the version of the inquiry. Whatever a source answers, at every moment each inquiry so far goes
on from where the one before left off, and so the watches lose nothing, and repeat nothing unless a
bookmark looks back. -/
theorem WaitTerms.follow_resumes {σ : Type} (t : WaitTerms) (version : Option String)
    (turns : Nat) :
    (∀ (o : Outside σ) (k : ServedKind) (ns : Option String),
      t.follow o k ns version turns = t.followBy (k.source o ns t.given) version turns ∧
      ∀ since, (k.source o ns t.given).answer (.changes since) =
        k.watchOnce o ns t.given.name since) ∧
    ∀ src : Source σ,
      (t.followBy src.journaled version turns).Forgets (t.followBy src version turns) ∧
      (t.followBy src.journaled version turns).Throughout (· = {})
        (fun j => j.Resumes version ∧ j.Gapless) fun j _ => j.Resumes version ∧ j.Gapless := by
  refine ⟨fun o k ns => ⟨t.follow_eq_followBy o k ns version turns,
    k.source_changes_eq_watchOnce o ns t.given⟩, fun src =>
    ⟨t.forgets_followBy src version turns, fun w hw => ?_⟩⟩
  have start : Journal.Expects version version w.state.2 := by
    rw [hw]
    exact ⟨rfl, rfl⟩
  have resumes := (t.carries_resumes version).followBy src version turns w start
  exact resumes.mono (fun j h => ⟨h, h.gapless⟩) fun j _ h => ⟨h, h.gapless⟩

/-- Two changes of the pod. -/
def podHistory : History where
  origin := "1"
  changes := [.modified (podAt "2"), .modified (podAt "3")]
  isChange := by decide
  versioned := by decide
  distinct := by decide

/-- The pod is followed at a server with this log. -/
theorem podFollowed_answers :
    ∀ f ∈ podFollowed.run.world.state.2.answered, podHistory.Answers True f := by
  show ∀ f ∈ ([⟨.state, .ok (some (podAt "1"))⟩,
      ⟨.changes "1", .ok [.ok (.modified (podAt "2")), .error .transport]⟩,
      ⟨.changes "2", .ok [.ok (.bookmark "2"), .ok (.modified (podAt "3"))]⟩] : List Finding), _
  intro f hf
  simp only [List.mem_cons, List.not_mem_nil, or_false] at hf
  obtain rfl | rfl | rfl := hf
  · exact ⟨rfl, fun v a hv => nomatch hv⟩
  · refine ⟨rfl, fun v a hv hat => ?_⟩
    obtain rfl := Inquiry.changes.inj hv
    obtain rfl : a = 0 := podHistory.at_inj hat rfl
    exact .change rfl (.nil 1)
  · refine ⟨rfl, fun v a hv hat => ?_⟩
    obtain rfl := Inquiry.changes.inj hv
    obtain rfl : a = 1 := podHistory.at_inj hat rfl
    exact .bookmark (m := 1) rfl ⟨Nat.le_refl 1, Nat.le_refl 1⟩ (fun _ => rfl)
      (.change rfl (.nil 2))

/-- The pod is followed over a watch that is cut off, and its changes are told without a gap. -/
theorem WaitTerms.follow_resumes_pod :
    ∃ w, podFollowed.run = .ended w (.ok (podAt "3")) ∧ w.state.2.watched = ["1", "2"] ∧
      (∀ f ∈ w.state.2.answered, podHistory.Answers True f) ∧
      ∃ b, w.state.2.answered.flatMap Finding.changes = podHistory.between 0 b := by
  have throughout := ((podAwaited.follow_resumes none 5).2 podSource).2 ⟨0, 0, (), {}⟩ rfl
  have gapless : podFollowed.run.world.state.2.Gapless := (throughout.run rfl).2
  obtain ⟨b, -, htold⟩ := gapless podHistory True podFollowed_answers "1" 0 rfl rfl
  exact ⟨podFollowed.run.world, rfl, rfl, podFollowed_answers, b, htold trivial⟩

/-! ## A bookmark that looks back -/

/-- Three changes of the pod. -/
def podHistoryOfThree : History where
  origin := "1"
  changes := [.modified (podAt "2"), .modified (podAt "3"), .modified (podAt "4")]
  isChange := by decide
  versioned := by decide
  distinct := by decide

/-- A server with this log. The first watch tells of two changes, ends with a bookmark for the first
of them, and is closed. -/
def podSourceLookingBack : Source Unit where
  answer
    | .state => pure (.ok (some (podAt "1")))
    | .changes "1" =>
      pure (.ok [.ok (.modified (podAt "2")), .ok (.modified (podAt "3")), .ok (.bookmark "2")])
    | .changes _ => pure (.ok [.ok (.modified (podAt "3")), .ok (.modified (podAt "4"))])

def podFollowedBack : Course (Unit × Journal) (Except Failure Resource) :=
  WaitTerms.followBy { podAwaited with accepts := fun r => r.version = some "4" }
    podSourceLookingBack.journaled none 5 ⟨0, 0, (), {}⟩

theorem podFollowedBack_answers :
    ∀ f ∈ podFollowedBack.run.world.state.2.answered, podHistoryOfThree.Answers False f := by
  show ∀ f ∈ ([⟨.state, .ok (some (podAt "1"))⟩,
      ⟨.changes "1",
        .ok [.ok (.modified (podAt "2")), .ok (.modified (podAt "3")), .ok (.bookmark "2")]⟩,
      ⟨.changes "2", .ok [.ok (.modified (podAt "3")), .ok (.modified (podAt "4"))]⟩] :
      List Finding), _
  intro f hf
  simp only [List.mem_cons, List.not_mem_nil, or_false] at hf
  obtain rfl | rfl | rfl := hf
  · exact ⟨rfl, fun v a hv => nomatch hv⟩
  · refine ⟨rfl, fun v a hv hat => ?_⟩
    obtain rfl := Inquiry.changes.inj hv
    obtain rfl : a = 0 := podHistoryOfThree.at_inj hat rfl
    exact .change rfl (.change rfl
      (.bookmark (m := 1) rfl ⟨Nat.zero_le 1, Nat.le_succ 1⟩ False.elim (.nil 2)))
  · refine ⟨rfl, fun v a hv hat => ?_⟩
    obtain rfl := Inquiry.changes.inj hv
    obtain rfl : a = 1 := podHistoryOfThree.at_inj hat rfl
    exact .change rfl (.change rfl (.nil 3))

/-- The bookmark is for a position that the watch had reached, and no version is gone; still, the
second watch tells of a change again. -/
theorem told_again_after_bookmark :
    ∃ w, podFollowedBack.run = .ended w (.ok (podAt "4")) ∧ w.state.2.watched = ["1", "2"] ∧
      (∀ f ∈ w.state.2.answered, podHistoryOfThree.Answers False f) ∧
      w.state.2.answered.flatMap Finding.changes =
        [.modified (podAt "2"), .modified (podAt "3"), .modified (podAt "3"),
          .modified (podAt "4")] ∧
      ∀ a b, w.state.2.answered.flatMap Finding.changes ≠ podHistoryOfThree.between a b := by
  have told : podFollowedBack.run.world.state.2.answered.flatMap Finding.changes =
      [.modified (podAt "2"), .modified (podAt "3"), .modified (podAt "3"),
        .modified (podAt "4")] := rfl
  refine ⟨podFollowedBack.run.world, rfl, rfl, podFollowedBack_answers, told, fun a b h => ?_⟩
  have once := podHistoryOfThree.nodup_between a b
  rw [← h, told] at once
  simp at once

end Rollout

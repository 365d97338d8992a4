import NovaBank.Replica.Runs
import NovaBank.Replica.Snapshot

/-!
# What a replica does not notice

Unordered requests and installed snapshots set the version and nothing else, and no answer depends on
the version. So they may be put anywhere into a run, or left out, in any number: the book, the
contracts and every later answer are the same (`silent_unnoticed`).
-/

namespace NovaBank.Replica

open Java

/-- What happens to a replica: an action, or a state transfer from another replica. -/
inductive Incident where
  | action (x : Action)
  | install (snapshot : ObjectStream JObject)

namespace Incident

/-- The replica after an incident. An exception of `installSnapshot` leaves it as it was. -/
def run (jvm : Jvm) (st : BankService) : Incident → BankService
  | action x => x.run jvm st
  | install snapshot =>
    match st.installSnapshot snapshot with
    | .ok st' => st'
    | .error _ => st

/-- The action of an incident, if it is not silent. -/
def noticed : Incident → Option Action
  | action (.unordered _) => none
  | action x => some x
  | install _ => none

end Incident

section Silent

variable {jvm : Jvm} {st st' : BankService}

/-- A version is not seen by requests. -/
theorem Replicas.version (h : Replicas (fun t => t) st st') (v : Int32) :
    Replicas (fun t => t) { st with bankRepo := { st.bankRepo with version := v } } st' :=
  ⟨⟨h.repo.left.version v, h.repo.right, h.repo.view⟩, h.runner⟩

/-- An action on both sides. -/
theorem Replicas.action (h : Replicas (fun t => t) st st') (x : Action) :
    Replicas (fun t => t) (x.run jvm st) (x.run jvm st') := by
  cases x with
  | ordered command => exact (h.ordered jvm command).2
  | unordered command => exact ⟨(appExecuteUnordered_agrees jvm h.repo command).2, h.runner⟩
  | operation now i op =>
    simp only [Action.run, ← h.runner]
    split_ifs
    · exact h.runOperation rfl i op
    · exact h

/-- A snapshot that is installed sets the version. -/
theorem installSnapshot_eq {snapshot : ObjectStream JObject}
    (h : st.installSnapshot snapshot = .ok st') :
    ∃ v, st' = { st with bankRepo := { st.bankRepo with version := v } } := by
  unfold BankService.installSnapshot at h
  -- Only an integer is accepted, and it becomes the version.
  cases hread : readObject snapshot with
  | error e =>
    simp only [hread] at h
    split_ifs at h
    cases h
    exact ⟨st.bankRepo.version, rfl⟩
  | ok r =>
    obtain ⟨o, rest⟩ := r
    rw [hread] at h
    cases o with
    | int v =>
      cases h
      exact ⟨v, rfl⟩
    | _ => cases h

/-- A silent incident on one side. -/
theorem Replicas.silent (h : Replicas (fun t => t) st st') {e : Incident} (he : e.noticed = none) :
    Replicas (fun t => t) (e.run jvm st) st' := by
  -- A query and a snapshot can change the version only, which no request reads.
  cases e with
  | action x =>
    cases x with
    | ordered command => cases he
    | unordered command =>
      obtain ⟨v, hv⟩ := finish_eq (BankService.query jvm command st.bankRepo, st.bankRepo)
      have hrun : Incident.run jvm st (.action (.unordered command)) =
          { st with bankRepo := { st.bankRepo with version := v } } := by
        simp only [Incident.run, Action.run, BankService.appExecuteUnordered, hv]
      rw [hrun]
      exact h.version v
    | operation now i op => cases he
  | install snapshot =>
    cases hst : st.installSnapshot snapshot with
    | error e =>
      have hrun : Incident.run jvm st (.install snapshot) = st := by
        simp only [Incident.run, hst]
      rw [hrun]
      exact h
    | ok st'' =>
      have hrun : Incident.run jvm st (.install snapshot) = st'' := by
        simp only [Incident.run, hst]
      rw [hrun]
      obtain ⟨v, rfl⟩ := installSnapshot_eq hst
      exact h.version v

/-- A run with silent incidents, and the same run without them. -/
theorem Replicas.noticed (h : Replicas (fun t => t) st st') (es : List Incident) :
    Replicas (fun t => t) (es.foldl (Incident.run jvm) st)
      (st'.runAll jvm (es.filterMap Incident.noticed)) := by
  -- On the incidents, those that are not noticed being skipped.
  induction es generalizing st st' with
  | nil => exact h
  | cons e es ih =>
    cases he : e.noticed with
    | none =>
      rw [List.filterMap_cons_none he]
      exact ih (h.silent he)
    | some x =>
      rw [List.filterMap_cons_some he]
      have hrun : Incident.run jvm st e = x.run jvm st := by
        cases e with
        | action y =>
          cases y with
          | unordered command => cases he
          | ordered command | operation now i op =>
            cases he
            rfl
        | install snapshot => cases he
      have hstep : Replicas (fun t => t) (e.run jvm st) (x.run jvm st') := by
        rw [hrun]
        exact h.action x
      exact ih hstep

/-- **Reads and state transfers go unnoticed:** with unordered requests and snapshots from anywhere put
into a run of a replica at any points, the replica keeps the same book and the same contracts as
without them, and it answers every later sequence of requests alike. -/
theorem silent_unnoticed (jvm : Jvm) (es : List Incident) (requests : List Access) :
    let st := es.foldl (Incident.run jvm) BankService.new
    let st' := BankService.new.runAll jvm (es.filterMap Incident.noticed)
    book st.bankRepo = book st'.bankRepo ∧ st.sR = st'.sR ∧
      (st.serve jvm requests).1 = (st'.serve jvm requests).1 := by
  intro st st'
  have hnew : Replicas (fun t => t) BankService.new BankService.new :=
    ⟨⟨Indexed.new, Indexed.new, rfl⟩, rfl⟩
  have h : Replicas (fun t => t) st st' := hnew.noticed es
  exact ⟨h.repo.view, h.runner, serve_same requests h.repo⟩

end Silent

end NovaBank.Replica

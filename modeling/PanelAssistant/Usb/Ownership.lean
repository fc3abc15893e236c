import PanelAssistant.Usb.Replays

/-!
# One installation, one job

After `expectedJobId` is set, everything an installation changes or reports is about that job, as
long as its transactions find no other job that they would take over (`Faithful`): only recovery and
the grant of permissions are told which job is meant. An installation removes nothing but the job
that its own preview set aside.
-/

namespace PanelAssistant.Usb

open Library

variable {Target Artifact : Type} {s : Shared Target Artifact} {t : Tab Target Artifact}
  {log : Log Target Artifact}

/-- The job that a call changes, reports or grants permissions for. -/
def Call.about : Call Target Artifact → Option JobId
  | .put snapshot _ _ => some snapshot.id
  | .actuate _ receipt _ => some receipt.id
  | .onReceipt receipt => some receipt.id
  | .commissionPermissions receipt _ => some receipt.id
  | _ => none

/-- A call that works on the job, and does not only report it. -/
def Call.works : Call Target Artifact → Bool
  | .put .. | .actuate .. | .commissionPermissions .. => true
  | _ => false

/-- The preview of an installation is the one that the log remembers. -/
theorem History.preview {selected : Preview Target Artifact} (h : History log)
    (hcurrent : current log = some (.install selected)) : PreviewOf log selected := by
  induction log with
  | nil => cases hcurrent
  | cons e log ih =>
    cases e with
    | begun =>
      obtain rfl := Option.some.inj hcurrent
      exact ⟨h.1.setAside, h.1.adopt⟩
    | performed c reply saved =>
      have hcurrent : current log = some (.install selected) := hcurrent
      apply (ih h.2 hcurrent).of_eq
      apply duringPreview_performed
      intro target htarget
      rw [hcurrent] at htarget
      cases htarget
    | settled => cases hcurrent
    | crashed => cases hcurrent

/-- What holds of an installation, at any await. -/
structure OneJob (s : Shared Target Artifact) (t : Tab Target Artifact) : Prop where
  /-- It works on its job, which is not gone, and reports nothing else. -/
  about : Faithful t.log → ∀ id c job, owned t.log = some id → t.awaited = some c →
    c.about = some job → job = id ∧ (c.works = true → ¬ Gone id t.log)
  /-- It succeeds only where its job was there at every await. -/
  success : ∀ later earlier r adopted,
    t.log = later ++ .settled (.ok (.installed r adopted)) :: earlier →
      ∃ id, owned earlier = some id ∧ ¬ Gone id earlier ∧ (Faithful earlier → r.id = id)
  /-- It removes the job its preview loaded and set aside, at that revision. -/
  removes : ∀ removal expectedRevision, t.awaited = some (.remove removal expectedRevision) →
    ∃ selected job previewed saved, current t.log = some (.install selected) ∧
      selected.setAside = some job ∧ lastLoad (duringPreview t.log) = some previewed ∧
      job = aside previewed ∧ s.saved = some saved ∧ saved.id = previewed.id ∧
      expectedRevision = previewed.revision

def WorkOnOneJob (p : Tasks.Pool (Shared Target Artifact) (Tab Target Artifact)) : Prop :=
  ∀ t ∈ p.tasks, OneJob p.shared t

theorem TabOk.oneJob (h : TabOk s t) : OneJob s t where
  about := by
    intro hfaithful id c job howned hawaited habout
    have hallowed := h.allowed hawaited
    cases c with
    | put snapshot expectedRevision next =>
      obtain rfl := Option.some.inj habout
      obtain ⟨hid, hgone⟩ := hallowed.2.2.2.2 hfaithful id howned
      exact ⟨hid, fun _ => hgone⟩
    | actuate actuator r release =>
      obtain rfl := Option.some.inj habout
      obtain ⟨hid, hgone⟩ := hallowed.2.2 hfaithful id howned
      exact ⟨hid, fun _ => hgone⟩
    | onReceipt r =>
      obtain rfl := Option.some.inj habout
      exact ⟨hallowed hfaithful id howned, fun h => Bool.noConfusion h⟩
    | commissionPermissions r release =>
      obtain rfl := Option.some.inj habout
      obtain ⟨hid, hgone⟩ := hallowed.2.2.2 hfaithful id howned
      exact ⟨hid, fun _ => hgone⟩
    | _ => cases habout
  success := by
    intro later earlier r adopted hlog
    have hrecorded := History.at (hlog ▸ h.history)
    obtain ⟨id, howned, hgone, hown⟩ := hrecorded
    exact ⟨id, howned, hgone, fun hfaithful => hown hfaithful id howned⟩
  removes := by
    intro removal expectedRevision hawaited
    obtain ⟨-, -, selected, job, r, hcurrent, haside, hknown, hid, hrevision, -⟩ :=
      h.allowed hawaited
    obtain ⟨previewed, hloaded, rfl⟩ := (h.history.preview hcurrent).setAside job haside
    exact ⟨selected, aside previewed, previewed, r, hcurrent, haside, hloaded,
      rfl, h.known r hknown, hid, hrevision⟩

variable [DecidableEq Target] [DecidableEq Artifact]

/-- In every run, every installation works on one job. -/
theorem works_on_one_job (saved : Option (Receipt Target Artifact)) (drawn : List JobId)
    (moves : List (Tasks.Move Unit (Event Target Artifact))) :
    WorkOnOneJob ((tabs Target Artifact).run ⟨.opened saved drawn, []⟩ moves) := by
  intro t ht
  obtain ⟨i, hi⟩ := List.mem_iff_getElem?.mp ht
  exact ((run_ok (drawn_opened saved drawn) moves).task i t hi).oneJob

/-- The first tab installs. It waits for its job's record to be written, or it has just reported the
job, and the second tab goes on for another release. -/
def contendedRun (first second : ℕ) : List (Tasks.Move Unit (Event Unit Bool)) :=
  [.start (), .start (), .wake 0 (.press (.preview ()))] ++
  answers 0 (.shows false false "") 8 ++
  [.wake 0 (.press (.install true))] ++ answers 0 (.shows false false "a") first ++
  [.wake 1 (.press (.preview ()))] ++ answers 1 (.shows false true "") 8 ++
  [.wake 1 (.press (.install true))] ++ answers 1 (.shows false true "") second

def contended (first second : ℕ) : Tasks.Pool (Shared Unit Bool) (Tab Unit Bool) :=
  (tabs Unit Bool).run ⟨.opened none [], []⟩ (contendedRun first second)

def Tab.worksOn (id : JobId) (t : Tab Unit Bool) : Bool :=
  decide (Faithful t.log) && decide (owned t.log = some id) &&
    t.awaited.any fun c => decide (c.about = some id) && c.works

def Tab.removes (t : Tab Unit Bool) : Bool :=
  t.awaited.any fun c =>
    match c with
    | .remove .. => true
    | _ => false

/-- A job that is advanced is there, and one that is removed was previewed. -/
theorem works_on_one_job_contended :
    (∃ t ∈ (contended 18 4).tasks, t.worksOn "a" = true ∧ ¬ Gone "a" t.log) ∧
      ∃ t ∈ (contended 6 7).tasks, t.removes = true ∧
        ∃ saved previewed, (contended 6 7).shared.saved = some saved ∧
          lastLoad (duringPreview t.log) = some previewed ∧ saved.id = previewed.id := by
  constructor
  · have hfirst : ((contended 18 4).tasks[0]?).any (·.worksOn "a") = true := by decide
    obtain ⟨t, ht, hworks⟩ := (Option.any_eq_true _ _).mp hfirst
    have hmem := List.mem_of_getElem? ht
    refine ⟨t, hmem, hworks, ?_⟩
    simp only [Tab.worksOn, Bool.and_eq_true, decide_eq_true_eq] at hworks
    obtain ⟨⟨hfaithful, howned⟩, hawaited⟩ := hworks
    obtain ⟨c, hc, habout⟩ := (Option.any_eq_true _ _).mp hawaited
    rw [Bool.and_eq_true, decide_eq_true_eq] at habout
    exact ((works_on_one_job none [] (contendedRun 18 4) t hmem).about hfaithful "a" c "a" howned hc
      habout.1).2 habout.2
  · have hsecond : ((contended 6 7).tasks[1]?).any Tab.removes = true := by decide
    obtain ⟨t, ht, hremoves⟩ := (Option.any_eq_true _ _).mp hsecond
    have hmem := List.mem_of_getElem? ht
    refine ⟨t, hmem, hremoves, ?_⟩
    obtain ⟨c, hc, hremove⟩ := (Option.any_eq_true _ _).mp hremoves
    split at hremove
    · obtain ⟨_, _, previewed, saved, -, -, hloaded, -, hsaved, hid, -⟩ :=
        (works_on_one_job none [] (contendedRun 6 7) t hmem).removes _ _ hc
      exact ⟨saved, previewed, hsaved, hloaded, hid⟩
    · cases hremove

/-- The first tab installs. The second tab removes that job for another release, crashes, and
installs the first release afresh. The first tab goes on with the new job. -/
def replacedRun : List (Tasks.Move Unit (Event Unit Bool)) :=
  [.start (), .start (), .wake 0 (.press (.preview ()))] ++
  answers 0 (.shows false false "") 8 ++
  [.wake 0 (.press (.install true))] ++ answers 0 (.shows false false "a") 8 ++
  [.wake 1 (.press (.preview ()))] ++ answers 1 (.shows false true "") 8 ++
  [.wake 1 (.press (.install true))] ++ answers 1 (.shows false true "") 8 ++ [.wake 1 .crash] ++
  [.wake 1 (.press (.preview ()))] ++ answers 1 (.shows false false "") 8 ++
  [.wake 1 (.press (.install true))] ++ answers 1 (.shows false false "b") 5 ++
  answers 0 (.shows false false "") 10

/-- An installation changes the record of another job. -/
theorem replaced_advanced : ¬ ∀ moves : List (Tasks.Move Unit (Event Unit Bool)),
    ∀ t ∈ ((tabs Unit Bool).run ⟨.opened none [], []⟩ moves).tasks,
      ∀ id ∈ owned t.log, ∀ job ∈ t.awaited.bind Call.about, job = id := by
  intro h
  exact absurd (h replacedRun) (by decide +kernel)

end PanelAssistant.Usb

import PanelAssistant.Usb.Tabs

/-!
# What a log says

The operation a tab is in, the job an installation owns, whether that job was seen to be gone, and
the part of the log that belongs to the latest preview. `Extends` is what an operation adds to a log
while it runs: calls, none of which takes ownership of a job.
-/

namespace PanelAssistant.Usb

variable {Target Artifact : Type}

/-! ## The operation -/

/-- The operation the tab is in. -/
def current : Log Target Artifact → Option (Begun Target Artifact)
  | .begun operation :: _ => some operation
  | .performed .. :: log => current log
  | .settled _ :: _ => none
  | .crashed _ :: _ => none
  | [] => none

/-- `expectedJobId` of the installation that runs, once it has set it. -/
def owned : Log Target Artifact → Option JobId
  | .performed (.own id) _ _ :: _ => some id
  | .performed .. :: log => owned log
  | _ => none

/-- The saved record is the job. -/
def IsJob (id : JobId) (saved : Option (Receipt Target Artifact)) : Prop :=
  ∃ r, saved = some r ∧ r.id = id

/-- At an await since it was owned, the record was not the job. -/
def Gone (id : JobId) : Log Target Artifact → Prop
  | .performed (.own _) _ saved :: _ => ¬ IsJob id saved
  | .performed _ _ saved :: log => ¬ IsJob id saved ∨ Gone id log
  | _ => False

/-- No transaction of an installation took over another job: where it found one, the job was
unfinished and for another release than the tab's. -/
def Faithful : Log Target Artifact → Prop
  | .performed .load (.ok (some r)) _ :: log =>
    Faithful log ∧ ∀ id, owned log = some id → (hold log).site = some .advance →
      (hold log).found = none → r.id ≠ id → r.phase ≠ .healthy ∧ r.phase ≠ .recoveryRequired
  | .performed .authenticate (.ok release) _ :: log =>
    Faithful log ∧ ∀ id r, owned log = some id → (hold log).site = some .advance →
      (hold log).found = some r → r.id ≠ id → ¬ (release.genuine ∧ r.artifact = release.descriptor)
  | _ :: log => Faithful log
  | [] => True

/-- `Faithful`, computed. -/
def isFaithful [DecidableEq Artifact] : Log Target Artifact → Bool
  | .performed .load (.ok (some r)) _ :: log =>
    isFaithful log && decide (∀ id ∈ owned log, (hold log).site = some .advance →
      (hold log).found.isNone → r.id ≠ id → r.phase ≠ .healthy ∧ r.phase ≠ .recoveryRequired)
  | .performed .authenticate (.ok release) _ :: log =>
    isFaithful log && decide (∀ id ∈ owned log, ∀ r ∈ (hold log).found,
      (hold log).site = some .advance → r.id ≠ id →
        ¬ (release.genuine ∧ r.artifact = release.descriptor))
  | _ :: log => isFaithful log
  | [] => true

theorem isFaithful_iff [DecidableEq Artifact] {log : Log Target Artifact} :
    isFaithful log = true ↔ Faithful log := by
  fun_induction isFaithful log with
  | case1 r saved log ih =>
    rw [Faithful, Bool.and_eq_true, ih, decide_eq_true_eq]
    simp only [Option.mem_def, Option.isNone_iff_eq_none]
  | case2 release saved log ih =>
    rw [Faithful, Bool.and_eq_true, ih, decide_eq_true_eq]
    refine and_congr_right fun _ => ⟨fun h id r howned hsite hfound => h id howned r hfound hsite,
      fun h id howned r hfound hsite => h id r howned hsite hfound⟩
  | case3 e log hload hauthenticate ih =>
    rw [Faithful]
    · exact ih
    · exact hload
    · exact hauthenticate
  | case4 => exact iff_of_true rfl trivial

instance [DecidableEq Artifact] (log : Log Target Artifact) : Decidable (Faithful log) :=
  decidable_of_iff _ isFaithful_iff

/-- The calls of the latest preview, newest first. -/
def duringPreview : Log Target Artifact → Log Target Artifact
  | .performed c reply saved :: log =>
    match current log with
    | some (.preview _) => .performed c reply saved :: duringPreview log
    | _ => duringPreview log
  | .begun (.preview _) :: _ => []
  | _ :: log => duringPreview log
  | [] => []

/-- The record that was loaded last. -/
def lastLoad : Log Target Artifact → Option (Receipt Target Artifact)
  | .performed .load (.ok r) _ :: _ => r
  | _ :: log => lastLoad log
  | [] => none

/-- The log holds a record with this id. -/
def Entry.reads (id : JobId) : Entry Target Artifact → Prop
  | .performed .load (.ok (some r)) _ => r.id = id
  | .performed (.add _ _ _) (.ok r) _ => r.id = id
  | _ => False

def Reads (id : JobId) (log : Log Target Artifact) : Prop := ∃ e ∈ log, e.reads id

/-! ## Extensions -/

/-- A call that takes no ownership. -/
def Entry.inner : Entry Target Artifact → Prop
  | .performed (.own _) _ _ => False
  | .performed .. => True
  | _ => False

/-- A log with more calls in it. -/
inductive Extends (base : Log Target Artifact) : Log Target Artifact → Prop
  | refl : Extends base base
  | cons {e : Entry Target Artifact} {log : Log Target Artifact} (he : e.inner)
    (h : Extends base log) : Extends base (e :: log)

variable {base log log' : Log Target Artifact}

theorem Extends.trans (h : Extends base log) (h' : Extends log log') : Extends base log' := by
  induction h' with
  | refl => exact h
  | cons he _ ih => exact .cons he ih

@[simp] theorem hold_nil : hold ([] : Log Target Artifact) = Hold.free := rfl

@[simp] theorem hold_cons (e : Entry Target Artifact) (log : Log Target Artifact) :
    hold (e :: log) = (hold log).after e := rfl

theorem owned_inner {e : Entry Target Artifact} (he : e.inner) : owned (e :: log) = owned log := by
  cases e with
  | performed c reply saved => cases c <;> first | rfl | exact absurd he id
  | begun => exact absurd he id
  | settled => exact absurd he id
  | crashed => exact absurd he id

theorem current_inner {e : Entry Target Artifact} (he : e.inner) :
    current (e :: log) = current log := by
  cases e with
  | performed => rfl
  | begun => exact absurd he id
  | settled => exact absurd he id
  | crashed => exact absurd he id

theorem Extends.owned (h : Extends base log) : owned log = owned base := by
  induction h with
  | refl => rfl
  | cons he _ ih => rw [owned_inner he, ih]

theorem Extends.current (h : Extends base log) : current log = current base := by
  induction h with
  | refl => rfl
  | cons he _ ih => rw [current_inner he, ih]

theorem faithful_cons {e : Entry Target Artifact} (h : Faithful (e :: log)) : Faithful log := by
  unfold Faithful at h
  split at h
  · rename_i heq
    obtain ⟨-, rfl⟩ := List.cons.inj heq
    exact h.1
  · rename_i heq
    obtain ⟨-, rfl⟩ := List.cons.inj heq
    exact h.1
  · rename_i heq
    obtain ⟨-, rfl⟩ := List.cons.inj heq
    exact h
  · rename_i heq
    cases heq

theorem Extends.faithful (h : Extends base log) (hlog : Faithful log) : Faithful base := by
  induction h with
  | refl => exact hlog
  | cons _ _ ih => exact ih (faithful_cons hlog)

/-- What an operation does after a preview leaves the log of the preview as it is. -/
theorem Extends.duringPreview (h : Extends base log)
    (hbase : ∀ target, Usb.current base ≠ some (.preview target)) :
    duringPreview log = duringPreview base := by
  induction h with
  | refl => rfl
  | @cons e log he h ih =>
    cases e with
    | performed c reply saved =>
      rw [Usb.duringPreview]
      split
      · rename_i target heq
        exact absurd (h.current.symm.trans heq) (hbase target)
      · exact ih
    | begun => exact absurd he id
    | settled => exact absurd he id
    | crashed => exact absurd he id

theorem gone_inner {job : JobId} {c : Call Target Artifact} {reply : Reply c}
    {saved : Option (Receipt Target Artifact)}
    (he : (Entry.performed c reply saved : Entry Target Artifact).inner) :
    Gone job (.performed c reply saved :: log) ↔ ¬ IsJob job saved ∨ Gone job log := by
  cases c <;> first | exact Iff.rfl | exact absurd he id

end PanelAssistant.Usb

import PanelAssistant.Library.Dict

/-!
# Files of a directory

A directory maps names to bytes. A program changes it by single operations; it may be cut off
between two of them, and a write may be cut off after some of its bytes (`interrupted`). What holds
wherever a program is cut off follows from its operations one by one (`Safe.interrupted`), and a
file that none of them names is left alone (`get?_interrupted`). A file that is written under
another name and then put in its place is never half written (`safe_writeFile`).
-/

namespace Library.Files

abbrev Name := List Char

abbrev Bytes := List UInt8

abbrev Directory := Dict Name Bytes

inductive Op where
  /-- A file is opened for writing and is empty. -/
  | create (name : Name)
  | append (name : Name) (bytes : Bytes)
  | replace (source target : Name)
  /-- A file is removed, or was missing. -/
  | unlink (name : Name)
  deriving DecidableEq

namespace Op

def apply (d : Directory) : Op → Directory
  | create name => d.set name []
  | append name bytes => d.set name ((d.get? name).getD [] ++ bytes)
  | replace source target =>
    match d.get? source with
    | some bytes => (d.pop source).set target bytes
    | none => d
  | unlink name => d.pop name

/-- The names an operation may change. -/
def names : Op → List Name
  | create name => [name]
  | append name _ => [name]
  | replace source target => [source, target]
  | unlink name => [name]

/-- What a write leaves when it is cut off. -/
def torn (k : ℕ) : Op → Option Op
  | append name bytes => some (append name (bytes.take k))
  | _ => none

end Op

/-- A program that runs to its end. -/
def exec (d : Directory) (ops : List Op) : Directory := ops.foldl Op.apply d

/-- A program that is cut off after `n` operations, and after `k` bytes of a write. -/
def interrupted (d : Directory) : List Op → ℕ → ℕ → Directory
  | [], _, _ => d
  | op :: _, 0, k => (op.torn k).elim d fun op => op.apply d
  | op :: ops, n + 1, k => interrupted (op.apply d) ops n k

/-- A file is written beside its target and then put in its place. -/
def writeFile (beside target : Name) (bytes : Bytes) : List Op :=
  [.create beside, .append beside bytes, .replace beside target]

variable {d : Directory} {ops ops' : List Op}

@[simp] theorem exec_nil (d : Directory) : exec d [] = d := rfl

@[simp] theorem exec_cons (d : Directory) (op : Op) (ops : List Op) :
    exec d (op :: ops) = exec (op.apply d) ops := rfl

theorem exec_append (d : Directory) (ops ops' : List Op) :
    exec d (ops ++ ops') = exec (exec d ops) ops' := List.foldl_append

/-! ## Frames -/

theorem get?_apply {op : Op} {name : Name} (h : name ∉ op.names) (d : Directory) :
    (op.apply d).get? name = d.get? name := by
  cases op with
  | create other | append other bytes =>
    exact d.get?_set_ne _ (List.ne_of_not_mem_cons h)
  | replace source target =>
    have hsource : name ≠ source := List.ne_of_not_mem_cons h
    have htarget : name ≠ target := List.ne_of_not_mem_cons (List.not_mem_of_not_mem_cons h)
    simp only [Op.apply]
    split
    · rw [Dict.get?_set_ne _ _ htarget, Dict.get?_pop, if_neg hsource]
    · rfl
  | unlink other =>
    rw [Op.apply, Dict.get?_pop, if_neg (List.ne_of_not_mem_cons h)]

/-- A file that no operation names is left alone. -/
theorem get?_exec {name : Name} (h : ∀ op ∈ ops, name ∉ op.names) (d : Directory) :
    (exec d ops).get? name = d.get? name := by
  induction ops generalizing d with
  | nil => rfl
  | cons op ops ih =>
    obtain ⟨hop, hops⟩ := List.forall_mem_cons.mp h
    rw [exec_cons, ih hops, get?_apply hop]

theorem names_torn {op op' : Op} {k : ℕ} (h : op.torn k = some op') : op'.names = op.names := by
  cases op with
  | append name bytes =>
    cases h
    rfl
  | create | replace | unlink => cases h

theorem get?_interrupted {name : Name} (h : ∀ op ∈ ops, name ∉ op.names) (d : Directory) (n k : ℕ) :
    (interrupted d ops n k).get? name = d.get? name := by
  induction ops generalizing d n with
  | nil => rfl
  | cons op ops ih =>
    obtain ⟨hop, hops⟩ := List.forall_mem_cons.mp h
    cases n with
    | zero =>
      unfold interrupted
      cases htorn : op.torn k with
      | none => rfl
      | some op' =>
        rw [← names_torn htorn] at hop
        exact get?_apply hop d
    | succ n => rw [interrupted, ih hops, get?_apply hop]

theorem interrupted_length (d : Directory) (ops : List Op) (k : ℕ) :
    interrupted d ops ops.length k = exec d ops := by
  induction ops generalizing d with
  | nil => rfl
  | cons op ops ih => exact ih _

/-- A file that operations name only to remove it is left alone or removed. -/
theorem get?_interrupted_or {name : Name} (h : ∀ op ∈ ops, name ∈ op.names → op = .unlink name)
    (d : Directory) (n k : ℕ) :
    (interrupted d ops n k).get? name = d.get? name ∨ (interrupted d ops n k).get? name = none := by
  induction ops generalizing d n with
  | nil => exact .inl rfl
  | cons op ops ih =>
    obtain ⟨hop, hops⟩ := List.forall_mem_cons.mp h
    by_cases hname : name ∈ op.names
    · obtain rfl := hop hname
      cases n with
      | zero => exact .inl rfl
      | succ n =>
        refine .inr ?_
        rcases ih hops (Op.apply d (.unlink name)) n with hrest | hrest
        · rw [interrupted, hrest, Op.apply, Dict.get?_pop, if_pos rfl]
        · exact hrest
    · cases n with
      | zero =>
        have hone : ∀ op' ∈ [op], name ∉ op'.names := List.forall_mem_singleton.mpr hname
        exact .inl (get?_interrupted hone d 0 k)
      | succ n =>
        rw [interrupted, ← get?_apply hname d]
        exact ih hops (op.apply d) n

/-! ## Where a program is cut off -/

/-- The directory has a property wherever the program is cut off, and at its end. -/
def Safe (I : Directory → Prop) : Directory → List Op → Prop
  | d, [] => I d
  | d, op :: ops =>
    I d ∧ (∀ k op', op.torn k = some op' → I (op'.apply d)) ∧ Safe I (op.apply d) ops

variable {I : Directory → Prop}

theorem Safe.exec (h : Safe I d ops) : I (exec d ops) := by
  induction ops generalizing d with
  | nil => exact h
  | cons op ops ih => exact ih h.2.2

theorem Safe.interrupted (h : Safe I d ops) (n k : ℕ) : I (interrupted d ops n k) := by
  induction ops generalizing d n with
  | nil => exact h
  | cons op ops ih =>
    cases n with
    | zero =>
      unfold Files.interrupted
      cases htorn : op.torn k with
      | none => exact h.1
      | some op' => exact h.2.1 k op' htorn
    | succ n => exact ih h.2.2 n

theorem Safe.append (h : Safe I d ops) (h' : Safe I (Files.exec d ops) ops') :
    Safe I d (ops ++ ops') := by
  induction ops generalizing d with
  | nil => exact h'
  | cons op ops ih => exact ⟨h.1, h.2.1, ih h.2.2 h'⟩

/-- A program of operations that each keep the property, a write with any bytes. -/
theorem safe_of_forall (hops : ∀ op ∈ ops, ∀ d, I d → I (op.apply d) ∧
    ∀ k op', op.torn k = some op' → I (op'.apply d)) (h : I d) : Safe I d ops := by
  induction ops generalizing d with
  | nil => exact h
  | cons op ops ih =>
    obtain ⟨hop, hrest⟩ := List.forall_mem_cons.mp hops
    exact ⟨h, (hop d h).2, ih hrest (hop d h).1⟩

section WriteFile

variable {beside target : Name} {bytes : Bytes}

theorem exec_writeFile (d : Directory) (beside target : Name) (bytes : Bytes) :
    exec d (writeFile beside target bytes) =
      ((((d.set beside []).set beside bytes).pop beside).set target bytes) := by
  simp [writeFile, exec, Op.apply]

theorem get?_writeFile (name : Name) :
    (exec d (writeFile beside target bytes)).get? name =
      if name = target then some bytes else if name = beside then none else d.get? name := by
  rw [exec_writeFile]
  by_cases htarget : name = target
  · simp [htarget]
  · by_cases hbeside : name = beside
    · simp [hbeside]
    · simp [htarget, hbeside]

/-- A property of the target's bytes, that nothing else in the directory matters to, holds wherever
the write is cut off. -/
theorem safe_writeFile (hbeside : ∀ d bytes, I d → I (d.set beside bytes))
    (htarget : ∀ d, I d → I (exec d (writeFile beside target bytes))) (h : I d) :
    Safe I d (writeFile beside target bytes) := by
  refine ⟨h, ?_, hbeside _ _ h, ?_, ?_, ?_, ?_⟩
  · rintro k op' ⟨⟩
  · rintro k op' ⟨⟩
    exact hbeside _ _ (hbeside _ _ h)
  · exact hbeside _ _ (hbeside _ _ h)
  · rintro k op' ⟨⟩
  · exact htarget d h

end WriteFile

end Library.Files

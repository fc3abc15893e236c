import Mathlib.Data.List.Nodup
import Mathlib.Data.List.Perm.Basic
import Mathlib.Data.List.Sort

/-!
# Insertion-ordered dictionaries

A `Dict` is an association list whose keys are distinct, in the order in which they
were first inserted. Assigning to a present key keeps its place, assigning to a new key
appends it, and deleting a key keeps the order of the rest. Distinctness of the keys is
a field, so the lookup lemmas need no side condition.

Two dictionaries are the `Same` when they agree on every lookup; they then differ in the
order of their entries only (`entries_perm_of_same`). `mem_values` turns a statement
about every value into one about every key.
-/

namespace Library

/-- An insertion-ordered dictionary. -/
structure Dict (κ ν : Type) where
  entries : List (κ × ν)
  nodup : (entries.map Prod.fst).Nodup

namespace Dict

variable {κ ν : Type}

/-- The dictionary without keys. -/
def empty : Dict κ ν := ⟨[], List.nodup_nil⟩

instance : EmptyCollection (Dict κ ν) := ⟨empty⟩

instance : Inhabited (Dict κ ν) := ⟨∅⟩

def keys (d : Dict κ ν) : List κ := d.entries.map Prod.fst

def values (d : Dict κ ν) : List ν := d.entries.map Prod.snd

def size (d : Dict κ ν) : Nat := d.entries.length

/-- The dictionary restricted to the items that satisfy `p`. -/
def filter (p : κ → ν → Bool) (d : Dict κ ν) : Dict κ ν :=
  ⟨d.entries.filter fun e => p e.1 e.2,
    d.nodup.sublist (List.filter_sublist.map Prod.fst)⟩

/-- Map the items, keeping keys and order. -/
def map {μ : Type} (f : κ → ν → μ) (d : Dict κ ν) : Dict κ μ :=
  ⟨d.entries.map fun e => (e.1, f e.1 e.2), by
    have h : (d.entries.map fun e => (e.1, f e.1 e.2)).map Prod.fst = d.entries.map Prod.fst := by
      simp [List.map_map, Function.comp_def]
    rw [h]
    exact d.nodup⟩

section Lookup

variable [DecidableEq κ]

/-- Lookup in a raw list of items. -/
def lookup (k : κ) : List (κ × ν) → Option ν
  | [] => none
  | (k', v) :: rest => if k' = k then some v else lookup k rest

def get? (d : Dict κ ν) (k : κ) : Option ν := lookup k d.entries

def contains (d : Dict κ ν) (k : κ) : Bool := (d.get? k).isSome

/-- Assignment in a raw list of items: in place, or at the end. -/
def assign (k : κ) (v : ν) : List (κ × ν) → List (κ × ν)
  | [] => [(k, v)]
  | (k', v') :: rest => if k' = k then (k', v) :: rest else (k', v') :: assign k v rest

theorem mem_keys_assign {k k' : κ} {v : ν} {l : List (κ × ν)} :
    k' ∈ (assign k v l).map Prod.fst ↔ k' = k ∨ k' ∈ l.map Prod.fst := by
  induction l with
  | nil => simp [assign]
  | cons e rest ih =>
    obtain ⟨a, b⟩ := e
    simp only [assign]
    split
    · rename_i h
      subst h
      simp
    · simp only [List.map_cons, List.mem_cons, ih]
      tauto

theorem nodup_assign {k : κ} {v : ν} {l : List (κ × ν)} (h : (l.map Prod.fst).Nodup) :
    ((assign k v l).map Prod.fst).Nodup := by
  induction l with
  | nil => simp [assign]
  | cons e rest ih =>
    obtain ⟨a, b⟩ := e
    simp only [List.map_cons, List.nodup_cons] at h
    simp only [assign]
    split
    · simpa using h
    · rename_i hne
      simp only [List.map_cons, List.nodup_cons]
      refine ⟨fun hmem => ?_, ih h.2⟩
      rcases mem_keys_assign.mp hmem with he | hmem
      · exact hne he
      · exact h.1 hmem

/-- `d[k] = v`. -/
def set (d : Dict κ ν) (k : κ) (v : ν) : Dict κ ν := ⟨assign k v d.entries, nodup_assign d.nodup⟩

/-- `d.pop(k, None)`. -/
def pop (d : Dict κ ν) (k : κ) : Dict κ ν := d.filter fun k' _ => decide (k' ≠ k)

/-- The dictionary built by assigning the items in turn. -/
def ofList (l : List (κ × ν)) : Dict κ ν := l.foldl (fun d e => d.set e.1 e.2) ∅

/-- `d.update(d')`. -/
def update (d d' : Dict κ ν) : Dict κ ν := d'.entries.foldl (fun d e => d.set e.1 e.2) d

/-- Assignment of a key that is not there yet. -/
def setDefault (d : Dict κ ν) (k : κ) (v : ν) : Dict κ ν := if d.contains k then d else d.set k v

/-! ## Lookups in raw lists -/

theorem lookup_eq_some {k : κ} {v : ν} {l : List (κ × ν)} (h : (l.map Prod.fst).Nodup) :
    lookup k l = some v ↔ (k, v) ∈ l := by
  induction l with
  | nil => simp [lookup]
  | cons e rest ih =>
    obtain ⟨a, b⟩ := e
    simp only [List.map_cons, List.nodup_cons] at h
    simp only [lookup, List.mem_cons, Prod.mk.injEq]
    split
    · rename_i heq
      subst heq
      constructor
      · intro hv
        cases hv
        exact Or.inl ⟨rfl, rfl⟩
      · rintro (⟨-, rfl⟩ | hmem)
        · rfl
        · exact absurd (List.mem_map.mpr ⟨_, hmem, rfl⟩) h.1
    · rename_i hne
      rw [ih h.2]
      constructor
      · exact Or.inr
      · rintro (⟨rfl, -⟩ | hmem)
        · exact absurd rfl hne
        · exact hmem

theorem lookup_assign {k k' : κ} {v : ν} {l : List (κ × ν)} :
    lookup k' (assign k v l) = if k' = k then some v else lookup k' l := by
  induction l with
  | nil =>
    simp only [assign, lookup]
    by_cases h : k' = k
    · simp [h]
    · simp [h, Ne.symm h]
  | cons e rest ih =>
    obtain ⟨a, b⟩ := e
    simp only [assign]
    by_cases ha : a = k
    · subst ha
      by_cases h : k' = a
      · simp [lookup, h]
      · simp [lookup, h, Ne.symm h]
    · simp only [if_neg ha, lookup, ih]
      by_cases hk : a = k'
      · subst hk
        simp [ha]
      · simp [hk]

/-! ## Lookups -/

theorem get?_eq_some {d : Dict κ ν} {k : κ} {v : ν} : d.get? k = some v ↔ (k, v) ∈ d.entries :=
  lookup_eq_some d.nodup

@[simp] theorem get?_empty (k : κ) : (∅ : Dict κ ν).get? k = none := rfl

@[simp] theorem get?_set (d : Dict κ ν) (k k' : κ) (v : ν) :
    (d.set k v).get? k' = if k' = k then some v else d.get? k' := lookup_assign

theorem get?_set_self (d : Dict κ ν) (k : κ) (v : ν) : (d.set k v).get? k = some v := by simp

theorem get?_set_ne (d : Dict κ ν) {k k' : κ} (v : ν) (h : k' ≠ k) :
    (d.set k v).get? k' = d.get? k' := by simp [h]

theorem get?_filter (p : κ → ν → Bool) (d : Dict κ ν) (k : κ) :
    (d.filter p).get? k = (d.get? k).filter (p k) := by
  apply Option.ext
  intro v
  rw [get?_eq_some, Option.filter_eq_some_iff, get?_eq_some]
  simp [filter]

@[simp] theorem get?_pop (d : Dict κ ν) (k k' : κ) :
    (d.pop k).get? k' = if k' = k then none else d.get? k' := by
  rw [pop, get?_filter]
  by_cases h : k' = k
  · simp [h, Option.filter]
    cases d.get? k <;> rfl
  · simp [h, Option.filter]
    cases d.get? k' <;> rfl

@[simp] theorem get?_map {μ : Type} (f : κ → ν → μ) (d : Dict κ ν) (k : κ) :
    (d.map f).get? k = (d.get? k).map (f k) := by
  obtain ⟨entries, h⟩ := d
  simp only [get?, map]
  clear h
  induction entries with
  | nil => rfl
  | cons e rest ih =>
    simp only [List.map_cons, lookup]
    split
    · rename_i h
      subst h
      rfl
    · exact ih

theorem contains_iff {d : Dict κ ν} {k : κ} : d.contains k = true ↔ ∃ v, d.get? k = some v := by
  rw [contains, Option.isSome_iff_exists]

theorem mem_values {d : Dict κ ν} {v : ν} : v ∈ d.values ↔ ∃ k, d.get? k = some v := by
  simp only [values, List.mem_map, get?_eq_some]
  constructor
  · rintro ⟨⟨k, v'⟩, hmem, rfl⟩
    exact ⟨k, hmem⟩
  · rintro ⟨k, hmem⟩
    exact ⟨(k, v), hmem, rfl⟩

omit [DecidableEq κ] in
omit [DecidableEq κ] in
theorem values_map {μ : Type} (f : κ → ν → μ) (d : Dict κ ν) :
    (d.map f).values = d.entries.map fun e => f e.1 e.2 := by
  simp [values, map, List.map_map, Function.comp_def]

/-- The values are distinct if no value stands under two keys. -/
theorem values_nodup {d : Dict κ ν}
    (h : ∀ k k' v, d.get? k = some v → d.get? k' = some v → k = k') : d.values.Nodup := by
  refine List.Nodup.map_on ?_ (List.Nodup.of_map _ d.nodup)
  rintro ⟨k, v⟩ hk ⟨k', v'⟩ hk' heq
  obtain rfl : v = v' := heq
  obtain rfl := h k k' v (get?_eq_some.mpr hk) (get?_eq_some.mpr hk')
  rfl

theorem mem_keys {d : Dict κ ν} {k : κ} : k ∈ d.keys ↔ ∃ v, d.get? k = some v := by
  simp only [keys, List.mem_map, get?_eq_some]
  constructor
  · rintro ⟨⟨k', v⟩, hmem, rfl⟩
    exact ⟨v, hmem⟩
  · rintro ⟨v, hmem⟩
    exact ⟨(k, v), hmem, rfl⟩

theorem get?_eq_none {d : Dict κ ν} {k : κ} : d.get? k = none ↔ k ∉ d.keys := by
  rw [mem_keys, Option.eq_none_iff_forall_ne_some]
  simp

theorem eq_empty_of_get? {d : Dict κ ν} (h : ∀ k, d.get? k = none) : d = ∅ := by
  obtain ⟨entries, nodup⟩ := d
  cases entries with
  | nil => rfl
  | cons e rest =>
    have he := h e.1
    simp [get?, lookup] at he

theorem length_assign (k : κ) (v : ν) (l : List (κ × ν)) :
    (assign k v l).length ≤ l.length + 1 := by
  induction l with
  | nil => simp [assign]
  | cons e rest ih =>
    obtain ⟨a, b⟩ := e
    simp only [assign]
    split
    · simp
    · simpa using ih

theorem length_set (d : Dict κ ν) (k : κ) (v : ν) :
    (d.set k v).entries.length ≤ d.entries.length + 1 := length_assign k v d.entries

theorem length_assign_of_mem {k : κ} {v : ν} {l : List (κ × ν)} (h : k ∈ l.map Prod.fst) :
    (assign k v l).length = l.length := by
  induction l with
  | nil => cases h
  | cons e rest ih =>
    obtain ⟨a, b⟩ := e
    simp only [assign]
    split
    · rfl
    · rename_i hne
      rw [List.map_cons, List.mem_cons] at h
      exact congrArg (· + 1) (ih (h.resolve_left (Ne.symm hne)))

theorem size_set_of_get? {d : Dict κ ν} {k : κ} {v w : ν} (h : d.get? k = some w) :
    (d.set k v).size = d.size :=
  length_assign_of_mem (mem_keys.mpr ⟨w, h⟩)

theorem size_pop_le (d : Dict κ ν) (k : κ) : (d.pop k).size ≤ d.size := List.length_filter_le _ _

/-! ## First values -/

theorem get?_setDefault (d : Dict κ ν) (k k' : κ) (v : ν) :
    (d.setDefault k v).get? k' = (d.get? k').or (if k' = k then some v else none) := by
  unfold setDefault contains
  cases hk : d.get? k with
  | some w =>
    rw [Option.isSome_some, if_pos rfl]
    split
    · rename_i heq
      rw [heq, hk]
      rfl
    · rw [Option.or_none]
  | none =>
    rw [Option.isSome_none, if_neg Bool.false_ne_true, get?_set]
    split
    · rename_i heq
      rw [heq, hk]
      rfl
    · rw [Option.or_none]

/-- Only the first value of every key is kept. -/
theorem get?_foldl_setDefault (l : List (κ × ν)) (d : Dict κ ν) (k : κ) :
    (l.foldl (fun d e => d.setDefault e.1 e.2) d).get? k = (d.get? k).or (lookup k l) := by
  induction l generalizing d with
  | nil => rw [List.foldl_nil, lookup, Option.or_none]
  | cons e rest ih =>
    obtain ⟨k', v⟩ := e
    rw [List.foldl_cons, ih, get?_setDefault, Option.or_assoc, lookup]
    by_cases h : k' = k
    · rw [if_pos h.symm, if_pos h, Option.some_or]
    · rw [if_neg (Ne.symm h), if_neg h, Option.none_or]

theorem lookup_isSome {k : κ} {l : List (κ × ν)} : (lookup k l).isSome = true ↔
    k ∈ l.map Prod.fst := by
  induction l with
  | nil => simp [lookup]
  | cons e rest ih =>
    obtain ⟨k', v⟩ := e
    rw [lookup, List.map_cons, List.mem_cons, ← ih]
    by_cases h : k' = k
    · simp [h]
    · simp [h, Ne.symm h]

theorem lookup_append (k : κ) (l l' : List (κ × ν)) :
    lookup k (l ++ l') = (lookup k l).or (lookup k l') := by
  induction l with
  | nil => rfl
  | cons e rest ih =>
    obtain ⟨k', v⟩ := e
    rw [List.cons_append, lookup, lookup, ih]
    split
    · rfl
    · rfl

theorem mem_of_lookup {k : κ} {v : ν} {l : List (κ × ν)} (h : lookup k l = some v) :
    (k, v) ∈ l := by
  induction l with
  | nil => cases h
  | cons e rest ih =>
    obtain ⟨k', v'⟩ := e
    rw [lookup] at h
    split at h
    · rename_i hk
      rw [Option.some.injEq] at h
      rw [hk, h]
      exact List.mem_cons_self
    · exact List.mem_cons_of_mem _ (ih h)

theorem lookup_of_countP_le_one {k : κ} {v : ν} {l : List (κ × ν)}
    (hcount : l.countP (fun e => decide (e.1 = k)) ≤ 1) (hmem : (k, v) ∈ l) :
    lookup k l = some v := by
  induction l with
  | nil => cases hmem
  | cons e rest ih =>
    obtain ⟨k', v'⟩ := e
    rw [List.countP_cons] at hcount
    rw [lookup]
    rcases List.mem_cons.mp hmem with heq | hrest
    · cases heq
      rw [if_pos rfl]
    · have hpos : 0 < rest.countP fun e => decide (e.1 = k) :=
        List.countP_pos_iff.mpr ⟨(k, v), hrest, decide_eq_true rfl⟩
      by_cases h : k' = k
      · simp only [h, decide_true, if_true] at hcount
        omega
      · rw [if_neg h]
        exact ih (by simpa [h] using hcount) hrest

/-- The first value of a key that occurs once does not depend on the order. -/
theorem lookup_perm {k : κ} {l l' : List (κ × ν)} (hperm : l.Perm l')
    (hcount : l.countP (fun e => decide (e.1 = k)) ≤ 1) : lookup k l = lookup k l' := by
  cases h : lookup k l with
  | none =>
    rw [eq_comm, ← Option.not_isSome_iff_eq_none, lookup_isSome]
    rw [← Option.not_isSome_iff_eq_none, lookup_isSome] at h
    exact fun hmem => h ((hperm.map _).mem_iff.mpr hmem)
  | some v =>
    rw [hperm.countP_eq] at hcount
    exact (lookup_of_countP_le_one hcount (hperm.mem_iff.mp (mem_of_lookup h))).symm

/-! ## Agreement on lookups -/

/-- Equality of dictionaries without regard to order. -/
def Same (d d' : Dict κ ν) : Prop := ∀ k, d.get? k = d'.get? k

theorem Same.refl (d : Dict κ ν) : Same d d := fun _ => rfl

theorem Same.symm {d d' : Dict κ ν} (h : Same d d') : Same d' d := fun k => (h k).symm

theorem Same.trans {d d' d'' : Dict κ ν} (h : Same d d') (h' : Same d' d'') : Same d d'' :=
  fun k => (h k).trans (h' k)

/-- `d == d'`: every item of either is an item of the other. -/
def beq [DecidableEq ν] (d d' : Dict κ ν) : Bool :=
  d.entries.all (fun e => decide (d'.get? e.1 = some e.2)) &&
    d'.entries.all (fun e => decide (d.get? e.1 = some e.2))

theorem beq_iff [DecidableEq ν] {d d' : Dict κ ν} : d.beq d' = true ↔ Same d d' := by
  simp only [beq, Bool.and_eq_true, List.all_eq_true, decide_eq_true_eq, Prod.forall,
    ← get?_eq_some]
  constructor
  · rintro ⟨h, h'⟩ k
    apply Option.ext
    intro v
    exact ⟨h k v, h' k v⟩
  · intro h
    exact ⟨fun k v hv => (h k) ▸ hv, fun k v hv => (h k) ▸ hv⟩

theorem entries_perm_of_same {d d' : Dict κ ν} (h : Same d d') : d.entries.Perm d'.entries := by
  refine (List.perm_ext_iff_of_nodup (List.Nodup.of_map _ d.nodup)
    (List.Nodup.of_map _ d'.nodup)).mpr ?_
  rintro ⟨k, v⟩
  rw [← get?_eq_some, ← get?_eq_some, h k]

theorem Same.values_perm {d d' : Dict κ ν} (h : Same d d') : d.values.Perm d'.values :=
  (entries_perm_of_same h).map _

/-! ## Dictionaries built from lists -/

/-- Later items win, and keys of the start that no item names are kept. -/
theorem get?_foldl_set {l : List (κ × ν)} (hl : (l.map Prod.fst).Nodup) (d : Dict κ ν) (k : κ) :
    (l.foldl (fun d e => d.set e.1 e.2) d).get? k = (lookup k l).or (d.get? k) := by
  induction l generalizing d with
  | nil => simp [lookup]
  | cons e rest ih =>
    obtain ⟨a, b⟩ := e
    simp only [List.map_cons, List.nodup_cons] at hl
    rw [List.foldl_cons, ih hl.2]
    simp only [lookup, get?_set]
    by_cases h : a = k
    · subst h
      have hnone : lookup a rest = none := by
        rw [Option.eq_none_iff_forall_ne_some]
        intro v hv
        exact hl.1 (List.mem_map.mpr ⟨_, (lookup_eq_some hl.2).mp hv, rfl⟩)
      simp [hnone]
    · simp [h, Ne.symm h]

@[simp] theorem get?_update (d d' : Dict κ ν) (k : κ) :
    (d.update d').get? k = (d'.get? k).or (d.get? k) := get?_foldl_set d'.nodup d k

theorem assign_of_not_mem {k : κ} {v : ν} {l : List (κ × ν)} (h : k ∉ l.map Prod.fst) :
    assign k v l = l ++ [(k, v)] := by
  induction l with
  | nil => rfl
  | cons e rest ih =>
    obtain ⟨a, b⟩ := e
    simp only [List.map_cons, List.mem_cons, not_or] at h
    simp only [assign, if_neg (Ne.symm h.1), ih h.2, List.cons_append]

/-- Items with distinct new keys are appended in order. -/
theorem entries_foldl_set {l : List (κ × ν)} {d : Dict κ ν}
    (h : ((d.entries ++ l).map Prod.fst).Nodup) :
    (l.foldl (fun d e => d.set e.1 e.2) d).entries = d.entries ++ l := by
  induction l generalizing d with
  | nil => simp
  | cons e rest ih =>
    obtain ⟨a, b⟩ := e
    have hnew : a ∉ d.entries.map Prod.fst := by
      intro hmem
      rw [List.map_append, List.map_cons, List.nodup_append] at h
      exact h.2.2 a hmem a (List.mem_cons_self) rfl
    have hset : (d.set a b).entries = d.entries ++ [(a, b)] := assign_of_not_mem hnew
    rw [List.foldl_cons, ih (by simpa [hset] using h), hset]
    simp

theorem entries_ofList {l : List (κ × ν)} (hl : (l.map Prod.fst).Nodup) :
    (ofList l).entries = l := by
  rw [ofList, entries_foldl_set (by simpa [EmptyCollection.emptyCollection, empty] using hl)]
  rfl

theorem get?_ofList {l : List (κ × ν)} (hl : (l.map Prod.fst).Nodup) (k : κ) :
    (ofList l).get? k = lookup k l := by
  rw [ofList, get?_foldl_set hl]
  simp

end Lookup

end Dict

end Library

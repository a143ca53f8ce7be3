import Mathlib.Data.List.Nodup

/-!
# Insertion-ordered dictionaries

A Python `dict`: a finite map that remembers the order in which its keys were first
inserted. The entries carry the proof that no key occurs twice.
-/

namespace Py

/-- A `dict`: entries in insertion order, with distinct keys. -/
structure Dict (κ ν : Type) where
  entries : List (κ × ν)
  nodup : (entries.map Prod.fst).Nodup
  deriving DecidableEq

namespace Dict

variable {κ κ' ν ν' : Type} [DecidableEq κ] [DecidableEq κ']

/-- `{}`. -/
def empty : Dict κ ν := ⟨[], List.nodup_nil⟩

/-- The entries after `d[k] = v`: the value of a known key is replaced where it stands, a
new key goes to the end. -/
def insertEntry (k : κ) (v : ν) : List (κ × ν) → List (κ × ν)
  | [] => [(k, v)]
  | (k', v') :: es => if k' = k then (k, v) :: es else (k', v') :: insertEntry k v es

theorem mem_keys_insertEntry {k : κ} {v : ν} {es : List (κ × ν)} {x : κ}
    (h : x ∈ (insertEntry k v es).map Prod.fst) : x = k ∨ x ∈ es.map Prod.fst := by
  induction es with
  | nil => exact Or.inl (by simpa [insertEntry] using h)
  | cons e es ih =>
    obtain ⟨k', v'⟩ := e
    by_cases hk : k' = k
    · simp only [insertEntry, hk, if_true, List.map_cons, List.mem_cons] at h ⊢
      exact h.imp id Or.inr
    · simp only [insertEntry, hk, if_false, List.map_cons, List.mem_cons] at h ⊢
      rcases h with h | h
      · exact Or.inr (Or.inl h)
      · exact (ih h).imp id Or.inr

theorem nodup_insertEntry {k : κ} {v : ν} {es : List (κ × ν)}
    (h : (es.map Prod.fst).Nodup) : ((insertEntry k v es).map Prod.fst).Nodup := by
  induction es with
  | nil => simp [insertEntry]
  | cons e es ih =>
    obtain ⟨k', v'⟩ := e
    rw [List.map_cons, List.nodup_cons] at h
    by_cases hk : k' = k
    · subst hk
      simpa [insertEntry] using h
    · simp only [insertEntry, hk, if_false, List.map_cons, List.nodup_cons]
      refine ⟨fun hm => ?_, ih h.2⟩
      rcases mem_keys_insertEntry hm with hk' | hm
      · exact hk hk'
      · exact h.1 hm

/-- `d[k] = v`. -/
def insert (d : Dict κ ν) (k : κ) (v : ν) : Dict κ ν :=
  ⟨insertEntry k v d.entries, nodup_insertEntry d.nodup⟩

/-- `d.update(other)`, for the items of `other` in order. -/
def update (d : Dict κ ν) (items : List (κ × ν)) : Dict κ ν :=
  items.foldl (fun d item => d.insert item.1 item.2) d

/-- `{k: f(v) for k, v in d.items()}`. -/
def mapValues (f : ν → ν') (d : Dict κ ν) : Dict κ ν' :=
  ⟨d.entries.map fun e => (e.1, f e.2), by
    simpa [List.map_map, Function.comp_def] using d.nodup⟩

/-! ### Looking up -/

/-- `d.get(k)`. -/
def get? (d : Dict κ ν) (k : κ) : Option ν := d.entries.lookup k

/-- `d.keys()`, in insertion order. -/
def keys (d : Dict κ ν) : List κ := d.entries.map Prod.fst

theorem lookup_of_ne {k x : κ} {v : ν} {es : List (κ × ν)} (h : x ≠ k) :
    ((k, v) :: es).lookup x = es.lookup x := by
  rw [List.lookup_cons, beq_false_of_ne h]

theorem lookup_isSome_iff {k : κ} {es : List (κ × ν)} :
    (es.lookup k).isSome ↔ k ∈ es.map Prod.fst := by
  simp only [List.lookup_isSome_iff, List.mem_map]
  constructor
  · rintro ⟨e, he, hk⟩
    exact ⟨e, he, (eq_of_beq hk).symm⟩
  · rintro ⟨e, he, rfl⟩
    exact ⟨e, he, beq_self_eq_true _⟩

theorem lookup_eq_none {k : κ} {es : List (κ × ν)} (h : k ∉ es.map Prod.fst) :
    es.lookup k = none := by
  rw [← Option.not_isSome_iff_eq_none, lookup_isSome_iff]
  exact h

theorem mem_keys_iff {d : Dict κ ν} {k : κ} : k ∈ d.keys ↔ (d.get? k).isSome :=
  lookup_isSome_iff.symm

@[simp] theorem get?_empty (k : κ) : (empty : Dict κ ν).get? k = none := rfl

theorem lookup_insertEntry (k x : κ) (v : ν) (es : List (κ × ν)) :
    (insertEntry k v es).lookup x = if x = k then some v else es.lookup x := by
  induction es with
  | nil =>
    by_cases hx : x = k
    · simp [insertEntry, hx]
    · simp [insertEntry, lookup_of_ne hx, hx]
  | cons e es ih =>
    obtain ⟨k', v'⟩ := e
    by_cases hk : k' = k
    · subst hk
      by_cases hx : x = k'
      · simp [insertEntry, hx]
      · simp [insertEntry, lookup_of_ne hx, hx]
    · rw [insertEntry, if_neg hk]
      by_cases hx : x = k'
      · subst hx
        simp [hk]
      · rw [lookup_of_ne hx, lookup_of_ne hx, ih]

theorem get?_insert (d : Dict κ ν) (k x : κ) (v : ν) :
    (d.insert k v).get? x = if x = k then some v else d.get? x :=
  lookup_insertEntry k x v d.entries

/-- The items of an update win over what was there. -/
theorem get?_update (d : Dict κ ν) {items : List (κ × ν)} (h : (items.map Prod.fst).Nodup)
    (x : κ) : (d.update items).get? x = (items.lookup x).or (d.get? x) := by
  induction items generalizing d with
  | nil => rfl
  | cons item items ih =>
    obtain ⟨k, v⟩ := item
    rw [List.map_cons, List.nodup_cons] at h
    change ((d.insert k v).update items).get? x = _
    rw [ih (d.insert k v) h.2, get?_insert]
    by_cases hx : x = k
    · subst hx
      simp [lookup_eq_none h.1]
    · rw [if_neg hx, lookup_of_ne hx]

theorem get?_mapValues (f : ν → ν') (d : Dict κ ν) (x : κ) :
    (d.mapValues f).get? x = (d.get? x).map f := by
  change (d.entries.map fun e => (e.1, f e.2)).lookup x = (d.entries.lookup x).map f
  induction d.entries with
  | nil => rfl
  | cons e es ih =>
    obtain ⟨k, v⟩ := e
    by_cases hx : x = k
    · subst hx
      simp
    · rw [List.map_cons, lookup_of_ne hx, lookup_of_ne hx, ih]

/-- Looking up under keys that are renamed apart. -/
theorem lookup_map_keys {g : κ → κ'} (hg : Function.Injective g) (es : List (κ × ν)) (k : κ) :
    (es.map fun e => (g e.1, e.2)).lookup (g k) = es.lookup k := by
  induction es with
  | nil => rfl
  | cons e es ih =>
    obtain ⟨k', v⟩ := e
    by_cases hk : k = k'
    · subst hk
      simp
    · rw [List.map_cons, lookup_of_ne (hg.ne hk), lookup_of_ne hk, ih]

end Dict

end Py

import Mathlib.Data.List.Nodup

namespace Sentinel

/-- A dictionary that keeps its keys in the order of their first insertion. -/
structure Dict (κ ν : Type*) where
  items : List (κ × ν)
  nodup : (items.map Prod.fst).Nodup
  deriving DecidableEq

namespace Dict

variable {κ ν : Type*}

def empty : Dict κ ν := ⟨[], List.nodup_nil⟩

def keys (d : Dict κ ν) : List κ := d.items.map Prod.fst

variable [DecidableEq κ]

def lookup (k : κ) : List (κ × ν) → Option ν
  | [] => none
  | (k', v) :: l => if k' = k then some v else lookup k l

def put (k : κ) (v : ν) : List (κ × ν) → List (κ × ν)
  | [] => [(k, v)]
  | (k', v') :: l => if k' = k then (k, v) :: l else (k', v') :: put k v l

theorem mem_keys_put {k k' : κ} {v : ν} {l : List (κ × ν)} :
    k' ∈ (put k v l).map Prod.fst ↔ k' = k ∨ k' ∈ l.map Prod.fst := by
  induction l with
  | nil => simp [put]
  | cons e l ih =>
    obtain ⟨k'', v'⟩ := e
    by_cases h : k'' = k
    · subst h
      simp [put]
    · simp only [put, h, ↓reduceIte, List.map_cons, List.mem_cons, ih]
      exact or_left_comm

theorem nodup_put {k : κ} {v : ν} {l : List (κ × ν)} (h : (l.map Prod.fst).Nodup) :
    ((put k v l).map Prod.fst).Nodup := by
  induction l with
  | nil => simp [put]
  | cons e l ih =>
    obtain ⟨k', v'⟩ := e
    rw [List.map_cons, List.nodup_cons] at h
    by_cases hk : k' = k
    · subst hk
      simpa [put] using h
    · rw [put, if_neg hk, List.map_cons, List.nodup_cons, mem_keys_put, not_or]
      exact ⟨⟨hk, h.1⟩, ih h.2⟩

def get? (d : Dict κ ν) (k : κ) : Option ν := lookup k d.items

/-- `d[k] = v`: a key already there keeps its place. -/
def set (d : Dict κ ν) (k : κ) (v : ν) : Dict κ ν := ⟨put k v d.items, nodup_put d.nodup⟩

/-- `{**d, **e}`. -/
def merge (d e : Dict κ ν) : Dict κ ν := e.items.foldl (fun d kv => d.set kv.1 kv.2) d

@[simp] theorem get?_empty (k : κ) : (empty : Dict κ ν).get? k = none := rfl

theorem lookup_put (k k' : κ) (v : ν) (l : List (κ × ν)) :
    lookup k' (put k v l) = if k' = k then some v else lookup k' l := by
  induction l with
  | nil => simp [put, lookup, eq_comm]
  | cons e l ih =>
    obtain ⟨k'', v'⟩ := e
    by_cases h : k'' = k
    · subst h
      by_cases hk : k'' = k'
      · simp [put, lookup, hk]
      · simp [put, lookup, hk, Ne.symm hk]
    · by_cases hk : k'' = k'
      · subst hk
        simp [put, lookup, h]
      · simp [put, lookup, h, hk, ih]

theorem get?_set (d : Dict κ ν) (k k' : κ) (v : ν) :
    (d.set k v).get? k' = if k' = k then some v else d.get? k' :=
  lookup_put k k' v d.items

theorem get?_foldr_set (l : List (κ × ν)) (d : Dict κ ν) (k : κ) :
    (l.foldr (fun e d => d.set e.1 e.2) d).get? k = (lookup k l).or (d.get? k) := by
  induction l with
  | nil => rfl
  | cons e l ih =>
    rw [List.foldr_cons, get?_set, lookup, ih]
    by_cases h : e.1 = k
    · simp [h]
    · simp [h, Ne.symm h]

/-- Change in place the object that `d` holds under `k`. -/
def modify (d : Dict κ ν) (k : κ) (f : ν → ν) : Dict κ ν :=
  match d.get? k with
  | some v => d.set k (f v)
  | none => d

theorem get?_modify (d : Dict κ ν) (k k' : κ) (f : ν → ν) :
    (d.modify k f).get? k' = (d.get? k').map (fun v => if k' = k then f v else v) := by
  unfold modify
  by_cases hk : k' = k
  · subst hk
    cases hv : d.get? k' <;> simp [hv, get?_set]
  · cases hv : d.get? k <;> simp [hk, get?_set]

theorem lookup_eq_some_of_mem {k : κ} {v : ν} {l : List (κ × ν)} (hn : (l.map Prod.fst).Nodup)
    (h : (k, v) ∈ l) : lookup k l = some v := by
  induction l with
  | nil => simp at h
  | cons e l ih =>
    obtain ⟨k', v'⟩ := e
    rw [List.map_cons, List.nodup_cons] at hn
    obtain he | hm := List.mem_cons.mp h
    · cases he
      simp [lookup]
    · have hne : k' ≠ k := fun he => hn.1 (List.mem_map.mpr ⟨(k, v), hm, he.symm⟩)
      simp [lookup, hne, ih hn.2 hm]

theorem get?_eq_some_of_mem {d : Dict κ ν} {k : κ} {v : ν} (h : (k, v) ∈ d.items) :
    d.get? k = some v := lookup_eq_some_of_mem d.nodup h

theorem mem_of_lookup_eq_some {k : κ} {v : ν} {l : List (κ × ν)} (h : lookup k l = some v) :
    (k, v) ∈ l := by
  induction l with
  | nil => simp [lookup] at h
  | cons e l ih =>
    obtain ⟨k', v'⟩ := e
    by_cases hk : k' = k
    · simp only [lookup, hk, ↓reduceIte, Option.some.injEq] at h
      rw [hk, h]
      exact List.mem_cons_self
    · simp only [lookup, hk, ↓reduceIte] at h
      exact List.mem_cons_of_mem _ (ih h)

theorem mem_items_iff {d : Dict κ ν} {k : κ} {v : ν} : (k, v) ∈ d.items ↔ d.get? k = some v :=
  ⟨get?_eq_some_of_mem, mem_of_lookup_eq_some⟩

theorem mem_keys_iff {d : Dict κ ν} {k : κ} : k ∈ d.keys ↔ (d.get? k).isSome := by
  rw [Option.isSome_iff_exists, keys, List.mem_map]
  constructor
  · rintro ⟨⟨k', v⟩, h, rfl⟩
    exact ⟨v, mem_items_iff.mp h⟩
  · rintro ⟨v, h⟩
    exact ⟨(k, v), mem_items_iff.mpr h, rfl⟩

theorem mem_keys_set {d : Dict κ ν} {k k' : κ} {v : ν} :
    k' ∈ (d.set k v).keys ↔ k' = k ∨ k' ∈ d.keys := mem_keys_put

/-- `{k: v for k, v in d.items() if p(k)}`. -/
def filter (p : κ → Bool) (d : Dict κ ν) : Dict κ ν where
  items := d.items.filter (fun e => p e.1)
  nodup := d.nodup.sublist (List.filter_sublist.map Prod.fst)

theorem lookup_filter (p : κ → Bool) (k : κ) (l : List (κ × ν)) :
    lookup k (l.filter (fun e => p e.1)) = if p k then lookup k l else none := by
  induction l with
  | nil => simp [lookup]
  | cons e l ih =>
    obtain ⟨k', v'⟩ := e
    by_cases hk : k' = k
    · subst hk
      by_cases hp : p k' <;> simp [lookup, hp, ih]
    · by_cases hp : p k' <;> simp [lookup, hp, hk, ih]

theorem get?_filter (p : κ → Bool) (d : Dict κ ν) (k : κ) :
    (d.filter p).get? k = if p k then d.get? k else none := lookup_filter p k d.items

theorem put_of_not_mem {k : κ} {v : ν} {l : List (κ × ν)} (h : k ∉ l.map Prod.fst) :
    put k v l = l ++ [(k, v)] := by
  induction l with
  | nil => rfl
  | cons e l ih =>
    rw [List.map_cons, List.mem_cons, not_or] at h
    rw [put, if_neg (Ne.symm h.1), ih h.2]
    rfl

theorem merge_items {d e : Dict κ ν} (h : ∀ k ∈ e.keys, k ∉ d.keys) :
    (d.merge e).items = d.items ++ e.items := by
  have hlist : ∀ (l : List (κ × ν)) (d : Dict κ ν), (l.map Prod.fst).Nodup →
      (∀ k ∈ l.map Prod.fst, k ∉ d.keys) →
      (l.foldl (fun d kv => d.set kv.1 kv.2) d).items = d.items ++ l := by
    intro l
    induction l with
    | nil => simp
    | cons e l ih =>
      intro d hl hd
      rw [List.map_cons, List.nodup_cons] at hl
      have hput : (d.set e.1 e.2).items = d.items ++ [e] :=
        put_of_not_mem (hd e.1 List.mem_cons_self)
      rw [List.foldl_cons, ih (d.set e.1 e.2) hl.2, hput, List.append_assoc,
        List.singleton_append]
      intro k hk hmem
      obtain rfl | hmem := mem_keys_set.mp hmem
      · exact hl.1 hk
      · exact hd k (List.mem_cons_of_mem _ hk) hmem
  exact hlist e.items d e.nodup h

theorem empty_merge (e : Dict κ ν) : empty.merge e = e := by
  have hitems : (empty.merge e).items = e.items := merge_items fun _ _ => List.not_mem_nil
  cases h : empty.merge e
  cases e
  rw [h] at hitems
  cases hitems
  rfl

def valuesOf (l : List (κ × ν)) (k : κ) : List ν := (l.filter (fun e => e.1 = k)).map Prod.snd

theorem length_valuesOf (l : List (κ × ν)) (k : κ) :
    (valuesOf l k).length = (l.map Prod.fst).count k := by
  rw [valuesOf, List.length_map, ← List.countP_eq_length_filter, List.count, List.countP_map]
  rfl

theorem nodup_iff_length_valuesOf {l : List (κ × ν)} :
    (l.map Prod.fst).Nodup ↔ ∀ k, (valuesOf l k).length ≤ 1 := by
  rw [List.nodup_iff_count_le_one]
  simp only [length_valuesOf]

theorem valuesOf_items (d : Dict κ ν) (k : κ) : valuesOf d.items k = (d.get? k).toList := by
  have hlist : ∀ l : List (κ × ν), (l.map Prod.fst).Nodup →
      valuesOf l k = (lookup k l).toList := by
    intro l hl
    induction l with
    | nil => rfl
    | cons e l ih =>
      rw [List.map_cons, List.nodup_cons] at hl
      have hrest := ih hl.2
      by_cases h : e.1 = k
      · have hempty : valuesOf l k = [] := by
          rw [← List.length_eq_zero_iff, length_valuesOf, ← h]
          exact List.count_eq_zero_of_not_mem hl.1
        simp only [valuesOf] at hempty
        simp [valuesOf, lookup, h, hempty]
      · simp only [valuesOf] at hrest
        simp [valuesOf, lookup, h, hrest]
  exact hlist d.items d.nodup

end Dict

end Sentinel

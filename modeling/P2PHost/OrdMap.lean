import Mathlib.Data.List.Sort

/-!
# Ordered maps

`std::map` as the Host uses it for `m_peers`, `m_sessions` and
`m_capabilities`: entries ascending by key, so that iteration follows key
order and `size()` counts keys. Lookup, assignment through `operator[]`,
`count` and `erase` are the operations the Host performs; no balancing or
allocation behaviour is modelled.
-/

namespace P2PHost

/-- A `std::map`: its entries, ascending by key. -/
structure OrdMap (κ ν : Type) [LinearOrder κ] where
  entries : List (κ × ν)
  sorted : (entries.map Prod.fst).Sorted (· < ·)

namespace OrdMap

variable {κ ν : Type} [LinearOrder κ]

/-- The value stored under `k` in an entry list. -/
def lookup (k : κ) : List (κ × ν) → Option ν
  | [] => none
  | (k', v) :: rest => if k = k' then some v else lookup k rest

/-- Place `(k, v)` at its rank, replacing the entry of `k` if there is one. -/
def insertEntry (k : κ) (v : ν) : List (κ × ν) → List (κ × ν)
  | [] => [(k, v)]
  | (k', v') :: rest =>
    if k < k' then (k, v) :: (k', v') :: rest
    else if k = k' then (k, v) :: rest
    else (k', v') :: insertEntry k v rest

theorem mem_keys_insertEntry {k b : κ} {v : ν} :
    ∀ {l : List (κ × ν)}, b ∈ (insertEntry k v l).map Prod.fst → b = k ∨ b ∈ l.map Prod.fst
  | [], h => by simpa [insertEntry] using h
  | (k', v') :: rest, h => by
    simp only [insertEntry] at h
    split_ifs at h with hlt heq
    · simpa using h
    · simp only [List.map_cons, List.mem_cons] at h ⊢
      rcases h with h | h
      · exact .inl h
      · exact .inr (.inr h)
    · simp only [List.map_cons, List.mem_cons] at h ⊢
      rcases h with h | h
      · exact .inr (.inl h)
      · rcases mem_keys_insertEntry h with h | h
        · exact .inl h
        · exact .inr (.inr h)

theorem sorted_insertEntry (k : κ) (v : ν) :
    ∀ {l : List (κ × ν)}, (l.map Prod.fst).Sorted (· < ·) →
      ((insertEntry k v l).map Prod.fst).Sorted (· < ·)
  | [], _ => by simp [insertEntry]
  | (k', v') :: rest, h => by
    rw [List.map_cons, List.sorted_cons] at h
    simp only [insertEntry]
    split_ifs with hlt heq
    · simp only [List.map_cons, List.sorted_cons, List.mem_cons]
      refine ⟨?_, h.1, h.2⟩
      rintro b (rfl | hb)
      · exact hlt
      · exact hlt.trans (h.1 b hb)
    · subst heq
      simpa using h
    · simp only [List.map_cons, List.sorted_cons]
      refine ⟨fun b hb => ?_, sorted_insertEntry k v h.2⟩
      rcases mem_keys_insertEntry hb with rfl | hb
      · exact lt_of_le_of_ne (not_lt.mp hlt) (Ne.symm heq)
      · exact h.1 b hb

theorem lookup_insertEntry (k k' : κ) (v : ν) :
    ∀ l : List (κ × ν), lookup k' (insertEntry k v l) = if k' = k then some v else lookup k' l
  | [] => by simp [insertEntry, lookup]
  | (j, w) :: rest => by
    have ih := lookup_insertEntry k k' v rest
    simp only [insertEntry]
    split_ifs with hlt heq <;> by_cases h1 : k' = k <;> by_cases h2 : k' = j <;>
      simp_all [lookup]

theorem lookup_filter_ne (k k' : κ) :
    ∀ l : List (κ × ν), lookup k' (l.filter (fun e => e.1 ≠ k)) = if k' = k then none else lookup k' l
  | [] => by simp [lookup]
  | (j, w) :: rest => by
    have ih := lookup_filter_ne k k' rest
    by_cases hj : j = k <;> by_cases h : k' = j <;> simp_all [lookup, List.filter_cons]

theorem lookup_isSome_iff {k : κ} :
    ∀ {l : List (κ × ν)}, (lookup k l).isSome ↔ k ∈ l.map Prod.fst
  | [] => by simp [lookup]
  | (j, w) :: rest => by
    by_cases h : k = j <;> simp [lookup, h, lookup_isSome_iff]

theorem lookup_of_mem {e : κ × ν} :
    ∀ {l : List (κ × ν)}, (l.map Prod.fst).Sorted (· < ·) → e ∈ l → lookup e.1 l = some e.2
  | (k, v) :: rest, sorted, mem => by
    rw [List.map_cons, List.sorted_cons] at sorted
    rcases List.mem_cons.1 mem with rfl | mem
    · simp [lookup]
    · have hne : e.1 ≠ k := (ne_of_lt (sorted.1 e.1 (List.mem_map_of_mem _ mem))).symm
      simp [lookup, hne, lookup_of_mem sorted.2 mem]

/-- The empty map. -/
def empty : OrdMap κ ν := ⟨[], List.sorted_nil⟩

/-- `find`: the value under `k`, if any. -/
def find? (m : OrdMap κ ν) (k : κ) : Option ν := lookup k m.entries

/-- `count(k) != 0`. -/
def contains (m : OrdMap κ ν) (k : κ) : Bool := (m.find? k).isSome

def size (m : OrdMap κ ν) : Nat := m.entries.length

/-- The keys in iteration order. -/
def keys (m : OrdMap κ ν) : List κ := m.entries.map Prod.fst

/-- Assignment `m[k] = v`. -/
def insert (m : OrdMap κ ν) (k : κ) (v : ν) : OrdMap κ ν :=
  ⟨insertEntry k v m.entries, sorted_insertEntry k v m.sorted⟩

def erase (m : OrdMap κ ν) (k : κ) : OrdMap κ ν :=
  ⟨m.entries.filter (fun e => e.1 ≠ k), m.sorted.sublist ((List.filter_sublist _).map _)⟩

/-- `operator[]` used as a read: the value under `k`, after inserting the
default value when `k` was absent. -/
def index [Inhabited ν] (m : OrdMap κ ν) (k : κ) : ν × OrdMap κ ν :=
  match m.find? k with
  | some v => (v, m)
  | none => (default, m.insert k default)

@[simp] theorem find?_empty (k : κ) : (empty : OrdMap κ ν).find? k = none := rfl

@[simp] theorem find?_insert (m : OrdMap κ ν) (k k' : κ) (v : ν) :
    (m.insert k v).find? k' = if k' = k then some v else m.find? k' :=
  lookup_insertEntry k k' v m.entries

@[simp] theorem find?_erase (m : OrdMap κ ν) (k k' : κ) :
    (m.erase k).find? k' = if k' = k then none else m.find? k' :=
  lookup_filter_ne k k' m.entries

@[simp] theorem contains_empty (k : κ) : (empty : OrdMap κ ν).contains k = false := rfl

@[simp] theorem contains_insert (m : OrdMap κ ν) (k k' : κ) (v : ν) :
    (m.insert k v).contains k' = true ↔ k' = k ∨ m.contains k' = true := by
  unfold contains
  rw [find?_insert]
  split_ifs with h <;> simp [h]

theorem contains_iff (m : OrdMap κ ν) (k : κ) : m.contains k = true ↔ ∃ v, m.find? k = some v :=
  Option.isSome_iff_exists

theorem mem_keys (m : OrdMap κ ν) (k : κ) : k ∈ m.keys ↔ m.contains k = true :=
  lookup_isSome_iff.symm

theorem keys_sorted (m : OrdMap κ ν) : m.keys.Sorted (· < ·) := m.sorted

theorem find?_of_mem (m : OrdMap κ ν) {e : κ × ν} (h : e ∈ m.entries) :
    m.find? e.1 = some e.2 :=
  lookup_of_mem m.sorted h

theorem index_find? [Inhabited ν] (m : OrdMap κ ν) (k : κ) :
    ((m.index k).2.find? k) = some (m.index k).1 := by
  unfold index
  cases h : m.find? k <;> simp [h]

theorem find?_index [Inhabited ν] (m : OrdMap κ ν) (k k' : κ) (hk : k' ≠ k) :
    (m.index k).2.find? k' = m.find? k' := by
  unfold index
  cases m.find? k <;> simp [hk]

end OrdMap

end P2PHost

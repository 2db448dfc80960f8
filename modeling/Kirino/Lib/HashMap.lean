import Mathlib.Data.List.Nodup
import Mathlib.Data.List.Perm.Subperm
/-!
# HashMap — a finite map as its entries, each key once

The observable content of a hash map: the list of its entries in iteration order, with no key twice.  The operations
are those of a standard library map (`get?`, `insert`, `remove`, `retain`, `len`); each has one lemma saying what
`get?` reads after it, and everything else is proved from those.
-/
namespace Kirino
namespace Lib

/-- A finite map: its entries, each key at most once. -/
structure HashMap (K V : Type) where
  entries : List (K × V)
  nodup : (entries.map Prod.fst).Nodup

namespace HashMap

variable {K V : Type}

theorem nodup_filter (m : HashMap K V) (f : K × V → Bool) : ((m.entries.filter f).map Prod.fst).Nodup :=
  m.nodup.sublist (List.filter_sublist.map Prod.fst)

def empty : HashMap K V := ⟨[], List.nodup_nil⟩

def len (m : HashMap K V) : Nat := m.entries.length

def keys (m : HashMap K V) : List K := m.entries.map Prod.fst

theorem len_eq_length_keys (m : HashMap K V) : m.len = m.keys.length := by
  unfold len keys
  rw [List.length_map]

/-- Keep the entries the predicate accepts. -/
def retain (m : HashMap K V) (f : K → V → Bool) : HashMap K V :=
  ⟨m.entries.filter (fun e => f e.1 e.2), m.nodup_filter _⟩

/-- Change the values where they stand. -/
def mapValues (m : HashMap K V) (f : V → V) : HashMap K V :=
  ⟨m.entries.map (fun e => (e.1, f e.2)), by
    rw [List.map_map]
    exact m.nodup⟩

section Keyed
variable [DecidableEq K]

def get? (m : HashMap K V) (k : K) : Option V := (m.entries.find? (fun e => decide (e.1 = k))).map Prod.snd

def remove (m : HashMap K V) (k : K) : HashMap K V := m.retain (fun k' _ => decide (k' ≠ k))

def insert (m : HashMap K V) (k : K) (v : V) : HashMap K V :=
  ⟨(k, v) :: (m.remove k).entries, by
    rw [List.map_cons, List.nodup_cons]
    refine ⟨fun h => ?_, (m.remove k).nodup⟩
    obtain ⟨e, he, hk⟩ := List.mem_map.1 h
    have := (List.mem_filter.1 he).2
    simp only [decide_eq_true_eq] at this
    exact this hk⟩

/-- Insert the pairs one after the other, a later pair of a key replacing an earlier one. -/
def ofList (l : List (K × V)) : HashMap K V := l.foldl (fun m e => m.insert e.1 e.2) empty

/-! ## What `get?` reads -/

@[simp] theorem get?_empty (k : K) : (empty : HashMap K V).get? k = none := rfl

/-- **A lookup is membership of the entry.** -/
theorem get?_eq_some_iff (m : HashMap K V) (k : K) (v : V) : m.get? k = some v ↔ (k, v) ∈ m.entries := by
  unfold get?
  constructor
  · intro h
    obtain ⟨e, he, rfl⟩ := Option.map_eq_some_iff.1 h
    have hk : e.1 = k := by simpa using List.find?_some he
    rw [← hk]
    exact List.mem_of_find?_eq_some he
  · intro h
    cases hf : m.entries.find? (fun e => decide (e.1 = k)) with
    | none =>
      have := List.find?_eq_none.1 hf _ h
      simp at this
    | some e =>
      have hk : e.1 = k := by simpa using List.find?_some hf
      have he : e = (k, v) := List.inj_on_of_nodup_map m.nodup (List.mem_of_find?_eq_some hf) h hk
      rw [Option.map_some, he]

theorem mem_keys_iff (m : HashMap K V) (k : K) : k ∈ m.keys ↔ ∃ v, m.get? k = some v := by
  simp only [keys, List.mem_map, get?_eq_some_iff]
  constructor
  · rintro ⟨⟨k', v⟩, h, rfl⟩; exact ⟨v, h⟩
  · rintro ⟨v, h⟩; exact ⟨(k, v), h, rfl⟩

theorem get?_retain_eq_some (m : HashMap K V) (f : K → V → Bool) (k : K) (v : V) :
    (m.retain f).get? k = some v ↔ m.get? k = some v ∧ f k v = true := by
  rw [get?_eq_some_iff, get?_eq_some_iff]
  exact List.mem_filter

/-- **What a sweep leaves**: an entry stays exactly when the predicate accepts it. -/
theorem get?_retain (m : HashMap K V) (f : K → V → Bool) (k : K) :
    (m.retain f).get? k = (m.get? k).filter (f k) := by
  apply Option.ext
  intro v
  rw [get?_retain_eq_some, Option.filter_eq_some_iff]

/-- A sweep leaves the entry of a key as it is, or takes it out. -/
theorem get?_retain_cases (m : HashMap K V) (f : K → V → Bool) (k : K) :
    (m.retain f).get? k = m.get? k ∨ ∃ v, m.get? k = some v ∧ f k v = false ∧ (m.retain f).get? k = none := by
  rw [get?_retain]
  cases m.get? k with
  | none => exact Or.inl rfl
  | some v => cases hf : f k v <;> simp [hf]

theorem get?_mapValues (m : HashMap K V) (f : V → V) (k : K) : (m.mapValues f).get? k = (m.get? k).map f := by
  unfold get? mapValues
  rw [List.find?_map, Option.map_map, Option.map_map]
  rfl

theorem get?_retain_of_key (m : HashMap K V) (f : K → Bool) (k : K) :
    (m.retain (fun k' _ => f k')).get? k = if f k then m.get? k else none := by
  rw [get?_retain]
  cases h : f k <;> cases m.get? k <;> simp

theorem get?_remove (m : HashMap K V) (k k' : K) : (m.remove k).get? k' = if k' = k then none else m.get? k' := by
  unfold remove
  rw [m.get?_retain_of_key (fun x => decide (x ≠ k))]
  by_cases h : k' = k <;> simp [h]

/-- **Insertion changes one key.** -/
theorem get?_insert (m : HashMap K V) (k k' : K) (v : V) :
    (m.insert k v).get? k' = if k' = k then some v else m.get? k' := by
  have hcons : (m.insert k v).get? k' = if k' = k then some v else (m.remove k).get? k' := by
    unfold get? insert
    rw [List.find?_cons]
    by_cases h : k' = k
    · simp [h]
    · simp [h, Ne.symm h]
  rw [hcons, get?_remove]
  by_cases h : k' = k <;> simp [h]

@[simp] theorem get?_insert_self (m : HashMap K V) (k : K) (v : V) : (m.insert k v).get? k = some v := by
  rw [get?_insert, if_pos rfl]

theorem get?_insert_of_ne (m : HashMap K V) {k k' : K} (v : V) (h : k' ≠ k) :
    (m.insert k v).get? k' = m.get? k' := by
  rw [get?_insert, if_neg h]

/-- Taking out a list of keys leaves the other keys alone. -/
theorem get?_foldl_remove (ks : List K) (m : HashMap K V) (k : K) :
    (ks.foldl remove m).get? k = if k ∈ ks then none else m.get? k := by
  induction ks generalizing m with
  | nil => simp
  | cons x ks ih =>
    rw [List.foldl_cons, ih, get?_remove]
    by_cases hx : k = x
    · simp [hx]
    · simp [hx]

/-! ## The number of entries -/

theorem insert_remove (m : HashMap K V) (k : K) (v : V) : (m.remove k).insert k v = m.insert k v := by
  have h : ((m.remove k).remove k).entries = (m.remove k).entries :=
    List.filter_eq_self.2 (fun e he => (List.mem_filter.1 he).2)
  unfold insert
  simp only [h]

theorem len_insert (m : HashMap K V) (k : K) (v w : V) : (m.insert k v).len = (m.insert k w).len := rfl

omit [DecidableEq K] in
theorem len_retain_le (m : HashMap K V) (f : K → V → Bool) : (m.retain f).len ≤ m.len := List.length_filter_le _ _

theorem len_insert_le (m : HashMap K V) (k : K) (v : V) : (m.insert k v).len ≤ m.len + 1 :=
  Nat.succ_le_succ (m.len_retain_le _)

/-- **A map that answers no more keys has no more entries**, whatever the two maps hold under them. -/
theorem len_le_of_keys_across {W : Type} (m : HashMap K V) (m' : HashMap K W)
    (h : ∀ k v, m.get? k = some v → ∃ w, m'.get? k = some w) : m.len ≤ m'.len := by
  have hsub : m.keys ⊆ m'.keys := by
    intro k hk
    obtain ⟨v, hv⟩ := (m.mem_keys_iff k).1 hk
    exact (m'.mem_keys_iff k).2 (h k v hv)
  have := (List.subperm_of_subset m.nodup hsub).length_le
  simpa [len, keys] using this

theorem len_le_of_keys (m m' : HashMap K V) (h : ∀ k v, m.get? k = some v → ∃ w, m'.get? k = some w) :
    m.len ≤ m'.len :=
  m.len_le_of_keys_across m' h

theorem get?_of_len_zero {m : HashMap K V} (h : m.len = 0) (k : K) : m.get? k = none := by
  have hnil : m.entries = [] := List.length_eq_zero_iff.1 h
  unfold get?
  rw [hnil]
  rfl

theorem keys_remove (m : HashMap K V) (k : K) : (m.remove k).keys = m.keys.erase k := by
  unfold keys
  rw [List.Nodup.erase_eq_filter m.nodup, List.filter_map]
  unfold remove retain
  congr 1
  refine List.filter_congr (fun e _ => ?_)
  by_cases h : e.1 = k <;> simp [h]

/-- **Taking out keys that are there takes out as many entries.** -/
theorem len_foldl_remove (ks : List K) (hks : ks.Nodup) (m : HashMap K V) (hm : ks ⊆ m.keys) :
    (ks.foldl remove m).len + ks.length = m.len := by
  induction ks generalizing m with
  | nil => rfl
  | cons k ks ih =>
    rw [List.nodup_cons] at hks
    have hk : k ∈ m.keys := hm List.mem_cons_self
    have hsub : ks ⊆ (m.remove k).keys := by
      intro x hx
      rw [keys_remove]
      have hne : x ≠ k := fun h => hks.1 (h ▸ hx)
      exact (List.mem_erase_of_ne hne).2 (hm (List.mem_cons_of_mem k hx))
    have hlen : (m.remove k).len + 1 = m.len := by
      rw [len_eq_length_keys, len_eq_length_keys, keys_remove, List.length_erase_of_mem hk]
      have := List.length_pos_of_mem hk
      omega
    rw [List.foldl_cons, List.length_cons, ← hlen, ← ih hks.2 (m.remove k) hsub]
    omega

/-! ## Entries of a kind -/

/-- How many entries the predicate accepts. -/
def count (m : HashMap K V) (f : K → V → Bool) : Nat := m.entries.countP (fun e => f e.1 e.2)

/-- The entry of a key stands before the others, up to the order. -/
theorem entries_perm {m : HashMap K V} {k : K} {v : V} (h : m.get? k = some v) :
    m.entries.Perm ((k, v) :: (m.remove k).entries) := by
  have hmem := (m.get?_eq_some_iff k v).1 h
  have hnodup : ((k, v) :: (m.remove k).entries).Nodup := List.Nodup.of_map Prod.fst (m.insert k v).nodup
  refine (List.perm_ext_iff_of_nodup (List.Nodup.of_map Prod.fst m.nodup) hnodup).2 (fun e => ?_)
  have hremove : e ∈ (m.remove k).entries ↔ e ∈ m.entries ∧ e.1 ≠ k := by
    unfold remove retain
    simp
  rw [List.mem_cons, hremove]
  constructor
  · intro he
    by_cases hk : e.1 = k
    · exact Or.inl (List.inj_on_of_nodup_map m.nodup he hmem hk)
    · exact Or.inr ⟨he, hk⟩
  · rintro (rfl | ⟨he, -⟩)
    · exact hmem
    · exact he

theorem entries_remove_of_none {m : HashMap K V} {k : K} (h : m.get? k = none) : (m.remove k).entries = m.entries := by
  refine List.filter_eq_self.2 (fun e he => decide_eq_true (fun hk => ?_))
  have hget := (m.get?_eq_some_iff e.1 e.2).2 he
  rw [hk, h] at hget
  cases hget

theorem count_remove (m : HashMap K V) (k : K) (f : K → V → Bool) :
    (m.remove k).count f + ((m.get? k).any (f k)).toNat = m.count f := by
  unfold count
  cases h : m.get? k with
  | some v =>
    rw [(entries_perm h).countP_eq, List.countP_cons]
    cases hf : f k v <;> simp [hf]
  | none =>
    rw [entries_remove_of_none h]
    rfl

/-- **Insertion moves the number of entries of a kind by the old and the new entry of its key.** -/
theorem count_insert (m : HashMap K V) (k : K) (v : V) (f : K → V → Bool) :
    (m.insert k v).count f + ((m.get? k).any (f k)).toNat = m.count f + (f k v).toNat := by
  have hcons : (m.insert k v).count f = (m.remove k).count f + (f k v).toNat := by
    unfold count insert
    rw [List.countP_cons]
    cases f k v <;> rfl
  have := m.count_remove k f
  omega

/-! ## Pairs collected into a map -/

theorem get?_foldl_insert (l : List (K × V)) (hl : (l.map Prod.fst).Nodup) (m : HashMap K V) (k : K) :
    (l.foldl (fun m e => m.insert e.1 e.2) m).get? k = ((l.lookup k).or (m.get? k)) := by
  induction l generalizing m with
  | nil => rfl
  | cons e l ih =>
    obtain ⟨k', v⟩ := e
    rw [List.map_cons, List.nodup_cons] at hl
    rw [List.foldl_cons, ih hl.2, get?_insert, List.lookup_cons]
    by_cases hk : k = k'
    · subst hk
      have hnone : l.lookup k = none := by
        rw [List.lookup_eq_none_iff]
        intro p hp
        have : p.1 ≠ k := fun h => hl.1 (List.mem_map.2 ⟨p, hp, h⟩)
        simpa using Ne.symm this
      simp [hnone]
    · have hb : (k == k') = false := by simpa using hk
      simp [hb, hk]

theorem lookup_eq_find? (k : K) : ∀ l : List (K × V),
    l.lookup k = (l.find? (fun e => decide (e.1 = k))).map Prod.snd
  | [] => rfl
  | e :: l => by
    rw [List.lookup_cons, List.find?_cons]
    by_cases h : e.1 = k
    · simp [h]
    · have hb : (k == e.1) = false := by simpa using Ne.symm h
      simp [h, hb, lookup_eq_find? k l]

/-- Insert every entry of the second map into the first. -/
def insertAll (m m' : HashMap K V) : HashMap K V := m'.entries.foldl (fun m e => m.insert e.1 e.2) m

theorem get?_insertAll (m m' : HashMap K V) (k : K) : (m.insertAll m').get? k = (m'.get? k).or (m.get? k) := by
  unfold insertAll
  rw [get?_foldl_insert _ m'.nodup, lookup_eq_find?]
  rfl

theorem get?_ofList (l : List (K × V)) (hl : (l.map Prod.fst).Nodup) (k : K) : (ofList l).get? k = l.lookup k := by
  unfold ofList
  rw [get?_foldl_insert l hl, get?_empty, Option.or_none]

theorem get?_ofList_eq_some (l : List (K × V)) (hl : (l.map Prod.fst).Nodup) (k : K) (v : V) :
    (ofList l).get? k = some v ↔ (k, v) ∈ l := by
  rw [get?_ofList l hl, lookup_eq_find?]
  exact (⟨l, hl⟩ : HashMap K V).get?_eq_some_iff k v

end Keyed
end HashMap

end Lib
end Kirino

import Mathlib.Data.List.Induction
import Mathlib.Data.List.Nodup
import Mathlib.Data.List.Perm.Basic
import SimMetadata.NameMap
import SimMetadata.Proofs.Except

/-!
# Look-ups determine a map of names

A map of names has one representation, so two maps with the same look-ups are equal. With that,
what an operation does to a map is said by what it does to look-ups, and how an insertion changes
the listing is said up to the order of the pairs.

## Main results

* `NameMap.ext_get?`: extensionality.
* `NameMap.get?_eraseAll`: look-ups after a list of names has been erased.
* `NameMap.entries_insert_perm`: a new name adds one pair.
* `NameMap.entries_perm_erase`: a name that is there accounts for one pair.
* `NameMap.get?_traverse`: look-ups in the result of a step that can fail.
-/

namespace SimMetadata

namespace NameMap

variable {α β ε : Type} {m m' : NameMap α} {name other : String}

/-! ### Pairs and look-ups -/

theorem keys_nodup (m : NameMap α) : m.keys.Nodup := by
  refine m.ordered.imp fun {a b} h => ?_
  rintro rfl
  exact String.lt_irrefl a h

theorem entries_nodup (m : NameMap α) : m.entries.Nodup := m.keys_nodup.of_map

theorem mem_keys_of_mem_entries {v : α} (h : (name, v) ∈ m.entries) : name ∈ m.keys :=
  List.mem_map.mpr ⟨_, h, rfl⟩

theorem lookup_eq_some_of_mem {l : List (String × α)} {v : α} (hl : (l.map Prod.fst).Nodup)
    (h : (name, v) ∈ l) : l.lookup name = some v := by
  induction l with
  | nil => simp at h
  | cons p rest ih =>
    obtain ⟨n, u⟩ := p
    obtain ⟨hn, hrest⟩ := List.nodup_cons.mp hl
    rcases List.mem_cons.mp h with heq | hmem
    · cases heq
      simp
    · have hne : name ≠ n := by
        rintro rfl
        exact hn (List.mem_map.mpr ⟨_, hmem, rfl⟩)
      rw [List.lookup_cons, beq_false_of_ne hne]
      exact ih hrest hmem

theorem get?_eq_some_iff {v : α} : m.get? name = some v ↔ (name, v) ∈ m.entries := by
  constructor
  · intro h
    obtain ⟨l₁, l₂, heq, -⟩ := List.lookup_eq_some_iff.mp h
    simp [heq]
  · exact lookup_eq_some_of_mem m.keys_nodup

theorem contains_iff_get? : m.contains name = true ↔ ∃ v, m.get? name = some v :=
  Option.isSome_iff_exists

theorem contains_iff_mem_keys : m.contains name = true ↔ name ∈ m.keys := by
  rw [contains_iff_get?]
  constructor
  · rintro ⟨v, hv⟩
    exact mem_keys_of_mem_entries (get?_eq_some_iff.mp hv)
  · intro h
    obtain ⟨⟨n, v⟩, hmem, rfl⟩ := List.mem_map.mp h
    exact ⟨v, get?_eq_some_iff.mpr hmem⟩

theorem mem_values {v : α} : v ∈ m.values ↔ ∃ name, m.get? name = some v := by
  simp only [get?_eq_some_iff, values, List.mem_map, Prod.exists, exists_eq_right]

theorem contains_eq_false_iff : m.contains name = false ↔ m.get? name = none := by
  simp [contains]

theorem contains_of_get? {v : α} (h : m.get? name = some v) : m.contains name = true :=
  contains_iff_get?.mpr ⟨v, h⟩

@[simp] theorem contains_empty (name : String) : (empty : NameMap α).contains name = false := rfl

/-- **Extensionality.** The pairs of a map are sorted by name, so look-ups leave no freedom. -/
theorem ext_get? (h : ∀ name, m.get? name = m'.get? name) : m = m' := by
  have hmem : ∀ p, p ∈ m.entries ↔ p ∈ m'.entries := by
    rintro ⟨n, v⟩
    rw [← get?_eq_some_iff, ← get?_eq_some_iff, h n]
  have hperm : m.entries.Perm m'.entries :=
    (List.perm_ext_iff_of_nodup m.entries_nodup m'.entries_nodup).mpr hmem
  have hm : m.entries.Pairwise (fun a b => a.1 < b.1) := List.pairwise_map.mp m.ordered
  have hm' : m'.entries.Pairwise (fun a b => a.1 < b.1) := List.pairwise_map.mp m'.ordered
  refine NameMap.ext (hperm.eq_of_pairwise ?_ hm hm')
  intro a b _ _ hab hba
  exact absurd (String.lt_trans hab hba) (String.lt_irrefl _)

/-! ### Insertion -/

theorem contains_insert (m : NameMap α) (name other : String) (v : α) :
    (m.insert name v).contains other = (decide (other = name) || m.contains other) := by
  rw [contains, get?_insert]
  split
  · next h => simp [h]
  · next h => simp [h, contains]

/-- **The last pair of a name counts.** -/
theorem get?_ofList (pairs : List (String × α)) (name : String) :
    (ofList pairs).get? name = (pairs.reverse.find? (·.1 = name)).map Prod.snd := by
  induction pairs using List.reverseRecOn with
  | nil => rfl
  | append_singleton pairs p ih =>
    have hlast : ofList (pairs ++ [p]) = (ofList pairs).insert p.1 p.2 := List.foldl_append
    rw [hlast, get?_insert, List.reverse_append, List.reverse_singleton, List.singleton_append,
      List.find?_cons, ih]
    by_cases h : p.1 = name
    · simp [h]
    · simp [h, Ne.symm h]

/-- A pair is found if none of its name comes after it. -/
theorem get?_ofList_append_cons {pairs after : List (String × α)} {v : α}
    (h : ∀ p ∈ after, p.1 ≠ name) :
    (ofList (pairs ++ (name, v) :: after)).get? name = some v := by
  have hafter : after.reverse.find? (·.1 = name) = none := by
    rw [List.find?_eq_none]
    intro p hp
    simpa using h p (List.mem_reverse.mp hp)
  rw [get?_ofList, List.reverse_append, List.reverse_cons, List.append_assoc, List.find?_append,
    hafter, List.singleton_append, List.find?_cons_of_pos (by simp)]
  rfl

/-- What the map of some pairs has for a name comes from one of them. -/
theorem mem_of_get?_ofList {pairs : List (String × α)} {v : α}
    (h : (ofList pairs).get? name = some v) : (name, v) ∈ pairs := by
  rw [get?_ofList, Option.map_eq_some_iff] at h
  obtain ⟨⟨n, v⟩, hfind, rfl⟩ := h
  have hname : n = name := by simpa using List.find?_some hfind
  rw [← hname]
  exact List.mem_reverse.mp (List.mem_of_find?_eq_some hfind)

theorem mem_keys_ofList {pairs : List (String × α)} :
    name ∈ (ofList pairs).keys ↔ name ∈ pairs.map Prod.fst := by
  rw [← contains_iff_mem_keys, contains, get?_ofList, Option.isSome_map, List.find?_isSome]
  simp

/-- All pairs are found exactly if no two of one name differ in their values. -/
theorem forall_get?_ofList_iff (pairs : List (String × α)) :
    (∀ p ∈ pairs, (ofList pairs).get? p.1 = some p.2)
      ↔ ∀ p ∈ pairs, ∀ q ∈ pairs, p.1 = q.1 → p.2 = q.2 := by
  constructor
  · intro h p hp q hq hname
    have hfound := h p hp
    rw [hname, h q hq] at hfound
    exact (Option.some.inj hfound).symm
  · intro h p hp
    have hkey : (ofList pairs).contains p.1 = true :=
      contains_iff_mem_keys.mpr (mem_keys_ofList.mpr (List.mem_map_of_mem hp))
    obtain ⟨v, hv⟩ := contains_iff_get?.mp hkey
    rw [hv, h p hp (p.1, v) (mem_of_get?_ofList hv) rfl]

/-- The map from the texts of some things to the things lists them by their texts. -/
theorem map_values_ofList (key : α → String) (as : List α) :
    (ofList (as.map fun a => (key a, a))).values.map key
      = (ofList (as.map fun a => (key a, a))).keys := by
  rw [values, keys, List.map_map]
  refine List.map_congr_left ?_
  rintro ⟨n, v⟩ hmem
  obtain ⟨a, -, ha⟩ := List.mem_map.mp (mem_of_get?_ofList (get?_eq_some_iff.mpr hmem))
  cases ha
  rfl

/-- Each text is there once. -/
theorem nodup_map_values_ofList (key : α → String) (as : List α) :
    ((ofList (as.map fun a => (key a, a))).values.map key).Nodup := by
  rw [map_values_ofList]
  exact keys_nodup _

theorem mem_map_values_ofList {key : α → String} {as : List α} {text : String} :
    text ∈ (ofList (as.map fun a => (key a, a))).values.map key ↔ text ∈ as.map key := by
  rw [map_values_ofList, mem_keys_ofList, List.map_map]
  rfl

theorem insertEntry_perm {l : List (String × α)} (v : α) (h : name ∉ l.map Prod.fst) :
    (insertEntry name v l).Perm ((name, v) :: l) := by
  induction l with
  | nil => exact List.Perm.refl _
  | cons p rest ih =>
    obtain ⟨n, u⟩ := p
    rw [insertEntry]
    split
    · exact List.Perm.refl _
    · split
      · next heq => exact absurd (by simp [heq]) h
      · exact ((ih fun hr => h (List.mem_cons_of_mem _ hr)).cons _).trans (List.Perm.swap _ _ _)

/-- A name that was not there adds one pair and leaves the others as they were. -/
theorem entries_insert_perm (v : α) (h : m.contains name = false) :
    (m.insert name v).entries.Perm ((name, v) :: m.entries) :=
  insertEntry_perm v fun hmem => by simp [contains_iff_mem_keys.mpr hmem] at h

theorem get?_insertNew (m : NameMap α) (name other : String) (v : α) :
    (m.insertNew name v).get? other
      = (m.get? other).or (if other = name then some v else none) := by
  rw [insertNew]
  split
  · next h =>
    split
    · next heq => obtain ⟨u, hu⟩ := contains_iff_get?.mp h; simp [heq, hu]
    · simp
  · next h =>
    have hnone : m.get? name = none := contains_eq_false_iff.mp (by simpa using h)
    rw [get?_insert]
    split
    · next heq => simp [heq, hnone]
    · simp

theorem contains_insertNew (m : NameMap α) (name other : String) (v : α) :
    (m.insertNew name v).contains other = (m.contains other || decide (other = name)) := by
  rw [contains, get?_insertNew, Option.isSome_or, contains]
  split
  · next h => simp [h]
  · next h => simp [h]

/-! ### Changing every value -/

@[simp] theorem keys_map (f : α → β) (m : NameMap α) : (m.map f).keys = m.keys := by
  simp [keys, map, Function.comp_def]

theorem get?_map (f : α → β) (m : NameMap α) (name : String) :
    (m.map f).get? name = (m.get? name).map f := by
  refine Option.ext fun v => ?_
  rw [get?_eq_some_iff, Option.map_eq_some_iff, map, List.mem_map]
  simp only [get?_eq_some_iff, Prod.mk.injEq, Prod.exists]
  constructor
  · rintro ⟨n, u, hu, rfl, rfl⟩
    exact ⟨u, hu, rfl⟩
  · rintro ⟨u, hu, rfl⟩
    exact ⟨name, u, hu, rfl, rfl⟩

@[simp] theorem contains_map (f : α → β) (m : NameMap α) (name : String) :
    (m.map f).contains name = m.contains name := by
  rw [contains, contains, get?_map, Option.isSome_map]

theorem map_insert (f : α → β) (m : NameMap α) (name : String) (v : α) :
    (m.insert name v).map f = (m.map f).insert name (f v) := by
  refine ext_get? fun other => ?_
  rw [get?_map, get?_insert, get?_insert, get?_map]
  split <;> rfl

/-! ### Sets of names -/

theorem contains_foldl_add (names : List String) (s : NameSet) (other : String) :
    (names.foldl NameSet.add s).contains other = true
      ↔ other ∈ names ∨ s.contains other = true := by
  induction names generalizing s with
  | nil => simp
  | cons n rest ih =>
    rw [List.foldl_cons, ih, NameSet.add, contains_insert]
    simp only [Bool.or_eq_true, decide_eq_true_eq, List.mem_cons]
    rw [or_left_comm, or_assoc]

theorem mem_keys_ofNames {names : List String} :
    name ∈ (NameSet.ofNames names).keys ↔ name ∈ names := by
  rw [← contains_iff_mem_keys, NameSet.ofNames, contains_foldl_add]
  simp

/-- A set of names does not tell in which order they were listed, nor how often. -/
theorem ofNames_congr {names names' : List String} (h : ∀ n, n ∈ names ↔ n ∈ names') :
    NameSet.ofNames names = NameSet.ofNames names' := by
  have hget : ∀ (l : List String) (n : String) (u : Unit),
      (NameSet.ofNames l).get? n = some u ↔ n ∈ l := by
    intro l n u
    rw [← mem_keys_ofNames, ← contains_iff_mem_keys, contains_iff_get?]
    exact ⟨fun hu => ⟨u, hu⟩, fun ⟨_, hu⟩ => hu⟩
  refine ext_get? fun n => Option.ext fun u => ?_
  rw [hget, hget, h]

/-! ### Erasure -/

theorem get?_erase (m : NameMap α) (name other : String) :
    (m.erase name).get? other = if other = name then none else m.get? other := by
  refine Option.ext fun v => ?_
  rw [get?_eq_some_iff, erase, List.mem_filter]
  split
  · next h => simp [h]
  · next h => rw [get?_eq_some_iff]; simp [h]

theorem get?_eraseAll (names : List String) (m : NameMap α) (other : String) :
    (names.foldl erase m).get? other = if other ∈ names then none else m.get? other := by
  induction names generalizing m with
  | nil => simp
  | cons n rest ih =>
    rw [List.foldl_cons, ih, get?_erase]
    by_cases hr : other ∈ rest <;> by_cases hn : other = n <;> simp [hr, hn]

/-- A name that is there accounts for one pair. -/
theorem entries_perm_erase {v : α} (h : m.get? name = some v) :
    m.entries.Perm ((name, v) :: (m.erase name).entries) := by
  have hnew : (name, v) ∉ (m.erase name).entries := by
    rw [← get?_eq_some_iff, get?_erase]
    simp
  have hnodup := List.nodup_cons.mpr ⟨hnew, (m.erase name).entries_nodup⟩
  refine (List.perm_ext_iff_of_nodup m.entries_nodup hnodup).mpr ?_
  rintro ⟨n, u⟩
  rw [List.mem_cons, ← get?_eq_some_iff, ← get?_eq_some_iff, get?_erase, Prod.mk.injEq]
  by_cases hn : n = name
  · subst hn
    simp [h, eq_comm]
  · simp [hn]

/-- To erase a name that is not there changes nothing. -/
theorem erase_eq_self (h : m.get? name = none) : m.erase name = m := by
  refine ext_get? fun other => ?_
  rw [get?_erase]
  split
  · next heq => rw [heq, h]
  · rfl

/-- What a name stood for before it is inserted again does not matter. -/
theorem erase_insert_self (m : NameMap α) (name : String) (v : α) :
    (m.insert name v).erase name = m.erase name := by
  refine ext_get? fun other => ?_
  rw [get?_erase, get?_erase, get?_insert]
  split <;> rfl

/-! ### Steps that can fail -/

/-- The induction behind `get?_traverse`: what has been put in stays, because the names that are
still to come are others. -/
theorem get?_foldlM_insert {f : String → α → Except ε β} {es : List (String × α)}
    {done m' : NameMap β} (hes : (es.map Prod.fst).Nodup)
    (h : es.foldlM (fun done e => do return done.insert e.1 (← f e.1 e.2)) done = .ok m') :
    (∀ e ∈ es, ∃ b, f e.1 e.2 = .ok b ∧ m'.get? e.1 = some b) ∧
      ∀ n, n ∉ es.map Prod.fst → m'.get? n = done.get? n := by
  induction es generalizing done with
  | nil =>
    cases h
    simp
  | cons e rest ih =>
    obtain ⟨he, hrest⟩ := List.nodup_cons.mp hes
    rw [List.foldlM_cons] at h
    obtain ⟨done', hstep, h⟩ := except_bind_eq_ok_iff.mp h
    obtain ⟨b, hf, hdone⟩ := except_bind_eq_ok_iff.mp hstep
    cases hdone
    obtain ⟨hin, hout⟩ := ih hrest h
    constructor
    · intro e' he'
      rcases List.mem_cons.mp he' with rfl | he'
      · exact ⟨b, hf, by rw [hout _ he, get?_insert_self]⟩
      · exact hin e' he'
    · intro n hn
      obtain ⟨hne, hn⟩ : n ≠ e.1 ∧ n ∉ rest.map Prod.fst := by simpa using hn
      rw [hout n hn, get?_insert_of_ne _ hne]

theorem get?_traverse {f : String → α → Except ε β} {m : NameMap α} {m' : NameMap β}
    (h : m.traverse f = .ok m') {a : α} (ha : m.get? name = some a) :
    ∃ b, f name a = .ok b ∧ m'.get? name = some b :=
  (get?_foldlM_insert m.keys_nodup h).1 _ (get?_eq_some_iff.mp ha)

/-- To change every value before a traversal is to change it on the way. -/
theorem traverse_map {γ : Type} (f : String → β → Except ε γ) (g : α → β) (m : NameMap α) :
    (m.map g).traverse f = m.traverse fun name a => f name (g a) :=
  List.foldlM_map

/-- A traversal that fails does so at one of the values. -/
theorem traverse_error {f : String → α → Except ε β} {m : NameMap α} {e : ε}
    (h : m.traverse f = .error e) : ∃ name a, m.get? name = some a ∧ f name a = .error e := by
  have hfold : ∀ (es : List (String × α)) (done : NameMap β),
      es.foldlM (fun done e => do return done.insert e.1 (← f e.1 e.2)) done = .error e →
        ∃ p ∈ es, f p.1 p.2 = .error e := by
    intro es
    induction es with
    | nil =>
      intro done h
      cases h
    | cons p es ih =>
      intro done h
      rw [List.foldlM_cons] at h
      rcases except_bind_eq_error_iff.mp h with h | ⟨done', -, h⟩
      · rcases except_bind_eq_error_iff.mp h with h | ⟨b, -, h⟩
        · exact ⟨p, List.mem_cons_self, h⟩
        · cases h
      · obtain ⟨q, hq, hfail⟩ := ih done' h
        exact ⟨q, List.mem_cons_of_mem _ hq, hfail⟩
  obtain ⟨⟨name, a⟩, hmem, hfail⟩ := hfold m.entries empty h
  exact ⟨name, a, get?_eq_some_iff.mpr hmem, hfail⟩

theorem contains_traverse {f : String → α → Except ε β} {m : NameMap α} {m' : NameMap β}
    (h : m.traverse f = .ok m') : m'.contains name = m.contains name := by
  cases hm : m.contains name with
  | true =>
    obtain ⟨a, ha⟩ := contains_iff_get?.mp hm
    obtain ⟨b, -, hb⟩ := get?_traverse h ha
    exact contains_of_get? hb
  | false =>
    have hnot : name ∉ m.keys := fun hk => by simp [contains_iff_mem_keys.mpr hk] at hm
    rw [contains, (get?_foldlM_insert m.keys_nodup h).2 name hnot]
    rfl

/-- A look-up in the result comes from a look-up in the map. -/
theorem get?_of_traverse {f : String → α → Except ε β} {m : NameMap α} {m' : NameMap β}
    (h : m.traverse f = .ok m') {b : β} (hb : m'.get? name = some b) :
    ∃ a, m.get? name = some a ∧ f name a = .ok b := by
  obtain ⟨a, ha⟩ := contains_iff_get?.mp ((contains_traverse h).symm.trans (contains_of_get? hb))
  obtain ⟨b', hb', hget⟩ := get?_traverse h ha
  cases hb.symm.trans hget
  exact ⟨a, ha, hb'⟩

end NameMap

end SimMetadata

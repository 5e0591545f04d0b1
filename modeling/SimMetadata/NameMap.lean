/-!
# Finite maps from names

Classes, enumerations, modules and settings are all found by name, and every text this library
writes lists them in name order. `NameMap α` is therefore an association list whose names are
strictly increasing. The order is a field of the type, so a map has exactly one representation:
two maps that answer every look-up alike are equal, and listing the entries needs no sorting.

## Main definitions

* `NameMap`: the type; `NameMap.get?`, `NameMap.insert`, `NameMap.erase` and the listings
  `entries`, `keys`, `values`.
* `NameMap.ofList`: a later pair replaces an earlier one of the same name.
* `NameMap.insertNew`: keeps what is there already.

## Implementation notes

Names are compared by their characters. This is also the order of their UTF-8 bytes, because
UTF-8 keeps the order of code points.
-/

namespace SimMetadata

/-- A finite map whose names are listed in strictly increasing order. -/
@[ext]
structure NameMap (α : Type) where
  /-- The pairs, by increasing name. -/
  entries : List (String × α)
  /-- Every name is below all later ones; in particular no name occurs twice. -/
  ordered : (entries.map Prod.fst).Pairwise (· < ·)

namespace NameMap

variable {α β : Type}

/-- Two maps are equal as soon as their pairs are. -/
instance [DecidableEq α] : DecidableEq (NameMap α) := fun m n =>
  decidable_of_iff (m.entries = n.entries) ⟨NameMap.ext, fun h => h ▸ rfl⟩

/-- The map without names. -/
def empty : NameMap α := ⟨[], .nil⟩

instance : Inhabited (NameMap α) := ⟨empty⟩

/-- The names, in order. -/
def keys (m : NameMap α) : List String := m.entries.map Prod.fst

/-- The values, in the order of their names. -/
def values (m : NameMap α) : List α := m.entries.map Prod.snd

/-- How many names there are. -/
def size (m : NameMap α) : Nat := m.entries.length

/-- What a name stands for, if the map has it. -/
def get? (m : NameMap α) (name : String) : Option α := m.entries.lookup name

/-- Whether the map has a name. -/
def contains (m : NameMap α) (name : String) : Bool := (m.get? name).isSome

/-! ### Insertion

One pass over the pairs either replaces the pair of an equal name or puts the new pair in front
of the first larger one. -/

/-- Insertion into a list of pairs with increasing names. -/
def insertEntry (name : String) (value : α) : List (String × α) → List (String × α)
  | [] => [(name, value)]
  | (n, v) :: rest =>
    if name < n then (name, value) :: (n, v) :: rest
    else if name = n then (name, value) :: rest
    else (n, v) :: insertEntry name value rest

/-- Insertion brings in no name but the given one. -/
theorem mem_keys_insertEntry {name n : String} {value : α} {l : List (String × α)}
    (h : n ∈ (insertEntry name value l).map Prod.fst) : n = name ∨ n ∈ l.map Prod.fst := by
  induction l with
  | nil => simpa [insertEntry] using h
  | cons p rest ih =>
    simp only [insertEntry] at h
    split at h
    · simpa using h
    · split at h
      · rcases List.mem_cons.1 h with h | h
        · exact .inl h
        · exact .inr (List.mem_cons_of_mem _ h)
      · rcases List.mem_cons.1 h with h | h
        · exact .inr (h ▸ List.mem_cons_self)
        · exact (ih h).imp_right (List.mem_cons_of_mem _)

/-- Insertion keeps the names increasing. -/
theorem ordered_insertEntry (name : String) (value : α) {l : List (String × α)}
    (h : (l.map Prod.fst).Pairwise (· < ·)) :
    ((insertEntry name value l).map Prod.fst).Pairwise (· < ·) := by
  induction l with
  | nil => simp [insertEntry]
  | cons p rest ih =>
    obtain ⟨n, v⟩ := p
    obtain ⟨hn, hrest⟩ := List.pairwise_cons.1 h
    simp only [insertEntry]
    split
    · next hlt =>
      refine List.pairwise_cons.2 ⟨fun m hm => ?_, h⟩
      rcases List.mem_cons.1 hm with rfl | hm
      · exact hlt
      · exact String.lt_trans hlt (hn m hm)
    · next hlt =>
      split
      · next heq => exact List.pairwise_cons.2 ⟨heq ▸ hn, hrest⟩
      · next hne =>
        refine List.pairwise_cons.2 ⟨fun m hm => ?_, ih hrest⟩
        rcases mem_keys_insertEntry hm with rfl | hm
        · exact Decidable.byContradiction fun hle =>
            hne (String.le_antisymm (String.not_lt.1 hle) (String.not_lt.1 hlt))
        · exact hn m hm

/-- The map with `name` standing for `value`, whatever it stood for before. -/
def insert (m : NameMap α) (name : String) (value : α) : NameMap α :=
  ⟨insertEntry name value m.entries, ordered_insertEntry name value m.ordered⟩

/-- The map with `name` standing for `value` unless it already stands for something. -/
def insertNew (m : NameMap α) (name : String) (value : α) : NameMap α :=
  if m.contains name then m else m.insert name value

/-- The map without `name`. -/
def erase (m : NameMap α) (name : String) : NameMap α :=
  ⟨m.entries.filter (·.1 ≠ name), m.ordered.sublist (List.filter_sublist.map _)⟩

/-- The map of some pairs, of which a later one replaces an earlier one of the same name. -/
def ofList (pairs : List (String × α)) : NameMap α :=
  pairs.foldl (fun m p => m.insert p.1 p.2) empty

/-- The map with the same names and every value changed. -/
def map (f : α → β) (m : NameMap α) : NameMap β :=
  ⟨m.entries.map fun p => (p.1, f p.2), by
    have h : (m.entries.map fun p => (p.1, f p.2)).map Prod.fst = m.entries.map Prod.fst := by
      simp [Function.comp_def]
    exact h ▸ m.ordered⟩

/-- The map with the same names and every value changed by a step that can fail. The names are
visited in order, and the first failure ends it. -/
def traverse {ε : Type} (f : String → α → Except ε β) (m : NameMap α) : Except ε (NameMap β) :=
  m.entries.foldlM (fun done e => do return done.insert e.1 (← f e.1 e.2)) empty

/-! ### Look-up -/

@[simp] theorem get?_empty (name : String) : (empty : NameMap α).get? name = none := rfl

theorem lookup_insertEntry_self (name : String) (value : α) (l : List (String × α)) :
    (insertEntry name value l).lookup name = some value := by
  induction l with
  | nil => simp [insertEntry]
  | cons p rest ih =>
    obtain ⟨n, v⟩ := p
    simp only [insertEntry]
    split
    · simp
    · split
      · simp
      · next hne => simp [List.lookup_cons, beq_false_of_ne hne, ih]

theorem lookup_insertEntry_of_ne {name other : String} (h : other ≠ name) (value : α)
    (l : List (String × α)) : (insertEntry name value l).lookup other = l.lookup other := by
  induction l with
  | nil => simp [insertEntry, List.lookup_cons, beq_false_of_ne h]
  | cons p rest ih =>
    obtain ⟨n, v⟩ := p
    simp only [insertEntry]
    split
    · simp [List.lookup_cons, beq_false_of_ne h]
    · split
      · next heq => simp [List.lookup_cons, beq_false_of_ne h, beq_false_of_ne (heq ▸ h)]
      · simp [List.lookup_cons, ih]

@[simp] theorem get?_insert_self (m : NameMap α) (name : String) (value : α) :
    (m.insert name value).get? name = some value :=
  lookup_insertEntry_self name value m.entries

theorem get?_insert_of_ne (m : NameMap α) {name other : String} (h : other ≠ name) (value : α) :
    (m.insert name value).get? other = m.get? other :=
  lookup_insertEntry_of_ne h value m.entries

/-- A look-up after an insertion sees the new value at the new name and the old ones elsewhere. -/
theorem get?_insert (m : NameMap α) (name other : String) (value : α) :
    (m.insert name value).get? other = if other = name then some value else m.get? other := by
  split
  · next h => exact h ▸ get?_insert_self m name value
  · next h => exact get?_insert_of_ne m h value

end NameMap

/-- A finite set of names, listed in increasing order. -/
abbrev NameSet := NameMap Unit

namespace NameSet

/-- The set with one more name. -/
def add (s : NameSet) (name : String) : NameSet := s.insert name ()

/-- The set of the names in a list. -/
def ofNames (names : List String) : NameSet := names.foldl add NameMap.empty

end NameSet

end SimMetadata

import Mathlib.Data.List.Nodup
import SimMetadata.Proofs.Enumeration

/-!
# How an enumeration is numbered

An entry with a number of its own has this number, whatever came before. A bare entry has the number
before it plus one, and the first of all entries has zero if it is bare. So counting starts anew at
each explicit entry, and what a bare entry gets can be told without counting: it is as far from the
number of the nearest explicit entry before it as the entry is from that one.

## Main definitions

* `EnumDecl.Continues`: the numbers go on from entry to entry.
* `EnumDecl.CountsFrom`: every number is told by the nearest explicit entry.
* `EnumDecl.numberWords`: counting in words of 64 bits.

## Main results

* `EnumDecl.toEnumeration?_eq_error_iff`: which repeated name is reported.
* `EnumDecl.continues_iff`, `EnumDecl.continues_iff_countsFrom`: the numbers of a declaration are
  the ones that go on from entry to entry, and this can be told without counting.
* `EnumDecl.numbering_exact`: which declarations describe an enumeration, and how it is numbered.

## Implementation notes

Numbers are integers without bound. Where every number and the one after it can be held in a word,
counting in words comes to the same (`EnumDecl.map_toInt_numberWords`).
-/

namespace SimMetadata

/-- The number of an entry, where `next` is the one that a bare entry takes. -/
def EnumEntry.value (next : Int) : EnumEntry → Int
  | bare _ => next
  | explicit _ value => value

namespace EnumDecl

variable {start : Int} {entry : EnumEntry} {entries rest : List EnumEntry} {numbers : List Int}
  {seen names : List String} {d : EnumDecl}

/-! ### Which name is reported -/

/-- The name that is found is the first that repeats one before it. As in
`firstRepeat?_eq_none_iff`, names that came before the list count as well. -/
theorem firstRepeat?_eq_some_iff {n : String} :
    firstRepeat? seen names = some n ↔ ∃ before after, names = before ++ n :: after
      ∧ firstRepeat? seen before = none ∧ (n ∈ before ∨ n ∈ seen) := by
  induction names generalizing seen with
  | nil => simp [firstRepeat?]
  | cons m rest ih =>
    rw [firstRepeat?]
    by_cases hm : m ∈ seen
    · rw [if_pos hm]
      constructor
      · intro h
        cases h
        exact ⟨[], rest, rfl, rfl, .inr hm⟩
      · rintro ⟨before, after, hsplit, hnone, -⟩
        cases before with
        | nil => exact congrArg some (List.cons.inj hsplit).1
        | cons b before =>
          obtain ⟨rfl, -⟩ := List.cons.inj hsplit
          rw [firstRepeat?, if_pos hm] at hnone
          cases hnone
    · rw [if_neg hm, ih]
      constructor
      · rintro ⟨before, after, rfl, hnone, hn⟩
        refine ⟨m :: before, after, rfl, ?_, ?_⟩
        · rw [firstRepeat?, if_neg hm, hnone]
        · simpa [or_left_comm, or_assoc] using hn
      · rintro ⟨before, after, hsplit, hnone, hn⟩
        cases before with
        | nil =>
          obtain ⟨rfl, -⟩ := List.cons.inj hsplit
          exact absurd hn (by simpa using hm)
        | cons b before =>
          obtain ⟨rfl, rfl⟩ := List.cons.inj hsplit
          rw [firstRepeat?, if_neg hm] at hnone
          exact ⟨before, after, rfl, hnone, by simpa [or_left_comm, or_assoc] using hn⟩

/-- **Which repeated name is reported.** It is the name of the first entry that has the name of an
entry before it. -/
theorem toEnumeration?_eq_error_iff {f : Failure} :
    d.toEnumeration? = .error f ↔ ∃ before entry after, d.entries = before ++ entry :: after
      ∧ (before.map EnumEntry.name).Nodup ∧ entry.name ∈ before.map EnumEntry.name
      ∧ f = .duplicateEnumValue d.name entry.name := by
  have hfirst : d.toEnumeration? = .error f ↔
      ∃ n, firstRepeat? [] (d.entries.map EnumEntry.name) = some n
        ∧ f = .duplicateEnumValue d.name n := by
    rw [toEnumeration?]
    cases firstRepeat? [] (d.entries.map EnumEntry.name) with
    | none => simp
    | some n => simp [eq_comm]
  simp only [hfirst, firstRepeat?_eq_some_iff, firstRepeat?_eq_none_iff, List.not_mem_nil,
    or_false, not_false_eq_true, implies_true, and_true]
  constructor
  · rintro ⟨n, ⟨names, after, hsplit, hnodup, hn⟩, rfl⟩
    obtain ⟨before, rest, hentries, rfl, hrest⟩ := List.map_eq_append_iff.mp hsplit
    obtain ⟨entry, after, rfl, rfl, rfl⟩ := List.map_eq_cons_iff.mp hrest
    exact ⟨before, entry, after, hentries, hnodup, hn, rfl⟩
  · rintro ⟨before, entry, after, hentries, hnodup, hn, rfl⟩
    refine ⟨entry.name, ⟨before.map EnumEntry.name, after.map EnumEntry.name, ?_, hnodup, hn⟩, rfl⟩
    rw [hentries, List.map_append, List.map_cons]

/-- A declaration is refused if two of its entries have one name, and only then. -/
theorem exists_toEnumeration?_error_iff :
    (∃ f, d.toEnumeration? = .error f) ↔ ∃ (i j : Nat) (e e' : EnumEntry), i < j
      ∧ d.entries[i]? = some e ∧ d.entries[j]? = some e' ∧ e.name = e'.name := by
  have hrefused : (∃ f, d.toEnumeration? = .error f) ↔ ¬ (d.entries.map EnumEntry.name).Nodup := by
    constructor
    · rintro ⟨f, hf⟩ hnodup
      cases hf.symm.trans (toEnumeration?_eq_ok_iff.mpr ⟨hnodup, rfl⟩)
    · intro hrepeat
      cases hd : d.toEnumeration? with
      | error f => exact ⟨f, rfl⟩
      | ok e => exact absurd (toEnumeration?_eq_ok_iff.mp hd).1 hrepeat
  rw [hrefused, List.nodup_iff_getElem?_ne_getElem?]
  push Not
  simp only [List.length_map, List.getElem?_map]
  constructor
  · rintro ⟨i, j, hij, hj, hname⟩
    have hi : i < d.entries.length := Nat.lt_trans hij hj
    rw [List.getElem?_eq_getElem hi, List.getElem?_eq_getElem hj] at hname
    exact ⟨i, j, d.entries[i], d.entries[j], hij, List.getElem?_eq_getElem hi,
      List.getElem?_eq_getElem hj, Option.some.inj hname⟩
  · rintro ⟨i, j, e, e', hij, hi, hj, hname⟩
    refine ⟨i, j, hij, (List.getElem?_eq_some_iff.mp hj).1, ?_⟩
    rw [hi, hj, Option.map_some, Option.map_some, hname]

/-! ### Going on from entry to entry -/

/-- The numbers go on from entry to entry: an explicit entry has its own number, a bare one the
number before it plus one, and the first entry has `start` if it is bare. -/
structure Continues (start : Int) (entries : List EnumEntry) (numbers : List Int) : Prop where
  length_eq : numbers.length = entries.length
  explicit : ∀ (i : Nat) name value, entries[i]? = some (.explicit name value) →
    numbers[i]? = some value
  first : ∀ name, entries[0]? = some (.bare name) → numbers[0]? = some start
  next : ∀ (i : Nat) name, entries[i + 1]? = some (.bare name) →
    ∃ n, numbers[i]? = some n ∧ numbers[i + 1]? = some (n + 1)

theorem continues_nil_iff : Continues start [] numbers ↔ numbers = [] := by
  constructor
  · exact fun h => List.length_eq_zero_iff.mp h.length_eq
  · rintro rfl
    exact ⟨rfl, by simp, by simp, by simp⟩

/-- Behind the first entry, counting has started at the number after that of this entry. -/
theorem continues_cons_iff {n : Int} {ns : List Int} :
    Continues start (entry :: rest) (n :: ns) ↔
      n = entry.value start ∧ Continues (n + 1) rest ns := by
  constructor
  · intro h
    constructor
    · cases entry with
      | bare name => exact Option.some.inj (h.first name rfl)
      | explicit name value => exact Option.some.inj (h.explicit 0 name value rfl)
    · refine ⟨Nat.succ.inj h.length_eq, fun i => h.explicit (i + 1), fun name hname => ?_,
        fun i => h.next (i + 1)⟩
      obtain ⟨m, hm, hnext⟩ := h.next 0 name hname
      cases hm
      exact hnext
  · rintro ⟨rfl, h⟩
    refine ⟨congrArg Nat.succ h.length_eq, ?_, ?_, ?_⟩
    · rintro (_ | i) name value hentry
      · cases hentry
        rfl
      · exact h.explicit i name value hentry
    · rintro name hentry
      cases hentry
      rfl
    · rintro (_ | i) name hentry
      · exact ⟨_, rfl, h.first name hentry⟩
      · exact h.next i name hentry

/-- The first entry is numbered, and counting goes on behind its number. -/
theorem number_cons (next : Int) (entry : EnumEntry) (rest : List EnumEntry) :
    number next (entry :: rest)
      = ⟨entry.name, entry.value next⟩ :: number (entry.value next + 1) rest := by
  cases entry <;> rfl

/-- **The numbers that go on from entry to entry.** There are no others than those that counting
gives. The induction needs the number at which counting starts to be any. -/
theorem continues_iff :
    Continues start entries numbers ↔ numbers = (number start entries).map EnumValue.value := by
  induction entries generalizing start numbers with
  | nil => exact continues_nil_iff
  | cons entry rest ih =>
    rw [number_cons, List.map_cons]
    cases numbers with
    | nil =>
      constructor
      · exact fun h => absurd h.length_eq (by simp)
      · exact fun h => absurd h (by simp)
    | cons n ns =>
      rw [continues_cons_iff, ih, List.cons.injEq]
      constructor
      · rintro ⟨rfl, rfl⟩
        exact ⟨rfl, rfl⟩
      · rintro ⟨rfl, rfl⟩
        exact ⟨rfl, rfl⟩

/-! ### Without counting -/

/-- The entries from a place up to another, the last place apart, are bare. -/
def AllBare (entries : List EnumEntry) (low high : Nat) : Prop :=
  ∀ j, low ≤ j → j < high → ∃ name, entries[j]? = some (.bare name)

theorem allBare_self (entries : List EnumEntry) (i : Nat) : AllBare entries i i :=
  fun _ hlow hhigh => absurd hhigh (Nat.not_lt.mpr hlow)

theorem AllBare.snoc {low high : Nat} {name : String} (h : AllBare entries low high)
    (hname : entries[high]? = some (.bare name)) : AllBare entries low (high + 1) := by
  intro j hlow hhigh
  rcases Nat.lt_succ_iff_lt_or_eq.mp hhigh with hlt | rfl
  · exact h j hlow hlt
  · exact ⟨name, hname⟩

theorem AllBare.init {low high : Nat} (h : AllBare entries low (high + 1)) :
    AllBare entries low high :=
  fun j hlow hhigh => h j hlow (Nat.lt_succ_of_lt hhigh)

/-- Every number is told by the nearest explicit entry, or by the beginning if there is none: it is
as far from the number there as the entry is from that place. -/
structure CountsFrom (start : Int) (entries : List EnumEntry) (numbers : List Int) : Prop where
  length_eq : numbers.length = entries.length
  beginning : ∀ i : Nat, AllBare entries 0 (i + 1) → numbers[i]? = some (start + i)
  explicit : ∀ (i k : Nat) name value, entries[i]? = some (.explicit name value) →
    AllBare entries (i + 1) (i + k + 1) → numbers[i + k]? = some (value + k)

/-- The nearest explicit entry before a place, if there is one. -/
theorem exists_nearest {i : Nat} (hi : i ≤ entries.length) :
    AllBare entries 0 i ∨ ∃ a k name value, i = a + k + 1
      ∧ entries[a]? = some (.explicit name value) ∧ AllBare entries (a + 1) i := by
  induction i with
  | zero => exact .inl (allBare_self entries 0)
  | succ i ih =>
    have hentry := List.getElem?_eq_getElem hi
    cases hkind : entries[i] with
    | bare name =>
      rw [hkind] at hentry
      rcases ih (Nat.le_of_succ_le hi) with hall | ⟨a, k, explicitName, value, rfl, ha, hbare⟩
      · exact .inl (hall.snoc hentry)
      · exact .inr ⟨a, k + 1, explicitName, value, rfl, ha, hbare.snoc hentry⟩
    | explicit name value =>
      rw [hkind] at hentry
      exact .inr ⟨i, 0, name, value, rfl, hentry, allBare_self entries (i + 1)⟩

theorem Continues.countsFrom (h : Continues start entries numbers) :
    CountsFrom start entries numbers := by
  refine ⟨h.length_eq, fun i hbare => ?_, fun i k name value hexplicit hbare => ?_⟩
  · induction i with
    | zero =>
      obtain ⟨name, hname⟩ := hbare 0 (Nat.le_refl 0) (Nat.succ_pos 0)
      simpa using h.first name hname
    | succ i ih =>
      obtain ⟨name, hname⟩ := hbare (i + 1) (Nat.zero_le _) (Nat.lt_succ_self _)
      obtain ⟨n, hn, hnext⟩ := h.next i name hname
      cases hn.symm.trans (ih hbare.init)
      rw [hnext, Int.natCast_succ, Int.add_assoc]
  · induction k with
    | zero => simpa using h.explicit i name value hexplicit
    | succ k ih =>
      obtain ⟨bareName, hname⟩ := hbare (i + k + 1) (by omega) (Nat.lt_succ_self _)
      obtain ⟨n, hn, hnext⟩ := h.next (i + k) bareName hname
      cases hn.symm.trans (ih hbare.init)
      rw [← Nat.add_assoc, hnext, Int.natCast_succ, Int.add_assoc]

theorem CountsFrom.continues (h : CountsFrom start entries numbers) :
    Continues start entries numbers := by
  refine ⟨h.length_eq, fun i name value hexplicit => ?_, fun name hname => ?_,
    fun i name hname => ?_⟩
  · simpa using h.explicit i 0 name value hexplicit (allBare_self entries (i + 1))
  · simpa using h.beginning 0 ((allBare_self entries 0).snoc hname)
  · have hi : i + 1 < entries.length := (List.getElem?_eq_some_iff.mp hname).1
    rcases exists_nearest (Nat.le_of_lt hi) with
      hbare | ⟨a, k, explicitName, value, hplace, ha, hbare⟩
    · refine ⟨_, h.beginning i hbare, ?_⟩
      rw [h.beginning (i + 1) (hbare.snoc hname), Int.natCast_succ, Int.add_assoc]
    · cases hplace
      refine ⟨_, h.explicit a k explicitName value ha hbare, ?_⟩
      have hnext := h.explicit a (k + 1) explicitName value ha (hbare.snoc hname)
      rw [Nat.add_assoc, hnext, Int.natCast_succ, Int.add_assoc]

/-- **Numbers can be told without counting.** -/
theorem continues_iff_countsFrom :
    Continues start entries numbers ↔ CountsFrom start entries numbers :=
  ⟨Continues.countsFrom, CountsFrom.continues⟩

/-! ### Bare names -/

theorem number_map_bare (next : Int) (names : List String) :
    number next (names.map .bare) = names.mapIdx fun i n => ⟨n, next + i⟩ := by
  induction names generalizing next with
  | nil => rfl
  | cons n rest ih =>
    rw [List.map_cons, number, ih, List.mapIdx_cons]
    simp [Int.add_assoc, Int.add_comm 1]

/-- A declaration of different bare names describes these names, numbered from zero. -/
theorem toEnumeration?_of_bare (h : names.Nodup) (hd : d.entries = names.map .bare) :
    d.toEnumeration? = .ok (.sequential d.name names) := by
  have hnames : d.entries.map EnumEntry.name = names := by
    rw [hd, List.map_map]
    exact List.map_id names
  rw [toEnumeration?_eq_ok_iff, hnames, hd, number_map_bare, Enumeration.sequential]
  simp [h]

/-! ### Words -/

/-- Counting in words of 64 bits, where the smallest number follows the largest. -/
def numberWords (next : Int64) : List EnumEntry → List Int64
  | [] => []
  | .bare _ :: rest => next :: numberWords (next + 1) rest
  | .explicit _ value :: rest => .ofInt value :: numberWords (.ofInt value + 1) rest

/-- Counting does not leave the numbers that a word can hold: every number is one of them, and so is
the one after it, to which the count goes on. -/
def StaysInWords (d : EnumDecl) : Prop :=
  ∀ v ∈ number 0 d.entries, Int64.minValue.toInt ≤ v.value ∧ v.value < Int64.maxValue.toInt

instance : Decidable d.StaysInWords := inferInstanceAs (Decidable (∀ _ ∈ _, _))

/-- Whether one counts in words or turns integers into words makes no difference. -/
theorem numberWords_eq (next : Int) (entries : List EnumEntry) :
    numberWords (.ofInt next) entries = (number next entries).map fun v => .ofInt v.value := by
  induction entries generalizing next with
  | nil => rfl
  | cons entry rest ih =>
    have hnext : ∀ n : Int, Int64.ofInt n + 1 = Int64.ofInt (n + 1) :=
      fun n => (Int64.ofInt_add n 1).symm
    cases entry with
    | bare name => rw [numberWords, hnext, ih, number, List.map_cons]
    | explicit name value => rw [numberWords, hnext, ih, number, List.map_cons]

/-- **Counting in words gives the same numbers**, if it stays among them. -/
theorem map_toInt_numberWords (h : d.StaysInWords) :
    (numberWords 0 d.entries).map Int64.toInt = (number 0 d.entries).map EnumValue.value := by
  have hwords : numberWords 0 d.entries = _ := numberWords_eq 0 d.entries
  rw [hwords, List.map_map]
  refine List.map_congr_left fun v hv => ?_
  obtain ⟨hlow, hhigh⟩ := h v hv
  rw [Int64.toInt_minValue] at hlow
  rw [Int64.toInt_maxValue] at hhigh
  exact Int64.toInt_ofInt_of_le hlow (by omega)

/-! ### The numbering -/

/-- **Which declarations describe an enumeration, and how it is numbered.** A declaration is refused
exactly if two entries have one name, and then for the name of the first entry that repeats an
earlier one. Otherwise the names stay as they are, in their order, and the numbers go on from entry
to entry, beginning with zero; which can as well be told from the nearest explicit entry before each
one. Counting in words gives the same numbers if it does not leave them. Different bare names are
numbered as `Enumeration.sequential` does it. -/
theorem numbering_exact (d : EnumDecl) :
    ((∃ f, d.toEnumeration? = .error f) ↔ ∃ (i j : Nat) (e e' : EnumEntry), i < j
        ∧ d.entries[i]? = some e ∧ d.entries[j]? = some e' ∧ e.name = e'.name)
      ∧ (∀ f, d.toEnumeration? = .error f ↔
        ∃ before entry after, d.entries = before ++ entry :: after
          ∧ (before.map EnumEntry.name).Nodup ∧ entry.name ∈ before.map EnumEntry.name
          ∧ f = .duplicateEnumValue d.name entry.name)
      ∧ (∀ e, d.toEnumeration? = .ok e →
        e.name = d.name ∧ e.values.map EnumValue.name = d.entries.map EnumEntry.name
          ∧ (∀ numbers, Continues 0 d.entries numbers ↔ numbers = e.values.map EnumValue.value)
          ∧ (∀ numbers, CountsFrom 0 d.entries numbers ↔ numbers = e.values.map EnumValue.value)
          ∧ (d.StaysInWords →
            (numberWords 0 d.entries).map Int64.toInt = e.values.map EnumValue.value))
      ∧ ∀ names : List String, names.Nodup → d.entries = names.map .bare →
        d.toEnumeration? = .ok (.sequential d.name names) := by
  refine ⟨exists_toEnumeration?_error_iff, fun f => toEnumeration?_eq_error_iff, fun e he => ?_,
    fun names => toEnumeration?_of_bare⟩
  obtain ⟨-, rfl⟩ := toEnumeration?_eq_ok_iff.mp he
  exact ⟨rfl, map_name_number 0 d.entries, fun _ => continues_iff,
    fun _ => continues_iff_countsFrom.symm.trans continues_iff, map_toInt_numberWords⟩

/-- Entries that go on from zero, from a larger number, and from one below zero that is lower than
those before. -/
def levels : EnumDecl :=
  ⟨"Level", [.bare "low", .explicit "high" 10, .bare "urgent", .explicit "idle" (-1), .bare "off"]⟩

/-- The numbers of `levels` start anew twice, in words as well; bare names alone are numbered in
turn. -/
theorem levels_numbered :
    levels.toEnumeration? = .ok ⟨"Level", number 0 levels.entries⟩
      ∧ levels.StaysInWords
      ∧ Continues 0 levels.entries [0, 10, 11, -1, 0]
      ∧ (numberWords 0 levels.entries).map Int64.toInt = [0, 10, 11, -1, 0]
      ∧ (⟨"Mode", [.bare "atomic", .bare "timing"]⟩ : EnumDecl).toEnumeration?
        = .ok (.sequential "Mode" ["atomic", "timing"]) := by
  have hok : levels.toEnumeration? = .ok ⟨"Level", number 0 levels.entries⟩ := by decide
  have hstays : levels.StaysInWords := by decide
  obtain ⟨-, -, hnumbers, -⟩ := numbering_exact levels
  obtain ⟨-, -, hcontinues, -, hwords⟩ := hnumbers _ hok
  obtain ⟨-, -, -, hbare⟩ := numbering_exact ⟨"Mode", [.bare "atomic", .bare "timing"]⟩
  exact ⟨hok, hstays, (hcontinues _).mpr (by decide), (hwords hstays).trans (by decide),
    hbare ["atomic", "timing"] (by decide) rfl⟩

end EnumDecl

end SimMetadata

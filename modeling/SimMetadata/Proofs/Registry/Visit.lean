import SimMetadata.Proofs.Registry.Linearization

/-!
# Linearization as a recursive visit

The order of classes has a short recursive description. To visit a class, skip it if it has been
listed, and otherwise visit its parent first and list the class then; and the names are visited in
turn. `Visits` and `VisitsAll` say this as it stands. There is no bound and no check for cycles in
them: a visit that would go round for ever is one that has no derivation.

The linearization does not recurse. It climbs, puts what it passes in front of what it has passed,
and gives up on a cycle or when its budget is used up. It nevertheless succeeds exactly when the
visit has a result, and then lists the same classes in the same order.

## Main definitions

* `Linearization.Visits`: what visiting one name adds to the list.
* `Linearization.VisitsAll`: the list after visiting some names in turn.

## Main results

* `Linearization.exists_visits_of_climb`, `Linearization.Visits.climb_eq`: a climb finds what a
  visit adds, and conversely.
* `Linearization.linearize_eq_ok_iff`: linearization is the recursive visit.
* `Linearization.linearize_exact`: which classes are listed, how often, and in which order.

## Implementation notes

A class is found on the way up from its own parent only if the visit of the class contains a visit
of the same class that adds less. As a visit has one result, that cannot be, so no cycle check can
refuse a climb that follows a visit. What the climb has passed is then a list of registered classes
without duplicates, and the budget is enough for it.
-/

namespace SimMetadata

namespace Linearization

variable {classes : NameMap ConfigClass} {listed out added added' : List ConfigClass}
  {names : List String} {name : String} {c x : ConfigClass}

/-! ### The visit -/

/-- Visiting the name adds these classes to the listed ones. -/
inductive Visits (classes : NameMap ConfigClass) (listed : List ConfigClass) :
    String → List ConfigClass → Prop where
  /-- A class that has been listed is skipped. -/
  | skip {name : String} (known : name ∈ listed.map ConfigClass.name) :
      Visits classes listed name []
  /-- A class without a parent is listed. -/
  | top {name : String} {c : ConfigClass} (new : name ∉ listed.map ConfigClass.name)
      (found : classes.get? name = some c) (parent : c.parent = none) :
      Visits classes listed name [c]
  /-- A class with a parent is listed after a visit to the parent. -/
  | derived {name : String} {c : ConfigClass} {p : String} {above : List ConfigClass}
      (new : name ∉ listed.map ConfigClass.name) (found : classes.get? name = some c)
      (parent : c.parent = some p) (first : Visits classes listed p above) :
      Visits classes listed name (above ++ [c])

/-- The list after visiting the names in turn, each with what has been listed before it. -/
inductive VisitsAll (classes : NameMap ConfigClass) :
    List ConfigClass → List String → List ConfigClass → Prop where
  | nil {listed : List ConfigClass} : VisitsAll classes listed [] listed
  | cons {listed added out : List ConfigClass} {name : String} {names : List String}
      (first : Visits classes listed name added)
      (rest : VisitsAll classes (listed ++ added) names out) :
      VisitsAll classes listed (name :: names) out

namespace Visits

/-- **A visit has one result.** -/
theorem unique (h : Visits classes listed name added) (h' : Visits classes listed name added') :
    added = added' := by
  induction h generalizing added' with
  | skip known =>
    cases h' with
    | skip => rfl
    | top new => exact absurd known new
    | derived new => exact absurd known new
  | top new found parent =>
    cases h' with
    | skip known => exact absurd known new
    | top _ found' =>
      cases found.symm.trans found'
      rfl
    | derived _ found' parent' =>
      cases found.symm.trans found'
      cases parent.symm.trans parent'
  | derived new found parent _ ih =>
    cases h' with
    | skip known => exact absurd known new
    | top _ found' parent' =>
      cases found.symm.trans found'
      cases parent.symm.trans parent'
    | derived _ found' parent' first' =>
      cases found.symm.trans found'
      cases parent.symm.trans parent'
      rw [ih first']

theorem registered (hkeyed : Keyed classes) (h : Visits classes listed name added)
    (hx : x ∈ added) : classes.get? x.name = some x := by
  induction h with
  | skip => cases hx
  | top _ found =>
    cases List.mem_singleton.mp hx
    rw [hkeyed found, found]
  | derived _ found _ _ ih =>
    rcases List.mem_append.mp hx with hx | hx
    · exact ih hx
    · cases List.mem_singleton.mp hx
      rw [hkeyed found, found]

/-- A visit visits every class that it adds, and adds no less than that visit does. -/
theorem exists_of_mem (hkeyed : Keyed classes) (h : Visits classes listed name added)
    (hx : x ∈ added) :
    ∃ added', Visits classes listed x.name added' ∧ added'.length ≤ added.length := by
  induction h with
  | skip => cases hx
  | top new found parent =>
    cases List.mem_singleton.mp hx
    cases hkeyed found
    exact ⟨_, .top new found parent, Nat.le_refl _⟩
  | @derived name c p above new found parent first ih =>
    rcases List.mem_append.mp hx with hx | hx
    · obtain ⟨added', hvisit, hlength⟩ := ih hx
      exact ⟨added', hvisit, by simp; omega⟩
    · cases List.mem_singleton.mp hx
      cases hkeyed found
      exact ⟨_, .derived new found parent first, Nat.le_refl _⟩

/-- A class is not found on the way up from its own parent. -/
theorem ne_of_mem_above {p : String} (hkeyed : Keyed classes)
    (hnew : name ∉ listed.map ConfigClass.name) (hfound : classes.get? name = some c)
    (hparent : c.parent = some p) (h : Visits classes listed p added) (hx : x ∈ added) :
    x.name ≠ c.name := by
  intro heq
  obtain ⟨added', hvisit, hlength⟩ := h.exists_of_mem hkeyed hx
  rw [heq, hkeyed hfound] at hvisit
  rw [hvisit.unique (.derived hnew hfound hparent h), List.length_append] at hlength
  exact Nat.not_succ_le_self _ hlength

theorem nodup (hkeyed : Keyed classes) (h : Visits classes listed name added) :
    (added.map ConfigClass.name).Nodup := by
  induction h with
  | skip => exact List.nodup_nil
  | top => exact List.nodup_singleton _
  | derived new found parent first ih =>
    rw [List.map_append, List.map_singleton, List.nodup_append_comm]
    refine List.nodup_cons.mpr ⟨fun hmem => ?_, ih⟩
    obtain ⟨x, hx, heq⟩ := List.mem_map.mp hmem
    exact ne_of_mem_above hkeyed new found parent first hx heq

/-- There are enough registered classes for all that a visit adds. -/
theorem length_le_size (hkeyed : Keyed classes) (h : Visits classes listed name added) :
    added.length ≤ classes.size := by
  have hsub : added.map ConfigClass.name ⊆ classes.keys := by
    intro n hn
    obtain ⟨x, hx, rfl⟩ := List.mem_map.mp hn
    exact NameMap.contains_iff_mem_keys.mp (NameMap.contains_of_get? (h.registered hkeyed hx))
  have hlength := (List.subperm_of_subset (h.nodup hkeyed) hsub).length_le
  rwa [List.length_map, NameMap.keys, List.length_map] at hlength

/-- What a visit adds is the class that it is asked for and ancestors of it. -/
theorem exists_ancestor (hkeyed : Keyed classes) (h : Visits classes listed name added)
    (hx : x ∈ added) : ∃ steps, ancestor? classes steps name = some x.name := by
  induction h with
  | skip => cases hx
  | top _ found =>
    cases List.mem_singleton.mp hx
    exact ⟨0, by rw [ancestor?, hkeyed found]⟩
  | derived _ found parent _ ih =>
    rcases List.mem_append.mp hx with hx | hx
    · obtain ⟨steps, hsteps⟩ := ih hx
      exact ⟨steps + 1, by rw [ancestor?_succ found parent, hsteps]⟩
    · cases List.mem_singleton.mp hx
      exact ⟨0, by rw [ancestor?, hkeyed found]⟩

end Visits

/-! ### Climbing is visiting -/

/-- A climb that succeeds has followed a visit. The induction is on the budget. -/
theorem exists_visits_of_climb {budget : ℕ} {passed chain : List ConfigClass}
    (h : climb classes (listed.map ConfigClass.name) budget passed name = .ok chain) :
    ∃ added, chain = added ++ passed ∧ Visits classes listed name added := by
  induction budget using Nat.strongRecOn generalizing passed name with
  | ind budget ih =>
  by_cases hlisted : name ∈ listed.map ConfigClass.name
  · rw [climb_of_mem hlisted] at h
    cases h
    exact ⟨[], rfl, .skip hlisted⟩
  · obtain ⟨c, left, hbudget, hfound, -, ⟨hparent, rfl⟩ | ⟨p, hparent, hrest⟩⟩ :=
      climb_cases hlisted h
    · exact ⟨[c], rfl, .top hlisted hfound hparent⟩
    · obtain ⟨above, rfl, hfirst⟩ := ih left (by omega) hrest
      exact ⟨above ++ [c], by simp, .derived hlisted hfound hparent hfirst⟩

/-- A climb follows a visit, if the budget is enough and nothing has been passed before that the
visit adds. -/
theorem Visits.climb_eq {budget : ℕ} {passed : List ConfigClass} (hkeyed : Keyed classes)
    (h : Visits classes listed name added) (hbudget : added.length ≤ budget)
    (hfresh : ∀ x ∈ added, x.name ∉ passed.map ConfigClass.name) :
    climb classes (listed.map ConfigClass.name) budget passed name = .ok (added ++ passed) := by
  induction h generalizing budget passed with
  | skip known => exact climb_of_mem known
  | @top name c new found parent =>
    obtain ⟨left, rfl⟩ : ∃ left, budget = left + 1 := ⟨budget - 1, by simp at hbudget; omega⟩
    rw [climb, if_neg new, found]
    dsimp only
    rw [if_neg (hfresh c (by simp)), parent]
    rfl
  | @derived name c p above new found parent first ih =>
    rw [List.length_append, List.length_singleton] at hbudget
    obtain ⟨left, rfl⟩ : ∃ left, budget = left + 1 := ⟨budget - 1, by omega⟩
    rw [climb, if_neg new, found]
    dsimp only
    rw [if_neg (hfresh c (by simp)), parent]
    dsimp only
    rw [ih (by omega), List.append_assoc, List.singleton_append]
    intro x hx
    rw [List.map_cons, List.mem_cons, not_or]
    exact ⟨first.ne_of_mem_above hkeyed new found parent hx, hfresh x (by simp [hx])⟩

theorem extend_eq_ok_iff (hkeyed : Keyed classes) :
    extend classes listed names = .ok out ↔ VisitsAll classes listed names out := by
  induction names generalizing listed with
  | nil =>
    constructor
    · intro h
      cases h
      exact .nil
    · rintro ⟨⟩
      rfl
  | cons name names ih =>
    rw [extend, except_bind_eq_ok_iff]
    constructor
    · rintro ⟨chain, hclimb, hrest⟩
      obtain ⟨added, rfl, hfirst⟩ := exists_visits_of_climb hclimb
      rw [List.append_nil] at hrest
      exact .cons hfirst (ih.mp hrest)
    · intro h
      cases h with
      | @cons _ added _ _ _ first rest =>
        refine ⟨added ++ [], first.climb_eq hkeyed (first.length_le_size hkeyed) (by simp), ?_⟩
        rw [List.append_nil]
        exact ih.mpr rest

/-- **Linearization is the recursive visit**: it succeeds exactly when the visit has a result, and
with that result. -/
theorem linearize_eq_ok_iff (hkeyed : Keyed classes) :
    linearize classes names = .ok out ↔ VisitsAll classes [] names out :=
  extend_eq_ok_iff hkeyed

/-! ### What is listed -/

/-- A listed class has been listed before, or it is one of the names or an ancestor of one. -/
theorem VisitsAll.exists_ancestor (hkeyed : Keyed classes)
    (h : VisitsAll classes listed names out) (hx : x ∈ out) :
    x ∈ listed ∨ ∃ n ∈ names, ∃ steps, ancestor? classes steps n = some x.name := by
  induction h with
  | nil => exact .inl hx
  | @cons listed added out name names first rest ih =>
    rcases ih hx with hmem | ⟨n, hn, hsteps⟩
    · rcases List.mem_append.mp hmem with hlisted | hadded
      · exact .inl hlisted
      · exact .inr ⟨name, List.mem_cons_self, first.exists_ancestor hkeyed hadded⟩
    · exact .inr ⟨n, List.mem_cons_of_mem _ hn, hsteps⟩

/-- With a class, all its ancestors are listed. -/
theorem ParentsFirst.ancestor_mem {steps : ℕ} {ancestor : String} (h : ParentsFirst classes out)
    (hname : name ∈ out.map ConfigClass.name)
    (hsteps : ancestor? classes steps name = some ancestor) :
    ancestor ∈ out.map ConfigClass.name := by
  induction steps generalizing name with
  | zero =>
    cases hsteps
    exact hname
  | succ steps ih =>
    obtain ⟨c, hc, rfl⟩ := List.mem_map.mp hname
    obtain ⟨p, hp, hrest⟩ := Option.bind_eq_some_iff.mp hsteps
    rw [parentOf?, h.registered hc] at hp
    exact ih (h.parent_mem hc hp) hrest

/-- The listed classes are those with one of the names and the ancestors of these. -/
theorem mem_iff_of_linearize (hkeyed : Keyed classes) (h : linearize classes names = .ok out) :
    c ∈ out ↔ classes.get? c.name = some c
      ∧ ∃ n ∈ names, ∃ steps, ancestor? classes steps n = some c.name := by
  obtain ⟨hfirst, hnames⟩ := linearize_ok hkeyed h
  constructor
  · intro hc
    have hvisit := (linearize_eq_ok_iff hkeyed).mp h
    exact ⟨hfirst.registered hc, (hvisit.exists_ancestor hkeyed hc).resolve_left (by simp)⟩
  · rintro ⟨hreg, n, hn, steps, hsteps⟩
    obtain ⟨c', hc', hname⟩ := List.mem_map.mp (hfirst.ancestor_mem (hnames n hn) hsteps)
    have hreg' := hfirst.registered hc'
    rw [hname, hreg] at hreg'
    cases hreg'
    exact hc'

/-- **The order is exact.** No class is listed twice. The listed classes are those with one of the
names and the ancestors of these, and the parent of each is listed before it. And the list is what
the recursive visit comes to, which has no other result. -/
theorem linearize_exact (hkeyed : Keyed classes) (h : linearize classes names = .ok out) :
    (out.map ConfigClass.name).Nodup
      ∧ (∀ c, c ∈ out ↔ classes.get? c.name = some c
        ∧ ∃ n ∈ names, ∃ steps, ancestor? classes steps n = some c.name)
      ∧ (∀ before c after p, out = before ++ c :: after → c.parent = some p →
        ∃ q ∈ before, classes.get? p = some q)
      ∧ ∀ out', VisitsAll classes [] names out' ↔ out' = out := by
  obtain ⟨hfirst, -⟩ := linearize_ok hkeyed h
  refine ⟨hfirst.nodup, fun c => mem_iff_of_linearize hkeyed h,
    fun before c after p hsplit hp => ?_, fun out' => ?_⟩
  · obtain ⟨q, hq, rfl⟩ := List.mem_map.mp (hfirst.parent_mem_before hsplit hp)
    exact ⟨q, hq, hfirst.registered (by simp [hsplit, hq])⟩
  · rw [← linearize_eq_ok_iff hkeyed, h]
    constructor
    · rintro ⟨⟩
      rfl
    · rintro rfl
      rfl

/-! ### Two classes with common ancestors -/

def forkedClasses : NameMap ConfigClass := NameMap.ofList
  [("SimObject", ⟨"SimObject", none, [], none, "SimObject", none, true, "runtime"⟩),
    ("Core", ⟨"Core", some "SimObject", [], none, "Core", none, true, "objects.Core"⟩),
    ("FastCore", ⟨"FastCore", some "Core", [], none, "FastCore", none, false, "objects.Core"⟩),
    ("SlowCore", ⟨"SlowCore", some "Core", [], none, "SlowCore", none, false, "objects.Core"⟩)]

theorem keyed_forkedClasses : Keyed forkedClasses := by
  have hentries : ∀ e ∈ forkedClasses.entries, e.2.name = e.1 := by decide
  intro name c hc
  exact hentries _ (NameMap.get?_eq_some_iff.mp hc)

/-- One name is repeated, and one is listed after a class that derives from it. -/
theorem forked_exact :
    ∃ out, linearize forkedClasses ["SlowCore", "Core", "FastCore", "SlowCore"] = .ok out
      ∧ out.map ConfigClass.name = ["SimObject", "Core", "SlowCore", "FastCore"]
      ∧ (out.map ConfigClass.name).Nodup
      ∧ (∀ c, c ∈ out ↔ forkedClasses.get? c.name = some c
        ∧ ∃ n ∈ ["SlowCore", "Core", "FastCore", "SlowCore"], ∃ steps,
          ancestor? forkedClasses steps n = some c.name)
      ∧ (∀ before c after p, out = before ++ c :: after → c.parent = some p →
        ∃ q ∈ before, forkedClasses.get? p = some q)
      ∧ ∀ out', VisitsAll forkedClasses [] ["SlowCore", "Core", "FastCore", "SlowCore"] out'
        ↔ out' = out :=
  ⟨_, rfl, by decide, linearize_exact keyed_forkedClasses rfl⟩

end Linearization

end SimMetadata

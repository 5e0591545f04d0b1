import SimMetadata.Proofs.Registry.Linearization

/-!
# When there is no order

Parents may be missing, and links to parents may go round. Walking up from a name then comes to a
name that is not registered, or to a name for the second time. The linearization reports the first
of these that it meets, for the first name with such a walk, and what it has listed for the names
before makes no difference to that. If no name has such a walk, there is an order.

## Main definitions

* `Linearization.Rooted`: the walk up from a name ends, and all names on it are registered.
* `Linearization.Strays`: what the walk up from a name meets otherwise.
* `Linearization.Climbs`, `Linearization.ClimbsAll`: the loops of the linearization as they stand,
  without a bound on the number of classes that they pass.

## Main results

* `Linearization.climbs_iff`, `Linearization.climbsAll_iff`: the loops end on every input, and the
  bounded ones compute their answers.
* `Linearization.linearize_outcome`: when there is an order, and what is reported when there is
  none.

## Implementation notes

Three facts about the walk keep the cases apart. It ends at one place only, a walk that meets a name
twice does not end, and there is one place where it first meets a name twice.
-/

namespace SimMetadata

namespace Linearization

variable {classes : NameMap ConfigClass} {ordered out chain passed : List ConfigClass}
  {listed names : List String} {name start x y : String} {c : ConfigClass} {i j : ℕ}
  {f f' : Failure}

/-! ### Walking up -/

theorem ancestor?_add (i j : ℕ) (name : String) :
    ancestor? classes (i + j) name = (ancestor? classes i name).bind (ancestor? classes j) := by
  induction i generalizing name with
  | zero => rw [Nat.zero_add, ancestor?, Option.bind_some]
  | succ i ih =>
    rw [Nat.add_right_comm, ancestor?, ancestor?, Option.bind_eq_bind, Option.bind_assoc]
    exact congrArg _ (funext ih)

theorem exists_ancestor_of_le (hij : i ≤ j) (h : ancestor? classes j name = some x) :
    ∃ y, ancestor? classes i name = some y := by
  obtain ⟨k, rfl⟩ := Nat.exists_eq_add_of_le hij
  rw [ancestor?_add] at h
  obtain ⟨y, hy, -⟩ := Option.bind_eq_some_iff.mp h
  exact ⟨y, hy⟩

/-- The walk up from a name ends after that many steps, at a name without a parent. -/
def EndsAt (classes : NameMap ConfigClass) (name : String) (steps : ℕ) (x : String) : Prop :=
  ancestor? classes steps name = some x ∧ parentOf? classes x = none

namespace EndsAt

theorem ancestor?_succ (h : EndsAt classes name i x) : ancestor? classes (i + 1) name = none := by
  rw [ancestor?_add, h.1, Option.bind_some, ancestor?, h.2]
  rfl

theorem le_of_ancestor (h : EndsAt classes name i x) (hy : ancestor? classes j name = some y) :
    j ≤ i := by
  refine Nat.not_lt.mp fun hlt => ?_
  obtain ⟨z, hz⟩ := exists_ancestor_of_le hlt hy
  rw [h.ancestor?_succ] at hz
  cases hz

/-- **A walk ends at one place only.** -/
theorem unique (h : EndsAt classes name i x) (h' : EndsAt classes name j y) : i = j ∧ x = y := by
  obtain rfl : i = j := Nat.le_antisymm (h'.le_of_ancestor h.1) (h.le_of_ancestor h'.1)
  exact ⟨rfl, Option.some.inj (h.1.symm.trans h'.1)⟩

end EndsAt

/-- From a name that is met twice the walk goes on for ever. -/
theorem exists_ancestor_of_repeat (hij : i < j) (hi : ancestor? classes i name = some x)
    (hj : ancestor? classes j name = some x) (k : ℕ) : ∃ y, ancestor? classes k name = some y := by
  induction k using Nat.strongRecOn with
  | ind k ih =>
  rcases Nat.le_total k j with hk | hk
  · exact exists_ancestor_of_le hk hj
  · -- What comes after the second time has come after the first time.
    obtain ⟨m, rfl⟩ := Nat.exists_eq_add_of_le hk
    rw [ancestor?_add, hj, ← hi, ← ancestor?_add]
    exact ih (i + m) (by omega)

/-- **A walk that meets a name twice does not end.** -/
theorem EndsAt.not_repeat {steps : ℕ} (h : EndsAt classes name steps y) (hij : i < j)
    (hi : ancestor? classes i name = some x) : ancestor? classes j name ≠ some x := by
  intro hj
  obtain ⟨z, hz⟩ := exists_ancestor_of_repeat hij hi hj (steps + 1)
  rw [h.ancestor?_succ] at hz
  cases hz

/-! ### Where a walk leads -/

/-- The walk up from a name ends, and all names on it are registered. -/
def Rooted (classes : NameMap ConfigClass) (name : String) : Prop :=
  ∃ steps top, ancestor? classes steps name = some top.name
    ∧ classes.get? top.name = some top ∧ top.parent = none

/-- What the walk up from a name meets if it does not end at a class. -/
inductive Strays (classes : NameMap ConfigClass) (name : String) : Failure → Prop where
  /-- A name that is not registered, the first such name. -/
  | unknown {steps : ℕ} {x : String} (met : ancestor? classes steps name = some x)
      (missing : classes.get? x = none)
      (first : ∀ i < steps, ∀ y, ancestor? classes i name = some y → classes.contains y = true) :
      Strays classes name (.unknownClass x)
  /-- A name for the second time, the first such name. -/
  | cycle {before again : ℕ} {x : String} (lt : before < again)
      (met : ancestor? classes before name = some x)
      (metAgain : ancestor? classes again name = some x)
      (first : ∀ i j, i < j → j < again → ancestor? classes i name ≠ ancestor? classes j name) :
      Strays classes name (.inheritanceCycle x)

theorem Rooted.exists_endsAt (h : Rooted classes name) :
    ∃ steps top, EndsAt classes name steps top ∧ classes.contains top = true := by
  obtain ⟨steps, top, hsteps, hfound, hparent⟩ := h
  refine ⟨steps, top.name, ⟨hsteps, ?_⟩, NameMap.contains_of_get? hfound⟩
  rw [parentOf?, hfound]
  exact hparent

theorem endsAt_of_missing (hx : ancestor? classes i name = some x)
    (hmissing : classes.get? x = none) : EndsAt classes name i x := by
  refine ⟨hx, ?_⟩
  rw [parentOf?, hmissing]
  rfl

theorem Rooted.not_strays (h : Rooted classes name) : ¬ Strays classes name f := by
  obtain ⟨steps, top, hend, htop⟩ := h.exists_endsAt
  rintro (⟨met, missing, -⟩ | ⟨lt, met, metAgain, -⟩)
  · obtain ⟨-, rfl⟩ := hend.unique (endsAt_of_missing met missing)
    rw [NameMap.contains, missing] at htop
    cases htop
  · exact hend.not_repeat lt met metAgain

/-- **A walk meets one fault first.** -/
theorem Strays.unique (h : Strays classes name f) (h' : Strays classes name f') : f = f' := by
  cases h with
  | unknown met missing _ =>
    cases h' with
    | unknown met' missing' _ =>
      obtain ⟨-, rfl⟩ := (endsAt_of_missing met missing).unique (endsAt_of_missing met' missing')
      rfl
    | cycle lt' met' metAgain' _ =>
      exact absurd metAgain' ((endsAt_of_missing met missing).not_repeat lt' met')
  | @cycle before again x lt met metAgain first =>
    cases h' with
    | unknown met' missing' _ =>
      exact absurd metAgain ((endsAt_of_missing met' missing').not_repeat lt met)
    | @cycle before' again' x' lt' met' metAgain' first' =>
      obtain rfl : again = again' := by
        refine Nat.le_antisymm (Nat.not_lt.mp fun h => ?_) (Nat.not_lt.mp fun h => ?_)
        · exact first before' again' lt' h (met'.trans metAgain'.symm)
        · exact first' before again lt h (met.trans metAgain.symm)
      cases metAgain.symm.trans metAgain'
      rfl

/-! ### The loops without a bound -/

/-- The classes from a name up to one that is listed or to the root, put in front of those passed
before, or the fault that is met on the way. -/
inductive Climbs (classes : NameMap ConfigClass) (listed : List String) :
    List ConfigClass → String → Except Failure (List ConfigClass) → Prop where
  /-- A class that has been listed ends the climb. -/
  | known {passed : List ConfigClass} {name : String} (known : name ∈ listed) :
      Climbs classes listed passed name (.ok passed)
  /-- The name is not registered. -/
  | unknown {passed : List ConfigClass} {name : String} (new : name ∉ listed)
      (missing : classes.get? name = none) :
      Climbs classes listed passed name (.error (.unknownClass name))
  /-- The class has been passed before. -/
  | again {passed : List ConfigClass} {name : String} {c : ConfigClass} (new : name ∉ listed)
      (found : classes.get? name = some c) (before : c.name ∈ passed.map ConfigClass.name) :
      Climbs classes listed passed name (.error (.inheritanceCycle name))
  /-- The class has no parent. -/
  | top {passed : List ConfigClass} {name : String} {c : ConfigClass} (new : name ∉ listed)
      (found : classes.get? name = some c) (fresh : c.name ∉ passed.map ConfigClass.name)
      (parent : c.parent = none) : Climbs classes listed passed name (.ok (c :: passed))
  /-- The climb goes on from the parent. -/
  | up {passed : List ConfigClass} {name : String} {c : ConfigClass} {p : String}
      {answer : Except Failure (List ConfigClass)} (new : name ∉ listed)
      (found : classes.get? name = some c) (fresh : c.name ∉ passed.map ConfigClass.name)
      (parent : c.parent = some p) (rest : Climbs classes listed (c :: passed) p answer) :
      Climbs classes listed passed name answer

/-- The listed classes after a climb from each name in turn, or the first fault. -/
inductive ClimbsAll (classes : NameMap ConfigClass) :
    List ConfigClass → List String → Except Failure (List ConfigClass) → Prop where
  | nil {listed : List ConfigClass} : ClimbsAll classes listed [] (.ok listed)
  | cons {listed chain : List ConfigClass} {name : String} {names : List String}
      {answer : Except Failure (List ConfigClass)}
      (first : Climbs classes (listed.map ConfigClass.name) [] name (.ok chain))
      (rest : ClimbsAll classes (listed ++ chain) names answer) :
      ClimbsAll classes listed (name :: names) answer
  | fail {listed : List ConfigClass} {name : String} {names : List String} {f : Failure}
      (first : Climbs classes (listed.map ConfigClass.name) [] name (.error f)) :
      ClimbsAll classes listed (name :: names) (.error f)

/-- What a climb has passed: registered classes, each once, that lead from where it started to the
name where it is. -/
inductive Way (classes : NameMap ConfigClass) (start : String) : List ConfigClass → String → Prop
    where
  | start : Way classes start [] start
  | up {passed : List ConfigClass} {name : String} {c : ConfigClass} {p : String}
      (before : Way classes start passed name) (found : classes.get? name = some c)
      (fresh : c.name ∉ passed.map ConfigClass.name) (parent : c.parent = some p) :
      Way classes start (c :: passed) p

namespace Way

theorem nodup (h : Way classes start passed name) : (passed.map ConfigClass.name).Nodup := by
  induction h with
  | start => exact List.nodup_nil
  | up _ _ fresh _ ih => exact List.nodup_cons.mpr ⟨fresh, ih⟩

theorem names_subset (hkeyed : Keyed classes) (h : Way classes start passed name) :
    passed.map ConfigClass.name ⊆ classes.keys := by
  induction h with
  | start => exact List.nil_subset _
  | up _ found _ _ ih =>
    refine List.cons_subset.mpr ⟨?_, ih⟩
    rw [hkeyed found]
    exact NameMap.contains_iff_mem_keys.mp (NameMap.contains_of_get? found)

theorem ancestor?_length (h : Way classes start passed name) :
    ancestor? classes passed.length start = some name := by
  induction h with
  | start => rfl
  | @up passed name c p before found fresh parent ih =>
    rw [List.length_cons, ancestor?_add, ih, Option.bind_some, ancestor?_succ found parent,
      ancestor?]

/-- The classes that have been passed are the steps of the walk, the last one first. -/
theorem map_range (hkeyed : Keyed classes) (h : Way classes start passed name) :
    (List.range passed.length).map (ancestor? classes · start)
      = ((passed.map ConfigClass.name).map some).reverse := by
  induction h with
  | start => rfl
  | up before found _ _ ih =>
    rw [List.length_cons, List.range_succ, List.map_append, ih, List.map_singleton,
      before.ancestor?_length, List.map_cons, List.map_cons, List.reverse_cons, hkeyed found]

/-- When as many classes have been passed as are registered, all of them have been passed. -/
theorem mem_of_size_le (hkeyed : Keyed classes) (h : Way classes start passed name)
    (hsize : classes.size ≤ passed.length) (hfound : classes.get? x = some c) :
    c.name ∈ passed.map ConfigClass.name := by
  have hperm : (passed.map ConfigClass.name).Perm classes.keys := by
    refine (List.subperm_of_subset h.nodup (h.names_subset hkeyed)).perm_of_length_le ?_
    rwa [NameMap.keys, List.length_map, List.length_map]
  rw [hkeyed hfound, hperm.mem_iff]
  exact NameMap.contains_iff_mem_keys.mp (NameMap.contains_of_get? hfound)

end Way

/-- A climb with a bound that is not used up before all registered classes have been passed ends as
the climb without a bound does. -/
theorem climbs_climb (hkeyed : Keyed classes) (listed : List String) {budget : ℕ}
    (hway : Way classes start passed name) (hbudget : classes.size ≤ budget + passed.length) :
    Climbs classes listed passed name (climb classes listed budget passed name) := by
  induction budget generalizing passed name with
  | zero =>
    rw [climb]
    split
    · next hknown => exact .known hknown
    · next hnew =>
      split
      · next hmissing => exact .unknown hnew hmissing
      · next c hfound =>
        exact .again hnew hfound (hway.mem_of_size_le hkeyed (by omega) hfound)
  | succ budget ih =>
    rw [climb]
    split
    · next hknown => exact .known hknown
    · next hnew =>
      split
      · next hmissing => exact .unknown hnew hmissing
      · next c hfound =>
        split
        · next hbefore => exact .again hnew hfound hbefore
        · next hfresh =>
          split
          · next hparent => exact .top hnew hfound hfresh hparent
          · next p hparent =>
            refine .up hnew hfound hfresh hparent (ih (hway.up hfound hfresh hparent) ?_)
            rw [List.length_cons]
            omega

/-- The climb without a bound has one answer, which the bounded climb gives. -/
theorem Climbs.climb_eq (hkeyed : Keyed classes) {answer : Except Failure (List ConfigClass)}
    (h : Climbs classes listed passed name answer) {budget : ℕ}
    (hway : Way classes start passed name) (hbudget : classes.size ≤ budget + passed.length) :
    climb classes listed budget passed name = answer := by
  induction h generalizing budget with
  | known known => exact climb_of_mem known
  | unknown new missing => cases budget <;> rw [climb, if_neg new, missing]
  | again new found before =>
    cases budget with
    | zero => rw [climb, if_neg new, found]
    | succ left =>
      rw [climb, if_neg new, found]
      exact if_pos before
  | top new found fresh parent =>
    cases budget with
    | zero => exact absurd (hway.mem_of_size_le hkeyed (by omega) found) fresh
    | succ left =>
      rw [climb, if_neg new, found]
      dsimp only
      rw [if_neg fresh, parent]
  | up new found fresh parent _ ih =>
    cases budget with
    | zero => exact absurd (hway.mem_of_size_le hkeyed (by omega) found) fresh
    | succ left =>
      rw [climb, if_neg new, found]
      dsimp only
      rw [if_neg fresh, parent]
      refine ih (hway.up found fresh parent) ?_
      rw [List.length_cons]
      omega

/-- **A climb ends**, on any registered classes, and the bound changes nothing about its answer. -/
theorem climbs_iff (hkeyed : Keyed classes) {answer : Except Failure (List ConfigClass)} :
    Climbs classes listed [] name answer ↔ climb classes listed classes.size [] name = answer :=
  ⟨fun h => h.climb_eq hkeyed .start (Nat.le_refl _),
    fun h => h ▸ climbs_climb hkeyed listed .start (Nat.le_refl _)⟩

/-- **All climbs end.** -/
theorem climbsAll_iff (hkeyed : Keyed classes) {answer : Except Failure (List ConfigClass)} :
    ClimbsAll classes ordered names answer ↔ extend classes ordered names = answer := by
  induction names generalizing ordered with
  | nil =>
    constructor
    · rintro ⟨⟩
      rfl
    · rintro rfl
      exact .nil
  | cons n names ih =>
    rw [extend]
    constructor
    · intro h
      cases h with
      | cons first rest =>
        rw [(climbs_iff hkeyed).mp first]
        exact ih.mp rest
      | fail first =>
        rw [(climbs_iff hkeyed).mp first]
        rfl
    · intro h
      cases hfirst : climb classes (ordered.map ConfigClass.name) classes.size [] n with
      | error f =>
        rw [hfirst] at h
        cases h
        exact .fail ((climbs_iff hkeyed).mpr hfirst)
      | ok chain =>
        rw [hfirst] at h
        exact .cons ((climbs_iff hkeyed).mpr hfirst) (ih.mpr h)

/-! ### What a climb answers -/

/-- A name that has been climbed from, or is listed, is rooted. -/
theorem rooted_of_climb (hkeyed : Keyed classes) (hordered : ParentsFirst classes ordered)
    {budget : ℕ}
    (h : climb classes (ordered.map ConfigClass.name) budget passed name = .ok chain) :
    Rooted classes name := by
  obtain ⟨front, -, hfirst, hmem, -⟩ := climb_ok hkeyed hordered h
  obtain ⟨c, hc, rfl⟩ := List.mem_map.mp hmem
  exact hfirst.exists_ancestor hc

/-- The fault that a climb meets, the walk up meets as well. What has been listed can only end a
climb before that. -/
theorem Climbs.strays (hkeyed : Keyed classes) {answer : Except Failure (List ConfigClass)}
    (h : Climbs classes listed passed name answer) (hway : Way classes start passed name)
    (hanswer : answer = .error f) : Strays classes start f := by
  induction h with
  | known => cases hanswer
  | top => cases hanswer
  | up _ found fresh parent _ ih => exact ih (hway.up found fresh parent) hanswer
  | @unknown passed name _ missing =>
    cases hanswer
    refine .unknown hway.ancestor?_length missing fun i hi y hy => ?_
    have hmem : some y ∈ (List.range passed.length).map (ancestor? classes · start) :=
      List.mem_map.mpr ⟨i, List.mem_range.mpr hi, hy⟩
    rw [hway.map_range hkeyed, List.mem_reverse] at hmem
    obtain ⟨_, hmem, ⟨⟩⟩ := List.mem_map.mp hmem
    exact NameMap.contains_iff_mem_keys.mpr (hway.names_subset hkeyed hmem)
  | @again passed name c _ found before =>
    cases hanswer
    have hmem : some name ∈ (List.range passed.length).map (ancestor? classes · start) := by
      rw [hway.map_range hkeyed, List.mem_reverse, ← hkeyed found]
      exact List.mem_map_of_mem before
    have hnodup : ((List.range passed.length).map (ancestor? classes · start)).Nodup := by
      rw [hway.map_range hkeyed, List.nodup_reverse]
      exact hway.nodup.map (fun _ _ => Option.some.inj)
    obtain ⟨i, hi, hmet⟩ := List.mem_map.mp hmem
    refine .cycle (List.mem_range.mp hi) hmet hway.ancestor?_length fun a b hab hb heq => ?_
    exact Nat.ne_of_lt hab (List.inj_on_of_nodup_map hnodup (List.mem_range.mpr (by omega))
      (List.mem_range.mpr hb) heq)

/-- Listing names fails at the first one that is not rooted. -/
theorem exists_strays_of_extend (hkeyed : Keyed classes) (hordered : ParentsFirst classes ordered)
    (h : extend classes ordered names = .error f) :
    ∃ before n after, names = before ++ n :: after
      ∧ (∀ m ∈ before, Rooted classes m) ∧ Strays classes n f := by
  induction names generalizing ordered with
  | nil => cases h
  | cons n names ih =>
    rw [extend] at h
    rcases except_bind_eq_error_iff.mp h with hfail | ⟨chain, hfirst, hrest⟩
    · have hstrays := ((climbs_iff hkeyed).mpr hfail).strays hkeyed .start rfl
      exact ⟨[], n, names, rfl, by simp, hstrays⟩
    · have hrooted : Rooted classes n := rooted_of_climb hkeyed hordered hfirst
      obtain ⟨front, rfl, hchain, -, -⟩ := climb_ok hkeyed hordered hfirst
      rw [List.append_nil] at hrest
      obtain ⟨before, m, after, rfl, hbefore, hstrays⟩ := ih hchain hrest
      exact ⟨n :: before, m, after, rfl, List.forall_mem_cons.mpr ⟨hrooted, hbefore⟩, hstrays⟩

theorem exists_linearize_ok_iff (hkeyed : Keyed classes) :
    (∃ out, linearize classes names = .ok out) ↔ ∀ n ∈ names, Rooted classes n := by
  constructor
  · rintro ⟨out, hout⟩ n hn
    obtain ⟨hfirst, hnames⟩ := linearize_ok hkeyed hout
    obtain ⟨c, hc, rfl⟩ := List.mem_map.mp (hnames n hn)
    exact hfirst.exists_ancestor hc
  · intro hrooted
    cases h : linearize classes names with
    | ok out => exact ⟨out, rfl⟩
    | error f =>
      obtain ⟨before, n, after, rfl, -, hstrays⟩ := exists_strays_of_extend hkeyed .nil h
      exact absurd hstrays (hrooted n (by simp)).not_strays

/-- **There is an order exactly when every name is rooted.** The loops of the linearization end on
every input, cyclic or not, and have one answer. It is an order if the walk up from each name ends
and all names on the way are registered. Otherwise it is the fault that the walk up from one name
alone meets, and all names before that one are rooted. -/
theorem linearize_outcome (hkeyed : Keyed classes) (names : List String) :
    (∀ answer, ClimbsAll classes [] names answer ↔ linearize classes names = answer)
      ∧ ((∃ out, linearize classes names = .ok out) ↔ ∀ n ∈ names, Rooted classes n)
      ∧ ∀ f, linearize classes names = .error f ↔
          ∃ before n after, names = before ++ n :: after
            ∧ (∀ m ∈ before, Rooted classes m) ∧ Strays classes n f := by
  refine ⟨fun answer => climbsAll_iff hkeyed, exists_linearize_ok_iff hkeyed, fun f =>
    ⟨exists_strays_of_extend hkeyed .nil, ?_⟩⟩
  rintro ⟨before, n, after, rfl, hbefore, hstrays⟩
  obtain ⟨ordered, hordered⟩ := (exists_linearize_ok_iff hkeyed).mpr hbefore
  obtain ⟨hfirst, -⟩ := linearize_ok hkeyed hordered
  rw [linearize] at hordered
  rw [linearize, extend_append, hordered, except_bind_eq_error_iff]
  refine .inr ⟨ordered, rfl, ?_⟩
  rw [extend, except_bind_eq_error_iff]
  cases hclimb : climb classes (ordered.map ConfigClass.name) classes.size [] n with
  | ok chain => exact absurd hstrays (rooted_of_climb hkeyed hfirst hclimb).not_strays
  | error f' =>
    rw [((climbs_iff hkeyed).mpr hclimb).strays hkeyed .start rfl |>.unique hstrays]
    exact .inl rfl

/-! ### A circle below a line -/

/-- The line of `Tail` leads into a circle that it is not on itself. -/
def ringClasses : NameMap ConfigClass := NameMap.ofList
  [("SimObject", ⟨"SimObject", none, [], none, "SimObject", none, true, "runtime"⟩),
    ("Ahead", ⟨"Ahead", some "Back", [], none, "Ahead", none, false, "objects.Ahead"⟩),
    ("Back", ⟨"Back", some "Ahead", [], none, "Back", none, false, "objects.Back"⟩),
    ("Tail", ⟨"Tail", some "Ahead", [], none, "Tail", none, false, "objects.Tail"⟩)]

theorem keyed_ringClasses : Keyed ringClasses := by
  have hentries : ∀ e ∈ ringClasses.entries, e.2.name = e.1 := by decide
  intro name c hc
  exact hentries _ (NameMap.get?_eq_some_iff.mp hc)

/-- The name that is reported is not the one that was asked for, and a later fault is not seen. -/
theorem ring_outcome :
    linearize ringClasses ["SimObject", "Tail", "Ghost"] = .error (.inheritanceCycle "Ahead")
      ∧ (∀ answer, ClimbsAll ringClasses [] ["SimObject", "Tail", "Ghost"] answer
        ↔ linearize ringClasses ["SimObject", "Tail", "Ghost"] = answer)
      ∧ ((∃ out, linearize ringClasses ["SimObject", "Tail", "Ghost"] = .ok out)
        ↔ ∀ n ∈ ["SimObject", "Tail", "Ghost"], Rooted ringClasses n)
      ∧ ∀ f, linearize ringClasses ["SimObject", "Tail", "Ghost"] = .error f ↔
          ∃ before n after, ["SimObject", "Tail", "Ghost"] = before ++ n :: after
            ∧ (∀ m ∈ before, Rooted ringClasses m) ∧ Strays ringClasses n f :=
  ⟨rfl, linearize_outcome keyed_ringClasses _⟩

end Linearization

end SimMetadata

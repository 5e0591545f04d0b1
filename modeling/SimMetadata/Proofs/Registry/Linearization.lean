import SimMetadata.Proofs.NameMap
import SimMetadata.Registry.Linearization

/-!
# Parents come first

A list of classes is in a good order if it can be built up from the front, one registered class at
a time, where each class is new and its parent has been listed before. `ParentsFirst` says this.
A linearization that succeeds is such a list, and a class on such a list has a line of ancestors
that ends, because every step to a parent is a step towards the front.

## Main definitions

* `Linearization.ParentsFirst`: the order.
* `Linearization.ancestor?`: some steps up from a class.

## Main results

* `Linearization.linearize_ok`: a linearization puts parents first and lists what it was asked for.
* `Linearization.ParentsFirst.exists_ancestor`: the line of ancestors of a listed class ends.

## Implementation notes

`climb` collects classes from the bottom up and `ParentsFirst` lists them from the top down, so
the lemma about `climb` speaks of the part of its answer in front of what had been passed before.
-/

namespace SimMetadata

namespace Linearization

variable {classes : NameMap ConfigClass} {ordered out chain passed : List ConfigClass}
  {names : List String} {name : String} {c : ConfigClass}

/-- Every class is registered under its own name. -/
def Keyed (classes : NameMap ConfigClass) : Prop :=
  ∀ {name c}, classes.get? name = some c → c.name = name

/-! ### The order -/

/-- The classes are registered, each is listed once, and the parent of each is listed before it. -/
inductive ParentsFirst (classes : NameMap ConfigClass) : List ConfigClass → Prop where
  | nil : ParentsFirst classes []
  | snoc {ordered : List ConfigClass} {c : ConfigClass} (before : ParentsFirst classes ordered)
    (registered : classes.get? c.name = some c) (new : c.name ∉ ordered.map ConfigClass.name)
    (parent : ∀ p, c.parent = some p → p ∈ ordered.map ConfigClass.name) :
    ParentsFirst classes (ordered ++ [c])

namespace ParentsFirst

theorem registered (h : ParentsFirst classes ordered) (hc : c ∈ ordered) :
    classes.get? c.name = some c := by
  induction h with
  | nil => cases hc
  | snoc _ hreg _ _ ih =>
    rcases List.mem_append.mp hc with hc | hc
    · exact ih hc
    · cases List.mem_singleton.mp hc
      exact hreg

theorem nodup (h : ParentsFirst classes ordered) : (ordered.map ConfigClass.name).Nodup := by
  induction h with
  | nil => exact List.nodup_nil
  | snoc _ _ hnew _ ih =>
    rw [List.map_append, List.map_singleton, List.nodup_append_comm]
    exact List.nodup_cons.mpr ⟨hnew, ih⟩

theorem parent_mem {p : String} (h : ParentsFirst classes ordered) (hc : c ∈ ordered)
    (hp : c.parent = some p) : p ∈ ordered.map ConfigClass.name := by
  induction h with
  | nil => cases hc
  | snoc _ _ _ hparent ih =>
    rw [List.map_append, List.mem_append]
    rcases List.mem_append.mp hc with hc | hc
    · exact .inl (ih hc)
    · cases List.mem_singleton.mp hc
      exact .inl (hparent p hp)

/-- What is listed before a class has its parent in it. -/
theorem parent_mem_before {before after : List ConfigClass} {p : String}
    (h : ParentsFirst classes ordered) (hsplit : ordered = before ++ c :: after)
    (hp : c.parent = some p) : p ∈ before.map ConfigClass.name := by
  induction h generalizing after with
  | nil => simp at hsplit
  | snoc _ _ _ hparent ih =>
    rcases List.eq_nil_or_concat after with rfl | ⟨after, last, rfl⟩
    · obtain ⟨rfl, heq⟩ := List.append_inj' hsplit rfl
      cases heq
      exact hparent p hp
    · rw [List.concat_eq_append, ← List.cons_append, ← List.append_assoc] at hsplit
      exact ih (List.append_inj' hsplit rfl).1

end ParentsFirst

/-! ### Climbing -/

theorem climb_of_mem {listed : List String} {budget : ℕ} (h : name ∈ listed) :
    climb classes listed budget passed name = .ok passed := by
  cases budget <;> rw [climb, if_pos h]

/-- A climb that succeeds from a class that is not listed passes the class, and then either ends
there or goes on from the parent. -/
theorem climb_cases {listed : List String} {budget : ℕ} (hnew : name ∉ listed)
    (h : climb classes listed budget passed name = .ok chain) :
    ∃ c left, budget = left + 1 ∧ classes.get? name = some c
      ∧ c.name ∉ passed.map ConfigClass.name
      ∧ (c.parent = none ∧ chain = c :: passed
        ∨ ∃ p, c.parent = some p ∧ climb classes listed left (c :: passed) p = .ok chain) := by
  cases budget with
  | zero =>
    rw [climb, if_neg hnew] at h
    split at h <;> cases h
  | succ left =>
    rw [climb, if_neg hnew] at h
    split at h
    · cases h
    · next c hc =>
      split at h
      · cases h
      · next hpassed =>
        refine ⟨c, left, rfl, hc, hpassed, ?_⟩
        split at h
        · next hparent =>
          cases h
          exact .inl ⟨hparent, rfl⟩
        · next p hparent => exact .inr ⟨p, hparent, h⟩

/-- What a climb adds comes in front of what it had passed before, is new to it, and continues the
order up to the name that it started from. The induction follows the climb; the class that is
passed first is the last of what is added. -/
theorem climb_ok (hkeyed : Keyed classes) (hordered : ParentsFirst classes ordered) {budget : ℕ}
    (h : climb classes (ordered.map ConfigClass.name) budget passed name = .ok chain) :
    ∃ front, chain = front ++ passed ∧ ParentsFirst classes (ordered ++ front)
      ∧ name ∈ (ordered ++ front).map ConfigClass.name
      ∧ ∀ c ∈ front, c.name ∉ passed.map ConfigClass.name := by
  induction budget using Nat.strongRecOn generalizing passed name with
  | ind budget ih =>
  by_cases hlisted : name ∈ ordered.map ConfigClass.name
  · rw [climb_of_mem hlisted] at h
    cases h
    exact ⟨[], rfl, by simpa using hordered, by simpa using hlisted, by simp⟩
  · obtain ⟨c, left, hbudget, hc, hpassed, hcases⟩ := climb_cases hlisted h
    have hname : c.name = name := hkeyed hc
    have hreg : classes.get? c.name = some c := by rw [hname, hc]
    rcases hcases with ⟨hparent, rfl⟩ | ⟨parent, hparent, hrest⟩
    · refine ⟨[c], rfl, hordered.snoc hreg (by rwa [hname]) (by simp [hparent]), ?_, ?_⟩
      · simp [hname]
      · simpa using hpassed
    · obtain ⟨front, rfl, hfirst, hmem, hfresh⟩ := ih left (by omega) hrest
      have hfresh' : ∀ x ∈ front, x.name ≠ c.name ∧ x.name ∉ passed.map ConfigClass.name := by
        intro x hx
        simpa using hfresh x hx
      have hnew : c.name ∉ (ordered ++ front).map ConfigClass.name := by
        rw [List.map_append, List.mem_append]
        rintro (hin | hin)
        · exact hlisted (hname ▸ hin)
        · obtain ⟨x, hx, hxname⟩ := List.mem_map.mp hin
          exact (hfresh' x hx).1 hxname
      have hparents : ∀ p, c.parent = some p → p ∈ (ordered ++ front).map ConfigClass.name := by
        intro p hp
        cases hparent.symm.trans hp
        exact hmem
      refine ⟨front ++ [c], by simp, ?_, by simp [hname], ?_⟩
      · rw [← List.append_assoc]
        exact hfirst.snoc hreg hnew hparents
      · intro x hx
        rcases List.mem_append.mp hx with hx | hx
        · exact (hfresh' x hx).2
        · cases List.mem_singleton.mp hx
          exact hpassed

/-- Listing more names keeps what has been listed and puts parents first. -/
theorem extend_ok (hkeyed : Keyed classes) (hordered : ParentsFirst classes ordered)
    (h : extend classes ordered names = .ok out) :
    ParentsFirst classes out ∧ ordered ⊆ out ∧ ∀ n ∈ names, n ∈ out.map ConfigClass.name := by
  induction names generalizing ordered with
  | nil =>
    cases h
    exact ⟨hordered, List.Subset.refl _, by simp⟩
  | cons n names ih =>
    rw [extend] at h
    obtain ⟨chain, hclimb, h⟩ := except_bind_eq_ok_iff.mp h
    obtain ⟨front, rfl, hfirst, hmem, -⟩ := climb_ok hkeyed hordered hclimb
    rw [List.append_nil] at h
    obtain ⟨hout, hsub, hnames⟩ := ih hfirst h
    refine ⟨hout, List.Subset.trans (List.subset_append_left _ _) hsub, fun m hm => ?_⟩
    rcases List.mem_cons.mp hm with rfl | hm
    · exact List.map_subset _ hsub hmem
    · exact hnames m hm

/-- More names are listed after the first ones, with what has been listed for those. -/
theorem extend_append (listed : List ConfigClass) (names more : List String) :
    extend classes listed (names ++ more)
      = extend classes listed names >>= fun out => extend classes out more := by
  induction names generalizing listed with
  | nil => rfl
  | cons n names ih =>
    rw [List.cons_append, extend, extend, bind_assoc]
    exact congrArg _ (funext fun chain => ih _)

/-- **A linearization puts parents first** and lists what it was asked for. -/
theorem linearize_ok (hkeyed : Keyed classes) (h : linearize classes names = .ok out) :
    ParentsFirst classes out ∧ ∀ n ∈ names, n ∈ out.map ConfigClass.name := by
  obtain ⟨hout, -, hnames⟩ := extend_ok hkeyed .nil h
  exact ⟨hout, hnames⟩

/-- A linearization of all names lists every class. -/
theorem mem_of_linearize_keys (hkeyed : Keyed classes)
    (h : linearize classes classes.keys = .ok out) (hc : classes.get? name = some c) : c ∈ out := by
  obtain ⟨hfirst, hlisted⟩ := linearize_ok hkeyed h
  have hkey : name ∈ classes.keys := NameMap.contains_iff_mem_keys.mp (NameMap.contains_of_get? hc)
  obtain ⟨c', hc', rfl⟩ := List.mem_map.mp (hlisted name hkey)
  cases hc.symm.trans (hfirst.registered hc')
  exact hc'

/-! ### Failures -/

theorem climb_error {listed : List String} {budget : ℕ} {f : Failure}
    (h : climb classes listed budget passed name = .error f) :
    ∃ n, f = .unknownClass n ∨ f = .inheritanceCycle n := by
  induction budget generalizing passed name with
  | zero =>
    rw [climb] at h
    split at h
    · cases h
    · split at h
      · cases h
        exact ⟨name, .inl rfl⟩
      · cases h
        exact ⟨name, .inr rfl⟩
  | succ budget ih =>
    rw [climb] at h
    split at h
    · cases h
    · split at h
      · cases h
        exact ⟨name, .inl rfl⟩
      · split at h
        · cases h
          exact ⟨name, .inr rfl⟩
        · split at h
          · cases h
          · exact ih h

/-- A linearization fails only on a class that is not registered or is its own ancestor. -/
theorem linearize_error {f : Failure} (h : linearize classes names = .error f) :
    ∃ n, f = .unknownClass n ∨ f = .inheritanceCycle n := by
  rw [linearize] at h
  generalize [] = listed at h
  induction names generalizing listed with
  | nil => cases h
  | cons n names ih =>
    rw [extend] at h
    rcases except_bind_eq_error_iff.mp h with h | ⟨chain, -, h⟩
    · exact climb_error h
    · exact ih _ h

/-! ### Ancestors -/

/-- The parent of the class with a name. -/
def parentOf? (classes : NameMap ConfigClass) (name : String) : Option String :=
  classes.get? name >>= ConfigClass.parent

/-- The name that is reached from another by following that many links to parents. -/
def ancestor? (classes : NameMap ConfigClass) : ℕ → String → Option String
  | 0, name => some name
  | steps + 1, name => parentOf? classes name >>= ancestor? classes steps

theorem ancestor?_succ {steps : ℕ} {parent : String} (hc : classes.get? name = some c)
    (hparent : c.parent = some parent) :
    ancestor? classes (steps + 1) name = ancestor? classes steps parent := by
  rw [ancestor?, parentOf?, hc]
  change c.parent.bind _ = _
  rw [hparent]
  rfl

/-- **The line of ancestors of a listed class ends**, at a class without a parent. -/
theorem ParentsFirst.exists_ancestor (h : ParentsFirst classes ordered) (hc : c ∈ ordered) :
    ∃ steps top, ancestor? classes steps c.name = some top.name
      ∧ classes.get? top.name = some top ∧ top.parent = none := by
  induction h generalizing c with
  | nil => cases hc
  | @snoc ordered last hbefore hreg hnew hparents ih =>
    rcases List.mem_append.mp hc with hc | hc
    · exact ih hc
    · cases List.mem_singleton.mp hc
      cases hparent : last.parent with
      | none => exact ⟨0, last, rfl, hreg, hparent⟩
      | some parent =>
        obtain ⟨p, hp, rfl⟩ := List.mem_map.mp (hparents parent hparent)
        obtain ⟨steps, top, hsteps, htop⟩ := ih hp
        exact ⟨steps + 1, top, by rw [ancestor?_succ hreg hparent, hsteps], htop⟩

end Linearization

end SimMetadata

import Mathlib.Data.List.Induction
import SimMetadata.Proofs.FirstSeen
import SimMetadata.Proofs.Registry.Hierarchy

/-!
# Inherited parameters

The parameters of a class are put together once the classes are in order: those of the parent,
with the ones that the class declares itself on top of them. Unfolded along the line of ancestors,
this is one pass over everything that the line declares, from the root down. A name keeps the place
where it came first and takes the value that came last.

## Main definitions

* `Linearization.Lineage`: the line of classes from the root down to one of them.
* `nearestParam?`: the declaration of a name that counts at the end of a line.
* `Registry.IsFlattened`: what the parameters of a class have to do with its line.

## Main results

* `map_name_overrideParams`, `find?_overrideParams`: the names and the values after a pass.
* `Linearization.ParentsFirst.get?_flattenParams`: the parameters of a class are a pass over its
  line.
* `Registry.discover_isFlattened`: the registry that discovery publishes holds such parameters.

## Implementation notes

A pass is stated from the empty list on, because the passes along a line are one pass over all that
the line declares (`overrideParams_append`).
-/

namespace SimMetadata

variable {p : Param} {ps inherited locals : List Param} {name : String}

/-! ### Putting parameters together -/

/-- A parameter takes the place of one with its name, and the end of the list otherwise. -/
theorem map_name_overrideParam (p : Param) (ps : List Param) :
    (overrideParam p ps).map Param.name =
      if p.name ∈ ps.map Param.name then ps.map Param.name
      else ps.map Param.name ++ [p.name] := by
  induction ps with
  | nil => rfl
  | cons q ps ih =>
    rw [overrideParam]
    by_cases hq : q.name = p.name
    · simp [hq]
    · have hmem : p.name ∈ (q :: ps).map Param.name ↔ p.name ∈ ps.map Param.name := by
        simp [Ne.symm hq]
      rw [if_neg hq, List.map_cons, ih, if_congr hmem rfl rfl]
      split <;> rfl

/-- A parameter is found by its name from then on, and all others as before. -/
theorem find?_overrideParam (p : Param) (ps : List Param) (name : String) :
    (overrideParam p ps).find? (·.name = name) =
      if p.name = name then some p else ps.find? (·.name = name) := by
  induction ps with
  | nil => by_cases hp : p.name = name <;> simp [overrideParam, hp]
  | cons q ps ih =>
    rw [overrideParam]
    by_cases hq : q.name = p.name
    · by_cases hp : p.name = name <;> simp [hq, hp]
    · rw [if_neg hq]
      by_cases hn : q.name = name
      · have hp : p.name ≠ name := fun hp => hq (hn.trans hp.symm)
        simp [hn, hp]
      · simp [hn, ih]

theorem overrideParams_append (inherited : List Param) (ps qs : List Param) :
    overrideParams inherited (ps ++ qs) = overrideParams (overrideParams inherited ps) qs :=
  List.foldl_append

theorem overrideParams_concat (inherited ps : List Param) (p : Param) :
    overrideParams inherited (ps ++ [p]) = overrideParam p (overrideParams inherited ps) :=
  overrideParams_append inherited ps [p]

/-- **The names after a pass** are the names in the order in which they come first. -/
theorem map_name_overrideParams (ps : List Param) :
    (overrideParams [] ps).map Param.name = (ps.map Param.name).eraseDups := by
  induction ps using List.reverseRecOn with
  | nil => rfl
  | append_singleton ps p ih =>
    rw [overrideParams_concat, map_name_overrideParam, ih, List.map_append, List.map_singleton,
      eraseDups_concat]
    simp only [List.mem_eraseDups]

theorem nodup_map_name_overrideParams (ps : List Param) :
    ((overrideParams [] ps).map Param.name).Nodup := by
  rw [map_name_overrideParams]
  exact (isFirstSeen_eraseDups _).nodup

/-- **The value of a name after a pass** is the one that comes last. -/
theorem find?_overrideParams (ps : List Param) (name : String) :
    (overrideParams [] ps).find? (·.name = name) = ps.reverse.find? (·.name = name) := by
  induction ps using List.reverseRecOn with
  | nil => rfl
  | append_singleton ps p ih =>
    rw [overrideParams_concat, find?_overrideParam, ih, List.reverse_append]
    by_cases hp : p.name = name <;> simp [hp]

/-! ### The line of a class -/

/-- The last declaration of a name among the parameters that a class declares itself. -/
def ConfigClass.ownParam? (c : ConfigClass) (name : String) : Option Param :=
  c.params.reverse.find? (·.name = name)

theorem ConfigClass.exists_ownParam? (c : ConfigClass) {q : Param} (hq : q ∈ c.params) :
    ∃ q', c.ownParam? q.name = some q' :=
  Option.isSome_iff_exists.mp (List.find?_isSome.mpr ⟨q, List.mem_reverse.mpr hq, by simp⟩)

/-- The declaration of a name that counts at the end of a line of classes: the last one of the
nearest class that declares the name. -/
def nearestParam? (line : List ConfigClass) (name : String) : Option Param :=
  line.reverse.findSome? (·.ownParam? name)

theorem nearestParam?_eq (line : List ConfigClass) (name : String) :
    nearestParam? line name = (line.flatMap ConfigClass.params).reverse.find? (·.name = name) := by
  rw [List.reverse_flatMap, List.find?_flatMap]
  rfl

theorem nearestParam?_eq_none_iff {line : List ConfigClass} :
    nearestParam? line name = none ↔ ∀ a ∈ line, ∀ q ∈ a.params, q.name ≠ name := by
  rw [nearestParam?_eq, List.find?_eq_none]
  simp only [List.mem_reverse, List.mem_flatMap, decide_eq_true_eq]
  exact ⟨fun h a ha q hq => h q ⟨a, ha, hq⟩, fun h q ⟨a, ha, hq⟩ => h a ha q hq⟩

/-- What the class at the end of a line declares itself counts. -/
theorem nearestParam?_concat (above : List ConfigClass) (c : ConfigClass) (name : String) :
    nearestParam? (above ++ [c]) name = (c.ownParam? name).or (nearestParam? above name) := by
  rw [nearestParam?, List.reverse_append, List.reverse_singleton, List.singleton_append,
    List.findSome?_cons]
  cases c.ownParam? name <;> rfl

namespace Linearization

variable {classes : NameMap ConfigClass} {ordered line line' : List ConfigClass} {c : ConfigClass}

/-- The line of classes from one without a parent down to the class with a name, each the parent of
the next. -/
inductive Lineage (classes : NameMap ConfigClass) : String → List ConfigClass → Prop where
  | root {name : String} {c : ConfigClass} (hc : classes.get? name = some c)
    (hparent : c.parent = none) : Lineage classes name [c]
  | child {name parent : String} {c : ConfigClass} {line : List ConfigClass}
    (above : Lineage classes parent line) (hc : classes.get? name = some c)
    (hparent : c.parent = some parent) : Lineage classes name (line ++ [c])

namespace Lineage

theorem getLast?_eq (h : Lineage classes name line) : line.getLast? = classes.get? name := by
  cases h with
  | root hc _ => exact hc.symm
  | child _ hc _ => rw [List.getLast?_concat, hc]

/-- A class has one line at most. -/
theorem unique (h : Lineage classes name line) (h' : Lineage classes name line') : line = line' := by
  induction h generalizing line' with
  | root hc hparent =>
    cases h' with
    | root hc' _ =>
      cases hc.symm.trans hc'
      rfl
    | child _ hc' hparent' =>
      cases hc.symm.trans hc'
      cases hparent.symm.trans hparent'
  | child _ hc hparent ih =>
    cases h' with
    | root hc' hparent' =>
      cases hc.symm.trans hc'
      cases hparent'.symm.trans hparent
    | child above' hc' hparent' =>
      cases hc.symm.trans hc'
      cases hparent.symm.trans hparent'
      rw [ih above']

/-- A line stays one when there are more classes. -/
theorem mono {classes' : NameMap ConfigClass} (h : Lineage classes name line)
    (hsub : ∀ {n c}, classes.get? n = some c → classes'.get? n = some c) :
    Lineage classes' name line := by
  induction h with
  | root hc hparent => exact .root (hsub hc) hparent
  | child _ hc hparent ih => exact ih.child (hsub hc) hparent

/-- The line of the parent is the line without the class at its end. -/
theorem parent {parent : String} (h : Lineage classes name line) (hc : classes.get? name = some c)
    (hparent : c.parent = some parent) :
    ∃ above, Lineage classes parent above ∧ line = above ++ [c] := by
  cases h with
  | root hc' hparent' =>
    cases hc.symm.trans hc'
    cases hparent'.symm.trans hparent
  | child above hc' hparent' =>
    cases hc.symm.trans hc'
    cases hparent.symm.trans hparent'
    exact ⟨_, above, rfl⟩

/-- A line starts with a class without a parent. -/
theorem exists_top (h : Lineage classes name line) :
    ∃ top rest topName, line = top :: rest ∧ classes.get? topName = some top
      ∧ top.parent = none := by
  induction h with
  | root hc hparent => exact ⟨_, [], _, rfl, hc, hparent⟩
  | child _ _ _ ih =>
    obtain ⟨top, rest, topName, rfl, htop, hnone⟩ := ih
    exact ⟨top, rest ++ [_], topName, rfl, htop, hnone⟩

end Lineage

/-- **The parameters of a class are a pass over its line.** The induction follows the order: when a
class has its turn, the parameters of its parent are there, and no later class touches them. -/
theorem ParentsFirst.get?_flattenParams (h : ParentsFirst classes ordered) (hc : c ∈ ordered) :
    ∃ line, Lineage classes c.name line
      ∧ (flattenParams ordered).get? c.name
        = some (overrideParams [] (line.flatMap ConfigClass.params)) := by
  induction h generalizing c with
  | nil => cases hc
  | @snoc ordered last hbefore hreg hnew hparents ih =>
    have hstep : flattenParams (ordered ++ [last]) = (flattenParams ordered).insert last.name
        (overrideParams ((last.parent >>= (flattenParams ordered).get?).getD []) last.params) := by
      rw [flattenParams, List.foldl_append]
      rfl
    rw [hstep]
    rcases List.mem_append.mp hc with hc | hc
    · obtain ⟨line, hline, hparams⟩ := ih hc
      have hne : c.name ≠ last.name := fun heq => hnew (heq ▸ List.mem_map_of_mem hc)
      exact ⟨line, hline, by rw [NameMap.get?_insert_of_ne _ hne, hparams]⟩
    · cases List.mem_singleton.mp hc
      rw [NameMap.get?_insert_self]
      cases hparent : last.parent with
      | none => exact ⟨[last], .root hreg hparent, by simp⟩
      | some parent =>
        obtain ⟨above, habove, rfl⟩ := List.mem_map.mp (hparents parent hparent)
        obtain ⟨line, hline, hparams⟩ := ih habove
        refine ⟨line ++ [last], hline.child hreg hparent, ?_⟩
        rw [List.flatMap_append, overrideParams_append, List.flatMap_singleton]
        change some (overrideParams (((flattenParams ordered).get? above.name).getD []) _) = _
        rw [hparams]
        rfl

end Linearization

namespace Registry

open Linearization (Lineage)

variable {declared : NameMap Declared} {enums : NameMap Enumeration} {env : BuildEnv}
  {r : Registry} {c : ConfigClass} {line : List ConfigClass}

/-- The parameters of a class are a pass over its line. -/
theorem Assembled.exists_lineage (h : Assembled declared enums env r) (htree : r.IsTree)
    (hc : r.classes.get? name = some c) :
    ∃ line, Lineage r.classes name line
      ∧ r.allParams.get? name = some (overrideParams [] (line.flatMap ConfigClass.params)) := by
  obtain ⟨ordered, hordered, hall⟩ := h.allParams
  obtain ⟨hfirst, -⟩ := Linearization.linearize_ok htree.name_eq hordered
  have hmem := Linearization.mem_of_linearize_keys htree.name_eq hordered hc
  rw [hall, ← htree.name_eq hc]
  exact hfirst.get?_flattenParams hmem

/-- The parameters of the class at the end of a line: each name once, in the order in which the
line declares the names first, and under each name the declaration that counts. -/
structure IsFlattened (r : Registry) (name : String) (line : List ConfigClass) : Prop where
  registered : r.allParams.contains name = true
  nodup : ((r.paramsOf name).map Param.name).Nodup
  names : (r.paramsOf name).map Param.name
    = ((line.flatMap ConfigClass.params).map Param.name).eraseDups
  /-- The parameter that is found by a name is the one in the list. -/
  param?_eq_some_iff : ∀ n q, r.param? name n = some q ↔ q ∈ r.paramsOf name ∧ q.name = n
  param?_eq : ∀ n, r.param? name n = nearestParam? line n
  param?_eq_none_iff : ∀ n, r.param? name n = none ↔ ∀ a ∈ line, ∀ q ∈ a.params, q.name ≠ n

theorem isFlattened_of_get?_allParams
    (h : r.allParams.get? name = some (overrideParams [] (line.flatMap ConfigClass.params))) :
    r.IsFlattened name line := by
  have hparams : r.paramsOf name = overrideParams [] (line.flatMap ConfigClass.params) := by
    rw [paramsOf, h]
    rfl
  have hnearest : ∀ n, r.param? name n = nearestParam? line n := fun n => by
    rw [param?, hparams, find?_overrideParams, nearestParam?_eq]
  have hnodup : ((r.paramsOf name).map Param.name).Nodup := by
    rw [hparams]
    exact nodup_map_name_overrideParams _
  refine ⟨NameMap.contains_of_get? h, hnodup, by rw [hparams, map_name_overrideParams],
    fun n q => ⟨fun hq => ?_, fun ⟨hq, hn⟩ => ?_⟩, hnearest,
    fun n => by rw [hnearest, nearestParam?_eq_none_iff]⟩
  · exact ⟨List.mem_of_find?_eq_some hq, by simpa using List.find?_some hq⟩
  · have hsome : (r.param? name n).isSome = true :=
      List.find?_isSome.mpr ⟨q, hq, by simpa using hn⟩
    obtain ⟨q', hq'⟩ := Option.isSome_iff_exists.mp hsome
    have hn' : q'.name = n := by simpa using List.find?_some hq'
    rw [hq', List.inj_on_of_nodup_map hnodup (List.mem_of_find?_eq_some hq') hq (hn'.trans hn.symm)]

/-- Of what a class declares itself under one name, the last is the parameter of that name. -/
theorem Assembled.param?_of_ownParam? (h : Assembled declared enums env r) (htree : r.IsTree)
    (hc : r.classes.get? name = some c) {n : String} {q : Param} (hq : c.ownParam? n = some q) :
    r.param? name n = some q := by
  obtain ⟨line, hline, hparams⟩ := h.exists_lineage htree hc
  obtain ⟨above, rfl⟩ := List.getLast?_eq_some_iff.mp (hline.getLast?_eq.trans hc)
  rw [(isFlattened_of_get?_allParams hparams).param?_eq, nearestParam?_concat, hq]
  rfl

/-- **Parameters are inherited along the line of a class.** The line leads from the root down to
the class, the parameters of the class are those of its line, and the names that it inherits come
first, in the order that they have in the parent. -/
theorem discover_isFlattened {host : ModuleTable} {d : Disk} {sources : List ScriptSource}
    {requested : List String} (h : (discover host d sources requested env).1 = .ok r)
    (hc : r.classes.get? name = some c) :
    ∃ line, Lineage r.classes name line ∧ line.head?.map ConfigClass.name = some rootClass
      ∧ line.getLast? = some c ∧ r.IsFlattened name line
      ∧ ∀ parent, c.parent = some parent →
        (r.paramsOf parent).map Param.name <+: (r.paramsOf name).map Param.name := by
  obtain ⟨settings, modules, w, hw, hr⟩ := discover_ok h
  have htree := hr.isTree hw.name_eq hw.root
  obtain ⟨line, hline, hparams⟩ := hr.exists_lineage htree hc
  have hflat := isFlattened_of_get?_allParams hparams
  refine ⟨line, hline, ?_, hline.getLast?_eq.trans hc, hflat, fun parent hparent => ?_⟩
  · obtain ⟨top, rest, topName, rfl, htop, hnone⟩ := hline.exists_top
    rw [List.head?_cons, Option.map_some, htree.name_eq htop,
      (htree.parent_eq_none_iff htop).mp hnone]
  · obtain ⟨above, habove, rfl⟩ := hline.parent hc hparent
    obtain ⟨k, hk⟩ := NameMap.contains_iff_get?.mp (htree.parent hc hparent)
    obtain ⟨line', hline', hparams'⟩ := hr.exists_lineage htree hk
    cases habove.unique hline'
    rw [hflat.names, (isFlattened_of_get?_allParams hparams').names, List.flatMap_append,
      List.map_append, List.eraseDups_append]
    exact List.prefix_append _ _

/-! ### A line of three classes

Names are declared again at several levels, and in one class twice. -/

def familyHost : ModuleTable := NameMap.ofList
  [("runtime", .manifest ⟨"runtime.toml"⟩
      { imports := []
        enums := []
        classes := [⟨"SimObject", none, true, none, none, none,
          [⟨"name", "String", "of the root", none, none⟩,
            ⟨"clock", "Tick", "of the root", none, none⟩]⟩] }),
    ("objects.Cache", .manifest ⟨"cache.toml"⟩
      { imports := []
        enums := []
        classes := [⟨"Cache", none, false, none, none, none,
          [⟨"size", "Int", "first", none, none⟩,
            ⟨"clock", "Tick", "of the cache", none, none⟩,
            ⟨"size", "MemorySize", "second", none, none⟩]⟩] }),
    ("objects.L2", .manifest ⟨"l2.toml"⟩
      { imports := []
        enums := []
        classes := [⟨"L2", some "Cache", false, none, none, none,
          [⟨"banks", "Int", "", none, none⟩,
            ⟨"clock", "Latency", "of the second level", none, none⟩]⟩] })]

/-- What discovery finds in the host when it is asked for the class at the end of the line. -/
def family : Registry :=
  let root : List Param :=
    [⟨"name", .plain (.scalar .string), "of the root", none⟩,
      ⟨"clock", .plain (.scalar .tick), "of the root", none⟩]
  let cache : List Param :=
    [⟨"size", .plain (.scalar .int), "first", none⟩,
      ⟨"clock", .plain (.scalar .tick), "of the cache", none⟩,
      ⟨"size", .plain (.scalar .memorySize), "second", none⟩]
  let l2 : List Param :=
    [⟨"banks", .plain (.scalar .int), "", none⟩,
      ⟨"clock", .plain (.scalar .latency), "of the second level", none⟩]
  { classes := NameMap.ofList
      [("SimObject", ⟨"SimObject", none, root, none, "SimObject", none, true, "runtime"⟩),
        ("Cache", ⟨"Cache", some "SimObject", cache, none, "Cache", none, false,
          "objects.Cache"⟩),
        ("L2", ⟨"L2", some "Cache", l2, none, "L2", none, false, "objects.L2"⟩)]
    allParams := NameMap.ofList
      [("SimObject", root),
        ("Cache", [⟨"name", .plain (.scalar .string), "of the root", none⟩,
          ⟨"clock", .plain (.scalar .tick), "of the cache", none⟩,
          ⟨"size", .plain (.scalar .memorySize), "second", none⟩]),
        ("L2", [⟨"name", .plain (.scalar .string), "of the root", none⟩,
          ⟨"clock", .plain (.scalar .latency), "of the second level", none⟩,
          ⟨"size", .plain (.scalar .memorySize), "second", none⟩,
          ⟨"banks", .plain (.scalar .int), "", none⟩])]
    enums := NameMap.empty
    paramTypes := NameMap.empty }

theorem discover_familyHost :
    (discover familyHost (Disk.blank []) [] ["L2"] BuildEnv.empty).1 = .ok family := by
  decide +kernel

theorem family_isFlattened :
    (discover familyHost (Disk.blank []) [] ["L2"] BuildEnv.empty).1 = .ok family
      ∧ ∃ c, family.classes.get? "L2" = some c
        ∧ ∃ line, Lineage family.classes "L2" line
          ∧ line.head?.map ConfigClass.name = some rootClass
          ∧ line.getLast? = some c ∧ family.IsFlattened "L2" line
          ∧ ∀ parent, c.parent = some parent →
            (family.paramsOf parent).map Param.name <+: (family.paramsOf "L2").map Param.name :=
  ⟨discover_familyHost, _, rfl, discover_isFlattened discover_familyHost rfl⟩

end Registry

end SimMetadata

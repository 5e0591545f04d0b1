import SimMetadata.Proofs.FirstSeen
import SimMetadata.Proofs.NameMap
import SimMetadata.Proofs.ParamType
import SimMetadata.Registry.Requirements

/-!
# Collecting what classes require

What classes require is told in one go: all lines that the types of their parameters need, without
the duplicates, and the set of all enumerations that they refer to. It can also be collected on a
walk over the classes and their parameters that remembers which lines have come. Types share lines,
and of the lines of one type some may have come and others not, so the walk looks at each line by
itself.

The walk collects what is told in one go. Since it only ever puts lines behind those that it has,
more classes add to the end. In another order the classes require the same, with the lines in
another order.

## Main definitions

* `Collection`: what the walk has met; `Collection.visitParam`, `Collection.visitClass`: its steps.
* `Collection.Holds`: what the walk has met by the time when certain lines and names have come.

## Main results

* `Collection.Holds.visitParam`, `Collection.Holds.visitClasses`: what a step keeps, and a walk.
* `Requirements.ofClasses_exact`: what classes require, in which order, and what more classes or
  another order change.
-/

namespace SimMetadata

/-! ### The walk -/

/-- What a walk over the parameters of some classes has met. -/
structure Collection where
  /-- The lines, each where it came first. -/
  predecls : List String
  /-- Which lines have come. -/
  seen : NameSet
  enums : NameSet

namespace Collection

/-- Nothing has been met. -/
def start : Collection := ⟨[], NameMap.empty, NameMap.empty⟩

/-- A line is put behind the others, unless it has come before. -/
def addPredecl (s : Collection) (line : String) : Collection :=
  if s.seen.contains line then s
  else { s with predecls := s.predecls ++ [line], seen := s.seen.add line }

/-- The enumeration that a type refers to, if there is one, is put to the others. -/
def addEnum (s : Collection) : Option String → Collection
  | none => s
  | some e => { s with enums := s.enums.add e }

/-- The step of the walk at a parameter. -/
def visitParam (s : Collection) (p : Param) : Collection :=
  p.type.predecls.foldl addPredecl (s.addEnum p.type.enumName?)

/-- The walk over the parameters that a class declares itself. -/
def visitClass (s : Collection) (c : ConfigClass) : Collection := c.params.foldl visitParam s

/-- What has been collected. -/
def requirements (s : Collection) : Requirements := ⟨s.predecls, s.enums.keys⟩

variable {s : Collection} {lines names : List String}

/-- These lines and these names of enumerations have come, in this order. -/
structure Holds (lines names : List String) (s : Collection) : Prop where
  predecls : s.predecls = lines.eraseDups
  seen : ∀ line, s.seen.contains line = true ↔ line ∈ lines
  enums : s.enums = NameSet.ofNames names

theorem holds_start : Holds [] [] start := ⟨rfl, by simp [start], rfl⟩

namespace Holds

theorem addPredecl (h : Holds lines names s) (line : String) :
    Holds (lines ++ [line]) names (s.addPredecl line) := by
  rw [Collection.addPredecl]
  split
  · next hseen =>
    have hold : line ∈ lines := (h.seen line).mp hseen
    refine ⟨?_, fun l => ?_, h.enums⟩
    · rw [eraseDups_concat, if_pos hold, h.predecls]
    · rw [h.seen, List.mem_append, List.mem_singleton]
      exact ⟨.inl, fun hl => hl.elim id fun heq => heq ▸ hold⟩
  · next hseen =>
    have hnew : line ∉ lines := fun hmem => hseen ((h.seen line).mpr hmem)
    refine ⟨?_, fun l => ?_, h.enums⟩
    · rw [eraseDups_concat, if_neg hnew, h.predecls]
    · rw [NameSet.add, NameMap.contains_insert, Bool.or_eq_true, decide_eq_true_eq, h.seen,
        List.mem_append, List.mem_singleton, or_comm]

theorem addPredecls (h : Holds lines names s) (more : List String) :
    Holds (lines ++ more) names (more.foldl Collection.addPredecl s) := by
  induction more generalizing lines s with
  | nil => rwa [List.append_nil]
  | cons line more ih =>
    rw [List.foldl_cons, List.append_cons]
    exact ih (h.addPredecl line)

theorem addEnum (h : Holds lines names s) (e : Option String) :
    Holds lines (names ++ e.toList) (s.addEnum e) := by
  cases e with
  | none => rwa [Option.toList_none, List.append_nil]
  | some e =>
    refine ⟨h.predecls, h.seen, ?_⟩
    rw [Option.toList_some, NameSet.ofNames, List.foldl_append, ← NameSet.ofNames, ← h.enums]
    rfl

/-- **A step of the walk** adds the lines that the type of the parameter needs and the enumeration
that it refers to. -/
theorem visitParam (h : Holds lines names s) (p : Param) :
    Holds (lines ++ p.type.predecls) (names ++ p.type.enumName?.toList) (s.visitParam p) :=
  (h.addEnum _).addPredecls _

theorem visitParams (h : Holds lines names s) (ps : List Param) :
    Holds (lines ++ ps.flatMap fun p => p.type.predecls)
      (names ++ ps.filterMap fun p => p.type.enumName?) (ps.foldl Collection.visitParam s) := by
  induction ps generalizing lines names s with
  | nil => simpa using h
  | cons p ps ih =>
    have hstep := ih (h.visitParam p)
    rw [List.append_assoc, List.append_assoc] at hstep
    rwa [List.foldl_cons, List.flatMap_cons, List.filterMap_eq_flatMap_toList, List.flatMap_cons,
      ← List.filterMap_eq_flatMap_toList]

/-- **The walk over some classes** adds what their parameters need and refer to. -/
theorem visitClasses (h : Holds lines names s) (classes : List ConfigClass) :
    Holds (lines ++ (classes.flatMap ConfigClass.params).flatMap fun p => p.type.predecls)
      (names ++ (classes.flatMap ConfigClass.params).filterMap fun p => p.type.enumName?)
      (classes.foldl Collection.visitClass s) := by
  have hwalk : classes.foldl Collection.visitClass s
      = (classes.flatMap ConfigClass.params).foldl Collection.visitParam s :=
    List.foldl_flatMap.symm
  rw [hwalk]
  exact h.visitParams _

end Holds

end Collection

/-! ### What is collected -/

namespace Requirements

variable {classes classes' : List ConfigClass} {line e : String}

/-- The types of all parameters, in the order of the walk. -/
def typesOf (classes : List ConfigClass) : List ParamType :=
  classes.flatMap fun c => c.params.map Param.type

theorem mem_typesOf {t : ParamType} :
    t ∈ typesOf classes ↔ ∃ c ∈ classes, ∃ q ∈ c.params, q.type = t := by
  simp [typesOf]

theorem typesOf_append (classes more : List ConfigClass) :
    typesOf (classes ++ more) = typesOf classes ++ typesOf more := List.flatMap_append

theorem predecls_ofClasses (classes : List ConfigClass) :
    (ofClasses classes).predecls = ((typesOf classes).flatMap ParamType.predecls).eraseDups := rfl

theorem enums_ofClasses (classes : List ConfigClass) :
    (ofClasses classes).enums
      = (NameSet.ofNames ((typesOf classes).filterMap ParamType.enumName?)).keys := rfl

theorem mem_predecls : line ∈ (ofClasses classes).predecls
    ↔ ∃ c ∈ classes, ∃ q ∈ c.params, line ∈ q.type.predecls := by
  rw [predecls_ofClasses, List.mem_eraseDups, List.mem_flatMap]
  simp only [mem_typesOf]
  grind

theorem mem_enums : e ∈ (ofClasses classes).enums
    ↔ ∃ c ∈ classes, ∃ q ∈ c.params, q.type.enumName? = some e := by
  rw [enums_ofClasses, NameMap.mem_keys_ofNames, List.mem_filterMap]
  simp only [mem_typesOf]
  grind

/-- **The walk collects what classes require.** -/
theorem requirements_walk (classes : List ConfigClass) :
    (classes.foldl Collection.visitClass .start).requirements = ofClasses classes := by
  have h := Collection.holds_start.visitClasses classes
  have hparams : typesOf classes = (classes.flatMap ConfigClass.params).map Param.type := by
    rw [typesOf, List.map_flatMap]
  rw [Collection.requirements, h.predecls, h.enums, List.nil_append, List.nil_append, ofClasses,
    ← typesOf, hparams, List.flatMap_map, List.filterMap_map]
  rfl

theorem predecls_prefix_append (classes more : List ConfigClass) :
    (ofClasses classes).predecls <+: (ofClasses (classes ++ more)).predecls := by
  rw [predecls_ofClasses, predecls_ofClasses, typesOf_append, List.flatMap_append]
  exact eraseDups_prefix_append _ _

theorem enums_perm (h : classes'.Perm classes) :
    (ofClasses classes').enums = (ofClasses classes).enums := by
  have htypes : (typesOf classes').Perm (typesOf classes) := h.flatMap_right _
  rw [enums_ofClasses, enums_ofClasses,
    NameMap.ofNames_congr fun n => (htypes.filterMap ParamType.enumName?).mem_iff]

/-- **What classes require**, whatever the classes. It is what the walk collects: the lines that the
types of the parameters need, each once and in the order in which they are first needed, and the
enumerations that the types refer to, in the order of their names. More classes add lines at the end
only, and in another order the classes require the same enumerations and the same lines. -/
theorem ofClasses_exact (classes : List ConfigClass) :
    let required := ofClasses classes
    (classes.foldl Collection.visitClass .start).requirements = required
      ∧ (∀ out, IsFirstSeen ((typesOf classes).flatMap ParamType.predecls) out
        ↔ out = required.predecls)
      ∧ required.enums.Pairwise (· < ·)
      ∧ (∀ e, e ∈ required.enums ↔ ∃ c ∈ classes, ∃ q ∈ c.params,
        q.type = .plain (.enum e) ∨ q.type = .vector (.enum e))
      ∧ (∀ more, required.predecls <+: (ofClasses (classes ++ more)).predecls)
      ∧ ∀ classes' : List ConfigClass, classes'.Perm classes →
        (ofClasses classes').enums = required.enums
          ∧ ∀ line, line ∈ (ofClasses classes').predecls ↔ line ∈ required.predecls := by
  have hfirst := isFirstSeen_eraseDups ((typesOf classes).flatMap ParamType.predecls)
  refine ⟨requirements_walk classes, fun out => ⟨fun h => h.unique hfirst, ?_⟩, NameMap.ordered _,
    fun e => ?_, predecls_prefix_append classes, fun classes' hperm => ⟨enums_perm hperm, ?_⟩⟩
  · rintro rfl
    exact hfirst
  · simp only [mem_enums, ParamType.enumName?_eq_some_iff]
  · intro line
    simp only [mem_predecls, hperm.mem_iff]

/-! ### Classes whose types share lines -/

/-- The second class needs some lines that the first one needs, and others. -/
def busAndBridge : List ConfigClass :=
  [⟨"Bus", some "SimObject",
      [⟨"mode", .plain (.enum "Zeta"), "", none⟩, ⟨"clock", .plain (.scalar .tick), "", none⟩,
        ⟨"label", .plain (.scalar .string), "", none⟩], none, "Bus", none, false, "objects.Bus"⟩,
    ⟨"Bridge", some "Bus",
      [⟨"size", .plain (.scalar .uint64), "", none⟩, ⟨"kinds", .vector (.enum "Alpha"), "", none⟩,
        ⟨"peers", .vector (.object "Bus"), "", none⟩,
        ⟨"latency", .plain (.scalar .latency), "", none⟩],
      none, "Bridge", none, false, "objects.Bridge"⟩]

/-- The other way round, the classes require the same lines in another order. -/
theorem busAndBridge_reverse :
    busAndBridge.reverse.Perm busAndBridge
      ∧ (ofClasses busAndBridge).predecls = ["%import \"stdint.i\"", "%import \"base/types.hh\"",
        "%include \"std_string.i\"", "%include \"std_vector.i\"", "class Bus;"]
      ∧ (ofClasses busAndBridge.reverse).predecls = ["%import \"stdint.i\"",
        "%include \"std_vector.i\"", "class Bus;", "%import \"base/types.hh\"",
        "%include \"std_string.i\""]
      ∧ (ofClasses busAndBridge.reverse).enums = ["Alpha", "Zeta"] := by
  have hperm : busAndBridge.reverse.Perm busAndBridge := List.reverse_perm _
  obtain ⟨-, -, -, -, -, hreordered⟩ := ofClasses_exact busAndBridge
  exact ⟨hperm, by decide, by decide, (hreordered _ hperm).1.trans (by decide)⟩

end Requirements

end SimMetadata

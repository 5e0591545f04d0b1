import SimMetadata.Proofs.Artifact.Header
import SimMetadata.Proofs.Registry.Flattening

/-!
# Data members of a structure

The structure of a class has a data member for each parameter that the class declares itself, in
order, and the structure of the root has one more, the name of the object. The parameters that a
class has are told by another route: they are put together along the line of its ancestors, where a
name that comes again replaces what it stood for.

So a class that declares a name twice has one parameter of that name and two data members, which may
differ in type, and the last one is that of the parameter. The root in the same way has two members
if it declares a name for its objects. These are the only cases in which the two views disagree.
Nothing keeps manifests from either.

## Main definitions

* `Interface.dataMembers`: the data members, in the order in which they are declared.
* `Interface.HasDistinctMembers`: the data members have different names, and those of parameters the
  types of the parameters.

## Main results

* `Registry.discover_dataMembers`: which data members the structure of a class has, and when their
  names are different.
-/

namespace SimMetadata

variable {r : Registry} {name : String} {c : ConfigClass} {i : Interface}

namespace Interface

/-! ### Members and lines -/

/-- The data members that no parameter is behind. -/
def rootMembers (i : Interface) : List Field :=
  if i.parent.isNone then [⟨"std::string", "name"⟩] else []

/-- The data members, in the order in which they are declared. -/
def dataMembers (i : Interface) : List Field := i.rootMembers ++ i.fields

/-- The lines of the structure before its data members. -/
def structOpening (i : Interface) : List String :=
  ("struct " ++ i.structName) ::
    match i.parent with
    | some p => ["    : public " ++ p ++ "Params", "\x7b"]
    | none => ["\x7b", "    virtual ~" ++ i.structName ++ "() \x7b\x7d", ""]

theorem structLines_eq (i : Interface) :
    i.structLines = i.structOpening ++ i.rootMembers.map Field.text ++ i.factoryLines
      ++ i.fields.map Field.text ++ ["\x7d;", "", "#endif // " ++ i.guardMacro] := by
  have hhead : i.structHead = i.structOpening ++ i.rootMembers.map Field.text := by
    rw [structHead, structOpening, rootMembers]
    cases i.parent <;> rfl
  rw [structLines, hhead]

/-- The data members have different names, and a parameter that the class declares has one, of the
type that the parameter has. -/
structure HasDistinctMembers (r : Registry) (c : ConfigClass) (i : Interface) : Prop where
  nodup : (i.dataMembers.map Field.name).Nodup
  recorded : ∀ q ∈ c.params, (i.dataMembers.map Field.name).count q.name = 1
    ∧ ∃ q', r.param? c.name q.name = some q' ∧ field r q' ∈ i.dataMembers

/-! ### Members and parameters -/

namespace Declares

theorem map_name_dataMembers (h : Declares r c i) : i.dataMembers.map Field.name
    = (if c.parent = none then ["name"] else []) ++ c.params.map Param.name := by
  rw [dataMembers, rootMembers, h.parent, h.fields, List.map_append, List.map_map]
  cases c.parent <;> rfl

/-- The last member of a name is that of the last declaration. -/
theorem find?_reverse_dataMembers (h : Declares r c i) {n : String} {q : Param}
    (hq : c.ownParam? n = some q) :
    i.dataMembers.reverse.find? (·.name = n) = some (field r q) := by
  have hfields : i.fields.reverse.find? (·.name = n) = some (field r q) := by
    rw [h.fields, ← List.map_reverse, List.find?_map]
    change (c.ownParam? n).map _ = _
    rw [hq]
    rfl
  rw [dataMembers, List.reverse_append, List.find?_append, hfields]
  rfl

/-- The members have different names exactly if the class declares different names, and the root
does not declare the one that it has anyway. -/
theorem hasDistinctMembers_iff (h : Declares r c i)
    (hrecorded : ∀ n q, c.ownParam? n = some q → r.param? c.name n = some q) :
    i.HasDistinctMembers r c ↔ (c.params.map Param.name).Nodup
      ∧ (c.parent = none → "name" ∉ c.params.map Param.name) := by
  have hnodup : (i.dataMembers.map Field.name).Nodup ↔ (c.params.map Param.name).Nodup
      ∧ (c.parent = none → "name" ∉ c.params.map Param.name) := by
    rw [h.map_name_dataMembers]
    split
    · next hroot => simp [hroot, and_comm]
    · next hroot => simp [hroot]
  refine ⟨fun hdistinct => hnodup.mp hdistinct.nodup, fun hnames => ⟨hnodup.mpr hnames, ?_⟩⟩
  intro q hq
  have hmem : q.name ∈ i.dataMembers.map Field.name := by
    rw [h.map_name_dataMembers]
    exact List.mem_append_right _ (List.mem_map_of_mem hq)
  refine ⟨List.count_eq_one_of_mem (hnodup.mpr hnames) hmem, ?_⟩
  obtain ⟨q', hq'⟩ := c.exists_ownParam? hq
  have hfield := List.mem_of_find?_eq_some (h.find?_reverse_dataMembers hq')
  exact ⟨q', hrecorded _ _ hq', List.mem_reverse.mp hfield⟩

end Declares

end Interface

namespace Registry

/-- **Which data members the structure of a class has.** The header of every registered class is
printed, and its structure declares one data member for each parameter of the class itself, after
the name of the object in the root. The last one of a name is that of the parameter that the class
has. The names are different, and all members those of parameters, exactly if the class declares no
name twice, and the root does not declare the name that its structure has. -/
theorem discover_dataMembers {host : ModuleTable} {d : Disk} {sources : List ScriptSource}
    {requested : List String} {env : BuildEnv}
    (h : (discover host d sources requested env).1 = .ok r) (hc : r.classes.get? name = some c) :
    ∃ i, Interface.ofClass? r name = .ok i
      ∧ (∀ ctx : RenderContext, ctx.registry = r →
        (Artifact.interface name).render? ctx = .ok (Text.unlines (i.preamble ++ i.structLines)))
      ∧ i.structLines = i.structOpening ++ i.rootMembers.map Field.text ++ i.factoryLines
        ++ i.fields.map Field.text ++ ["\x7d;", "", "#endif // " ++ i.guardMacro]
      ∧ i.dataMembers.map Field.name
        = (if c.parent = none then ["name"] else []) ++ c.params.map Param.name
      ∧ (∀ q ∈ c.params, ∃ q', r.param? name q.name = some q'
        ∧ i.dataMembers.reverse.find? (·.name = q.name) = some (Interface.field r q'))
      ∧ (i.HasDistinctMembers r c ↔ (c.params.map Param.name).Nodup
        ∧ (c.parent = none → "name" ∉ c.params.map Param.name)) := by
  obtain ⟨settings, modules, w, hw, hr⟩ := discover_ok h
  have hclosed := hr.isClosed hw.name_eq hw.root
  have hrecorded : ∀ n q, c.ownParam? n = some q → r.param? name n = some q :=
    fun _ _ => hr.param?_of_ownParam? hclosed.toIsTree hc
  obtain ⟨i, hi⟩ := Interface.exists_ofClass?_ok hclosed hc
  obtain ⟨c', hc', hdeclares⟩ := Interface.ofClass?_ok hi
  cases hc.symm.trans hc'
  refine ⟨i, hi, fun ctx hctx => ?_, i.structLines_eq, hdeclares.map_name_dataMembers,
    fun q hq => ?_, ?_⟩
  · rw [← Interface.lines_eq]
    exact (Artifact.HasLines.interface hi).render? hctx
  · obtain ⟨q', hq'⟩ := c.exists_ownParam? hq
    exact ⟨q', hrecorded _ _ hq', hdeclares.find?_reverse_dataMembers hq'⟩
  · rw [← hclosed.name_eq hc] at hrecorded
    exact hdeclares.hasDistinctMembers_iff hrecorded

/-- The structure has two members for the size of the cache, and they are of different types. -/
theorem family_dataMembers :
    (discover familyHost (Disk.blank []) [] ["L2"] BuildEnv.empty).1 = .ok family
      ∧ ∃ c, family.classes.get? "Cache" = some c ∧ ∃ i, Interface.ofClass? family "Cache" = .ok i
        ∧ i.dataMembers.map Field.name = ["size", "clock", "size"]
        ∧ ¬ i.HasDistinctMembers family c := by
  obtain ⟨i, hi, -, -, hnames, -, hiff⟩ := discover_dataMembers discover_familyHost
    (show family.classes.get? "Cache" = some _ from rfl)
  exact ⟨discover_familyHost, _, rfl, i, hi, hnames,
    fun hdistinct => absurd (hiff.mp hdistinct).1 (by decide)⟩

/-- Not every class that is published has a structure whose data members have different names. -/
theorem family_repeatsMember :
    ¬ ∀ (host : ModuleTable) (d : Disk) (sources : List ScriptSource) (requested : List String)
        (env : BuildEnv) (r : Registry) (name : String) (c : ConfigClass) (i : Interface),
      (discover host d sources requested env).1 = .ok r → r.classes.get? name = some c →
        Interface.ofClass? r name = .ok i → i.HasDistinctMembers r c := by
  intro h
  have hclosed := isClosed_of_discover discover_familyHost
  have hc : family.classes.get? "Cache" = some _ := rfl
  obtain ⟨i, hi⟩ := Interface.exists_ofClass?_ok hclosed hc
  obtain ⟨c, hc', hdeclares⟩ := Interface.ofClass?_ok hi
  cases hc.symm.trans hc'
  have hnodup := (h _ _ _ _ _ _ _ _ i discover_familyHost hc hi).nodup
  rw [hdeclares.map_name_dataMembers] at hnodup
  exact absurd hnodup (by decide)

end Registry

end SimMetadata

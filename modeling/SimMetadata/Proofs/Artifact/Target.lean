import SimMetadata.Artifact
import SimMetadata.Proofs.Path.Plain
import SimMetadata.Proofs.Text.Affix

/-!
# Where generated files go

The path of a file that is about a class, a type or an enumeration is printed around its name, and
all other files have a path of their own. What is printed tells the kinds of files apart, and within
a kind the name does. Nobody checks the names of classes and enumerations. If none of them has a
slash, the paths are plain, so they are told apart by their components as well.

## Main results

* `Artifact.target_interface_inj`, `Artifact.target_binding_inj`, `Artifact.target_enumSource_inj`,
  `Artifact.target_enumHeader_inj`: within a kind, the name tells the paths apart.
* `Artifact.isPlain_target_interface` and its like: paths around names without a slash are plain.

## Implementation notes

The name of an enumeration may begin with a slash. Its source then goes to that absolute path, and
not below the directory of the enumerations.
-/

namespace SimMetadata

theorem Path.join_of_relative {p q : Path} (hq : q.isAbsolute = false) (hp : p.text ≠ "")
    (hlast : p.text.toList.getLast? ≠ some '/') : p.join q = ⟨p.text ++ "/" ++ q.text⟩ := by
  rw [join, hq, if_neg (by decide), if_neg (not_or.mpr ⟨hp, hlast⟩)]

namespace Artifact

variable {name other : String} {e e' : ElementType}

/-! ### The paths -/

theorem target_interface (name : String) :
    (interface name).target = ⟨"params/" ++ name ++ ".hh"⟩ := rfl

theorem target_enumHeader (name : String) :
    (enumHeader name).target = ⟨"enums/" ++ name ++ ".hh"⟩ := rfl

theorem target_binding (e : ElementType) :
    (binding (.vector e)).target = ⟨"params/vector_" ++ e.name ++ ".i"⟩ := by
  have hrelative : (⟨"vector_" ++ e.name ++ ".i"⟩ : Path).isAbsolute = false := by
    simp [Path.isAbsolute]
  rw [target, ParamType.tag_vector, Path.join_of_relative hrelative (by decide) (by decide),
    Path.mk.injEq, ← String.toList_inj]
  simp

/-- The name of an enumeration may be an absolute path. -/
theorem target_enumSource (name : String) :
    (enumSource name).target = if name.toList.head? = some '/' then ⟨name ++ ".cc"⟩
      else ⟨"enums/" ++ name ++ ".cc"⟩ := by
  have hhead : (name ++ ".cc").toList.head? = some '/' ↔ name.toList.head? = some '/' := by
    rw [String.toList_append]
    cases name.toList with
    | nil => decide
    | cons c cs => rfl
  split
  · next h => rw [target, Path.join, Path.isAbsolute, if_pos (decide_eq_true (hhead.mpr h))]
  · next h =>
    have hrelative : (⟨name ++ ".cc"⟩ : Path).isAbsolute = false :=
      decide_eq_false fun habsolute => h (hhead.mp habsolute)
    rw [target, Path.join_of_relative hrelative (by decide) (by decide), Path.mk.injEq,
      ← String.toList_inj]
    simp

/-- Where the binding module goes does not depend on the classes in it. -/
theorem target_aggregate (classNames : List String) :
    (aggregate classNames).target = ⟨"params/params.i"⟩ := rfl

/-! ### Within a kind -/

theorem target_interface_inj :
    (interface name).target = (interface other).target ↔ name = other := by
  rw [target_interface, target_interface, Path.mk.injEq, String.append_left_inj,
    String.append_right_inj]

theorem target_enumHeader_inj :
    (enumHeader name).target = (enumHeader other).target ↔ name = other := by
  rw [target_enumHeader, target_enumHeader, Path.mk.injEq, String.append_left_inj,
    String.append_right_inj]

theorem target_binding_inj :
    (binding (.vector e)).target = (binding (.vector e')).target ↔ e.name = e'.name := by
  rw [target_binding, target_binding, Path.mk.injEq, String.append_left_inj,
    String.append_right_inj]

theorem target_enumSource_inj :
    (enumSource name).target = (enumSource other).target ↔ name = other := by
  -- An absolute path and one below the directory of the enumerations differ at the beginning.
  have hmixed : ∀ {n m : String}, n.toList.head? = some '/' →
      (⟨n ++ ".cc"⟩ : Path) ≠ ⟨"enums/" ++ m ++ ".cc"⟩ := by
    rintro n m hn heq
    rw [Path.mk.injEq, String.append_left_inj] at heq
    rw [heq, String.toList_append] at hn
    cases hn
  constructor
  · intro h
    rw [target_enumSource, target_enumSource] at h
    split at h
    · next hname =>
      split at h
      · rwa [Path.mk.injEq, String.append_left_inj] at h
      · exact absurd h (hmixed hname)
    · split at h
      · next hother => exact absurd h.symm (hmixed hother)
      · rwa [Path.mk.injEq, String.append_left_inj, String.append_right_inj] at h
  · rintro rfl
    rfl

/-! ### What is printed around the names -/

theorem framedBy_target_interface (name : String) :
    (interface name).target.FramedBy [("params/", ".hh")] :=
  Path.framedBy_append _ _ _

theorem framedBy_target_enumHeader (name : String) :
    (enumHeader name).target.FramedBy [("enums/", ".hh")] :=
  Path.framedBy_append _ _ _

theorem framedBy_target_aggregate (classNames : List String) :
    (aggregate classNames).target.FramedBy [("params/params.i", "params/params.i")] :=
  Path.framedBy_of_mem (List.mem_singleton.mpr rfl)

theorem framedBy_target_binding (e : ElementType) :
    (binding (.vector e)).target.FramedBy [("params/vector_", ".i")] := by
  rw [target_binding]
  exact Path.framedBy_append _ _ _

theorem framedBy_target_enumSource (name : String) :
    (enumSource name).target.FramedBy [("enums/", ".cc"), ("/", ".cc")] := by
  rw [target_enumSource]
  split
  · next h =>
    obtain ⟨rest, hrest⟩ := List.head?_eq_some_iff.mp h
    refine ⟨("/", ".cc"), by simp, ?_, ?_⟩
    · rw [String.toList_append, hrest]
      exact List.prefix_append ['/'] _
    · rw [String.toList_append]
      exact List.suffix_append _ _
  · exact (Path.framedBy_append _ _ _).mono (by simp)

/-! ### Names without a slash -/

theorem isPlain_target_interface (h : '/' ∉ name.toList) : (interface name).target.IsPlain := by
  refine Path.isPlain_of_toList "params".toList (name.toList ++ ".hh".toList) ?_ (by decide)
    (.append h (by decide))
  simp [target_interface]

theorem isPlain_target_enumHeader (h : '/' ∉ name.toList) : (enumHeader name).target.IsPlain := by
  refine Path.isPlain_of_toList "enums".toList (name.toList ++ ".hh".toList) ?_ (by decide)
    (.append h (by decide))
  simp [target_enumHeader]

theorem isPlain_target_enumSource (h : '/' ∉ name.toList) : (enumSource name).target.IsPlain := by
  have hrelative : name.toList.head? ≠ some '/' := fun hhead => h (List.mem_of_head? hhead)
  refine Path.isPlain_of_toList "enums".toList (name.toList ++ ".cc".toList) ?_ (by decide)
    (.append h (by decide))
  simp [target_enumSource, hrelative]

theorem isPlain_target_aggregate (classNames : List String) :
    (aggregate classNames).target.IsPlain := by
  rw [target_aggregate]
  decide

theorem isPlain_target_binding (h : '/' ∉ e.name.toList) :
    (binding (.vector e)).target.IsPlain := by
  refine Path.isPlain_of_toList "params".toList ("vector_".toList ++ e.name.toList ++ ".i".toList)
    ?_ (by decide) (.append (by simpa using h) (by decide))
  simp [target_binding]

end Artifact

end SimMetadata

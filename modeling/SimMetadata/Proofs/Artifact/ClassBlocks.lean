import SimMetadata.Proofs.Generation.Inclusions
import SimMetadata.Proofs.Registry.ParentLine
import SimMetadata.Proofs.Registry.Visit

/-!
# Bases are declared before classes that derive from them

A binding module over some classes declares each of them and each of their ancestors in a block of
lines. A class that derives from another is written with two spellings: it is declared by its native
name, in its namespace if it has one, and its base is named with the namespace of the base in front.
The two meet where both classes are declared by such blocks: the qualified name is that of the class
in the block of the base, and this block comes first. What the parameters of the classes need comes
before all blocks.

A manifest may give the lines that declare a class. They are printed as they are, in the place where
the block would stand, and say what they like.

## Main definitions

* `ConfigClass.IsDeclaredBy`: how lines declare a class with a base, and how the class is spelled.
* `Aggregate.DeclaresAll`: what the blocks of a binding module have to do with the classes.

## Main results

* `ClassBlock.isDeclaredBy`: a block that no manifest gives declares the class with its base.
* `Aggregate.declaresAll`: the blocks of a binding module over some classes.
* `Registry.discover_declaresAll`: every list of classes that discovery publishes has such a module.
-/

namespace SimMetadata

variable {r : Registry} {name : String} {names : List String} {c : ConfigClass}

/-! ### One class -/

/-- The lines that declare a class under its native name. -/
def classLines (nativeName : String) (base : Option String) : List String :=
  ["// stop swig from creating/wrapping default ctor/dtor", "%nodefault " ++ nativeName ++ ";",
    match base with
    | some b => "class " ++ nativeName ++ " : public " ++ b ++ " \x7b\x7d;"
    | none => "class " ++ nativeName ++ " \x7b\x7d;"]

/-- Lines declare a class with a base, in the namespace of the class if it has one. The class is
spelled with the namespace elsewhere. -/
inductive ConfigClass.IsDeclaredBy (c : ConfigClass) (base : Option String) :
    List String → String → Prop
  | bare (h : c.namespace = none) : c.IsDeclaredBy base (classLines c.nativeName base) c.nativeName
  | inside {ns : String} (h : c.namespace = some ns) :
    c.IsDeclaredBy base
      (["namespace " ++ ns ++ " \x7b"] ++ classLines c.nativeName base ++ ["\x7d"])
      (ns ++ "::" ++ c.nativeName)

/-- How the base of a class is spelled: by the native name of the parent, with the namespace. -/
def Registry.baseName? (r : Registry) (c : ConfigClass) : Option String :=
  match c.parent with
  | some p => (r.classes.get? p).map ConfigClass.qualifiedName
  | none => none

namespace ClassBlock

theorem isDeclaredBy_stub (c : ConfigClass) (base : Option String) :
    c.IsDeclaredBy base (stub c.namespace c.nativeName base).lines c.qualifiedName := by
  have hlines : ∀ ns, (stub ns c.nativeName base).lines = match ns with
      | some n => ["namespace " ++ n ++ " \x7b"] ++ classLines c.nativeName base ++ ["\x7d"]
      | none => classLines c.nativeName base := by
    intro ns
    cases ns <;> cases base <;> simp [lines, classLines, String.append_assoc]
  rw [hlines, ConfigClass.qualifiedName]
  cases hns : c.namespace with
  | none => exact .bare hns
  | some ns => exact .inside hns

variable {b : ClassBlock}

theorem lines_of_customDecl (h : ofClass? r c = .ok b) {given : List String}
    (hgiven : c.customDecl = some given) : b.lines = given := by
  rw [ofClass?, hgiven] at h
  cases h
  rfl

/-- **A block that no manifest gives declares the class with its base.** -/
theorem isDeclaredBy (h : ofClass? r c = .ok b) (hcustom : c.customDecl = none) :
    c.IsDeclaredBy (r.baseName? c) b.lines c.qualifiedName := by
  rw [ofClass?, hcustom] at h
  rw [Registry.baseName?]
  cases hparent : c.parent with
  | none =>
    simp only [hparent] at h
    cases h
    exact isDeclaredBy_stub c none
  | some p =>
    simp only [hparent] at h
    obtain ⟨parent, hp, h⟩ := except_bind_eq_ok_iff.mp h
    cases h
    simp only [Registry.class?_eq_ok_iff.mp hp, Option.map_some]
    exact isDeclaredBy_stub c _

end ClassBlock

/-! ### All classes of a module -/

/-- Names of registered classes can be put in order with their ancestors. -/
theorem Registry.IsTree.exists_order (h : r.IsTree)
    (hnames : ∀ n ∈ names, r.classes.contains n = true) :
    ∃ ordered, r.order names = .ok ordered := by
  refine (Linearization.exists_linearize_ok_iff h.name_eq).mpr fun n hn => ?_
  obtain ⟨steps, hsteps⟩ := h.reaches_root (hnames n hn)
  obtain ⟨top, htop⟩ := NameMap.contains_iff_get?.mp h.root
  have hname := h.name_eq htop
  exact ⟨steps, top, hname ▸ hsteps, hname ▸ htop, (h.parent_eq_none_iff htop).mpr rfl⟩

namespace Aggregate

variable {m : Aggregate}

/-- The module declares the classes with some names and their ancestors, each in one block. -/
structure DeclaresAll (r : Registry) (names : List String) (m : Aggregate)
    (declared : List (ConfigClass × ClassBlock)) : Prop where
  /-- What the parameters need comes before the blocks. -/
  lines_eq : m.lines = ["%module params", "", "%\x7b"] ++ m.classHeaders ++ ["%\x7d", ""]
    ++ m.requirements.predecls ++ m.enumHeaders ++ [""]
    ++ (declared.flatMap fun d => d.2.lines ++ [""])
    ++ [directive "%include" ⟨rootParamsHeader⟩] ++ m.trailingHeaders
  mem_predecls : ∀ line, line ∈ m.requirements.predecls
    ↔ ∃ d ∈ declared, ∃ q ∈ d.1.params, line ∈ q.type.predecls
  mem_enums : ∀ e, e ∈ m.requirements.enums
    ↔ ∃ d ∈ declared, ∃ q ∈ d.1.params, q.type.enumName? = some e
  nodup : (declared.map fun d => d.1.name).Nodup
  mem_iff : ∀ c, (∃ b, (c, b) ∈ declared) ↔ r.classes.get? c.name = some c
    ∧ ∃ n ∈ names, ∃ steps, Linearization.ancestor? r.classes steps n = some c.name
  given : ∀ c b, (c, b) ∈ declared → ∀ given, c.customDecl = some given → b.lines = given
  root : ∀ c b, (c, b) ∈ declared → c.customDecl = none → c.parent = none →
    c.IsDeclaredBy none b.lines c.qualifiedName
  /-- A class derives from its parent, which has a block before. If the lines of that block are not
  given, they declare what is spelled like the base. -/
  derived : ∀ before c b after, declared = before ++ (c, b) :: after → c.customDecl = none →
    ∀ p, c.parent = some p → ∃ parent above, r.classes.get? p = some parent
      ∧ c.IsDeclaredBy (some parent.qualifiedName) b.lines c.qualifiedName
      ∧ (parent, above) ∈ before
      ∧ (parent.customDecl = none →
        ∃ base, parent.IsDeclaredBy base above.lines parent.qualifiedName)

/-- **A binding module over some classes declares them and their ancestors**, each once and after
its base. -/
theorem declaresAll (htree : r.IsTree) (h : ofNames? r names = .ok m) :
    ∃ declared, m.DeclaresAll r names declared := by
  obtain ⟨ordered, hordered, -, hrequirements, hblocks⟩ := ofNames?_ok h
  obtain ⟨hfirst, -⟩ := Linearization.linearize_ok htree.name_eq hordered
  obtain ⟨declared, hclasses, hprinted, hblock⟩ : ∃ declared : List (ConfigClass × ClassBlock),
      declared.map Prod.fst = ordered ∧ declared.map Prod.snd = m.blocks
        ∧ ∀ c b, (c, b) ∈ declared → ClassBlock.ofClass? r c = .ok b := by
    have hlength := hblocks.length_eq
    exact ⟨ordered.zip m.blocks, List.map_fst_zip (by omega), List.map_snd_zip (by omega),
      fun c b hmem => List.forall₂_zip hblocks hmem⟩
  have hmem : ∀ c, (∃ b, (c, b) ∈ declared) ↔ c ∈ ordered := by
    simp [← hclasses]
  refine ⟨declared,
    { lines_eq := ?_
      mem_predecls := fun line => ?_
      mem_enums := fun e => ?_
      nodup := ?_
      mem_iff := fun c => (hmem c).trans (Linearization.mem_iff_of_linearize htree.name_eq hordered)
      given := fun c b hb given hgiven => ClassBlock.lines_of_customDecl (hblock c b hb) hgiven
      root := fun c b hb hcustom hparent => ?_
      derived := fun before c b after hsplit hcustom p hp => ?_ }⟩
  · have hblockLines : m.blockLines = declared.flatMap fun d => d.2.lines ++ [""] := by
      rw [blockLines, ← hprinted, List.flatMap_map]
    rw [lines_eq, middleLines, hblockLines]
    simp only [List.append_assoc, List.cons_append, List.nil_append]
  · rw [hrequirements, Requirements.mem_predecls, ← hclasses]
    simp
  · rw [hrequirements, Requirements.mem_enums, ← hclasses]
    simp
  · have hnodup := hfirst.nodup
    rwa [← hclasses, List.map_map] at hnodup
  · have hdeclared := ClassBlock.isDeclaredBy (hblock c b hb) hcustom
    rwa [Registry.baseName?, hparent] at hdeclared
  · have hbefore : ordered = before.map Prod.fst ++ c :: after.map Prod.fst := by
      rw [← hclasses, hsplit, List.map_append, List.map_cons]
    obtain ⟨parent, hparent, rfl⟩ := List.mem_map.mp (hfirst.parent_mem_before hbefore hp)
    have hget := hfirst.registered (hbefore ▸ List.mem_append_left _ hparent)
    have hbase : r.baseName? c = some parent.qualifiedName := by
      simp only [Registry.baseName?, hp, hget, Option.map_some]
    obtain ⟨⟨_, above⟩, habove, rfl⟩ := List.mem_map.mp hparent
    have hlisted : (_, above) ∈ declared := hsplit ▸ List.mem_append_left _ habove
    have hderives := ClassBlock.isDeclaredBy (hblock c b (by simp [hsplit])) hcustom
    exact ⟨_, above, hget, hbase ▸ hderives, habove,
      fun hgiven => ⟨_, ClassBlock.isDeclaredBy (hblock _ _ hlisted) hgiven⟩⟩

end Aggregate

namespace Registry

/-- **Binding modules declare bases before classes that derive from them.** Every list of names of
registered classes has a binding module. It declares the classes and their ancestors, each in one
block, with the base under the name that an earlier block declares unless a manifest gives the lines
of that block; and all that their parameters need comes before the first block. -/
theorem discover_declaresAll {host : ModuleTable} {d : Disk} {sources : List ScriptSource}
    {requested : List String} {env : BuildEnv}
    (h : (discover host d sources requested env).1 = .ok r)
    (hnames : ∀ n ∈ names, r.classes.contains n = true) :
    ∃ m declared, Aggregate.ofNames? r names = .ok m
      ∧ (∀ ctx : RenderContext, ctx.registry = r →
        (Artifact.aggregate names).render? ctx = .ok (Text.unlines m.lines))
      ∧ m.DeclaresAll r names declared := by
  have hclosed := isClosed_of_discover h
  obtain ⟨m, hm⟩ := Aggregate.exists_ofNames?_ok hclosed (hclosed.toIsTree.exists_order hnames)
  obtain ⟨declared, hdeclared⟩ := Aggregate.declaresAll hclosed.toIsTree hm
  exact ⟨m, declared, hm, fun ctx hctx => (Artifact.HasLines.aggregate hm).render? hctx, hdeclared⟩

theorem bridge_declaresAll :
    (discover bridgeHost (Disk.blank []) [] ["Bus"] sampleEnv).1 = .ok bridge
      ∧ (∀ n ∈ ["Bridge", "Port"], bridge.classes.contains n = true)
      ∧ ∃ m declared, Aggregate.ofNames? bridge ["Bridge", "Port"] = .ok m
        ∧ m.DeclaresAll bridge ["Bridge", "Port"] declared := by
  have hnames : ∀ n ∈ ["Bridge", "Port"], bridge.classes.contains n = true := by decide
  obtain ⟨m, declared, hm, -, hdeclared⟩ := discover_declaresAll discover_bridgeHost hnames
  exact ⟨discover_bridgeHost, hnames, m, declared, hm, hdeclared⟩

example : (Aggregate.ofNames? bridge ["Port"]).map Aggregate.blockLines = .ok
    ["// stop swig from creating/wrapping default ctor/dtor", "%nodefault SimObject;",
      "class SimObject \x7b\x7d;", "", "namespace Net \x7b",
      "// stop swig from creating/wrapping default ctor/dtor", "%nodefault NetPort;",
      "class NetPort : public SimObject \x7b\x7d;", "\x7d", ""] := by
  decide +kernel

end Registry

end SimMetadata

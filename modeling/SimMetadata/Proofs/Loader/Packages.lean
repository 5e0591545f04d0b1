import SimMetadata.Proofs.Loader.Resolution

/-!
# Which packages a load brings in

A load goes outwards from a name through the packages around it, and goes on only from a package
that is new to the host and resolves. So a package is there after the load if the host had it
before, or if it and all packages between it and the name are new and resolve. A package that
resolves but stands outside of one that does not, or of one that the host has, is not looked at.

## Main definitions

* `Loader.IsPackageOf`: a package around a module, read off the two names.
* `Loader.IsNew`: the names that a load goes through.

## Main results

* `Loader.mem_packages_iff`: the packages that a load may go through are all the packages.
* `Loader.mem_pendingOf_iff`: how far a load goes.
* `Loader.load_packages`: which packages are there after a load, and when these are all that
  resolve.
-/

namespace SimMetadata

namespace Loader

variable {l l' : Loader} {d : Disk} {name p q : String} {names : List String}

/-! ### The packages around a name -/

/-- A package around a module: after the name of the package, the name of the module goes on with a
dot. -/
def IsPackageOf (package name : String) : Prop := package.toList ++ ['.'] <+: name.toList

instance (package name : String) : Decidable (IsPackageOf package name) :=
  inferInstanceAs (Decidable (_ <+: _))

theorem IsPackageOf.length_lt (h : IsPackageOf p q) : p.toList.length < q.toList.length := by
  have hle := List.IsPrefix.length_le h
  rw [List.length_append, List.length_singleton] at hle
  exact hle

theorem IsPackageOf.trans (h : IsPackageOf p q) (h' : IsPackageOf q name) : IsPackageOf p name :=
  List.IsPrefix.trans h ((List.prefix_append _ _).trans h')

theorem IsPackageOf.asymm (h : IsPackageOf p q) : ¬ IsPackageOf q p :=
  fun h' => Nat.lt_asymm h.length_lt h'.length_lt

theorem mem_beforeDots_iff {cs s : List Char} : s ∈ beforeDots cs ↔ s ++ ['.'] <+: cs := by
  induction cs generalizing s with
  | nil => simp [beforeDots]
  | cons c cs ih =>
    rw [beforeDots, List.mem_append, List.mem_map]
    cases s with
    | nil =>
      rw [List.nil_append, List.cons_prefix_cons]
      by_cases hdot : c = '.' <;> simp [hdot, eq_comm]
    | cons c' s =>
      rw [List.cons_append, List.cons_prefix_cons, ← ih]
      by_cases hdot : c = '.' <;> simp [hdot, eq_comm, and_comm]

/-- **The packages around a module** are its name cut before each dot. -/
theorem mem_packages_iff : p ∈ packages name ↔ IsPackageOf p name := by
  rw [packages, List.mem_map, IsPackageOf, ← mem_beforeDots_iff]
  constructor
  · rintro ⟨s, hs, rfl⟩
    rw [String.toList_ofList]
    exact List.mem_reverse.mp hs
  · intro h
    exact ⟨p.toList, List.mem_reverse.mpr h, String.ofList_toList⟩

theorem pairwise_beforeDots (cs : List Char) :
    (beforeDots cs).Pairwise fun short long => short ++ ['.'] <+: long := by
  induction cs with
  | nil => exact .nil
  | cons c cs ih =>
    have hrest : ((beforeDots cs).map (c :: ·)).Pairwise
        fun short long => short ++ ['.'] <+: long := by
      refine List.pairwise_map.mpr (ih.imp fun hprefix => ?_)
      exact List.cons_prefix_cons.mpr ⟨rfl, hprefix⟩
    rw [beforeDots]
    split
    · next hdot =>
      refine List.pairwise_cons.mpr ⟨fun long hlong => ?_, hrest⟩
      obtain ⟨s, -, rfl⟩ := List.mem_map.mp hlong
      rw [hdot]
      exact List.cons_prefix_cons.mpr ⟨rfl, List.nil_prefix⟩
    · exact hrest

/-- Of a name and its packages, each is around all that stand before it. -/
theorem pairwise_packages (name : String) :
    (name :: packages name).Pairwise fun inner outer => IsPackageOf outer inner := by
  refine List.pairwise_cons.mpr ⟨fun p hp => mem_packages_iff.mp hp, ?_⟩
  rw [packages, List.pairwise_map, List.pairwise_reverse]
  refine (pairwise_beforeDots name.toList).imp fun hprefix => ?_
  rw [IsPackageOf, String.toList_ofList, String.toList_ofList]
  exact hprefix

/-! ### How far a load goes -/

/-- The host does not have the name, and it resolves. -/
def IsNew (l : Loader) (d : Disk) (name : String) : Prop :=
  l.host.get? name = none ∧ ¬ Unresolvable l.sources d name

theorem pending_cons_of_isNew (h : l.IsNew d name) :
    l.pending d (name :: names) = name :: l.pending d names := by
  have hresolves := mt resolve?_eq_none_iff_unresolvable.mp h.2
  rw [pending, if_neg]
  simp [NameMap.contains, h.1, hresolves]

theorem pending_cons_of_not_isNew (h : ¬ l.IsNew d name) : l.pending d (name :: names) = [] := by
  rw [pending, if_pos]
  rw [IsNew, not_and_not_right] at h
  cases hhost : l.host.get? name with
  | some m => simp [NameMap.contains, hhost]
  | none => simp [resolve?_eq_none_iff_unresolvable.mpr (h hhost)]

/-- A load goes through those names up to which everything is new. -/
theorem mem_pending_iff (hnames : names.Pairwise fun inner outer => IsPackageOf outer inner) :
    p ∈ l.pending d names ↔
      p ∈ names ∧ ∀ q ∈ names, q = p ∨ IsPackageOf p q → l.IsNew d q := by
  induction names with
  | nil => simp [pending]
  | cons name around ih =>
    obtain ⟨haround, hnames⟩ := List.pairwise_cons.mp hnames
    by_cases hnew : l.IsNew d name
    · rw [pending_cons_of_isNew hnew, List.mem_cons, ih hnames, List.forall_mem_cons, List.mem_cons]
      constructor
      · rintro (rfl | ⟨hp, hall⟩)
        · refine ⟨.inl rfl, fun _ => hnew, fun q hq hcase => ?_⟩
          rcases hcase with rfl | hpackage
          · exact hnew
          · exact absurd hpackage (haround q hq).asymm
        · exact ⟨.inr hp, fun _ => hnew, hall⟩
      · rintro ⟨rfl | hp, -, hall⟩
        · exact .inl rfl
        · exact .inr ⟨hp, hall⟩
    · -- The name stops the load, and it lies between itself and each of the packages.
      rw [pending_cons_of_not_isNew hnew]
      refine iff_of_false List.not_mem_nil ?_
      rintro ⟨hp, hall⟩
      refine hnew (hall name List.mem_cons_self ?_)
      exact (List.mem_cons.mp hp).imp Eq.symm (haround p)

/-- **How far a load goes**: out to a package if everything up to it is new. -/
theorem mem_pendingOf_iff (hpackage : IsPackageOf p name) :
    p ∈ l.pendingOf d name ↔ l.IsNew d name
      ∧ ∀ q, IsPackageOf q name → q = p ∨ IsPackageOf p q → l.IsNew d q := by
  rw [pendingOf, mem_pending_iff (pairwise_packages name), List.forall_mem_cons]
  simp only [List.mem_cons, mem_packages_iff]
  constructor
  · rintro ⟨-, hname, hall⟩
    exact ⟨hname (.inr hpackage), hall⟩
  · rintro ⟨hname, hall⟩
    exact ⟨.inr hpackage, fun _ => hname, hall⟩

theorem Installs.contains_iff (h : Installs l d names l') {n : String} :
    l'.host.contains n = true ↔ l.host.contains n = true ∨ n ∈ names := by
  by_cases hn : n ∈ names
  · obtain ⟨m, -, hm⟩ := h.provided n hn
    simp [NameMap.contains, hm, hn]
  · simp [NameMap.contains, h.other n hn, hn]

/-! ### The packages after a load -/

/-- **Which packages are there after a load** of a name that the host did not have: those that it
had, and those out to which everything is new. So all packages that resolve are there exactly if
everything inside of a new package is new as well. -/
theorem load_packages {m : Module} (hnone : l.host.get? name = none)
    (h : l.load d name = (.ok (some m), l')) :
    (∀ p, IsPackageOf p name → (l'.host.contains p = true ↔
      l.host.contains p = true
        ∨ ∀ q, IsPackageOf q name → q = p ∨ IsPackageOf p q → l.IsNew d q)) ∧
    ((∀ p, IsPackageOf p name → ¬ Unresolvable l.sources d p → l'.host.contains p = true) ↔
      ∀ p q, IsPackageOf p q → IsPackageOf q name → l.IsNew d p → l.IsNew d q) := by
  have hresolves : ¬ Unresolvable l.sources d name := by
    intro hun
    rw [(load_eq_none_iff hnone).mpr ⟨hun, rfl⟩] at h
    cases h
  have hcontains : ∀ p, IsPackageOf p name → (l'.host.contains p = true ↔
      l.host.contains p = true
        ∨ ∀ q, IsPackageOf q name → q = p ∨ IsPackageOf p q → l.IsNew d q) := by
    intro p hp
    have hinstalls : Installs l d (l.pendingOf d name) l' := loadChain_installs h
    rw [hinstalls.contains_iff, mem_pendingOf_iff hp, and_iff_right ⟨hnone, hresolves⟩]
  refine ⟨hcontains, fun hall p q hpq hq hp => ?_, fun hall p hp hun => ?_⟩
  · have hpackage := hpq.trans hq
    rcases (hcontains p hpackage).mp (hall p hpackage hp.2) with hhost | hway
    · rw [NameMap.contains, hp.1] at hhost
      cases hhost
    · exact hway q hq (.inr hpq)
  · refine (hcontains p hp).mpr ?_
    by_cases hhost : l.host.contains p = true
    · exact .inl hhost
    · have hnew : l.IsNew d p := ⟨by simpa [NameMap.contains] using hhost, hun⟩
      refine .inr fun q hq hcase => ?_
      rcases hcase with rfl | hpq
      · exact hnew
      · exact hall p q hpq hq hnew

/-! ### A package that is not looked at

Around the module there are three packages. The innermost one is mapped to a file, the next one to
none, and the outermost one is built in. -/

def portLoader : Loader :=
  Loader.install NameMap.empty
    [("objects.net.dev", ⟨"dev.toml"⟩), ("objects.net.dev.Port", ⟨"port.toml"⟩)] BuildEnv.empty

def portDisk : Disk :=
  ⟨[], [(["dev.toml"], .file (.plain [])), (["port.toml"], .file (.plain []))]⟩

/-- The loader after the module has been loaded. -/
def loadedPort : Loader :=
  (portLoader.record "objects.net.dev" (.manifest ⟨"dev.toml"⟩ ⟨[], [], []⟩)).record
    "objects.net.dev.Port" (.manifest ⟨"port.toml"⟩ ⟨[], [], []⟩)

theorem load_portLoader :
    portLoader.load portDisk "objects.net.dev.Port"
      = (.ok (some (.manifest ⟨"port.toml"⟩ ⟨[], [], []⟩)), loadedPort) := by
  decide +kernel

theorem objects_resolves : ¬ Unresolvable portLoader.sources portDisk "objects" := by
  rw [← resolve?_eq_none_iff_unresolvable]
  decide

/-- The built-in package resolves, and is not there after the load. -/
theorem port_misses_objects :
    portLoader.host.get? "objects.net.dev.Port" = none
      ∧ portLoader.load portDisk "objects.net.dev.Port"
        = (.ok (some (.manifest ⟨"port.toml"⟩ ⟨[], [], []⟩)), loadedPort)
      ∧ IsPackageOf "objects" "objects.net.dev.Port"
      ∧ ¬ Unresolvable portLoader.sources portDisk "objects"
      ∧ loadedPort.host.contains "objects" = false := by
  refine ⟨rfl, load_portLoader, by decide, objects_resolves, by decide⟩

theorem port_packages :
    portLoader.host.get? "objects.net.dev.Port" = none
      ∧ portLoader.load portDisk "objects.net.dev.Port"
        = (.ok (some (.manifest ⟨"port.toml"⟩ ⟨[], [], []⟩)), loadedPort)
      ∧ (∀ p, IsPackageOf p "objects.net.dev.Port" → (loadedPort.host.contains p = true ↔
        portLoader.host.contains p = true
          ∨ ∀ q, IsPackageOf q "objects.net.dev.Port" → q = p ∨ IsPackageOf p q →
            portLoader.IsNew portDisk q))
      ∧ loadedPort.host.contains "objects.net.dev" = true
      ∧ ¬ portLoader.IsNew portDisk "objects.net" := by
  have hpackages := (load_packages rfl load_portLoader).1
  have hunresolvable : Unresolvable portLoader.sources portDisk "objects.net" := by
    rw [← resolve?_eq_none_iff_unresolvable]
    decide
  exact ⟨rfl, load_portLoader, hpackages, by decide, fun hnew => hnew.2 hunresolvable⟩

end Loader

end SimMetadata

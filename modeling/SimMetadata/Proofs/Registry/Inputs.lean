import SimMetadata.Proofs.Discovery.Replay
import SimMetadata.Proofs.Registry.Assembly
import SimMetadata.Proofs.Registry.HostTable

/-!
# What a registry depends on

Discovery is given a list of requests, a list of sources and a disk, and it looks at less than
that. The requests count as a set of names. Of the sources the effective mapping counts, in which
the last source of a name is the one that matters. And of the disk, which mapped files exist, and
what the manifests say that have been loaded on the way.

## Main definitions

* `Registry.mappedPath?`: the effective mapping of some sources.
* `Registry.loaded`: the loader when the walk is over, with all that it has installed.

## Main results

* `Registry.discover_congr`: requests with the same names, and sources with the same effective
  mapping, give the same answer, a registry or a failure.
* `Registry.discover_replays`: a registry does not depend on files that have not been loaded.
-/

namespace SimMetadata

namespace Registry

variable {host : ModuleTable} {d d' : Disk} {sources sources' : List ScriptSource}
  {requested requested' : List String} {env : BuildEnv} {r : Registry}

/-! ### The effective mapping -/

/-- The file that a module name is mapped to. Of several sources with the name the last one
counts. -/
def mappedPath? (sources : List ScriptSource) (modpath : String) : Option Path :=
  (sources.reverse.find? (·.modpath = modpath)).map ScriptSource.srcpath

theorem exists_source_of_mappedPath? {modpath : String} {path : Path}
    (h : mappedPath? sources modpath = some path) : ∃ s ∈ sources, s.srcpath = path := by
  obtain ⟨s, hs, hpath⟩ := Option.map_eq_some_iff.mp h
  exact ⟨s, List.mem_reverse.mp (List.mem_of_find?_eq_some hs), hpath⟩

/-- The loader resolves names by the effective mapping. -/
theorem get?_sources_initialLoader (host : ModuleTable) (sources : List ScriptSource)
    (env : BuildEnv) (modpath : String) :
    (initialLoader host sources env).sources.get? modpath = mappedPath? sources modpath := by
  change (NameMap.ofList (sources.map fun s => (s.modpath, s.srcpath))).get? modpath = _
  rw [NameMap.get?_ofList, ← List.map_reverse, List.find?_map, Option.map_map]
  rfl

theorem initialLoader_congr
    (h : ∀ modpath, mappedPath? sources modpath = mappedPath? sources' modpath) :
    initialLoader host sources env = initialLoader host sources' env := by
  have hsources : (initialLoader host sources env).sources
      = (initialLoader host sources' env).sources := by
    refine NameMap.ext_get? fun modpath => ?_
    rw [get?_sources_initialLoader, get?_sources_initialLoader, h]
  exact congrArg (Loader.mk host · env NameMap.empty) hsources

/-- **Only the set of requests and the effective mapping matter.** Whatever the order of the
requests and of the sources, however often a name is requested, and whatever sources are overridden
by later ones, the answer is the same registry or the same failure, and the host is left the same
table. -/
theorem discover_congr (host : ModuleTable) (d : Disk) (env : BuildEnv)
    (hrequested : ∀ name, name ∈ requested ↔ name ∈ requested')
    (hmapped : ∀ modpath, mappedPath? sources modpath = mappedPath? sources' modpath) :
    discover host d sources requested env = discover host d sources' requested' env := by
  have hloader : initialLoader host sources env = initialLoader host sources' env :=
    initialLoader_congr hmapped
  have hwalk : Discovery.explore d requested = Discovery.explore d requested' := by
    rw [Discovery.explore, Discovery.explore, NameMap.ofNames_congr hrequested]
  refine Prod.ext ?_ ?_
  · rw [discover_fst, discover_fst, hloader, hwalk]
  · rw [discover_host, discover_host]

/-! ### A disk with an unused manifest

The module of one class imports a module in a package, which has a manifest of its own. Another
class is mapped to a file that nothing else leads to. -/

def packageDisk (port : String) : Disk :=
  ⟨[], [(["runtime.toml"], .file (.plain (Text.utf8 "[[class]]\nname=\"SimObject\""))),
    (["lib.toml"], .file (.plain [])),
    (["clock.toml"], .file (.plain (Text.utf8 "[[class]]\nname=\"Clock\""))),
    (["bus.toml"], .file (.plain (Text.utf8
      "imports=[\"lib.clock\"]\n[[class]]\nname=\"Bus\"\nparent=\"Clock\""))),
    (["port.toml"], .file (.plain (Text.utf8 port)))]⟩

def packageSources : List ScriptSource :=
  [.ofPaths "runtime" ⟨"runtime.toml"⟩, .ofPaths "lib" ⟨"lib.toml"⟩,
    .ofPaths "lib.clock" ⟨"clock.toml"⟩, .ofPaths "objects.Bus" ⟨"bus.toml"⟩,
    .ofPaths "objects.Port" ⟨"port.toml"⟩]

/-- The same sources from the last one to the first, after one that is overridden. -/
def shuffledSources : List ScriptSource :=
  .ofPaths "objects.Bus" ⟨"old.toml"⟩ :: packageSources.reverse

theorem shuffled_congr :
    let d := packageDisk "[[class]]\nname=\"Port\""
    (∀ name, name ∈ ["Bus", "Port"] ↔ name ∈ ["Port", "Bus", "Port"])
      ∧ (∀ modpath, mappedPath? packageSources modpath = mappedPath? shuffledSources modpath)
      ∧ ∃ r, discover NameMap.empty d packageSources ["Bus", "Port"] BuildEnv.empty
          = (.ok r, NameMap.empty)
        ∧ discover NameMap.empty d shuffledSources ["Port", "Bus", "Port"] BuildEnv.empty
          = (.ok r, NameMap.empty) := by
  intro d
  have hrequested : ∀ name, name ∈ ["Bus", "Port"] ↔ name ∈ ["Port", "Bus", "Port"] := by
    intro name
    simp only [List.mem_cons, List.not_mem_nil, or_false]
    tauto
  have hmapped : ∀ modpath,
      mappedPath? packageSources modpath = mappedPath? shuffledSources modpath := by
    intro modpath
    have hsources : (initialLoader NameMap.empty packageSources BuildEnv.empty).sources
        = (initialLoader NameMap.empty shuffledSources BuildEnv.empty).sources := by
      decide +kernel
    rw [← get?_sources_initialLoader NameMap.empty _ BuildEnv.empty, hsources,
      get?_sources_initialLoader]
  have hok : (discover NameMap.empty d packageSources ["Bus", "Port"] BuildEnv.empty).1.isOk
      = true := by decide +kernel
  obtain ⟨r, hr⟩ := exists_ok_of_isOk hok
  have hanswer : discover NameMap.empty d packageSources ["Bus", "Port"] BuildEnv.empty
      = (.ok r, NameMap.empty) := Prod.ext hr (discover_host ..)
  have hcongr := discover_congr NameMap.empty d BuildEnv.empty hrequested hmapped
  exact ⟨hrequested, hmapped, r, hanswer, hcongr.symm.trans hanswer⟩

/-! ### The files that are read -/

/-- The loader when the walk is over. What it has installed has not been unloaded yet. -/
def loaded (host : ModuleTable) (d : Disk) (sources : List ScriptSource)
    (requested : List String) (env : BuildEnv) : Loader :=
  (Discovery.outcome (Discovery.explore d requested)
    (Walk.start (initialLoader host sources env))).2.loader

/-- Loading does not change the mapping. -/
theorem get?_sources_loaded (modpath : String) :
    (loaded host d sources requested env).sources.get? modpath = mappedPath? sources modpath := by
  rw [loaded, (Discovery.loads_explore d requested (Walk.start _)).sources_eq]
  exact get?_sources_initialLoader host sources env modpath

/-- **A registry depends only on the manifests that have been loaded.** If discovery succeeds on one
disk, it finds the same registry on every disk on which the same mapped files exist and those of the
installed manifests, packages included, hold the same. -/
theorem discover_replays (h : (discover host d sources requested env).1 = .ok r)
    (hpresent : ∀ modpath path, mappedPath? sources modpath = some path →
      d'.present path = d.present path)
    (hread : ∀ path ∈ (loaded host d sources requested env).manifestFiles,
      d'.read path = d.read path) :
    discover host d' sources requested env = (.ok r, host) := by
  have hsees : (loaded host d sources requested env).SeesAlike d d' :=
    { present := fun modpath path hpath =>
        hpresent modpath path (get?_sources_loaded modpath ▸ hpath)
      read := hread }
  rw [discover_fst] at h
  obtain ⟨settings, hanswer, hassemble⟩ := except_bind_eq_ok_iff.mp h
  obtain ⟨-, hwalk⟩ := Discovery.replays_explore requested (Prod.ext hanswer rfl) hsees
  refine Prod.ext ?_ (discover_host host d' sources requested env)
  rw [discover_fst]
  dsimp only
  rw [hwalk]
  exact hassemble

/-- The unused manifest does not parse on the second disk. -/
theorem package_replays :
    let d := packageDisk "[[class]]\nname=\"Port\""
    let d' := packageDisk "class="
    ∃ r, (discover NameMap.empty d packageSources ["Bus"] BuildEnv.empty).1 = .ok r
      ∧ (∀ modpath path, mappedPath? packageSources modpath = some path →
        d'.present path = d.present path)
      ∧ (∀ path ∈ (loaded NameMap.empty d packageSources ["Bus"] BuildEnv.empty).manifestFiles,
        d'.read path = d.read path)
      ∧ discover NameMap.empty d' packageSources ["Bus"] BuildEnv.empty
        = (.ok r, NameMap.empty) := by
  intro d d'
  have hpresent : ∀ modpath path, mappedPath? packageSources modpath = some path →
      d'.present path = d.present path := by
    intro modpath path h
    have hall : ∀ s ∈ packageSources, d'.present s.srcpath = d.present s.srcpath := by
      decide +kernel
    obtain ⟨s, hs, rfl⟩ := exists_source_of_mappedPath? h
    exact hall s hs
  have hread : ∀ path ∈ (loaded NameMap.empty d packageSources ["Bus"]
      BuildEnv.empty).manifestFiles, d'.read path = d.read path := by
    decide +kernel
  have hok : (discover NameMap.empty d packageSources ["Bus"] BuildEnv.empty).1.isOk = true := by
    decide +kernel
  obtain ⟨r, hr⟩ := exists_ok_of_isOk hok
  exact ⟨r, hr, hpresent, hread, discover_replays hr hpresent hread⟩

end Registry

end SimMetadata

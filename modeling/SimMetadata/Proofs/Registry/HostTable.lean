import SimMetadata.Proofs.Discovery.Outcome
import SimMetadata.Registry.Assembly

/-!
# The host gets its table back

A loader borrows the table of modules of a host. Whatever calls are made on it, in whatever order,
and whatever happens to the files between them, the table is the one from before with what the
loader says it has installed, and unloading gives the table back. Discovery unloads its loader on
every way out, so runs of discovery over one host do not see each other.

## Main definitions

* `Loader.Call`, `Loader.runCalls`: a history of calls on an installed loader.
* `Registry.Run`, `Registry.discoverAll`: a history of runs of discovery over one host.

## Main results

* `Loader.Extends.runCalls`: the invariant along a history of calls.
* `Registry.discover_host`: discovery leaves the table of the host as it was.
* `Registry.host_table_restored`: all of this together.
-/

namespace SimMetadata

namespace Loader

/-- A call on an installed loader. The files may change between calls, so each load comes with
the disk as it is then. Dropping a loader unloads it. -/
inductive Call where
  | load (d : Disk) (name : String)
  | unload

/-- The loader after a call. -/
def perform (l : Loader) : Call → Loader
  | .load d name => (l.load d name).2
  | .unload => l.unload

/-- The loader after some calls. -/
def runCalls (l : Loader) (calls : List Call) : Loader := calls.foldl perform l

namespace Extends

variable {host : ModuleTable} {l : Loader}

theorem perform (h : Extends host l) (call : Call) : Extends host (l.perform call) := by
  cases call with
  | load d name => exact h.loads (loads_load l d name)
  | unload => exact h.unload

/-- **The invariant of a loader at work.** -/
theorem runCalls (h : Extends host l) (calls : List Call) : Extends host (l.runCalls calls) := by
  induction calls generalizing l with
  | nil => exact h
  | cons call calls ih => exact ih (h.perform call)

end Extends

theorem unload_unload (l : Loader) : l.unload.unload = l.unload := rfl

end Loader

namespace Registry

/-- Discovery leaves the table of the host as it was, whether it succeeds or fails. -/
theorem discover_host (host : ModuleTable) (d : Disk) (sources : List ScriptSource)
    (requested : List String) (env : BuildEnv) :
    (discover host d sources requested env).2 = host := by
  have hstart := Loader.Extends.install host (sources.map fun s => (s.modpath, s.srcpath)) env
  exact (hstart.loads (Discovery.loads_explore d requested (Walk.start _))).unload_host

/-- What a run of discovery is asked for. -/
structure Run where
  sources : List ScriptSource
  requested : List String
  env : BuildEnv

/-- The answers of some runs of discovery over one host, each of which finds the table that the
runs before it left, and the table in the end. -/
def discoverAll (host : ModuleTable) (d : Disk) :
    List Run → List (Except Failure Registry) × ModuleTable
  | [] => ([], host)
  | run :: runs =>
    let (answer, left) := discover host d run.sources run.requested run.env
    let (answers, last) := discoverAll left d runs
    (answer :: answers, last)

/-- Every run answers as if it were the first. -/
theorem discoverAll_eq (host : ModuleTable) (d : Disk) (runs : List Run) :
    discoverAll host d runs
      = (runs.map fun run => (discover host d run.sources run.requested run.env).1, host) := by
  induction runs with
  | nil => rfl
  | cons run runs ih =>
    rw [discoverAll]
    simp only [discover_host, ih, List.map_cons]

/-- **The host gets its table back.** After any calls on an installed loader, the names that it has
installed are new to the host, every entry of the host is as it was, and the table has one entry
for each name of the host and each installed name and no others; unloading restores the table, and
unloading once more changes nothing. So discovery leaves the table as it was on every way out, and
each of several runs over one host answers as if it were the first. -/
theorem host_table_restored (host : ModuleTable) :
    (∀ (mapping : List (String × Path)) (env : BuildEnv) (calls : List Loader.Call),
      let l := (Loader.install host mapping env).runCalls calls
      (∀ name, l.installed.contains name = true → host.contains name = false)
        ∧ (∀ name m, host.get? name = some m → l.host.get? name = some m)
        ∧ l.host.keys.Perm (host.keys ++ l.installed.keys)
        ∧ l.unload.host = host ∧ l.unload.unload = l.unload) ∧
    (∀ d sources requested env, (discover host d sources requested env).2 = host) ∧
    (∀ d runs, discoverAll host d runs
      = (runs.map fun run => (discover host d run.sources run.requested run.env).1, host)) := by
  refine ⟨fun mapping env calls => ?_, discover_host host, discoverAll_eq host⟩
  have h := (Loader.Extends.install host mapping env).runCalls calls
  refine ⟨fun name hi => ?_, fun name m hm => h.get?_host hm, h.keys_perm, h.unload_host,
    Loader.unload_unload _⟩
  exact NameMap.contains_eq_false_iff.mpr (h.new hi)

end Registry

end SimMetadata

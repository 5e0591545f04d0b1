import SimMetadata.Proofs.Registry.HostTable

/-!
# The rule of resolution

What a load answers and what it installs, for every state that the calls on an installed loader can
lead to. A name that the host has is answered from its table. Of the other names some do not
resolve, and a load of such a name changes nothing. A load of any other name goes through the name
and the packages around it, up to the first that the host has or that does not resolve, and installs
them from there on, the outermost first. A manifest that is at fault ends the load, and what is
around it stays installed.

## Main definitions

* `Loader.Unresolvable`: nothing stands for the name, unless the host has it.
* `Loader.Provides`: what stands for the other names, or the fault of the manifest.
* `Loader.pending`, `Loader.pendingOf`: the names that a load goes through.
* `Loader.Installs`: some names are installed, and nothing else changes.

## Main results

* `Loader.loadChain_installs`, `Loader.loadChain_fails`: what a load installs when it succeeds and
  when it fails.
* `Loader.NoneReserved.runCalls`: no reserved name is ever installed.
* `Loader.load_runCalls`: what has been loaded is answered until it is unloaded.
* `Loader.resolution_rule`: all of this together.
-/

namespace SimMetadata

namespace Loader

variable {l l' : Loader} {d : Disk} {name : String} {names : List String}

/-! ### Names that resolve and what stands for them -/

/-- The name of the reserved namespace, or a name in it. -/
def Reserved (name : String) : Prop :=
  name = reservedNamespace ∨ (reservedNamespace ++ ".").toList <+: name.toList

/-- Nothing stands for the name, unless the host has it: it is reserved, or it is neither built in
nor mapped to a file that exists. -/
def Unresolvable (sources : NameMap Path) (d : Disk) (name : String) : Prop :=
  Reserved name
    ∨ name ≠ envModule ∧ name ≠ objectsModule
      ∧ ∀ path, sources.get? name = some path → d.present path = false

/-- What stands for a name that resolves, or the fault of the manifest that it is mapped to. -/
inductive Provides (sources : NameMap Path) (env : BuildEnv) (d : Disk) :
    String → Except Failure Module → Prop where
  | env : Provides sources env d envModule (.ok (.env env))
  | package : Provides sources env d objectsModule (.ok .package)
  | manifest {name : String} {path : Path} {m : Manifest} (henv : name ≠ envModule)
    (hobjects : name ≠ objectsModule) (hpath : sources.get? name = some path)
    (hm : Manifest.load? d path = .ok m) : Provides sources env d name (.ok (.manifest path m))
  | fault {name : String} {path : Path} {f : Failure} (henv : name ≠ envModule)
    (hobjects : name ≠ objectsModule) (hpath : sources.get? name = some path)
    (hf : Manifest.load? d path = .error f) : Provides sources env d name (.error f)

theorem isReserved_iff : isReserved name = true ↔ Reserved name := by
  simp [isReserved, Reserved]

theorem resolve?_eq_none_iff_unresolvable :
    l.resolve? d name = none ↔ Unresolvable l.sources d name := by
  rw [resolve?_eq_none_iff, isReserved_iff, Unresolvable]

/-- What a name resolves to is what stands for it. -/
theorem provides_moduleOf {r : Resolution} (h : l.resolve? d name = some r) :
    Provides l.sources l.env d name (l.moduleOf d r) := by
  rw [resolve?] at h
  split at h
  · cases h
  split at h
  · next hname =>
    cases h
    rw [hname]
    exact .env
  split at h
  · next hname =>
    cases h
    rw [hname]
    exact .package
  split at h
  · next henv hobjects _ path hpath =>
    split at h
    · cases h
      rw [moduleOf]
      cases hm : Manifest.load? d path with
      | error f => exact .fault henv hobjects hpath hm
      | ok m => exact .manifest henv hobjects hpath hm
    · cases h
  · cases h

/-! ### What a load installs -/

/-- Of some names, each of which has the rest as its packages, those that a load goes through: up to
the first that the host has or that does not resolve. -/
def pending (l : Loader) (d : Disk) : List String → List String
  | [] => []
  | name :: around =>
    if l.host.contains name || (l.resolve? d name).isNone then []
    else name :: pending l d around

/-- The names that a load goes through. -/
def pendingOf (l : Loader) (d : Disk) (name : String) : List String :=
  l.pending d (name :: packages name)

/-- The names are installed, each with what stands for it, and nothing else changes. -/
structure Installs (l : Loader) (d : Disk) (names : List String) (l' : Loader) : Prop where
  installed : ∀ n, l'.installed.contains n = true ↔ n ∈ names ∨ l.installed.contains n = true
  provided : ∀ n ∈ names, ∃ m, Provides l.sources l.env d n (.ok m) ∧ l'.host.get? n = some m
  other : ∀ n, n ∉ names → l'.host.get? n = l.host.get? n

theorem Installs.refl (l : Loader) (d : Disk) : Installs l d [] l where
  installed n := by simp
  provided n h := by cases h
  other n _ := rfl

theorem Installs.record {m : Module} (h : Installs l d names l')
    (hm : Provides l.sources l.env d name (.ok m)) :
    Installs l d (name :: names) (l'.record name m) where
  installed n := by
    rw [Loader.record, NameSet.add, NameMap.contains_insert]
    simp [h.installed, or_assoc]
  provided n hn := by
    rw [Loader.record, NameMap.get?_insert]
    split
    · next heq => exact ⟨m, heq ▸ hm, rfl⟩
    · next hne => exact h.provided n ((List.mem_cons.mp hn).resolve_left hne)
  other n hn := by
    rw [List.mem_cons, not_or] at hn
    rw [Loader.record, NameMap.get?_insert_of_ne _ hn.1, h.other n hn.2]

/-- **A load that succeeds** installs all that it goes through. -/
theorem loadChain_installs {found : Option Module} (h : loadChain d names l = (.ok found, l')) :
    Installs l d (l.pending d names) l' := by
  induction names generalizing found l' with
  | nil =>
    cases h
    exact .refl l d
  | cons name around ih =>
    rcases loadChain_cons_eq_ok_iff.mp h with ⟨m, hm, rfl, rfl⟩ | ⟨hnone, hr, rfl, rfl⟩
      | ⟨r, a, l₂, m, hnone, hr, hbefore, hm, rfl, rfl⟩
    · rw [pending, if_pos (by simp [NameMap.contains, hm])]
      exact .refl _ d
    · rw [pending, if_pos (by simp [hr])]
      exact .refl _ d
    · have hloads := loads_loadChain d around l
      rw [hbefore] at hloads
      rw [hloads.moduleOf_eq] at hm
      rw [pending, if_neg (by simp [NameMap.contains, hnone, hr])]
      exact (ih hbefore).record (hm ▸ provides_moduleOf hr)

/-- **A load that fails** has come to a manifest at fault, and has installed what is around it. -/
theorem loadChain_fails {f : Failure} (h : loadChain d names l = (.error f, l')) :
    ∃ inner culprit around, l.pending d names = inner ++ culprit :: around
      ∧ Provides l.sources l.env d culprit (.error f) ∧ Installs l d around l' := by
  induction names generalizing l' with
  | nil => cases h
  | cons name around ih =>
    rw [loadChain] at h
    split at h
    · cases h
    · next hnone =>
      split at h
      · cases h
      · next r hr =>
        rw [pending, if_neg (by simp [NameMap.contains, hnone, hr])]
        split at h
        · next f' l₂ hbefore =>
          cases h
          obtain ⟨inner, culprit, outer, hpending, hfault, hinstalls⟩ := ih hbefore
          exact ⟨name :: inner, culprit, outer, by rw [hpending, List.cons_append], hfault,
            hinstalls⟩
        · next a l₂ hbefore =>
          have hloads := loads_loadChain d around l
          rw [hbefore] at hloads
          split at h
          · next f' hf =>
            cases h
            rw [hloads.moduleOf_eq] at hf
            exact ⟨[], name, l.pending d around, rfl, hf ▸ provides_moduleOf hr,
              loadChain_installs hbefore⟩
          · cases h

/-- What a load goes through is new to the host and resolves. -/
theorem mem_pending {n : String} (h : n ∈ l.pending d names) :
    n ∈ names ∧ l.host.get? n = none ∧ ¬ Unresolvable l.sources d n := by
  induction names with
  | nil => cases h
  | cons name around ih =>
    rw [pending] at h
    split at h
    · cases h
    · next hgoes =>
      rcases List.mem_cons.mp h with rfl | h
      · rw [Bool.or_eq_true, not_or] at hgoes
        refine ⟨List.mem_cons_self, ?_, fun hun => ?_⟩
        · simpa [NameMap.contains] using hgoes.1
        · simp [resolve?_eq_none_iff_unresolvable.mpr hun] at hgoes
      · obtain ⟨hmem, hrest⟩ := ih h
        exact ⟨List.mem_cons_of_mem _ hmem, hrest⟩

theorem self_mem_pendingOf (hnone : l.host.get? name = none)
    (hresolves : ¬ Unresolvable l.sources d name) : name ∈ l.pendingOf d name := by
  obtain ⟨r, hr⟩ : ∃ r, l.resolve? d name = some r :=
    Option.ne_none_iff_exists'.mp (mt resolve?_eq_none_iff_unresolvable.mp hresolves)
  rw [pendingOf, pending, if_neg (by simp [NameMap.contains, hnone, hr])]
  exact List.mem_cons_self

/-- Whatever a load answers, it has installed some of what it goes through. -/
theorem exists_installs_load (l : Loader) (d : Disk) (name : String) :
    ∃ names, names ⊆ l.pendingOf d name ∧ Installs l d names (l.load d name).2 := by
  rcases h : l.load d name with ⟨f | found, l'⟩
  · obtain ⟨inner, culprit, around, hpending, -, hinstalls⟩ := loadChain_fails h
    refine ⟨around, ?_, hinstalls⟩
    rw [pendingOf, hpending]
    intro n hn
    exact List.mem_append_right _ (List.mem_cons_of_mem _ hn)
  · exact ⟨_, List.Subset.refl _, loadChain_installs h⟩

/-! ### The cases of a load -/

theorem load_of_host {m : Module} (h : l.host.get? name = some m) :
    l.load d name = (.ok (some m), l) := by
  rw [load, loadChain, h]

/-- **Nothing is answered** exactly for the names that do not resolve, and then nothing changes. -/
theorem load_eq_none_iff (hnone : l.host.get? name = none) :
    l.load d name = (.ok none, l') ↔ Unresolvable l.sources d name ∧ l' = l := by
  rw [load, loadChain_cons_eq_ok_iff, ← resolve?_eq_none_iff_unresolvable]
  simp [hnone]

/-- **A name that resolves** is installed, or a manifest is at fault: its own, or that of a package
that is loaded before. -/
theorem load_of_resolves (hnone : l.host.get? name = none)
    (hresolves : ¬ Unresolvable l.sources d name) :
    (∃ m l', l.load d name = (.ok (some m), l') ∧ Provides l.sources l.env d name (.ok m)
      ∧ l'.host.get? name = some m ∧ l'.installed.contains name = true
      ∧ Installs l d (l.pendingOf d name) l')
    ∨ ∃ f l' inner culprit around, l.load d name = (.error f, l')
      ∧ l.pendingOf d name = inner ++ culprit :: around ∧ culprit ∈ name :: packages name
      ∧ Provides l.sources l.env d culprit (.error f) ∧ Installs l d around l' := by
  rcases h : l.load d name with ⟨f | _ | m, l'⟩
  · obtain ⟨inner, culprit, around, hpending, hfault, hinstalls⟩ := loadChain_fails h
    have hculprit : culprit ∈ l.pendingOf d name := by
      rw [pendingOf, hpending]
      exact List.mem_append_right _ List.mem_cons_self
    exact .inr ⟨f, l', inner, culprit, around, rfl, hpending, (mem_pending hculprit).1, hfault,
      hinstalls⟩
  · exact absurd ((load_eq_none_iff hnone).mp h).1 hresolves
  · have hinstalls : Installs l d (l.pendingOf d name) l' := loadChain_installs h
    have hmem := self_mem_pendingOf hnone hresolves
    have hget := (load_ok h).2
    obtain ⟨m', hm', hget'⟩ := hinstalls.provided name hmem
    cases hget.symm.trans hget'
    exact .inl ⟨m, l', rfl, hm', hget, (hinstalls.installed name).mpr (.inl hmem), hinstalls⟩

/-! ### A history of calls -/

theorem sources_perform (l : Loader) (call : Call) : (l.perform call).sources = l.sources := by
  cases call with
  | load d name => exact (loads_load l d name).sources_eq
  | unload => rfl

theorem sources_runCalls (l : Loader) (calls : List Call) :
    (l.runCalls calls).sources = l.sources := by
  induction calls generalizing l with
  | nil => rfl
  | cons call calls ih => exact (ih (l.perform call)).trans (sources_perform l call)

theorem env_perform (l : Loader) (call : Call) : (l.perform call).env = l.env := by
  cases call with
  | load d name => exact (loads_load l d name).env_eq
  | unload => rfl

theorem env_runCalls (l : Loader) (calls : List Call) : (l.runCalls calls).env = l.env := by
  induction calls generalizing l with
  | nil => rfl
  | cons call calls ih => exact (ih (l.perform call)).trans (env_perform l call)

/-- No reserved name is installed. -/
def NoneReserved (l : Loader) : Prop := ∀ n, l.installed.contains n = true → ¬ Reserved n

theorem NoneReserved.perform (h : NoneReserved l) (call : Call) :
    NoneReserved (l.perform call) := by
  intro n hn
  cases call with
  | load d name =>
    obtain ⟨names, hsub, hinstalls⟩ := exists_installs_load l d name
    rcases (hinstalls.installed n).mp hn with hnew | hold
    · exact fun hreserved => (mem_pending (hsub hnew)).2.2 (.inl hreserved)
    · exact h n hold
  | unload => simp [Loader.perform, Loader.unload] at hn

/-- **No reserved name is ever installed.** -/
theorem NoneReserved.runCalls (h : NoneReserved l) (calls : List Call) :
    NoneReserved (l.runCalls calls) := by
  induction calls generalizing l with
  | nil => exact h
  | cons call calls ih => exact ih (h.perform call)

/-- What the host has, it has until the loader unloads. -/
theorem get?_host_runCalls {m : Module} {calls : List Call} (h : l.host.get? name = some m)
    (hcalls : Call.unload ∉ calls) : (l.runCalls calls).host.get? name = some m := by
  induction calls generalizing l with
  | nil => exact h
  | cons call calls ih =>
    rw [List.mem_cons, not_or] at hcalls
    cases call with
    | load d other => exact ih ((loads_load l d other).get?_host h) hcalls.2
    | unload => exact absurd rfl hcalls.1

/-- **What has been loaded is answered until it is unloaded**, whatever happens to the files. -/
theorem load_runCalls {m : Module} {calls : List Call} (h : l.load d name = (.ok (some m), l'))
    (hcalls : Call.unload ∉ calls) (d' : Disk) :
    (l'.runCalls calls).load d' name = (.ok (some m), l'.runCalls calls) :=
  load_of_host (get?_host_runCalls (load_ok h).2 hcalls)

/-- **The rule of resolution**, in every state that calls on an installed loader lead to and for
every state of the files. An entry of the host is answered and nothing changes. Of the other names,
nothing is answered exactly for those that do not resolve, and then nothing changes either; each
other one is installed and answered, after the packages around it, unless its own manifest or that
of such a package cannot be read or does not parse. No reserved name is ever installed, and what
has been loaded is answered until it is unloaded. -/
theorem resolution_rule (host : ModuleTable) (mapping : List (String × Path)) (env : BuildEnv)
    (calls : List Call) :
    let l := (Loader.install host mapping env).runCalls calls
    l.sources = NameMap.ofList mapping ∧ l.env = env
      ∧ (∀ n, l.installed.contains n = true → ¬ Reserved n)
      ∧ ∀ d name,
        (∀ m, l.host.get? name = some m → l.load d name = (.ok (some m), l))
        ∧ (l.host.get? name = none →
          (∀ l', l.load d name = (.ok none, l') ↔ Unresolvable l.sources d name ∧ l' = l)
          ∧ (¬ Unresolvable l.sources d name →
            (∃ m l', l.load d name = (.ok (some m), l') ∧ Provides l.sources l.env d name (.ok m)
              ∧ l'.host.get? name = some m ∧ l'.installed.contains name = true
              ∧ Installs l d (l.pendingOf d name) l')
            ∨ ∃ f l' inner culprit around, l.load d name = (.error f, l')
              ∧ l.pendingOf d name = inner ++ culprit :: around ∧ culprit ∈ name :: packages name
              ∧ Provides l.sources l.env d culprit (.error f) ∧ Installs l d around l'))
        ∧ ∀ m l', l.load d name = (.ok (some m), l') →
          ∀ later, Call.unload ∉ later → ∀ d',
            (l'.runCalls later).load d' name = (.ok (some m), l'.runCalls later) := by
  intro l
  have hstart : NoneReserved (Loader.install host mapping env) := by
    intro n hn
    simp [Loader.install] at hn
  refine ⟨sources_runCalls _ calls, env_runCalls _ calls, hstart.runCalls calls, ?_⟩
  intro d name
  refine ⟨fun m hm => load_of_host hm, fun hnone => ⟨fun l' => load_eq_none_iff hnone, ?_⟩, ?_⟩
  · exact load_of_resolves hnone
  · intro m l' hload later hlater d'
    exact load_runCalls hload hlater d'

end Loader

end SimMetadata

import SimMetadata.Loader
import SimMetadata.Proofs.NameMap

/-!
# What loading does to the host

`Loader.Loads` says all that loading can do to a loader: it records modules, each under a name
that the host did not have and that stands for it. Everything else about loading is read off this
relation: what a name stands for never changes while the disk stays as it is, and the table of the
host is always the table from before with what has been installed.

## Main definitions

* `Loader.standsFor?`: the module that a name stands for, whether or not it has been loaded.
* `Loader.Loads`: what loading does.
* `Loader.Extends`: the table of the host is a given one with what has been installed.

## Main results

* `Loader.load_ok`: loading answers with what the name stands for.
* `Loader.Loads.standsFor?_eq`: loading changes nothing about what names stand for.
* `Loader.Extends.unload_host`: unloading gives back the table from before.

## Implementation notes

A load that fails has recorded the packages that were loaded before the failure, so `Loads` and
`Extends` are stated for the loader that is left behind, whatever the answer was.
-/

namespace SimMetadata

namespace Loader

variable {d : Disk} {l l₁ l₂ : Loader} {name other : String}

/-! ### What names stand for -/

/-- The module that a name stands for: the entry of the host, or else what the name resolves to. -/
def standsFor? (l : Loader) (d : Disk) (name : String) : Except Failure (Option Module) :=
  match l.host.get? name with
  | some m => .ok (some m)
  | none =>
    match l.resolve? d name with
    | none => .ok none
    | some resolution => (l.moduleOf d resolution).map some

/-- The manifest that a name stands for, if it stands for one. -/
def manifest? (l : Loader) (d : Disk) (name : String) : Option Manifest :=
  match l.standsFor? d name with
  | .ok (some (.manifest _ m)) => some m
  | _ => none

theorem standsFor?_of_host {m : Module} (h : l.host.get? name = some m) :
    l.standsFor? d name = .ok (some m) := by
  rw [standsFor?, h]

theorem standsFor?_of_resolve? {r : Resolution} (h : l.host.get? name = none)
    (hr : l.resolve? d name = some r) :
    l.standsFor? d name = (l.moduleOf d r).map some := by
  rw [standsFor?, h, hr]

theorem manifest?_eq_some_iff {m : Manifest} :
    l.manifest? d name = some m ↔ ∃ p, l.standsFor? d name = .ok (some (.manifest p m)) := by
  rw [manifest?]
  constructor
  · intro h
    split at h
    · next p mf hs => cases h; exact ⟨p, hs⟩
    · cases h
  · rintro ⟨p, hs⟩
    rw [hs]

/-- The ways in which a name resolves that the host does not have. -/
theorem resolve?_cases {r : Resolution} (h : l.resolve? d name = some r) :
    (name = envModule ∧ r = .env) ∨ (name = objectsModule ∧ r = .package)
      ∨ ∃ path, l.sources.get? name = some path ∧ r = .source path := by
  rw [resolve?] at h
  split at h
  · cases h
  split at h
  · next hname =>
    cases h
    exact .inl ⟨hname, rfl⟩
  split at h
  · next hname =>
    cases h
    exact .inr (.inl ⟨hname, rfl⟩)
  split at h
  · next path hpath =>
    split at h
    · cases h
      exact .inr (.inr ⟨path, hpath, rfl⟩)
    · cases h
  · cases h

/-- The names that do not resolve: the reserved ones, and of the others those that are not built in
and are not mapped to a file that exists. -/
theorem resolve?_eq_none_iff :
    l.resolve? d name = none ↔ isReserved name = true ∨ name ≠ envModule ∧ name ≠ objectsModule
      ∧ ∀ path, l.sources.get? name = some path → d.present path = false := by
  rw [resolve?]
  split
  · next hreserved => simp [hreserved]
  · next hreserved =>
    split
    · next hname => simp [hreserved, ← hname]
    · next henv =>
      split
      · next hname => simp [hreserved, ← hname]
      · next hobjects =>
        cases hpath : l.sources.get? name with
        | none => simp [henv, hobjects]
        | some path => simp [hreserved, henv, hobjects]

/-- A module is missing only because its manifest cannot be read or does not parse. -/
theorem moduleOf_error {r : Resolution} {f : Failure} (h : l.moduleOf d r = .error f) :
    (∃ path, f = .manifest path) ∨ ∃ path fault, f = .io path fault := by
  cases r with
  | env => cases h
  | package => cases h
  | source path =>
    rcases except_bind_eq_error_iff.mp h with h | ⟨m, -, h⟩
    · rw [Manifest.load?] at h
      split at h
      · next fault _ =>
        cases h
        exact .inr ⟨path, fault, rfl⟩
      · rw [Manifest.ofToml?] at h
        split at h
        · cases h
          exact .inl ⟨path, rfl⟩
        · cases h
    · cases h

/-- A name that stands for a module is among those that can resolve. -/
theorem mem_resolvable {m : Module} (h : l.standsFor? d name = .ok (some m)) :
    name ∈ l.resolvable.keys := by
  rw [resolvable, NameMap.mem_keys_ofNames]
  rw [standsFor?] at h
  cases hh : l.host.get? name with
  | some m' =>
    have hk : name ∈ l.host.keys := NameMap.mem_keys_of_mem_entries (NameMap.get?_eq_some_iff.mp hh)
    simp [hk]
  | none =>
    rw [hh] at h
    cases hr : l.resolve? d name with
    | none => rw [hr] at h; cases h
    | some r =>
      rcases resolve?_cases hr with ⟨rfl, -⟩ | ⟨rfl, -⟩ | ⟨path, hpath, -⟩
      · simp
      · simp
      · have hk : name ∈ l.sources.keys :=
          NameMap.mem_keys_of_mem_entries (NameMap.get?_eq_some_iff.mp hpath)
        simp [hk]

/-! ### Recording a module -/

theorem resolve?_record (l : Loader) (d : Disk) (name other : String) (m : Module) :
    (l.record name m).resolve? d other = l.resolve? d other := rfl

theorem moduleOf_record (l : Loader) (d : Disk) (name : String) (m : Module) (r : Resolution) :
    (l.record name m).moduleOf d r = l.moduleOf d r := by
  cases r <;> rfl

/-- Recording the module that a name stands for changes nothing about what names stand for. -/
theorem standsFor?_record {m : Module} (h : l.standsFor? d name = .ok (some m)) :
    (l.record name m).standsFor? d = l.standsFor? d := by
  funext other
  by_cases hn : other = name
  · subst hn
    rw [h]
    exact standsFor?_of_host (NameMap.get?_insert_self _ _ _)
  · have hget : (l.record name m).host.get? other = l.host.get? other :=
      NameMap.get?_insert_of_ne _ hn _
    simp only [standsFor?, hget, resolve?_record, moduleOf_record]

/-! ### All that loading can do -/

/-- What loading does to a loader: it records modules under names that stand for them and that
the host did not have. -/
inductive Loads (d : Disk) (l : Loader) : Loader → Prop where
  /-- Nothing has been loaded. -/
  | refl : Loads d l l
  /-- One more module has been recorded. -/
  | record {l' : Loader} {name : String} {m : Module} (before : Loads d l l')
      (new : l.host.get? name = none) (stands : l'.standsFor? d name = .ok (some m)) :
      Loads d l (l'.record name m)

namespace Loads

theorem env_eq (h : Loads d l l₁) : l₁.env = l.env := by
  induction h with
  | refl => rfl
  | record _ _ _ ih => exact ih

theorem sources_eq (h : Loads d l l₁) : l₁.sources = l.sources := by
  induction h with
  | refl => rfl
  | record _ _ _ ih => exact ih

theorem moduleOf_eq (h : Loads d l l₁) (r : Resolution) : l₁.moduleOf d r = l.moduleOf d r := by
  cases r with
  | env => rw [moduleOf, moduleOf, h.env_eq]
  | package => rfl
  | source path => rfl

/-- **Loading changes nothing about what names stand for.** -/
theorem standsFor?_eq (h : Loads d l l₁) : l₁.standsFor? d = l.standsFor? d := by
  induction h with
  | refl => rfl
  | record _ _ hs ih => rw [standsFor?_record hs, ih]

/-- The table of the host only grows. -/
theorem get?_host {m : Module} (h : Loads d l l₁) (hm : l.host.get? name = some m) :
    l₁.host.get? name = some m := by
  induction h with
  | refl => exact hm
  | record _ hnew _ ih =>
    rw [Loader.record, NameMap.get?_insert_of_ne, ih]
    rintro rfl
    rw [hm] at hnew
    cases hnew

theorem trans (h₁ : Loads d l l₁) (h₂ : Loads d l₁ l₂) : Loads d l l₂ := by
  induction h₂ with
  | refl => exact h₁
  | record _ hnew hs ih =>
    refine ih.record ?_ hs
    refine Option.eq_none_iff_forall_ne_some.mpr fun m hm => ?_
    rw [h₁.get?_host hm] at hnew
    cases hnew

end Loads

/-! ### The loop over the packages -/

theorem loads_loadChain (d : Disk) (names : List String) (l : Loader) :
    Loads d l (loadChain d names l).2 := by
  induction names generalizing l with
  | nil => exact .refl
  | cons name around ih =>
    rw [loadChain]
    split
    · exact .refl
    · next hnone =>
      split
      · exact .refl
      · next r hr =>
        have hl := ih l
        split
        · next f l' heq => rw [heq] at hl; exact hl
        · next a l' heq =>
          rw [heq] at hl
          split
          · exact hl
          · next m hm =>
            refine hl.record hnone ?_
            rw [hl.standsFor?_eq, standsFor?_of_resolve? hnone hr, ← hl.moduleOf_eq, hm]
            rfl

theorem loads_load (l : Loader) (d : Disk) (name : String) : Loads d l (l.load d name).2 :=
  loads_loadChain d _ l

/-- The ways in which a load succeeds: the host has the module, or nothing stands for the name, or
the module is recorded after the packages around it have been loaded. -/
theorem loadChain_cons_eq_ok_iff {around : List String} {found : Option Module} :
    loadChain d (name :: around) l = (.ok found, l₁) ↔
      (∃ m, l.host.get? name = some m ∧ found = some m ∧ l₁ = l)
        ∨ (l.host.get? name = none ∧ l.resolve? d name = none ∧ found = none ∧ l₁ = l)
        ∨ ∃ r a l₂ m, l.host.get? name = none ∧ l.resolve? d name = some r
          ∧ loadChain d around l = (.ok a, l₂) ∧ l₂.moduleOf d r = .ok m
          ∧ found = some m ∧ l₁ = l₂.record name m := by
  rw [loadChain]
  cases hhost : l.host.get? name with
  | some m => simp [eq_comm]
  | none =>
    cases hr : l.resolve? d name with
    | none => simp [eq_comm]
    | some r =>
      rcases hbefore : loadChain d around l with ⟨f | a, l₂⟩
      · simp
      · cases hm : l₂.moduleOf d r <;> simp [hm, eq_comm]

/-- **Loading answers with what the name stands for**, and what it answers is in the table of the
host from then on. -/
theorem load_ok {found : Option Module} (h : l.load d name = (.ok found, l₁)) :
    l.standsFor? d name = .ok found ∧ l₁.host.get? name = found := by
  rcases loadChain_cons_eq_ok_iff.mp h with ⟨m, hm, rfl, rfl⟩ | ⟨hnone, hr, rfl, rfl⟩
    | ⟨r, a, l₂, m, hnone, hr, hbefore, hm, rfl, rfl⟩
  · exact ⟨standsFor?_of_host hm, hm⟩
  · rw [standsFor?, hnone, hr]
    exact ⟨rfl, rfl⟩
  · have hl := loads_loadChain d (packages name) l
    rw [hbefore] at hl
    rw [standsFor?_of_resolve? hnone hr, ← hl.moduleOf_eq, hm]
    exact ⟨rfl, NameMap.get?_insert_self _ _ _⟩

/-- **Loading fails only on a manifest**, which cannot be read or does not parse. -/
theorem loadChain_error {names : List String} {f : Failure}
    (h : loadChain d names l = (.error f, l₁)) :
    (∃ path, f = .manifest path) ∨ ∃ path fault, f = .io path fault := by
  induction names generalizing l₁ with
  | nil => cases h
  | cons name around ih =>
    rw [loadChain] at h
    split at h
    · cases h
    · split at h
      · cases h
      · next r _ =>
        split at h
        · next f' l' heq =>
          cases h
          exact ih heq
        · next a l' heq =>
          split at h
          · next f' hf =>
            cases h
            exact moduleOf_error hf
          · cases h

/-! ### The table of the host -/

/-- The table of the host is the given one with what the loader has installed. -/
structure Extends (host : ModuleTable) (l : Loader) : Prop where
  /-- What is installed was not in the table before. -/
  new : ∀ {name}, l.installed.contains name = true → host.get? name = none
  /-- What is installed is in the table. -/
  present : ∀ {name}, l.installed.contains name = true → l.host.contains name = true
  /-- Every other entry is as it was. -/
  other : ∀ {name}, l.installed.contains name = false → l.host.get? name = host.get? name

namespace Extends

variable {host : ModuleTable}

theorem install (host : ModuleTable) (mapping : List (String × Path)) (env : BuildEnv) :
    Extends host (Loader.install host mapping env) where
  new h := by simp [Loader.install] at h
  present h := by simp [Loader.install] at h
  other _ := rfl

/-- Nothing of the given table is lost or replaced. -/
theorem get?_host (h : Extends host l) {m : Module} (hm : host.get? name = some m) :
    l.host.get? name = some m := by
  cases hi : l.installed.contains name with
  | true => rw [h.new hi] at hm; cases hm
  | false => rw [h.other hi, hm]

theorem record (h : Extends host l) (m : Module) (hnew : host.get? name = none) :
    Extends host (l.record name m) := by
  have hins : ∀ n, (l.record name m).installed.contains n
      = (decide (n = name) || l.installed.contains n) := fun n => NameMap.contains_insert _ _ _ _
  have hhost : ∀ n, (l.record name m).host.get? n = if n = name then some m else l.host.get? n :=
    fun n => NameMap.get?_insert _ _ _ _
  refine ⟨fun {n} hn => ?_, fun {n} hn => ?_, fun {n} hn => ?_⟩
  · rw [hins, Bool.or_eq_true, decide_eq_true_eq] at hn
    rcases hn with rfl | hn
    · exact hnew
    · exact h.new hn
  · rw [hins, Bool.or_eq_true, decide_eq_true_eq] at hn
    rw [NameMap.contains, hhost]
    split
    · rfl
    · next hne => exact h.present (hn.resolve_left hne)
  · rw [hins, Bool.or_eq_false_iff, decide_eq_false_iff_not] at hn
    rw [hhost, if_neg hn.1, h.other hn.2]

theorem loads (h : Extends host l) (hl : Loads d l l₁) : Extends host l₁ := by
  induction hl with
  | refl => exact h
  | record _ hnew _ ih =>
    refine ih.record _ ?_
    refine Option.eq_none_iff_forall_ne_some.mpr fun m hm => ?_
    rw [h.get?_host hm] at hnew
    cases hnew

/-- **Unloading gives back the table from before.** -/
theorem unload_host (h : Extends host l) : l.unload.host = host := by
  refine NameMap.ext_get? fun name => ?_
  rw [unload, NameMap.get?_eraseAll]
  split
  · next hk => rw [h.new (NameMap.contains_iff_mem_keys.mpr hk)]
  · next hk =>
    have hi : l.installed.contains name = false :=
      Bool.eq_false_iff.mpr fun hi => hk (NameMap.contains_iff_mem_keys.mp hi)
    exact h.other hi

theorem unload (h : Extends host l) : Extends host l.unload where
  new hn := by simp [Loader.unload] at hn
  present hn := by simp [Loader.unload] at hn
  other _ := by rw [h.unload_host]

/-- The names in the table are the ones from before and the installed ones, each once. -/
theorem keys_perm (h : Extends host l) : l.host.keys.Perm (host.keys ++ l.installed.keys) := by
  have hdisjoint : host.keys.Disjoint l.installed.keys := by
    intro n hn hi
    rw [← NameMap.contains_iff_mem_keys] at hn hi
    rw [NameMap.contains, h.new hi] at hn
    cases hn
  refine (List.perm_ext_iff_of_nodup l.host.keys_nodup
    (host.keys_nodup.append l.installed.keys_nodup hdisjoint)).mpr fun n => ?_
  rw [List.mem_append]
  simp only [← NameMap.contains_iff_mem_keys]
  cases hi : l.installed.contains n with
  | true => simp [h.present hi]
  | false => simp [NameMap.contains, h.other hi]

end Extends

end Loader

end SimMetadata

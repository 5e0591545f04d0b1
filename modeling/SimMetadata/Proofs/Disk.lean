import SimMetadata.Disk
import SimMetadata.Proofs.Except

/-!
# What a write leaves alone

There are no links, so where a path leads does not depend on the disk: if it can be followed at all,
it leads to its destination. Whatever is written, directories stay directories and a file is only
made or replaced at the destination of the path that is written to. So a path that leads to a file
keeps leading to the same file as long as nothing is written to its destination, and files that are
written one after the other to different destinations are all there in the end.

## Main definitions

* `Disk.destination`: where a path leads.
* `Disk.Writes`: no files but those at some locations have been made, replaced or removed.
* `Disk.Saved`: some files have been written one after the other.

## Main results

* `Disk.Writes.find`: a file that is not written to is found as before.
* `Disk.writes_save`, `Disk.find_of_save`: what writing a file does.
* `Disk.exists_save`: whether it succeeds does not depend on what is written.
* `Disk.Saved.find`: files at different destinations are found in the end.
-/

namespace SimMetadata.Disk

variable {d d' d'' : Disk} {p q : Path} {c : Content} {loc here : Location}
  {locs more : List Location} {s : Path.Component} {rest cs : List Path.Component}

/-! ### Where paths lead -/

/-- Where a component leads from a location. -/
def step (here : Location) : Path.Component → Location
  | .root => []
  | .name n => here ++ [n]
  | .up => here.dropLast
  | .here => here

/-- Where a path leads if it can be followed. -/
def destination (d : Disk) (p : Path) : Location := p.components.foldl step d.home

/-- Whether a component can be followed from a location: but for the top, that is a directory in
which the name is looked up. -/
def Passable (d : Disk) (here : Location) (s : Path.Component) : Prop :=
  s = .root ∨ d.node? here = some .directory ∧ ∀ n, s = .name n → n.utf8ByteSize ≤ nameLimit

/-- Components are followed one by one. -/
theorem walk_cons_eq_ok_iff :
    d.walk here (s :: rest) = .ok loc ↔
      d.Passable here s ∧ d.walk (step here s) rest = .ok loc := by
  cases s with
  | root => simp [walk, Passable, step]
  | name n =>
    cases hnode : d.node? here with
    | none => simp [walk, Passable, hnode]
    | some node =>
      cases node with
      | file c => simp [walk, Passable, hnode]
      | directory =>
        by_cases hn : nameLimit < n.utf8ByteSize
        · simp [walk, Passable, hnode, hn, Nat.not_le_of_lt hn]
        · simp [walk, Passable, hnode, hn, step, Nat.le_of_not_lt hn]
  | up | here =>
    cases hnode : d.node? here with
    | none => simp [walk, Passable, hnode]
    | some node => cases node <;> simp [walk, Passable, hnode, step]

theorem walk_ok (h : d.walk here cs = .ok loc) : cs.foldl step here = loc := by
  induction cs generalizing here with
  | nil => exact Except.ok.inj h
  | cons s rest ih => exact ih (walk_cons_eq_ok_iff.mp h).2

theorem locate_eq_ok_iff :
    d.locate p = .ok loc ↔ acceptPath p = .ok () ∧ d.walk d.home p.components = .ok loc := by
  rw [locate, except_bind_eq_ok_iff]
  constructor
  · rintro ⟨⟨⟩, haccept, hwalk⟩
    exact ⟨haccept, hwalk⟩
  · rintro ⟨haccept, hwalk⟩
    exact ⟨(), haccept, hwalk⟩

/-- **A path leads to its destination.** -/
theorem locate_ok (h : d.locate p = .ok loc) : loc = d.destination p :=
  (walk_ok (locate_eq_ok_iff.mp h).2).symm

theorem find_file_iff :
    d.find p = .ok (.file c) ↔ (∃ loc, d.locate p = .ok loc ∧ d.node? loc = some (.file c))
      ∧ p.demandsDirectory = false := by
  rw [find, except_bind_eq_ok_iff]
  constructor
  · rintro ⟨loc, hlocate, h⟩
    split at h
    · cases h
    · cases h
    · next c' hnode =>
      split at h
      · cases h
      · next hplain =>
        cases h
        exact ⟨⟨loc, hlocate, hnode⟩, by simpa using hplain⟩
  · rintro ⟨⟨loc, hlocate, hnode⟩, hplain⟩
    refine ⟨loc, hlocate, ?_⟩
    rw [hnode]
    simp [hplain]

/-- A file that is found stands at the destination of the path. -/
theorem node?_of_find (h : d.find p = .ok (.file c)) :
    d.node? (d.destination p) = some (.file c) := by
  obtain ⟨⟨loc, hlocate, hnode⟩, -⟩ := find_file_iff.mp h
  rwa [← locate_ok hlocate]

theorem read_eq_ok_iff {bytes : Bytes} :
    d.read p = .ok bytes ↔ ∃ c, d.find p = .ok (.file c) ∧ c.bytes = bytes := by
  rw [read, except_bind_eq_ok_iff]
  constructor
  · rintro ⟨node, hfind, h⟩
    cases node with
    | directory => cases h
    | file c => exact ⟨c, hfind, Except.ok.inj h⟩
  · rintro ⟨c, hfind, rfl⟩
    exact ⟨.file c, hfind, rfl⟩

/-! ### What may change -/

/-- No files but those at some locations have been made, replaced or removed, and all directories
are still there. -/
structure Writes (locs : List Location) (d d' : Disk) : Prop where
  home : d'.home = d.home
  directory : ∀ loc, d.node? loc = some .directory → d'.node? loc = some .directory
  file : ∀ loc, loc ∉ locs → ∀ c, d'.node? loc = some (.file c) ↔ d.node? loc = some (.file c)

namespace Writes

theorem refl (locs : List Location) (d : Disk) : Writes locs d d :=
  ⟨rfl, fun _ h => h, fun _ _ _ => Iff.rfl⟩

theorem trans (h : Writes locs d d') (h' : Writes locs d' d'') : Writes locs d d'' where
  home := h'.home.trans h.home
  directory loc hloc := h'.directory loc (h.directory loc hloc)
  file loc hloc c := (h'.file loc hloc c).trans (h.file loc hloc c)

theorem mono (h : Writes locs d d') (hsub : locs ⊆ more) : Writes more d d' where
  home := h.home
  directory := h.directory
  file loc hloc := h.file loc fun hmem => hloc (hsub hmem)

/-- Paths lead where they led before. -/
theorem destination (h : Writes locs d d') : d'.destination = d.destination := by
  funext p
  rw [Disk.destination, h.home, Disk.destination]

theorem walk (h : Writes locs d d') (hwalk : d.walk here cs = .ok loc) :
    d'.walk here cs = .ok loc := by
  induction cs generalizing here with
  | nil => exact hwalk
  | cons s rest ih =>
    obtain ⟨hpass, hrest⟩ := walk_cons_eq_ok_iff.mp hwalk
    refine walk_cons_eq_ok_iff.mpr ⟨hpass.imp_right fun ⟨hnode, hname⟩ => ?_, ih hrest⟩
    exact ⟨h.directory here hnode, hname⟩

/-- **A file that is not written to is found as before.** -/
theorem find (h : Writes locs d d') (hfind : d.find p = .ok (.file c))
    (hp : d.destination p ∉ locs) : d'.find p = .ok (.file c) := by
  obtain ⟨⟨loc, hlocate, hnode⟩, hplain⟩ := find_file_iff.mp hfind
  obtain ⟨haccept, hwalk⟩ := locate_eq_ok_iff.mp hlocate
  refine find_file_iff.mpr ⟨⟨loc, locate_eq_ok_iff.mpr ⟨haccept, ?_⟩, ?_⟩, hplain⟩
  · rw [h.home]
    exact h.walk hwalk
  · rw [← locate_ok hlocate] at hp
    exact (h.file loc hp c).mpr hnode

/-- What is read from a file that is not written to stood there before. The path may lead through
directories that have been made since, so it need not have led anywhere then. -/
theorem node?_of_read (h : Writes locs d d') {bytes : Bytes} (hread : d'.read p = .ok bytes)
    (hp : d.destination p ∉ locs) :
    ∃ c, d.node? (d.destination p) = some (.file c) ∧ c.bytes = bytes := by
  obtain ⟨c, hfind, hbytes⟩ := read_eq_ok_iff.mp hread
  have hnode := node?_of_find hfind
  rw [h.destination] at hnode
  exact ⟨c, (h.file _ hp c).mp hnode, hbytes⟩

theorem read (h : Writes locs d d') {bytes : Bytes} (hread : d.read p = .ok bytes)
    (hp : d.destination p ∉ locs) : d'.read p = .ok bytes := by
  obtain ⟨c, hfind, hbytes⟩ := read_eq_ok_iff.mp hread
  exact read_eq_ok_iff.mpr ⟨c, h.find hfind hp, hbytes⟩

end Writes

/-! ### Writing -/

theorem isPrefixOf_home_of_node? (h : d.node? loc ≠ some .directory) :
    loc.isPrefixOf d.home = false := by
  rw [node?] at h
  split at h
  · exact absurd rfl h
  · next hprefix => exact Bool.eq_false_iff.mpr hprefix

/-- Nothing but a directory is above the home directory, so what is put elsewhere is there. -/
theorem node?_put_self {n : Node} (h : d.node? loc ≠ some .directory) :
    (d.put loc n).node? loc = some n := by
  rw [node?_put, isPrefixOf_home_of_node? h]
  simp

theorem node?_put_of_ne {n : Node} {other : Location} (h : other ≠ loc) :
    (d.put loc n).node? other = d.node? other := by
  rw [node?_put, if_neg h]
  split
  · next hprefix => rw [node?, if_pos hprefix]
  · rfl

theorem writes_put_file (h : d.node? loc ≠ some .directory) :
    Writes [loc] d (d.put loc (.file c)) where
  home := rfl
  directory other hother := by
    have hne : other ≠ loc := fun heq => h (heq ▸ hother)
    rwa [node?_put_of_ne hne]
  file other hother c' := by
    have hne : other ≠ loc := fun heq => hother (List.mem_singleton.mpr heq)
    rw [node?_put_of_ne hne]

theorem writes_put_directory (h : d.node? loc = none) :
    Writes [] d (d.put loc .directory) where
  home := rfl
  directory other hother := by
    have hne : other ≠ loc := by
      rintro rfl
      cases h.symm.trans hother
    rwa [node?_put_of_ne hne]
  file other _ c' := by
    by_cases heq : other = loc
    · subst heq
      rw [node?_put_self (by simp [h]), h]
      simp
    · rw [node?_put_of_ne heq]

/-- A file is put where its path leads, unless there is a directory or the path asks for one. -/
theorem write_ok (h : d.write p c = .ok d') :
    d.locate p = .ok (d.destination p) ∧ d.node? (d.destination p) ≠ some .directory
      ∧ p.demandsDirectory = false ∧ d' = d.put (d.destination p) (.file c) := by
  rw [write] at h
  split at h
  · obtain ⟨_, -, h⟩ := except_bind_eq_ok_iff.mp h
    cases h
  · next hslash =>
    obtain ⟨loc, hlocate, h⟩ := except_bind_eq_ok_iff.mp h
    obtain rfl := locate_ok hlocate
    have hplain : ∀ fault : IoFault, (if p.ending = .dot then Except.error fault
        else .ok (d.put (d.destination p) (.file c))) = .ok d' →
          p.demandsDirectory = false ∧ d' = d.put (d.destination p) (.file c) := by
      intro fault h
      split at h
      · cases h
      · next hdot =>
        cases h
        refine ⟨?_, rfl⟩
        cases hending : p.ending with
        | plain => simp [Path.demandsDirectory, hending]
        | slash => exact absurd hending hslash
        | dot => exact absurd hending hdot
    split at h
    · cases h
    · next hnode => exact ⟨hlocate, by simp [hnode], hplain _ h⟩
    · next hnode => exact ⟨hlocate, by simp [hnode], hplain _ h⟩

theorem writes_write (h : d.write p c = .ok d') : Writes [d.destination p] d d' := by
  obtain ⟨-, hnode, -, rfl⟩ := write_ok h
  exact writes_put_file hnode

theorem find_of_write (h : d.write p c = .ok d') : d'.find p = .ok (.file c) := by
  have hwrites := writes_write h
  obtain ⟨hlocate, hnode, hplain, rfl⟩ := write_ok h
  obtain ⟨haccept, hwalk⟩ := locate_eq_ok_iff.mp hlocate
  refine find_file_iff.mpr ⟨⟨_, locate_eq_ok_iff.mpr ⟨haccept, ?_⟩, node?_put_self hnode⟩, hplain⟩
  exact hwrites.walk hwalk

/-- Where a path leads a file can be put, whatever it holds. -/
theorem write_of_locate (hlocate : d.locate p = .ok loc) (hnode : d.node? loc ≠ some .directory)
    (hplain : p.demandsDirectory = false) (c : Content) :
    d.write p c = .ok (d.put loc (.file c)) := by
  have hending : p.ending = .plain := by simpa [Path.demandsDirectory] using hplain
  rw [write, if_neg (by simp [hending]), hlocate]
  dsimp only [bind, Except.bind]
  split
  · next h => exact absurd h hnode
  · rw [if_neg (by simp [hending])]
  · rw [if_neg (by simp [hending])]

/-! ### Making directories -/

theorem writes_makeDirectory (h : d.makeDirectory cs = .ok d') : Writes [] d d' := by
  rw [makeDirectory] at h
  obtain ⟨loc, -, h⟩ := except_bind_eq_ok_iff.mp h
  split at h
  · cases h
  · next hnode =>
    cases h
    exact writes_put_directory hnode

/-- However far the making of directories gets, no file changes. -/
theorem writes_makeAll (d : Disk) (cs : List Path.Component) : Writes [] d (d.makeAll cs).2 := by
  induction cs with
  | nil => exact .refl _ _
  | cons s above ih =>
    rw [makeAll]
    split
    · next made hmade => exact writes_makeDirectory hmade
    · split
      · next fault made hmade => rwa [hmade] at ih
      · next made hmade =>
        rw [hmade] at ih
        split
        · next done hdone => exact ih.trans (writes_makeDirectory hdone)
        · exact ih
    · exact .refl _ _

theorem writes_makeDirectories (d : Disk) (p : Path) : Writes [] d (d.makeDirectories p).2 := by
  rw [makeDirectories]
  split
  · exact .refl _ _
  · split
    · exact .refl _ _
    · exact writes_makeAll d _

/-! ### Saving -/

theorem writes_finish (d : Disk) (p : Path) (c : Content) :
    Writes [d.destination p] d (save.finish p c d).2 := by
  rw [save.finish]
  split
  · next done hdone => exact writes_write hdone
  · exact .refl _ _

theorem find_of_finish (h : save.finish p c d = (.ok (), d')) : d'.find p = .ok (.file c) := by
  rw [save.finish] at h
  split at h
  · next done hdone =>
    cases h
    exact find_of_write hdone
  · cases h

/-- **Saving a file changes no other file,** whether it succeeds or not. -/
theorem writes_save (d : Disk) (p : Path) (c : Content) :
    Writes [d.destination p] d (d.save p c).2 := by
  rw [save]
  split
  · exact writes_finish d p c
  · next dir hdir =>
    have hmake := writes_makeDirectories d dir
    split
    · next fault made hmade =>
      rw [hmade] at hmake
      exact hmake.mono (List.nil_subset _)
    · next made hmade =>
      rw [hmade] at hmake
      have hfinish := writes_finish made p c
      rw [hmake.destination] at hfinish
      exact (hmake.mono (List.nil_subset _)).trans hfinish

/-- **A file that has been saved is found.** -/
theorem find_of_save (h : d.save p c = (.ok (), d')) : d'.find p = .ok (.file c) := by
  rw [save] at h
  split at h
  · exact find_of_finish h
  · split at h
    · cases h
    · exact find_of_finish h

theorem exists_finish (c' : Content) (h : save.finish p c d = (.ok (), d')) :
    ∃ made, save.finish p c' d = (.ok (), made) := by
  rw [save.finish] at h
  split at h
  · next done hdone =>
    obtain ⟨hlocate, hnode, hplain, -⟩ := write_ok hdone
    rw [save.finish, write_of_locate hlocate hnode hplain c']
    exact ⟨_, rfl⟩
  · cases h

/-- **Whether a file can be saved does not depend on what it holds.** -/
theorem exists_save (c' : Content) (h : d.save p c = (.ok (), d')) :
    ∃ made, d.save p c' = (.ok (), made) := by
  rw [save] at h ⊢
  split at h
  · exact exists_finish c' h
  · split at h
    · cases h
    · exact exists_finish c' h

/-- Saving fails only with a fault of the disk. -/
theorem save_error {f : Failure} (h : d.save p c = (.error f, d')) :
    ∃ path fault, f = .io path fault := by
  have hfinish : ∀ {made : Disk}, save.finish p c made = (.error f, d') →
      ∃ path fault, f = .io path fault := by
    intro made hmade
    rw [save.finish] at hmade
    split at hmade
    · cases hmade
    · next fault _ =>
      cases hmade
      exact ⟨p, fault, rfl⟩
  rw [save] at h
  split at h
  · exact hfinish h
  · next dir _ =>
    split at h
    · next fault made _ =>
      cases h
      exact ⟨dir, fault, rfl⟩
    · exact hfinish h

/-! ### Saving several files -/

/-- Some files have been saved one after the other. -/
inductive Saved : Disk → List (Path × Content) → Disk → Prop
  | nil (d : Disk) : Saved d [] d
  | cons {d d' d'' : Disk} {p : Path} {c : Content} {files : List (Path × Content)}
      (h : d.save p c = (.ok (), d')) (hfiles : Saved d' files d'') : Saved d ((p, c) :: files) d''

namespace Saved

variable {files others : List (Path × Content)}

theorem append (h : Saved d files d') (h' : Saved d' others d'') :
    Saved d (files ++ others) d'' := by
  induction h with
  | nil => exact h'
  | cons hsave _ ih => exact .cons hsave (ih h')

theorem writes (h : Saved d files d') : Writes (files.map fun f => d.destination f.1) d d' := by
  induction h with
  | nil => exact .refl _ _
  | @cons d made d' p c files hsave _ ih =>
    have hfirst := writes_save d p c
    rw [hsave] at hfirst
    rw [hfirst.destination] at ih
    rw [List.map_cons]
    exact (hfirst.mono (by simp)).trans (ih.mono (List.subset_cons_self _ _))

/-- **Files that have been saved to different destinations are all found.** -/
theorem find (h : Saved d files d') (hdiffer : (files.map fun f => d.destination f.1).Nodup) :
    ∀ f ∈ files, d'.find f.1 = .ok (.file f.2) := by
  induction h with
  | nil => simp
  | @cons d made d' p c files hsave hfiles ih =>
    have hfirst := writes_save d p c
    rw [hsave] at hfirst
    obtain ⟨hp, hrest⟩ := List.nodup_cons.mp hdiffer
    rw [← hfirst.destination] at hp hrest
    refine List.forall_mem_cons.mpr ⟨?_, ih hrest⟩
    exact hfiles.writes.find (find_of_save hsave) hp

end Saved

end SimMetadata.Disk

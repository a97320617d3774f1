import CodeMarkup.Proofs.Disk.Reach

/-!
# What is left alone on a disk

Work on a directory spares a place if it leaves what stands there, and lets nothing appear there but a directory
(`SparedAt`). Making directories spares every place (`sparedAt_of_makeDirectories`), so whatever file is there when
directories are made, it stays, and no file comes up.

A path leads through places, one after each of its names: the **way** to what it names. A directory stays within reach
of its path as long as the directories on its way stay (`Reaches.of_way`).
-/

namespace CodeMarkup.Disk

variable {disk between after : Disk} {here place current : Place} {names : List String}

/-! ## Spared places -/

/-- A place is as it was, or a directory was made where nothing was. The latter can come up because all the
directories are made that a path leads through, and a path with `..` in it leads through places that are not above
what it names: `g/libgo.so/..` names `g`, and making it makes a directory `libgo.so` in there. No file comes up at a
spared place, and what stands there, file or directory, stays (`SparedAt.file_iff`, `SparedAt.get?_eq_some`). -/
def SparedAt (disk after : Disk) (place : Place) : Prop :=
  after.get? place = disk.get? place ∨ disk.get? place = none ∧ after.get? place = some .directory

theorem SparedAt.refl (disk : Disk) (place : Place) : disk.SparedAt disk place :=
  Or.inl rfl

theorem SparedAt.trans (h₁ : disk.SparedAt between place) (h₂ : between.SparedAt after place) :
    disk.SparedAt after place := by
  rcases h₁ with hsame | ⟨hnone, hmade⟩
  · rwa [SparedAt, hsame] at h₂
  · rcases h₂ with hsame | ⟨hnone', -⟩
    · exact Or.inr ⟨hnone, hsame.trans hmade⟩
    · rw [hmade] at hnone'
      cases hnone'

/-- What stands at a spared place stays. -/
theorem SparedAt.get?_eq_some (h : disk.SparedAt after place) {entry : Entry} (hentry : disk.get? place = some entry) :
    after.get? place = some entry := by
  rcases h with hsame | ⟨hnone, -⟩
  · exact hsame.trans hentry
  · rw [hnone] at hentry
    cases hentry

theorem SparedAt.isSome (h : disk.SparedAt after place) (hsome : (disk.get? place).isSome = true) :
    (after.get? place).isSome = true := by
  obtain ⟨entry, hentry⟩ := Option.isSome_iff_exists.mp hsome
  rw [h.get?_eq_some hentry]
  rfl

/-- At a spared place there is the file that was there, if one was. -/
theorem SparedAt.file_iff (h : disk.SparedAt after place) (content : Content) :
    after.get? place = some (.file content) ↔ disk.get? place = some (.file content) := by
  rcases h with hsame | ⟨hnone, hmade⟩
  · rw [hsame]
  · rw [hnone, hmade]
    exact iff_of_false nofun nofun

theorem sparedAt_of_makeAt (h : disk.makeAt here names = .ok after) (place : Place) :
    disk.SparedAt after place := by
  obtain ⟨slot, -, h⟩ := ok_of_bind h
  split at h
  · cases h
  · rename_i hempty
    obtain rfl := Except.ok.inj h
    rw [SparedAt, get?_put _ (ne_nil_of_get?_ne (by rw [hempty]; nofun))]
    split
    · rename_i hslot
      exact Or.inr ⟨hslot ▸ hempty, rfl⟩
    · exact Or.inl rfl

theorem sparedAt_of_unlessThere {made : Except FileFault Disk}
    (hmade : ∀ after, made = .ok after → disk.SparedAt after place)
    (h : disk.unlessThere here names made = .ok after) : disk.SparedAt after place := by
  unfold unlessThere at h
  split at h
  · obtain rfl := Except.ok.inj h
    exact hmade _ rfl
  · split at h
    · obtain rfl := Except.ok.inj h
      exact .refl _ _
    · cases h

theorem sparedAt_of_makeUp (h : disk.makeUp here names = .ok after) (place : Place) : disk.SparedAt after place := by
  induction names generalizing disk after with
  | nil =>
    obtain rfl := Except.ok.inj h
    exact .refl _ _
  | cons last up ih =>
    unfold makeUp at h
    dsimp only at h
    split at h
    · obtain ⟨between, hbetween, h⟩ := ok_of_bind h
      exact (ih hbetween).trans (sparedAt_of_unlessThere (fun _ hmade => sparedAt_of_makeAt hmade _) h)
    · exact sparedAt_of_unlessThere (fun _ hmade => sparedAt_of_makeAt hmade _) h

/-- **Making directories** spares every place. -/
theorem sparedAt_of_makeDirectories {path : String} (h : disk.makeDirectories current path = .ok after)
    (place : Place) : disk.SparedAt after place :=
  sparedAt_of_makeUp h place

/-- Where every place is spared, everything stays within reach. -/
theorem retainedIn_of_sparedAt (h : ∀ place, disk.SparedAt after place) : disk.RetainedIn after :=
  ⟨fun place => (h place).isSome, fun place => (h place).get?_eq_some⟩

/-- Removing a file leaves every directory. -/
theorem directory_of_removeFile {name base : String} (hname : Path.IsEntry name)
    (h : disk.removeFile current (Path.join base name) = .ok after) (hplace : disk.get? place = some .directory) :
    after.get? place = some .directory := by
  rw [get?_of_removeFile hname h, if_neg, hplace]
  rintro rfl
  obtain ⟨slot, hslot, h⟩ := ok_of_bind h
  obtain rfl := eq_ofPath_of_slot hname hslot
  rw [hplace] at h
  cases h

/-! ## Ways -/

/-- The places that names lead through, one after another. -/
def way : Place → List String → List Place
  | _, [] => []
  | here, name :: rest => Place.step here name :: way (Place.step here name) rest

/-- Names lead where they led if the directories on the way are there. -/
theorem Reaches.of_way (h : disk.Reaches here names)
    (hkeep : ∀ place ∈ way here names, disk.get? place = some .directory → after.get? place = some .directory) :
    after.Reaches here names := by
  induction names generalizing here with
  | nil => trivial
  | cons name rest ih =>
    have hrest : ∀ place ∈ way (Place.step here name) rest, disk.get? place = some .directory →
        after.get? place = some .directory := fun place hmem => hkeep place (List.mem_cons_of_mem _ hmem)
    unfold Reaches at h ⊢
    by_cases hhere : name = "."
    · rw [if_pos hhere] at h ⊢
      rw [Place.step, if_pos hhere] at hrest
      exact ih h hrest
    rw [if_neg hhere] at h ⊢
    by_cases hup : name = ".."
    · rw [if_pos hup] at h ⊢
      rw [Place.step, if_neg hhere, if_pos hup] at hrest
      exact ih h hrest
    rw [if_neg hup] at h ⊢
    have hstep : Place.step here name = here ++ [name] := by rw [Place.step, if_neg hhere, if_neg hup]
    rw [hstep] at hrest
    exact ⟨hkeep _ (hstep ▸ List.mem_cons_self) h.1, ih h.2 hrest⟩

/-- A path that never goes back up leads through places above what it names. -/
theorem prefix_of_mem_way (hup : ".." ∉ names) (hplace : place ∈ way here names) :
    place <+: names.foldl Place.step here := by
  have hstep : ∀ (names : List String) (here : Place), ".." ∉ names → here <+: names.foldl Place.step here := by
    intro names
    induction names with
    | nil => exact fun here _ => List.prefix_rfl
    | cons name rest ih =>
      intro here hup
      rw [List.mem_cons, not_or] at hup
      rw [List.foldl_cons]
      refine List.IsPrefix.trans ?_ (ih _ hup.2)
      rw [Place.step]
      split
      · exact List.prefix_rfl
      · rw [if_neg (Ne.symm hup.1)]
        exact List.prefix_append _ _
  induction names generalizing here with
  | nil => cases hplace
  | cons name rest ih =>
    rw [List.mem_cons, not_or] at hup
    rw [List.foldl_cons]
    rcases List.mem_cons.mp hplace with rfl | hrest
    · exact hstep rest _ hup.2
    · exact ih hup.2 hrest

end CodeMarkup.Disk

import CodeMarkup.Disk.Directory
import CodeMarkup.Proofs.Work

/-!
# Where paths lead

On a disk without links a path leads where its names say: `.` stays, `..` goes back up, and any other name
goes down. Walking can fail on the way, but it cannot end elsewhere (`eq_ofPath_of_locate`). So whether there
is an entry of some name in a directory comes apart into two questions (`contains_join_iff`): whether the
directory's path leads through directories only (`Reaches`), which is the same for all its entries, and what
stands at the entry's place.

The operations on files are then said place by place: writing and removing change one place. What stands on a disk
and what a path of directories leads through are all that reach depends on (`RetainedIn`).
-/

namespace CodeMarkup

/-! ## Names of entries -/

/-- A text names an entry of a directory. -/
structure Path.IsEntry (name : String) : Prop where
  /-- it is one name -/
  noSlash : '/' ∉ name.toList
  /-- it is not empty -/
  nonempty : name ≠ ""
  /-- it does not stay -/
  notHere : name ≠ "."
  /-- it does not go back up -/
  notUp : name ≠ ".."

namespace Path

variable {name : String}

theorem IsEntry.toList_ne_nil (h : IsEntry name) : name.toList ≠ [] :=
  fun hnil => h.nonempty (String.toList_eq_nil_iff.mp hnil)

theorem IsEntry.isAbsolute (h : IsEntry name) : isAbsolute name = false := by
  rw [Path.isAbsolute, beq_eq_false_iff_ne]
  exact fun hhead => h.noSlash (List.mem_of_mem_head? hhead)

theorem IsEntry.names (h : IsEntry name) : names name = [name] := by
  rw [Path.names, Text.split_of_not_mem h.noSlash, List.filter_cons_of_pos, List.filter_nil,
    List.map_singleton, String.ofList_toList]
  simpa using h.toList_ne_nil

/-- The names on the two sides of a slash. -/
theorem names_append_slash (front rest : List Char) :
    names (String.ofList (front ++ '/' :: rest))
      = names (String.ofList front) ++ names (String.ofList rest) := by
  simp only [names, String.toList_ofList, Text.split_append, List.filter_append, List.map_append]

/-- The path of an entry: its directory's path, with a slash between the two unless there is one. -/
theorem IsEntry.join_eq (h : IsEntry name) (base : String) :
    (base = "" ∧ join base name = name) ∨
      ∃ front, (base = String.ofList front ∨ base = String.ofList (front ++ ['/'])) ∧ base ≠ "" ∧
        join base name = String.ofList (front ++ '/' :: name.toList) := by
  by_cases hbase : base = ""
  · refine Or.inl ⟨hbase, ?_⟩
    simp [join, hbase]
  · refine Or.inr ?_
    simp only [join, hbase, h.isAbsolute, decide_false, Bool.or_self, Bool.false_eq_true, if_false]
    by_cases hslash : endsWithSlash base = true
    · rw [if_pos hslash]
      rw [endsWithSlash, beq_iff_eq] at hslash
      obtain ⟨front, hfront⟩ := List.getLast?_eq_some_iff.mp hslash
      refine ⟨front, Or.inr ?_, hbase, ?_⟩
      · rw [← hfront, String.ofList_toList]
      · rw [← String.toList_inj, String.toList_append, hfront, String.toList_ofList, List.append_assoc,
          List.singleton_append]
    · rw [if_neg hslash]
      refine ⟨base.toList, Or.inl (String.ofList_toList).symm, hbase, ?_⟩
      rw [← String.toList_inj, String.toList_append, String.toList_append, List.append_assoc]
      exact String.toList_ofList.symm

theorem IsEntry.names_join (h : IsEntry name) (base : String) :
    Path.names (join base name) = Path.names base ++ [name] := by
  rcases h.join_eq base with ⟨rfl, hjoin⟩ | ⟨front, hbase, -, hjoin⟩
  · rw [hjoin, h.names]
    rfl
  · rw [hjoin, names_append_slash, String.ofList_toList, h.names]
    rcases hbase with rfl | rfl
    · rfl
    · rw [names_append_slash]
      exact congrArg (· ++ [name]) (List.append_nil _).symm

theorem IsEntry.steps_join (h : IsEntry name) (base : String) :
    steps (join base name) = Path.names base ++ [name] := by
  have hend : endsWithSlash (join base name) = false := by
    have hlast : name.toList.getLast? ≠ some '/' := fun hlast =>
      h.noSlash (List.mem_of_getLast? hlast)
    rw [endsWithSlash, beq_eq_false_iff_ne]
    rcases h.join_eq base with ⟨-, hjoin⟩ | ⟨front, -, -, hjoin⟩
    · rwa [hjoin]
    · rwa [hjoin, String.toList_ofList, List.append_cons, List.getLast?_append,
        List.getLast?_eq_some_getLast h.toList_ne_nil, Option.some_or,
        ← List.getLast?_eq_some_getLast h.toList_ne_nil]
  rw [steps, hend, Bool.false_and, h.names_join]
  simp

theorem IsEntry.join_ne_empty (h : IsEntry name) (base : String) : join base name ≠ "" := by
  rcases h.join_eq base with ⟨-, hjoin⟩ | ⟨front, -, -, hjoin⟩
  · rw [hjoin]
    exact h.nonempty
  · rw [hjoin]
    intro hempty
    have := congrArg String.toList hempty
    simp at this

theorem IsEntry.origin_join (h : IsEntry name) (current : Place) (base : String) :
    Disk.origin current (join base name) = Disk.origin current base := by
  have habsolute : Path.isAbsolute (join base name) = Path.isAbsolute base := by
    rcases h.join_eq base with ⟨rfl, hjoin⟩ | ⟨front, hbase, hne, hjoin⟩
    · rw [hjoin, h.isAbsolute]
      rfl
    · rw [hjoin]
      rcases hbase with rfl | rfl <;> cases front with
      | nil => simp_all [Path.isAbsolute]
      | cons c front => simp [Path.isAbsolute]
  rw [Disk.origin, habsolute, Disk.origin]

end Path

/-! ## Places -/

/-- Where a name leads from a place. -/
def Place.step (here : Place) (name : String) : Place :=
  if name = "." then here else if name = ".." then here.dropLast else here ++ [name]

theorem Place.ofPath_eq (current : Place) (path : String) :
    Place.ofPath current path = (Path.names path).foldl Place.step (Disk.origin current path) :=
  rfl

theorem Path.IsEntry.step {name : String} (h : IsEntry name) (here : Place) :
    Place.step here name = here ++ [name] := by
  rw [Place.step, if_neg h.notHere, if_neg h.notUp]

/-- The place of an entry is one name below the place of its directory. -/
theorem Path.IsEntry.ofPath_join {name : String} (h : IsEntry name) (current : Place) (base : String) :
    Place.ofPath current (join base name) = Place.ofPath current base ++ [name] := by
  rw [Place.ofPath_eq, h.names_join, h.origin_join, List.foldl_append, List.foldl_cons, List.foldl_nil,
    h.step, Place.ofPath_eq]

namespace Disk

variable {disk after : Disk} {here place current : Place}

/-! ## Walks -/

/-- **A walk ends where its names say.** -/
theorem eq_of_walk {names : List String} (h : disk.walk here names = .ok place) :
    place = names.foldl Place.step here := by
  induction names generalizing here with
  | nil => exact (Except.ok.inj h).symm
  | cons name rest ih =>
    rw [walk] at h
    rw [List.foldl_cons, Place.step]
    by_cases hhere : name = "."
    · rw [if_pos hhere] at h ⊢
      exact ih h
    rw [if_neg hhere] at h ⊢
    by_cases hup : name = ".."
    · rw [if_pos hup] at h ⊢
      exact ih h
    rw [if_neg hup] at h ⊢
    split at h
    · cases h
    · exact ih h
    · split at h
      · rename_i hrest
        rw [hrest]
        exact (Except.ok.inj h).symm
      · cases h

/-- **A path that leads anywhere leads to the place that it names.** -/
theorem eq_ofPath_of_locate {path : String} (h : disk.locate current path = .ok place) :
    place = Place.ofPath current path := by
  unfold locate at h
  split at h
  · cases h
  · rw [eq_of_walk h, Path.steps, List.foldl_append, Place.ofPath_eq]
    split
    · rfl
    · rfl

/-- Names lead from a place through directories only. -/
def Reaches (disk : Disk) : Place → List String → Prop
  | _, [] => True
  | here, name :: rest =>
    if name = "." then disk.Reaches here rest
    else if name = ".." then disk.Reaches here.dropLast rest
    else disk.get? (here ++ [name]) = some .directory ∧ disk.Reaches (here ++ [name]) rest

/-- Names lead where they led if no directory is gone. -/
theorem Reaches.mono (hkeep : ∀ place, disk.get? place = some .directory →
    after.get? place = some .directory) {names : List String} (h : disk.Reaches here names) :
    after.Reaches here names := by
  induction names generalizing here with
  | nil => trivial
  | cons name rest ih =>
    unfold Reaches at h ⊢
    split
    · rename_i hname
      rw [if_pos hname] at h
      exact ih h
    · rename_i hname
      rw [if_neg hname] at h
      split
      · rename_i hup
        rw [if_pos hup] at h
        exact ih h
      · rename_i hup
        rw [if_neg hup] at h
        exact ⟨hkeep _ h.1, ih h.2⟩

/-- A walk to an entry goes through directories only and finds the entry. -/
theorem walk_concat_isOk_iff {name : String} (h : Path.IsEntry name) {names : List String} :
    (disk.walk here (names ++ [name])).isOk = true ↔
      disk.Reaches here names ∧ (disk.get? (names.foldl Place.step here ++ [name])).isSome = true := by
  induction names generalizing here with
  | nil =>
    rw [List.nil_append, walk, if_neg h.notHere, if_neg h.notUp, List.foldl_nil]
    rcases disk.get? (here ++ [name]) with _ | _ | _ <;> simp [Except.isOk, Except.toBool, walk, Reaches]
  | cons first rest ih =>
    rw [List.cons_append, walk, List.foldl_cons, Place.step, Reaches]
    split
    · exact ih
    · split
      · exact ih
      · rcases hfirst : disk.get? (here ++ [first]) with _ | _ | _
        · simp [Except.isOk, Except.toBool]
        · simp [Except.isOk, Except.toBool]
        · simpa using ih

/-- **An entry of a directory is there** iff the path of the directory leads through directories, and
something stands at the entry's place. -/
theorem contains_join_iff {name : String} (h : Path.IsEntry name) (base : String) :
    disk.contains current (Path.join base name) = true ↔
      disk.Reaches (origin current base) (Path.names base) ∧
        (disk.get? (Place.ofPath current base ++ [name])).isSome = true := by
  have hwalk : disk.locate current (Path.join base name)
      = disk.walk (origin current base) (Path.names base ++ [name]) := by
    rw [locate, if_neg (h.join_ne_empty base), h.steps_join, h.origin_join]
  rw [Place.ofPath_eq, ← walk_concat_isOk_iff h, contains, find, hwalk]
  rcases hplace : disk.walk (origin current base) (Path.names base ++ [name]) with fault | place
  · rfl
  · have hthere := (walk_concat_isOk_iff h).mp (by rw [hplace]; rfl)
    obtain rfl := eq_of_walk hplace
    rw [List.foldl_append, List.foldl_cons, List.foldl_nil, h.step]
    obtain ⟨entry, hentry⟩ := Option.isSome_iff_exists.mp hthere.2
    simp only [bind, Except.bind, hentry]
    rfl

/-! ## Operations -/

/-- The root is there, so an empty place is not the root. -/
theorem ne_nil_of_get?_ne (h : disk.get? place ≠ some .directory) : place ≠ [] := by
  rintro rfl
  exact h rfl

/-- The place of an entry that may yet be nothing. -/
theorem eq_ofPath_of_slot {name base : String} (hname : Path.IsEntry name)
    (h : disk.slot current (Path.join base name) = .ok place) :
    place = Place.ofPath current base ++ [name] := by
  rw [slot, if_neg (hname.join_ne_empty base), hname.steps_join, hname.origin_join, slotAt,
    List.getLast?_concat, List.dropLast_concat] at h
  obtain ⟨parent, hparent, h⟩ := ok_of_bind h
  rw [Place.ofPath_eq, ← eq_of_walk hparent]
  split at h
  · rw [if_neg (not_or.mpr ⟨hname.notHere, hname.notUp⟩)] at h
    exact (Except.ok.inj h).symm
  · cases h
  · cases h

/-- **Writing a text** to an entry of a directory changes what stands there and nothing else. -/
theorem get?_of_writeText {name base text : String} (hname : Path.IsEntry name)
    (h : disk.writeText current (Path.join base name) text = .ok after) (other : Place) :
    after.get? other =
      if other = Place.ofPath current base ++ [name] then some (.file (.text text))
      else disk.get? other := by
  obtain ⟨slot, hslot, h⟩ := ok_of_bind h
  obtain rfl := eq_ofPath_of_slot hname hslot
  split at h
  · cases h
  · obtain rfl := Except.ok.inj h
    exact get?_put _ (by simp) _ _

/-- A text is written over a file or where nothing is. -/
theorem ne_directory_of_writeText {name base text : String} (hname : Path.IsEntry name)
    (h : disk.writeText current (Path.join base name) text = .ok after) :
    disk.get? (Place.ofPath current base ++ [name]) ≠ some .directory := by
  obtain ⟨slot, hslot, h⟩ := ok_of_bind h
  obtain rfl := eq_ofPath_of_slot hname hslot
  intro hdirectory
  rw [hdirectory] at h
  cases h

/-- **Removing a file** from a directory changes what stands there and nothing else. -/
theorem get?_of_removeFile {name base : String} (hname : Path.IsEntry name)
    (h : disk.removeFile current (Path.join base name) = .ok after) (other : Place) :
    after.get? other =
      if other = Place.ofPath current base ++ [name] then none else disk.get? other := by
  obtain ⟨slot, hslot, h⟩ := ok_of_bind h
  obtain rfl := eq_ofPath_of_slot hname hslot
  split at h
  · cases h
  · cases h
  · obtain rfl := Except.ok.inj h
    exact get?_erase _ (by simp) _

/-! ## What stays there -/

/-- Wherever something is on a disk, something is there on another, and directories are directories. -/
structure RetainedIn (disk after : Disk) : Prop where
  /-- something is where something was -/
  stands : ∀ place, (disk.get? place).isSome = true → (after.get? place).isSome = true
  /-- a directory is where one was -/
  directory : ∀ place, disk.get? place = some .directory → after.get? place = some .directory

theorem RetainedIn.trans {last : Disk} (h₁ : disk.RetainedIn after) (h₂ : after.RetainedIn last) :
    disk.RetainedIn last :=
  ⟨fun place h => h₂.stands place (h₁.stands place h),
    fun place h => h₂.directory place (h₁.directory place h)⟩

theorem retainedIn_of_writeText {name base text : String} (hname : Path.IsEntry name)
    (h : disk.writeText current (Path.join base name) text = .ok after) : disk.RetainedIn after := by
  constructor
  · intro place hsome
    rw [get?_of_writeText hname h]
    split
    · rfl
    · exact hsome
  · intro place hdirectory
    rw [get?_of_writeText hname h, if_neg, hdirectory]
    rintro rfl
    exact ne_directory_of_writeText hname h hdirectory

/-! ## What was written is read -/

/-- A walk to a directory goes through directories only. -/
theorem reaches_of_walk {names : List String} (h : disk.walk here names = .ok place)
    (hplace : disk.get? place = some .directory) : disk.Reaches here names := by
  induction names generalizing here with
  | nil => trivial
  | cons name rest ih =>
    rw [walk] at h
    rw [Reaches]
    by_cases hhere : name = "."
    · rw [if_pos hhere] at h ⊢
      exact ih h
    rw [if_neg hhere] at h ⊢
    by_cases hup : name = ".."
    · rw [if_pos hup] at h ⊢
      exact ih h
    rw [if_neg hup] at h ⊢
    split at h
    · cases h
    · rename_i hdirectory
      exact ⟨hdirectory, ih h⟩
    · rename_i hfile
      split at h
      · obtain rfl := Except.ok.inj h
        rw [hfile] at hplace
        cases hplace
      · cases h

/-- A file of a directory that names lead to is read as what it holds. -/
theorem readText_of_get? {name base : String} {content : Content} (hname : Path.IsEntry name)
    (hreaches : disk.Reaches (origin current base) (Path.names base))
    (hfile : disk.get? (Place.ofPath current base ++ [name]) = some (.file content)) :
    disk.readText current (Path.join base name) = content.readText := by
  have hwalk : (disk.walk (origin current base) (Path.names base ++ [name])).isOk = true :=
    (walk_concat_isOk_iff hname).mpr ⟨hreaches, Option.isSome_iff_exists.mpr ⟨_, hfile⟩⟩
  rcases hfound : disk.walk (origin current base) (Path.names base ++ [name]) with fault | place
  · rw [hfound] at hwalk
    cases hwalk
  · obtain rfl := eq_of_walk hfound
    rw [List.foldl_append, List.foldl_cons, List.foldl_nil, hname.step, ← Place.ofPath_eq] at hfound
    simp only [readText, find, locate, if_neg (hname.join_ne_empty base), hname.steps_join, hname.origin_join,
      hfound, hfile, bind, Except.bind, pure, Except.pure]

/-- **A text that was written is read back.** -/
theorem readText_of_writeText {name base text : String} (hname : Path.IsEntry name)
    (h : disk.writeText current (Path.join base name) text = .ok after) :
    after.readText current (Path.join base name) = .ok text := by
  have hfile := (get?_of_writeText hname h (Place.ofPath current base ++ [name])).trans (if_pos rfl)
  refine readText_of_get? hname (Reaches.mono (retainedIn_of_writeText hname h).directory ?_) hfile
  obtain ⟨slot, hslot, -⟩ := ok_of_bind h
  rw [Disk.slot, if_neg (hname.join_ne_empty base), hname.steps_join, hname.origin_join, slotAt,
    List.getLast?_concat, List.dropLast_concat] at hslot
  obtain ⟨parent, hparent, hslot⟩ := ok_of_bind hslot
  split at hslot
  · rename_i hdirectory
    exact reaches_of_walk hparent hdirectory
  · cases hslot
  · cases hslot

end Disk

end CodeMarkup

import Mathlib.Data.List.Sort
import CodeMarkup.Markup.LineNode
import CodeMarkup.Proofs.Text.Bytes

/-!
# Annotated lines

However often classes are added to a line and properties set, and in whatever order, the line keeps a record of it
(`Records`): its classes are those added, in order of first addition, behind the one that every line has, and its
properties have the values last set. Each of the two ways to annotate a line preserves that (`Records.addClass`,
`Records.setProperty`), so it holds after any number of them (`Records.annotate`).

The properties ascend by name, so they are determined by what is found under each name
(`AscendingByName.ext_lookup`). That is why it makes no difference in which order properties of distinct names are set.
-/

namespace CodeMarkup

/-! ## Pairs ascending by name -/

variable {pairs others : List (String × String)} {name value : String}

/-- The names ascend, so there is one value to a name. -/
def AscendingByName (pairs : List (String × String)) : Prop :=
  pairs.Pairwise fun one other => one.1 < other.1

theorem mem_of_mem_setValue {pair : String × String} (h : pair ∈ setValue name value pairs) :
    pair = (name, value) ∨ pair ∈ pairs := by
  induction pairs with
  | nil => exact Or.inl (List.mem_singleton.mp h)
  | cons first rest ih =>
    rw [List.mem_cons]
    rw [setValue] at h
    split at h
    · exact (List.mem_cons.mp h).imp_right List.mem_cons.mp
    · split at h
      · exact (List.mem_cons.mp h).imp_right Or.inr
      · rcases List.mem_cons.mp h with hfirst | hrest
        · exact Or.inr (Or.inl hfirst)
        · exact (ih hrest).imp_right Or.inr

namespace AscendingByName

/-- Setting a value keeps the order. -/
theorem setValue (h : AscendingByName pairs) (name value : String) :
    AscendingByName (setValue name value pairs) := by
  induction pairs with
  | nil => exact List.pairwise_singleton _ _
  | cons first rest ih =>
    obtain ⟨hleast, hrest⟩ := List.pairwise_cons.mp h
    rw [CodeMarkup.setValue]
    split
    · rename_i hbefore
      refine List.pairwise_cons.mpr ⟨fun pair hpair => ?_, h⟩
      rcases List.mem_cons.mp hpair with rfl | hpair
      · exact hbefore
      · exact String.lt_trans hbefore (hleast pair hpair)
    · split
      · rename_i hsame
        exact List.pairwise_cons.mpr ⟨fun pair hpair => hsame ▸ hleast pair hpair, hrest⟩
      · rename_i hnotBefore hdiffers
        have hafter : first.1 < name := Std.lt_of_le_of_ne (String.not_lt.mp hnotBefore) (Ne.symm hdiffers)
        refine List.pairwise_cons.mpr ⟨fun pair hpair => ?_, ih hrest⟩
        rcases mem_of_mem_setValue hpair with rfl | hpair
        · exact hafter
        · exact hleast pair hpair

/-- What is found under a name is what stands with it. -/
theorem lookup_eq_some_iff (h : AscendingByName pairs) :
    pairs.lookup name = some value ↔ (name, value) ∈ pairs := by
  induction pairs with
  | nil => simp
  | cons first rest ih =>
    obtain ⟨other, old⟩ := first
    obtain ⟨hleast, hrest⟩ := List.pairwise_cons.mp h
    by_cases hsame : name = other
    · subst hsame
      have hnone : (name, value) ∉ rest := fun hmem => String.lt_irrefl name (hleast _ hmem)
      rw [List.lookup_cons_self, Option.some.injEq, List.mem_cons, Prod.mk.injEq, eq_self, true_and,
        or_iff_left hnone, eq_comm]
    · have hskip : (name == other) = false := beq_false_of_ne hsame
      rw [List.lookup_cons, hskip, List.mem_cons, Prod.mk.injEq, ih hrest]
      simp [hsame]

/-- **Pairs that ascend by name are determined by what is found under each name.** -/
theorem ext_lookup (hpairs : AscendingByName pairs) (hothers : AscendingByName others)
    (h : ∀ name, pairs.lookup name = others.lookup name) : pairs = others := by
  have hirrefl : Std.Irrefl fun one other : String × String => one.1 < other.1 :=
    ⟨fun one => String.lt_irrefl one.1⟩
  have hantisymm : Std.Antisymm fun one other : String × String => one.1 < other.1 :=
    ⟨fun _ _ hbefore hafter => absurd hafter (String.lt_asymm hbefore)⟩
  refine List.Pairwise.eq_of_mem_iff hpairs hothers fun pair => ?_
  rw [← hpairs.lookup_eq_some_iff, ← hothers.lookup_eq_some_iff, h]

/-- Values of distinct names can be set in either order. -/
theorem setValue_comm (h : AscendingByName pairs) {other : String} (hdiffers : name ≠ other) (value next : String) :
    CodeMarkup.setValue other next (CodeMarkup.setValue name value pairs)
      = CodeMarkup.setValue name value (CodeMarkup.setValue other next pairs) := by
  refine ext_lookup ((h.setValue _ _).setValue _ _) ((h.setValue _ _).setValue _ _) fun asked => ?_
  simp only [lookup_setValue]
  by_cases hother : asked = other
  · rw [if_pos hother, if_neg (hother ▸ Ne.symm hdiffers), if_pos hother]
  · rw [if_neg hother, if_neg hother]

end AscendingByName

namespace LineNode

/-! ## Edits -/

/-- What an annotation can do to a line. -/
inductive Edit where
  /-- to set a property -/
  | setProperty (name value : String)
  /-- to add a class -/
  | addClass (name : String)
  deriving DecidableEq, Repr

/-- The line after an edit. -/
def Edit.apply (node : LineNode) : Edit → LineNode
  | .setProperty name value => node.setProperty name value
  | .addClass name => node.addClass name

/-- The line after edits, one after another. -/
def annotate (node : LineNode) (edits : List Edit) : LineNode :=
  edits.foldl Edit.apply node

/-- The class that an edit adds. -/
def Edit.class? : Edit → Option String
  | .setProperty .. => none
  | .addClass name => some name

/-- The name and the value of the property that an edit sets. -/
def Edit.property? : Edit → Option (String × String)
  | .setProperty name value => some (name, value)
  | .addClass _ => none

/-- The classes that edits add, in order. -/
def added (edits : List Edit) : List String :=
  edits.filterMap Edit.class?

/-- The properties that edits set, in order. -/
def assigned (edits : List Edit) : List (String × String) :=
  edits.filterMap Edit.property?

/-- A property was set to a value, and it was not set again. -/
def LastSet (edits : List Edit) (name value : String) : Prop :=
  ∃ before after, assigned edits = before ++ (name, value) :: after ∧ ∀ later ∈ after, later.1 ≠ name

theorem mem_assigned {edits : List Edit} {name value : String} :
    (name, value) ∈ assigned edits ↔ .setProperty name value ∈ edits := by
  rw [assigned, List.mem_filterMap]
  refine ⟨?_, ?_⟩
  · rintro ⟨edit, hedit, hproperty⟩
    cases edit with
    | setProperty other next =>
      obtain ⟨rfl, rfl⟩ := Prod.mk.inj (Option.some.inj hproperty)
      exact hedit
    | addClass => cases hproperty
  · intro hedit
    exact ⟨_, hedit, rfl⟩

/-- The last value is the first from the end. -/
theorem lookup_reverse_assigned (edits : List Edit) (name value : String) :
    (assigned edits).reverse.lookup name = some value ↔ LastSet edits name value := by
  rw [List.lookup_eq_some_iff]
  refine ⟨?_, ?_⟩
  · rintro ⟨after, before, hreverse, hnone⟩
    refine ⟨before.reverse, after.reverse, ?_, fun later hlater => ?_⟩
    · rw [← List.reverse_reverse (assigned edits), hreverse, List.reverse_append, List.reverse_cons, List.append_assoc,
        List.singleton_append]
    · exact Ne.symm (bne_iff_ne.mp (hnone later (List.mem_reverse.mp hlater)))
  · rintro ⟨before, after, hassigned, hnone⟩
    refine ⟨after.reverse, before.reverse, ?_, fun later hlater => ?_⟩
    · rw [hassigned, List.reverse_append, List.reverse_cons, List.append_assoc, List.singleton_append]
    · exact bne_iff_ne.mpr (Ne.symm (hnone later (List.mem_reverse.mp hlater)))

/-- What was ever set has a value that it was last set to. -/
theorem exists_lastSet_iff {edits : List Edit} {name : String} :
    (∃ value, LastSet edits name value) ↔ ∃ value, .setProperty name value ∈ edits := by
  refine ⟨?_, ?_⟩
  · rintro ⟨value, before, after, hassigned, -⟩
    exact ⟨value, mem_assigned.mp (hassigned ▸ List.mem_append_right before List.mem_cons_self)⟩
  · rintro ⟨value, hedit⟩
    rcases hlookup : (assigned edits).reverse.lookup name with _ | last
    · have hnone := List.lookup_eq_none_iff.mp hlookup _ (List.mem_reverse.mpr (mem_assigned.mpr hedit))
      exact absurd rfl (bne_iff_ne.mp hnone)
    · exact ⟨last, (lookup_reverse_assigned edits name last).mp hlookup⟩

/-! ## What an edit preserves -/

/-- A name comes behind the others if it is a new one. -/
theorem eraseDups_append_singleton (names : List String) (name : String) :
    (names ++ [name]).eraseDups = if name ∈ names then names.eraseDups else names.eraseDups ++ [name] := by
  rw [List.eraseDups_append, List.removeAll, List.filter_singleton]
  by_cases h : name ∈ names
  · simp [h]
  · simp [h, List.eraseDups_cons]

/-- A line of a number is a record of edits. -/
structure Records (number : Nat) (edits : List Edit) (node : LineNode) : Prop where
  /-- the number stays -/
  line : node.line = number
  /-- the classes are those added, each where it was added first -/
  classes : node.classes = (lineClass :: added edits).eraseDups
  /-- no class is there twice -/
  nodup : node.classes.Nodup
  /-- the properties ascend -/
  ascending : AscendingByName node.properties
  /-- the properties have the values last set -/
  lookup : ∀ name, node.properties.lookup name = (assigned edits).reverse.lookup name

namespace Records

variable {number : Nat} {edits : List Edit} {node : LineNode}

theorem ofNumber (number : Nat) : Records number [] (ofNumber number) where
  line := rfl
  classes := rfl
  nodup := List.nodup_singleton _
  ascending := List.Pairwise.nil
  lookup := fun _ => rfl

theorem setProperty (h : Records number edits node) (name value : String) :
    Records number (edits ++ [.setProperty name value]) (node.setProperty name value) where
  line := h.line
  classes := by
    have hadded : added (edits ++ [.setProperty name value]) = added edits := by simp [added, Edit.class?]
    rw [hadded]
    exact h.classes
  nodup := h.nodup
  ascending := h.ascending.setValue name value
  lookup := by
    intro other
    have hassigned : assigned (edits ++ [.setProperty name value]) = assigned edits ++ [(name, value)] := by
      simp [assigned, Edit.property?]
    rw [LineNode.setProperty, lookup_setValue, hassigned, List.reverse_append, List.reverse_singleton,
      List.singleton_append, List.lookup_cons, h.lookup]
    by_cases hsame : other = name
    · simp [hsame]
    · simp [hsame, beq_false_of_ne hsame]

theorem addClass (h : Records number edits node) (name : String) :
    Records number (edits ++ [.addClass name]) (node.addClass name) := by
  have hassigned : assigned (edits ++ [.addClass name]) = assigned edits := by simp [assigned, Edit.property?]
  have hadded : lineClass :: added (edits ++ [.addClass name]) = lineClass :: added edits ++ [name] := by
    simp [added, Edit.class?]
  have hmem : name ∈ node.classes ↔ name ∈ lineClass :: added edits := by rw [h.classes, List.mem_eraseDups]
  have hhas : node.hasClass name = true ↔ name ∈ node.classes := List.contains_iff_mem
  rw [LineNode.addClass]
  split
  · -- the class is there, so it was first added before
    rename_i hthere
    refine ⟨h.line, ?_, h.nodup, h.ascending, hassigned ▸ h.lookup⟩
    rw [hadded, eraseDups_append_singleton, if_pos (hmem.mp (hhas.mp hthere))]
    exact h.classes
  · rename_i hmissing
    have hnew : name ∉ node.classes := fun hin => hmissing (hhas.mpr hin)
    refine ⟨h.line, ?_, ?_, h.ascending, hassigned ▸ h.lookup⟩
    · rw [hadded, eraseDups_append_singleton, if_neg (hnew ∘ hmem.mpr), ← h.classes]
    · refine List.nodup_append.mpr ⟨h.nodup, List.nodup_singleton _, fun other hother last hlast => ?_⟩
      rintro rfl
      exact hnew (List.mem_singleton.mp hlast ▸ hother)

theorem apply (h : Records number edits node) (edit : Edit) : Records number (edits ++ [edit]) (edit.apply node) := by
  cases edit with
  | setProperty name value => exact h.setProperty name value
  | addClass name => exact h.addClass name

/-- **More edits make a record of more edits.** -/
theorem annotate (h : Records number edits node) (more : List Edit) :
    Records number (edits ++ more) (node.annotate more) := by
  induction more generalizing edits node with
  | nil => rwa [List.append_nil]
  | cons edit rest ih =>
    have hrest := ih (h.apply edit)
    rwa [List.append_assoc, List.singleton_append] at hrest

/-- Every line has the class of lines, in front. -/
theorem head?_classes (h : Records number edits node) : node.classes.head? = some lineClass := by
  rw [h.classes, List.eraseDups_cons, List.head?_cons]

/-- **A line has a property with a value iff that is the value last set.** -/
theorem mem_properties_iff (h : Records number edits node) {name value : String} :
    (name, value) ∈ node.properties ↔ LastSet edits name value := by
  rw [← h.ascending.lookup_eq_some_iff, h.lookup, lookup_reverse_assigned]

/-- The properties stand in the order of the bytes of their names. -/
theorem pairwise_encode (h : Records number edits node) :
    node.properties.Pairwise fun one other => Text.Utf8.encode one.1 < Text.Utf8.encode other.1 :=
  h.ascending.imp Text.Utf8.encode_lt_encode_iff.mpr

end Records

/-! ## Lines after any edits -/

/-- **Whatever edits are made to a line**, it keeps its number. Its classes are those added, in order of first addition
behind the class of lines, none of them twice, and to add one that is there changes nothing. Its properties are those
that were ever set, each with the value last set, in the order of the bytes of their names, so it makes no difference
which of two names is set first. To set a property leaves the classes alone, and to add a class the properties. -/
theorem annotated (number : Nat) (edits : List Edit) :
    let node := (ofNumber number).annotate edits
    node.line = number ∧
    node.classes.head? = some lineClass ∧ node.classes.Nodup ∧
    node.classes = (lineClass :: added edits).eraseDups ∧
    (∀ name ∈ node.classes, node.addClass name = node) ∧
    (∀ name, (∃ value, (name, value) ∈ node.properties) ↔ ∃ value, .setProperty name value ∈ edits) ∧
    (∀ name value, (name, value) ∈ node.properties ↔ LastSet edits name value) ∧
    (∀ name value, node.property? name = some value ↔ LastSet edits name value) ∧
    node.properties.Pairwise (fun one other => Text.Utf8.encode one.1 < Text.Utf8.encode other.1) ∧
    (∀ name other value next, name ≠ other →
      (node.setProperty name value).setProperty other next = (node.setProperty other next).setProperty name value) ∧
    (∀ name value, (node.setProperty name value).line = number ∧
      (node.setProperty name value).classes = node.classes) ∧
    ∀ name, (node.addClass name).line = number ∧ (node.addClass name).properties = node.properties := by
  intro node
  have hrecords : Records number edits node := (Records.ofNumber number).annotate edits
  refine ⟨hrecords.line, hrecords.head?_classes, hrecords.nodup, hrecords.classes, ?present, ?names,
    fun name value => hrecords.mem_properties_iff, fun name value => ?found, hrecords.pairwise_encode, ?commute,
    fun name value => ⟨hrecords.line, rfl⟩, fun name => ⟨(hrecords.addClass name).line, ?properties⟩⟩
  case present => exact fun name hname => if_pos (List.contains_iff_mem.mpr hname)
  case names =>
    intro name
    rw [← exists_lastSet_iff]
    exact exists_congr fun value => hrecords.mem_properties_iff
  case found => rw [← hrecords.mem_properties_iff, property?, hrecords.ascending.lookup_eq_some_iff]
  case commute =>
    intro name other value next hdiffers
    exact congrArg (LineNode.mk node.line node.classes) (hrecords.ascending.setValue_comm hdiffers value next)
  case properties =>
    rw [LineNode.addClass]
    split <;> rfl

/-- Classes that are there already are added again, and a property is set twice, whose name is the later one by its
first byte. -/
theorem annotated_again :
    let node := (ofNumber 7).annotate [.addClass "b", .setProperty "é" "1", .addClass "line", .setProperty "z" "2",
      .addClass "b", .setProperty "é" "3", .addClass "a"]
    node = ⟨7, ["line", "b", "a"], [("z", "2"), ("é", "3")]⟩ ∧
    "b" ∈ node.classes ∧ node.addClass "b" = node ∧
    "é" ≠ "z" ∧
    (node.setProperty "é" "4").setProperty "z" "5" = (node.setProperty "z" "5").setProperty "é" "4" := by
  intro node
  obtain ⟨-, -, -, -, hpresent, -, -, -, -, hcommute, -⟩ := annotated 7 [.addClass "b", .setProperty "é" "1",
    .addClass "line", .setProperty "z" "2", .addClass "b", .setProperty "é" "3", .addClass "a"]
  have hthere : "b" ∈ node.classes := by decide
  have hdiffers : "é" ≠ "z" := by decide
  exact ⟨by decide, hthere, hpresent "b" hthere, hdiffers, hcommute "é" "z" "4" "5" hdiffers⟩

end LineNode

end CodeMarkup

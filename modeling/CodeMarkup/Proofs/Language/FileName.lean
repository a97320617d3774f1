import CodeMarkup.Language.Detect
import CodeMarkup.Proofs.Text.LetterCase

/-!
# File names decide

What language a path suggests depends on nothing but the name of the file that it leads to. A name that stands at the
end of a path, whatever bytes come before its slash, is found there, also behind slashes and steps that stay in place
(`fileName?_append`). Of two names that are not known as such and differ in the case of ASCII letters in their
extensions, each is of the other's language.

The extension is what follows the last dot of a name, and one that is found ends the name behind a dot that is not its
first byte (`extensionOf?_append`). The lower case of an extension is that of its ASCII letters and of one further
character, so it is all the same for extensions that differ in case.
-/

namespace CodeMarkup

namespace PathBytes

variable {name other stem extension : PathBytes}

/-! ## Names at the end of a path -/

/-- Bytes name an entry of a directory. -/
structure IsEntry (name : PathBytes) : Prop where
  /-- there are some -/
  nonempty : name ≠ []
  /-- they are one name -/
  noSlash : slash ∉ name
  /-- it does not stay -/
  notHere : name ≠ [dot]
  /-- it does not go back up -/
  notUp : name ≠ [dot, dot]

/-- What leads nowhere else behind a name: slashes, and dots behind a slash each. -/
inductive Staying : PathBytes → Prop where
  /-- nothing -/
  | nil : Staying []
  /-- a slash -/
  | slash {rest : PathBytes} (hrest : Staying rest) : Staying (slash :: rest)
  /-- a slash and a dot -/
  | here {rest : PathBytes} (hrest : Staying rest) : Staying (slash :: dot :: rest)

/-- The components on the two sides of a slash. -/
theorem components_append_slash (front rest : PathBytes) :
    components (front ++ slash :: rest) = components front ++ components rest := by
  rw [components, Text.split_append, List.filter_append, components, components]

theorem IsEntry.components (h : IsEntry name) : components name = [name] := by
  rw [PathBytes.components, Text.split_of_not_mem h.noSlash]
  exact List.filter_cons_of_pos (by simpa using ⟨h.nonempty, h.notHere⟩)

/-- What stays has no components of its own. -/
theorem Staying.components {tail : PathBytes} (h : Staying tail) (front : PathBytes) :
    components (front ++ tail) = PathBytes.components front := by
  induction h generalizing front with
  | nil => rw [List.append_nil]
  | @slash rest _ ih =>
    have hrest : PathBytes.components rest = [] := ih []
    rw [components_append_slash, hrest, List.append_nil]
  | @here rest _ ih =>
    have hrest : PathBytes.components (dot :: rest) = [] := ih [dot]
    rw [components_append_slash, hrest, List.append_nil]

theorem IsEntry.fileName?_of_components (h : IsEntry name) {path : PathBytes} {before : List PathBytes}
    (hpath : PathBytes.components path = before ++ [name]) : fileName? path = some name := by
  rw [fileName?, hpath, List.getLast?_concat, Option.filter_some]
  simp [h.notUp]

/-- A name alone is the file's. -/
theorem IsEntry.fileName?_self (h : IsEntry name) : fileName? name = some name :=
  @IsEntry.fileName?_of_components name h name [] h.components

/-- **The name at the end of a path is the file's**, whatever comes before its slash. -/
theorem IsEntry.fileName?_append (h : IsEntry name) (directory : PathBytes) {tail : PathBytes} (htail : Staying tail) :
    fileName? (directory ++ slash :: name ++ tail) = some name := by
  refine h.fileName?_of_components (?_ : _ = PathBytes.components directory ++ [name])
  rw [htail.components, components_append_slash, h.components]

/-! ## Extensions -/

theorem afterLastDot_of_not_mem (h : dot ∉ name) : extensionOf?.afterLastDot name = none := by
  induction name with
  | nil => rfl
  | cons b rest ih =>
    rw [List.mem_cons, not_or] at h
    rw [extensionOf?.afterLastDot, ih h.2]
    exact if_neg (Ne.symm h.1)

theorem afterLastDot_append (front : PathBytes) (h : dot ∉ extension) :
    extensionOf?.afterLastDot (front ++ dot :: extension) = some extension := by
  induction front with
  | nil =>
    rw [List.nil_append, extensionOf?.afterLastDot, afterLastDot_of_not_mem h]
    exact if_pos rfl
  | cons b front ih => rw [List.cons_append, extensionOf?.afterLastDot, ih]

/-- **A name's extension is what follows its last dot**, unless the name begins with that dot. -/
theorem extensionOf?_append (hstem : stem ≠ []) (h : dot ∉ extension) :
    extensionOf? (stem ++ dot :: extension) = some extension := by
  obtain ⟨b, front, rfl⟩ := List.exists_cons_of_ne_nil hstem
  exact afterLastDot_append front h

/-- Two names differ in the case of ASCII letters in their extensions at most. -/
inductive SameButCase : PathBytes → PathBytes → Prop where
  /-- what stands before the last dot is the same, and there is something -/
  | extension {stem extension other : PathBytes} (hstem : stem ≠ []) (hdot : dot ∉ extension)
      (hdot' : dot ∉ other) (hcase : extension.map Text.Utf8.lowerByte = other.map Text.Utf8.lowerByte) :
    SameButCase (stem ++ dot :: extension) (stem ++ dot :: other)

end PathBytes

namespace Builtin

open PathBytes (IsEntry Staying SameButCase slash dot)

/-- The file names that are known as such. -/
def knownNames : List String :=
  ["Cargo.lock", ".bashrc", ".bash_profile", ".zshrc", "Makefile", "makefile", "GNUmakefile"]

/-- A file name is known as such. -/
def IsKnown (name : PathBytes) : Prop :=
  ∃ known ∈ knownNames, Text.Utf8.decode? name = some known

instance (name : PathBytes) : Decidable (IsKnown name) :=
  inferInstanceAs (Decidable (∃ known ∈ _, _))

/-! ## Names -/

theorem ofPath?_of_fileName? {path name : PathBytes} (h : path.fileName? = some name) :
    ofPath? path = ofFileName? name := by
  rw [ofPath?, h, Option.bind_some]

theorem ofKnownName?_of_not_mem {name : String} (h : name ∉ knownNames) : ofKnownName? name = none := by
  unfold ofKnownName?
  split
  case h_8 => rfl
  all_goals exact absurd (by decide) h

/-- The language of a name that is not known as such is that of its extension. -/
theorem ofFileName?_of_not_known {name : PathBytes} (h : ¬IsKnown name) :
    ofFileName? name = ((PathBytes.extensionOf? name).bind Text.Utf8.decode?).bind ofExtension? := by
  have hnone : (Text.Utf8.decode? name).bind ofKnownName? = none := by
    rw [Option.bind_eq_none_iff]
    exact fun text htext => ofKnownName?_of_not_mem fun hmem => h ⟨text, hmem, htext⟩
  rw [ofFileName?, hnone]

/-! ## Letter case -/

/-- Lowering goes on from where ASCII letters have been lowered. -/
theorem lowerChar_toLower (c : Char) : lowerChar c.toLower = lowerChar c := by
  have hletters : ∀ n < 0x80, lowerChar (Char.ofNat n).toLower = lowerChar (Char.ofNat n) := by decide
  by_cases hascii : c.toNat < 0x80
  · have hc := hletters c.toNat hascii
    rwa [Char.ofNat_toNat] at hc
  · have hsame : c.toLower = c := by
      unfold Char.toLower
      split
      · rename_i hupper
        exact absurd (Nat.lt_of_le_of_lt hupper.2 (by decide)) hascii
      · rfl
    rw [hsame]

/-- Extensions that differ in case at most are of one language, also if they are no texts. -/
theorem ofExtension?_of_lower {extension other : PathBytes}
    (h : extension.map Text.Utf8.lowerByte = other.map Text.Utf8.lowerByte) :
    (Text.Utf8.decode? extension).bind ofExtension? = (Text.Utf8.decode? other).bind ofExtension? := by
  have hlower : ∀ text, ofExtension? text
      = ofLowerExtension? (String.ofList ((text.toList.map Char.toLower).map lowerChar)) := by
    intro text
    rw [ofExtension?, List.map_map]
    exact congrArg (fun f => ofLowerExtension? (String.ofList (text.toList.map f)))
      (funext fun c => (lowerChar_toLower c).symm)
  have hread : ∀ bytes, (Text.Utf8.decode? bytes).bind ofExtension?
      = ((Text.Utf8.decode? bytes).map fun text => text.toList.map Char.toLower).bind
        fun chars => ofLowerExtension? (String.ofList (chars.map lowerChar)) := by
    intro bytes
    rw [Option.bind_map]
    exact congrArg _ (funext hlower)
  rw [hread, hread, Text.Utf8.lower_decode? h]

/-- Names that are not known and differ in the case of their extensions at most are of one language. -/
theorem ofFileName?_of_sameButCase {name other : PathBytes} (h : SameButCase name other)
    (hname : ¬IsKnown name) (hother : ¬IsKnown other) : ofFileName? other = ofFileName? name := by
  rw [ofFileName?_of_not_known hname, ofFileName?_of_not_known hother]
  cases h with
  | extension hstem hdot hdot' hcase =>
    rw [PathBytes.extensionOf?_append hstem hdot, PathBytes.extensionOf?_append hstem hdot',
      Option.bind_some, Option.bind_some, ofExtension?_of_lower hcase]

/-- **The file's name decides.** Whatever directory the name stands in, given by any bytes, and whatever slashes and
dots stand behind it, the path is of the same language as the name alone. And the case of the ASCII letters in the
extension makes no difference for names that are not known as such. -/
theorem ofPath?_eq_of_name {name : PathBytes} (h : name.IsEntry) :
    (∀ directory tail : PathBytes, Staying tail →
      ofPath? (directory ++ slash :: name ++ tail) = ofPath? name) ∧
    ∀ other : PathBytes, other.IsEntry → SameButCase name other → ¬IsKnown name → ¬IsKnown other →
      ofPath? other = ofPath? name := by
  have hname := ofPath?_of_fileName? h.fileName?_self
  refine ⟨fun directory tail htail => ?_, fun other hother hcase hknown hunknown => ?_⟩
  · rw [hname, ofPath?_of_fileName? (h.fileName?_append directory htail)]
  · rw [hname, ofPath?_of_fileName? hother.fileName?_self, ofFileName?_of_sameButCase hcase hknown hunknown]

/-- Behind a directory whose name is no text, `a.RS` is of the language of `a.rs`, also with a slash at the end. -/
theorem ofPath?_eq_of_name_shouting :
    ofPath? ([0xFF] ++ slash :: [0x61, 0x2E, 0x52, 0x53] ++ [slash, dot, slash]) = some .rust := by
  have hname : PathBytes.IsEntry [0x61, 0x2E, 0x52, 0x53] := ⟨by decide, by decide, by decide, by decide⟩
  have hother : PathBytes.IsEntry [0x61, 0x2E, 0x72, 0x73] := ⟨by decide, by decide, by decide, by decide⟩
  have hcase : SameButCase [0x61, 0x2E, 0x52, 0x53] [0x61, 0x2E, 0x72, 0x73] :=
    .extension (List.cons_ne_nil 0x61 []) (by decide) (by decide) (by decide)
  obtain ⟨hpath, hsame⟩ := ofPath?_eq_of_name hname
  rw [hpath [0xFF] [slash, dot, slash] (.here (.slash .nil)),
    ← hsame _ hother hcase (by decide +kernel) (by decide +kernel)]
  decide +kernel

end Builtin

end CodeMarkup

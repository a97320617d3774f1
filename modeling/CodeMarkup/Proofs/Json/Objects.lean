import CodeMarkup.Proofs.Json.Values

/-!
# JSON objects, member by member

The members of an object are listed with where their values stand (`Object`). Reading an object with a reader of its
members is reading their values one after another (`readMembers_eq_some_iff`), whatever the reader makes of them, so
long as it leaves no more of a text than there was.
-/

namespace CodeMarkup.Json

variable {text middle rest : List Char}

/-! ## Forms -/

/-- A member of an object, where it stands. -/
structure Member where
  /-- its name -/
  name : List Char
  /-- the text from its value on -/
  value : List Char
  /-- the text that its value leaves -/
  after : List Char

/-- A text starts with members and the brace that ends them. -/
inductive Members : List Member → List Char → List Char → Prop where
  /-- there is one left -/
  | last {member : Member} {units : List StringUnit} {text rest : List Char}
      (hname : Named units text member.value) (hjoin : joinUnits units = some member.name)
      (hend : Blanks member.after ('}' :: rest)) : Members [member] text rest
  /-- there are more -/
  | more {member : Member} {units : List StringUnit} {members : List Member} {text next rest : List Char}
      (hname : Named units text member.value) (hjoin : joinUnits units = some member.name)
      (hcomma : Blanks member.after (',' :: next)) (hrest : Members members next rest) :
    Members (member :: members) text rest

/-- A text starts with what an object has after its brace. -/
inductive Object : List Member → List Char → List Char → Prop where
  /-- nothing -/
  | empty {text rest : List Char} (hend : Blanks text ('}' :: rest)) : Object [] text rest
  /-- its members -/
  | members {members : List Member} {text rest : List Char} (hmembers : Members members text rest) :
    Object members text rest

/-! ## Reading -/

variable {σ : Type} {reader : σ → List Char → List Char → Option (σ × List Char)} {state last : σ}
  {members : List Member} {fuel : Nat}

/-- Reading the values of members takes a state from one to the next. -/
inductive Reads (reader : σ → List Char → List Char → Option (σ × List Char)) : σ → List Member → σ → Prop where
  /-- at the end -/
  | nil {state : σ} : Reads reader state [] state
  /-- by a member and those after it -/
  | cons {state next last : σ} {member : Member} {members : List Member}
      (hstart : skipBlanks member.value = member.value)
      (hread : reader state member.name member.value = some (next, member.after))
      (hrest : Reads reader next members last) : Reads reader state (member :: members) last

theorem reads_nil_iff : Reads reader state [] last ↔ last = state := by
  constructor
  · rintro ⟨⟩
    rfl
  · rintro rfl
    exact .nil

theorem reads_cons_iff {member : Member} : Reads reader state (member :: members) last ↔
    skipBlanks member.value = member.value ∧
      ∃ next, reader state member.name member.value = some (next, member.after) ∧ Reads reader next members last := by
  constructor
  · rintro (_ | ⟨hstart, hread, hrest⟩)
    exact ⟨hstart, _, hread, hrest⟩
  · rintro ⟨hstart, next, hread, hrest⟩
    exact .cons hstart hread hrest

/-- Blanks in front of members do not count. -/
theorem Members.of_blanks (h : Members members middle rest) (htext : Blanks text middle) :
    Members members text rest := by
  cases h with
  | last hname hjoin hend => exact .last (hname.of_blanks htext) hjoin hend
  | more hname hjoin hcomma hrest => exact .more (hname.of_blanks htext) hjoin hcomma hrest

/-- Members start with a quotation mark, blanks aside. -/
theorem Members.head (h : Members members text rest) :
    ∃ inside, skipBlanks text = '"' :: inside ∧ Members members ('"' :: inside) rest := by
  cases h with
  | last hname hjoin hend =>
    obtain ⟨hquote, hunits, hcolon, hblanks⟩ := hname
    exact ⟨_, (skipBlanks_eq_cons_iff rfl).mpr hquote, .last (.colon .nil hunits hcolon hblanks) hjoin hend⟩
  | more hname hjoin hcomma hrest =>
    obtain ⟨hquote, hunits, hcolon, hblanks⟩ := hname
    exact ⟨_, (skipBlanks_eq_cons_iff rfl).mpr hquote, .more (.colon .nil hunits hcolon hblanks) hjoin hcomma hrest⟩

/-- The text after each member's value does not go on with a number. -/
theorem Members.endsWord (h : Members members text rest) : ∀ member ∈ members, EndsWord member.after := by
  induction h with
  | last _ _ hend => exact List.forall_mem_singleton.mpr (hend.endsWord (by decide))
  | more _ _ hcomma _ ih => exact List.forall_mem_cons.mpr ⟨hcomma.endsWord (by decide), ih⟩

theorem Object.endsWord (h : Object members text rest) : ∀ member ∈ members, EndsWord member.after := by
  cases h with
  | empty => exact nofun
  | members hmembers => exact hmembers.endsWord

/-- **Members that were read stand in the text**, and were read one after another. -/
theorem members_of_readMembersFrom (h : readMembersFrom reader fuel state text = some (last, rest)) :
    ∃ members, Members members text rest ∧ Reads reader state members last := by
  induction fuel generalizing state text with
  | zero => cases h
  | succ fuel ih =>
    rw [readMembersFrom] at h
    have hquote := blanks_skipBlanks text
    split at h
    · rename_i inside hinside
      rw [hinside] at hquote
      obtain ⟨⟨name, colon⟩, hname, h⟩ := Option.bind_eq_some_iff.mp h
      obtain ⟨units, hunits, hjoin⟩ := readString_eq_some_iff.mp hname
      have hcolon := blanks_skipBlanks colon
      dsimp only at h
      split at h
      · rename_i before hbefore
        rw [hbefore] at hcolon
        have hnamed := Named.colon hquote hunits hcolon (blanks_skipBlanks before)
        have hstart := skipBlanks_skipBlanks before
        obtain ⟨⟨next, after⟩, hread, h⟩ := Option.bind_eq_some_iff.mp h
        have hend := blanks_skipBlanks after
        dsimp only at h
        split at h
        · rename_i htoken
          obtain ⟨rfl, rfl⟩ := Prod.mk.inj (Option.some.inj h)
          exact ⟨[⟨name, skipBlanks before, after⟩], .last hnamed hjoin (htoken ▸ hend), .cons hstart hread .nil⟩
        · rename_i htoken
          obtain ⟨members, hmembers, hreads⟩ := ih h
          exact ⟨⟨name, skipBlanks before, after⟩ :: members, .more hnamed hjoin (htoken ▸ hend) hmembers,
            .cons hstart hread hreads⟩
        · cases h
      · cases h
    · cases h

/-- A reader leaves no more of a text than there was. -/
def Shortens (reader : σ → List Char → List Char → Option (σ × List Char)) : Prop :=
  ∀ {state next : σ} {name text rest : List Char}, reader state name text = some (next, rest) →
    rest.length ≤ text.length

theorem Members.length_lt (h : Members members text rest) (hshort : Shortens reader)
    (hreads : Reads reader state members last) : rest.length < text.length := by
  induction h generalizing state with
  | last hname _ hend =>
    obtain _ | ⟨-, hread, -⟩ := hreads
    have hvalue := hshort hread
    have hend := hend.length_le
    have hname := hname.length_lt
    rw [List.length_cons] at hend
    omega
  | more hname _ hcomma _ ih =>
    obtain _ | ⟨-, hread, hreads⟩ := hreads
    have hmore := ih hreads
    have hvalue := hshort hread
    have hcomma := hcomma.length_le
    have hname := hname.length_lt
    rw [List.length_cons] at hcomma
    omega

/-- **Members that stand in the text are read**, if each can be. -/
theorem Members.read (h : Members members text rest) (hshort : Shortens reader)
    (hreads : Reads reader state members last) (hfuel : text.length ≤ fuel) :
    readMembersFrom reader fuel state text = some (last, rest) := by
  have hlength := h.length_lt hshort hreads
  induction h generalizing state fuel with
  | last hname hjoin hend =>
    obtain ⟨fuel, rfl⟩ := Nat.exists_eq_add_one_of_ne_zero (n := fuel) (by omega)
    obtain ⟨hquote, hunits, hcolon, hblanks⟩ := hname
    obtain _ | ⟨hstart, hread, _ | _⟩ := hreads
    have hstring := readString_eq_some_iff.mpr ⟨_, hunits, hjoin⟩
    rw [readMembersFrom, (skipBlanks_eq_cons_iff rfl).mpr hquote]
    simp only [hstring, (skipBlanks_eq_cons_iff rfl).mpr hcolon, hblanks.skip hstart, hread,
      (skipBlanks_eq_cons_iff rfl).mpr hend, Option.bind_eq_bind, Option.bind_some]
  | more hname hjoin hcomma hmore ih =>
    obtain ⟨fuel, rfl⟩ := Nat.exists_eq_add_one_of_ne_zero (n := fuel) (by omega)
    have hvalue := hname.length_lt
    obtain ⟨hquote, hunits, hcolon, hblanks⟩ := hname
    obtain _ | ⟨hstart, hread, hreads⟩ := hreads
    have hstring := readString_eq_some_iff.mpr ⟨_, hunits, hjoin⟩
    have hafter := hshort hread
    have hnext := hcomma.length_le
    rw [List.length_cons] at hnext
    rw [readMembersFrom, (skipBlanks_eq_cons_iff rfl).mpr hquote]
    simp only [hstring, (skipBlanks_eq_cons_iff rfl).mpr hcolon, hblanks.skip hstart, hread,
      (skipBlanks_eq_cons_iff rfl).mpr hcomma, Option.bind_eq_bind, Option.bind_some]
    exact ih hreads (by omega) (hmore.length_lt hshort hreads)

/-- **An object is read iff the text has the form of one**, and its members can be read one after another. -/
theorem readMembers_eq_some_iff (hshort : Shortens reader) : readMembers reader state text = some (last, rest) ↔
    ∃ members, Object members text rest ∧ Reads reader state members last := by
  have hblanks := blanks_skipBlanks text
  unfold readMembers
  constructor
  · intro h
    split at h
    · rename_i hend
      obtain ⟨rfl, rfl⟩ := Prod.mk.inj (Option.some.inj h)
      exact ⟨[], .empty (hend ▸ hblanks), .nil⟩
    · obtain ⟨members, hmembers, hreads⟩ := members_of_readMembersFrom h
      exact ⟨members, .members (hmembers.of_blanks hblanks), hreads⟩
  · rintro ⟨members, hobject, hreads⟩
    cases hobject with
    | empty hend =>
      cases hreads
      rw [(skipBlanks_eq_cons_iff rfl).mpr hend]
      rfl
    | members hmembers =>
      obtain ⟨inside, hquote, hinside⟩ := hmembers.head
      rw [hquote]
      exact hinside.read hshort hreads (Nat.le_refl _)

theorem length_of_readMembers (hshort : Shortens reader) (h : readMembers reader state text = some (last, rest)) :
    rest.length ≤ text.length := by
  obtain ⟨members, hobject, hreads⟩ := (readMembers_eq_some_iff hshort).mp h
  cases hobject with
  | empty hend => exact Nat.le_of_lt hend.length_le
  | members hmembers => exact Nat.le_of_lt (hmembers.length_lt hshort hreads)

end CodeMarkup.Json

import CodeMarkup.Text.Utf8
import CodeMarkup.Text.Line

/-!
# The bytes of a text

The bytes of a text are the bytes of its characters, one character after another (`encode_ofList`). Two things follow.
The byte that is a newline stands for a newline wherever it is, since a character of several bytes has none
(`count_newline`). And names that are sorted as sequences of characters are sorted as sequences of bytes
(`encode_lt_encode_iff`): where two characters differ, so do their bytes, and at the first byte that differs the smaller
character has the smaller byte (`precedes_utf8EncodeChar`). A character is written as a lead byte and bytes of six bits
each, so this is shown for the lead byte first and then carried over to one byte more (`WritesAscending.tail`).
-/

namespace CodeMarkup.Text.Utf8

/-! ## Characters one after another -/

/-- The list of an array's bytes is read off from the front. -/
theorem toList_loop (array : ByteArray) (i : Nat) (read : List UInt8) :
    ByteArray.toList.loop array i read = read.reverse ++ array.data.toList.drop i := by
  fun_induction ByteArray.toList.loop array i read with
  | case1 i read hlt ih =>
    have hi : i < array.data.toList.length := by simpa using hlt
    rw [ih, List.drop_eq_getElem_cons hi, ByteArray.get!, getElem!_pos array.data i hlt]
    simp
  | case2 i read hge =>
    have hi : array.data.toList.length ≤ i := by simpa using hge
    rw [List.drop_eq_nil_of_le hi, List.append_nil]

/-- **The bytes of a text are the bytes of its characters**, in order. -/
theorem encode_ofList (text : List Char) : encode (String.ofList text) = text.flatMap String.utf8EncodeChar := by
  have hdata : (text.flatMap String.utf8EncodeChar).toByteArray.data.toList = text.flatMap String.utf8EncodeChar :=
    List.toList_data_toByteArray
  rw [encode, String.toUTF8_eq_toByteArray, String.toByteArray_ofList, ByteArray.toList, toList_loop]
  exact hdata

theorem encode_eq_flatMap (text : String) : encode text = text.toList.flatMap String.utf8EncodeChar := by
  rw [← encode_ofList, String.ofList_toList]

theorem length_encode_ofList (text : List Char) : (encode (String.ofList text)).length = byteLength text := by
  rw [encode_ofList]
  induction text with
  | nil => rfl
  | cons c rest ih => rw [List.flatMap_cons, List.length_append, ih, String.length_utf8EncodeChar, byteLength_cons]

/-! ## Newlines -/

/-- The byte that a newline is. -/
def newline : UInt8 := 0x0A

/-- Only a newline has the newline's byte. -/
theorem count_newline (c : Char) : (String.utf8EncodeChar c).count newline = if c = '\n' then 1 else 0 := by
  by_cases h : c = '\n'
  · subst h
    rfl
  · rw [if_neg h, List.count_eq_zero]
    have hval : c.val.toNat ≠ 10 := fun hten => h (Char.ext (UInt32.toNat_inj.mp hten))
    intro hmem
    unfold String.utf8EncodeChar newline at hmem
    dsimp only at hmem
    repeat' split at hmem
    all_goals simp only [List.mem_cons, List.not_mem_nil, or_false, ← UInt8.toNat_inj, UInt8.toNat_ofNat',
      UInt8.reduceToNat] at hmem
    all_goals omega

/-! ## Order -/

variable {one other : List UInt8}

/-- One run of bytes comes before another at a byte in which they differ, so that it makes no difference what follows
them. -/
def Precedes (one other : List UInt8) : Prop :=
  ∀ after later, one ++ after < other ++ later

theorem precedes_ofNat {n m : Nat} (h : n < m) (hm : m < 256) (rest more : List UInt8) :
    Precedes (UInt8.ofNat n :: rest) (UInt8.ofNat m :: more) := by
  refine fun after later => List.cons_lt_cons_iff.mpr (Or.inl ?_)
  rw [UInt8.lt_iff_toNat_lt, UInt8.toNat_ofNat', UInt8.toNat_ofNat']
  omega

theorem Precedes.append (h : Precedes one other) (rest more : List UInt8) : Precedes (one ++ rest) (other ++ more) := by
  intro after later
  rw [List.append_assoc, List.append_assoc]
  exact h _ _

theorem Precedes.append_left (h : Precedes one other) (front : List UInt8) :
    Precedes (front ++ one) (front ++ other) := by
  intro after later
  rw [List.append_assoc, List.append_assoc]
  exact List.append_left_lt (h after later)

/-- Of two numbers below a bound, what is written for the smaller one comes before what is written for the other. -/
def WritesAscending (bound : Nat) (write : Nat → List UInt8) : Prop :=
  ∀ n m, n < m → m < bound → Precedes (write n) (write m)

/-- A lead byte is a mark with a few bits. -/
theorem writesAscending_lead (bound mark : Nat) (h : bound + mark ≤ 256) :
    WritesAscending bound fun n => [UInt8.ofNat (n % bound + mark)] := by
  intro n m hlt hbound
  have hn : n % bound = n := Nat.mod_eq_of_lt (Nat.lt_trans hlt hbound)
  have hm : m % bound = m := Nat.mod_eq_of_lt hbound
  dsimp only
  rw [hn, hm]
  exact precedes_ofNat (by omega) (by omega) [] []

/-- A byte more takes the last six bits, and what was written takes the bits before them. -/
theorem WritesAscending.tail {bound : Nat} {write : Nat → List UInt8} (h : WritesAscending bound write) :
    WritesAscending (bound * 64) fun n => write (n / 64) ++ [UInt8.ofNat (n % 64 + 0x80)] := by
  intro n m hlt hbound
  rcases Nat.lt_or_ge (n / 64) (m / 64) with hbefore | hsame
  · exact (h _ _ hbefore (by omega)).append _ _
  · have heq : n / 64 = m / 64 := by omega
    dsimp only
    rw [heq]
    exact (precedes_ofNat (by omega) (by omega) [] []).append_left _

/-- **The bytes of a smaller character come first**, whatever follows them. -/
theorem precedes_utf8EncodeChar {c d : Char} (h : c < d) :
    Precedes (String.utf8EncodeChar c) (String.utf8EncodeChar d) := by
  have hlt : c.val.toNat < d.val.toNat := h
  have hmax : d.val.toNat < 0x110000 := by
    rcases d.valid with hlow | hhigh
    · exact Nat.lt_trans hlow (by decide)
    · exact hhigh.2
  -- characters of two, three and four bytes, among themselves
  have htwo := (writesAscending_lead 32 0xc0 (by decide)).tail _ _ hlt
  have hthree := (writesAscending_lead 16 0xe0 (by decide)).tail.tail _ _ hlt
  have hfour := (writesAscending_lead 8 0xf0 (by decide)).tail.tail.tail _ _ hlt
  simp only [Nat.div_div_eq_div_mul, Nat.reduceMul, List.cons_append, List.nil_append] at htwo hthree hfour
  unfold String.utf8EncodeChar
  dsimp only
  generalize c.val.toNat = n at *
  generalize d.val.toNat = m at *
  -- a character of more bytes has a greater lead byte, and the greater character has no fewer bytes
  split
  · split
    · exact precedes_ofNat hlt (by omega) _ _
    · repeat' split
      all_goals exact precedes_ofNat (by omega) (by omega) _ _
  · split
    · split
      · omega
      · split
        · exact htwo (by omega)
        · split
          all_goals exact precedes_ofNat (by omega) (by omega) _ _
    · split
      · repeat' split
        · omega
        · omega
        · exact hthree (by omega)
        · exact precedes_ofNat (by omega) (by omega) _ _
      · repeat' split
        · omega
        · omega
        · omega
        · exact hfour (by omega)

theorem flatMap_utf8EncodeChar_lt {chars others : List Char} (h : chars < others) :
    chars.flatMap String.utf8EncodeChar < others.flatMap String.utf8EncodeChar := by
  induction chars generalizing others with
  | nil =>
    obtain _ | ⟨d, others⟩ := others
    · cases h
    · obtain ⟨byte, bytes, hbytes⟩ := List.exists_cons_of_ne_nil (@String.utf8EncodeChar_ne_nil d)
      rw [List.flatMap_cons, hbytes]
      exact List.nil_lt_cons _ _
  | cons c chars ih =>
    obtain _ | ⟨d, others⟩ := others
    · cases h
    · rcases List.cons_lt_cons_iff.mp h with hlt | ⟨rfl, hrest⟩
      · exact precedes_utf8EncodeChar hlt _ _
      · exact List.append_left_lt (ih hrest)

/-- **Texts are ordered as their bytes are.** -/
theorem encode_lt_encode_iff {text later : String} : encode text < encode later ↔ text < later := by
  have hmono : ∀ {text later : String}, text < later → encode text < encode later := by
    intro text later h
    rw [encode_eq_flatMap, encode_eq_flatMap]
    exact flatMap_utf8EncodeChar_lt h
  refine ⟨fun hbytes => ?_, hmono⟩
  by_cases hlt : text < later
  · exact hlt
  · by_cases heq : text = later
    · subst heq
      exact absurd hbytes (List.lt_irrefl _)
    · have hafter : later < text := Std.lt_of_le_of_ne (String.not_lt.mp hlt) (Ne.symm heq)
      exact absurd (hmono hafter) (List.lt_asymm hbytes)

end CodeMarkup.Text.Utf8

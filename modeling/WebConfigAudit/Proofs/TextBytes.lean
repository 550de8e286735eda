import WebConfigAudit.Proofs.TokenPlaces
/-!
The bytes of a text in UTF-8.  Every byte of a character beyond ASCII lies
beyond ASCII too, so a class that is made of ASCII marks has the same runs in
the bytes of a text as in its characters, and each run ends between two
characters.
-/

namespace WebConfigAudit.Text

/-- The bytes of a text. -/
def bytes (cs : List Char) : List UInt8 :=
  cs.flatMap String.utf8EncodeChar

@[simp] theorem bytes_nil : bytes [] = [] := rfl

@[simp] theorem bytes_append (cs ds : List Char) :
    bytes (cs ++ ds) = bytes cs ++ bytes ds :=
  List.flatMap_append

theorem bytes_cons (c : Char) (cs : List Char) :
    bytes (c :: cs) = String.utf8EncodeChar c ++ bytes cs := rfl

/-- They are the bytes that a string consists of. -/
theorem bytes_toList (s : String) :
    bytes s.toList = s.toByteArray.data.toList := by
  rw [← String.utf8Encode_toList, List.utf8Encode, List.data_toByteArray]
  rfl

@[simp] theorem length_bytes (cs : List Char) :
    (bytes cs).length = byteCount cs := by
  induction cs with
  | nil => rfl
  | cons c cs ih =>
      rw [bytes_cons, List.length_append, ih, byteCount_cons,
        String.length_utf8EncodeChar]
      simp [byteCount]

theorem byteCount_eq_zero_iff {cs : List Char} :
    byteCount cs = 0 ↔ cs = [] := by
  cases cs with
  | nil => exact iff_of_true rfl rfl
  | cons c cs =>
      have hpos := byteCount_single_pos c
      rw [byteCount_cons]
      exact iff_of_false (by omega) (List.cons_ne_nil c cs)

/-- A character of ASCII is its own byte, and the bytes of any other lie beyond
ASCII. -/
theorem utf8EncodeChar_cases (c : Char) :
    (c.toNat < 0x80 ∧ String.utf8EncodeChar c = [c.toUInt8]) ∨
      (0x80 ≤ c.toNat ∧ ∀ b ∈ String.utf8EncodeChar c, 0x80 ≤ b.toNat) := by
  by_cases hascii : c.toNat < 0x80
  · left
    refine ⟨hascii, String.utf8EncodeChar_eq_singleton ?_⟩
    rw [Char.utf8Size_eq_one_iff, UInt32.le_iff_toNat_le]
    exact Nat.le_of_lt_succ hascii
  · right
    refine ⟨Nat.le_of_not_lt hascii, ?_⟩
    intro b hb
    have hcode : ¬ c.val.toNat ≤ 127 := fun hle =>
      hascii (Nat.lt_succ_of_le hle)
    simp only [String.utf8EncodeChar, if_neg hcode] at hb
    split at hb
    · simp only [List.mem_cons, List.not_mem_nil, or_false] at hb
      rcases hb with rfl | rfl <;> rw [UInt8.toNat_ofNat'] <;> omega
    · split at hb
      · simp only [List.mem_cons, List.not_mem_nil, or_false] at hb
        rcases hb with rfl | rfl | rfl <;> rw [UInt8.toNat_ofNat'] <;> omega
      · simp only [List.mem_cons, List.not_mem_nil, or_false] at hb
        rcases hb with rfl | rfl | rfl | rfl <;>
          rw [UInt8.toNat_ofNat'] <;> omega

theorem exists_utf8EncodeChar_eq_cons (c : Char) :
    ∃ b others, String.utf8EncodeChar c = b :: others :=
  List.exists_cons_of_ne_nil String.utf8EncodeChar_ne_nil

theorem toNat_toUInt8 {c : Char} (hascii : c.toNat < 0x80) :
    c.toUInt8.toNat = c.toNat := by
  rw [Char.toUInt8, UInt32.toNat_toUInt8]
  exact Nat.mod_eq_of_lt (hascii.trans (by decide))

/-- A byte of a character is that of an ASCII mark just if the character is the
mark. -/
theorem byte_eq_mark_iff {mark c : Char} {b : UInt8} (hmark : mark.toNat < 0x80)
    (hb : b ∈ String.utf8EncodeChar c) : b = mark.toUInt8 ↔ c = mark := by
  rcases utf8EncodeChar_cases c with ⟨hascii, hbytes⟩ | ⟨hbeyond, hbytes⟩
  · rw [hbytes, List.mem_singleton] at hb
    subst hb
    constructor
    · intro hsame
      apply Char.toNat_inj.mp
      rw [← toNat_toUInt8 hascii, hsame, toNat_toUInt8 hmark]
    · rintro rfl
      rfl
  · have hbyte := hbytes b hb
    constructor
    · rintro rfl
      rw [toNat_toUInt8 hmark] at hbyte
      omega
    · rintro rfl
      omega

theorem byte_beq (mark : Char) (hmark : mark.toNat < 0x80) {c : Char}
    {b : UInt8} (hb : b ∈ String.utf8EncodeChar c) :
    (b == mark.toUInt8) = (c == mark) := by
  rw [Bool.eq_iff_iff, beq_iff_eq, beq_iff_eq]
  exact byte_eq_mark_iff hmark hb

/-- A class of bytes tells of every byte of a character whether the character is
in a class. -/
def ReadsClass (q : UInt8 → Bool) (p : Char → Bool) : Prop :=
  ∀ c, ∀ b ∈ String.utf8EncodeChar c, q b = p c

section Classes

variable {q : UInt8 → Bool} {p : Char → Bool}

theorem ReadsClass.not (hreads : ReadsClass q p) :
    ReadsClass (fun b => !q b) fun c => !p c := by
  intro c b hb
  exact congrArg Bool.not (hreads c b hb)

/-- The run of a class of bytes is that of the class of characters that it
reads. -/
theorem takeWhile_bytes (hreads : ReadsClass q p) (cs : List Char) :
    (bytes cs).takeWhile q = bytes (cs.takeWhile p) := by
  induction cs with
  | nil => rfl
  | cons c cs ih =>
      by_cases hc : p c = true
      · have hall : ∀ b ∈ String.utf8EncodeChar c, q b = true := by
          intro b hb
          rw [hreads c b hb, hc]
        rw [List.takeWhile_cons_of_pos hc, bytes_cons, bytes_cons,
          List.takeWhile_append_of_pos hall, ih]
      · obtain ⟨b, others, hbytes⟩ := exists_utf8EncodeChar_eq_cons c
        have hb : q b = p c := hreads c b (by simp [hbytes])
        rw [List.takeWhile_cons_of_neg hc, bytes_cons, hbytes, List.cons_append,
          List.takeWhile_cons_of_neg (by rw [hb]; exact hc), bytes_nil]

end Classes

/-- The first offset from the given one on whose byte is not of the class, or
the end. -/
def skipBytes (q : UInt8 → Bool) (source : List UInt8) (offset : Nat) : Nat :=
  if h : offset < source.length then
    if q source[offset] then skipBytes q source (offset + 1) else offset
  else offset
termination_by source.length - offset

section Skipping

variable (q : UInt8 → Bool) (source : List UInt8) (offset : Nat)

theorem le_skipBytes : offset ≤ skipBytes q source offset := by
  fun_induction skipBytes q source offset with
  | case1 offset h hin ih => exact (Nat.le_succ offset).trans ih
  | case2 offset h hout => exact Nat.le_refl offset
  | case3 offset hend => exact Nat.le_refl offset

/-- What is passed over is of the class. -/
theorem byte_of_lt_skipBytes {i : Nat} (hle : offset ≤ i)
    (hlt : i < skipBytes q source offset) :
    ∃ b, source[i]? = some b ∧ q b = true := by
  fun_induction skipBytes q source offset with
  | case1 offset h hin ih =>
      rcases Nat.eq_or_lt_of_le hle with rfl | hlater
      · exact ⟨source[offset], List.getElem?_eq_getElem h, hin⟩
      · exact ih hlater hlt
  | case2 offset h hout => exact absurd hlt (Nat.not_lt_of_le hle)
  | case3 offset hend => exact absurd hlt (Nat.not_lt_of_le hle)

/-- What comes next is not. -/
theorem byte_at_skipBytes {b : UInt8}
    (hb : source[skipBytes q source offset]? = some b) : q b = false := by
  fun_induction skipBytes q source offset with
  | case1 offset h hin ih => exact ih hb
  | case2 offset h hout =>
      rw [List.getElem?_eq_getElem h, Option.some.injEq] at hb
      rw [← hb]
      exact eq_false_of_ne_true hout
  | case3 offset hend =>
      rw [List.getElem?_eq_none (Nat.le_of_not_lt hend)] at hb
      contradiction

theorem skipBytes_append (front rest : List UInt8) :
    skipBytes q (front ++ rest) front.length =
      front.length + (rest.takeWhile q).length := by
  induction rest generalizing front with
  | nil =>
      rw [skipBytes, dif_neg (by simp)]
      rfl
  | cons b rest ih =>
      have hlt : front.length < (front ++ b :: rest).length := by simp
      have hbyte : (front ++ b :: rest)[front.length] = b := by simp
      rw [skipBytes, dif_pos hlt, hbyte]
      by_cases hb : q b = true
      · have hnext := ih (front ++ [b])
        rw [List.append_assoc, List.singleton_append, List.length_append,
          List.length_singleton] at hnext
        rw [if_pos hb, hnext, List.takeWhile_cons_of_pos hb, List.length_cons]
        omega
      · rw [if_neg hb, List.takeWhile_cons_of_neg hb]
        rfl

end Skipping

/-- The cursor is on the character at the offset, and knows its place. -/
def Cursor.StandsAt (source : List Char) (offset : Nat) (c : Cursor) : Prop :=
  ∃ before, source = before ++ c.rest ∧ offset = byteCount before ∧
    c.pos = Position.start.advance before

namespace Cursor.StandsAt

variable {source text : List Char} {offset : Nat} {c d : Cursor}

theorem isBoundary (hc : c.StandsAt source offset) :
    IsBoundary source offset := by
  obtain ⟨before, hsource, hoffset, _⟩ := hc
  exact ⟨before, c.rest, hsource, hoffset⟩

theorem position_eq (hc : c.StandsAt source offset) :
    (LineTable.of source).position offset = c.pos := by
  obtain ⟨before, rfl, rfl, hpos⟩ := hc
  rw [LineTable.position_byteCount, hpos]

theorem passes (hc : c.StandsAt source offset) (hpasses : c.Passes text d) :
    d.StandsAt source (offset + byteCount text) := by
  obtain ⟨before, rfl, rfl, hpos⟩ := hc
  refine ⟨before ++ text, ?_, (byteCount_append before text).symm, ?_⟩
  · rw [hpasses.rest, List.append_assoc]
  · rw [hpasses.pos, hpos, Position.advance_append]

/-- Bytes and characters of a class are passed over to the same place. -/
theorem skip {q : UInt8 → Bool} {p : Char → Bool}
    (hc : c.StandsAt source offset) (hreads : ReadsClass q p) :
    (c.skip p).StandsAt source (skipBytes q (bytes source) offset) := by
  have hskip : skipBytes q (bytes source) offset =
      offset + byteCount (c.run p) := by
    obtain ⟨before, rfl, rfl, _⟩ := hc
    rw [bytes_append, ← length_bytes before, skipBytes_append,
      takeWhile_bytes hreads, length_bytes, length_bytes]
    rfl
  rw [hskip]
  exact hc.passes (c.passes_skip p)

/-- The rest of the text tells the offset. -/
theorem offset_unique {other : Nat} (hc : c.StandsAt source offset)
    (hother : c.StandsAt source other) : offset = other := by
  obtain ⟨before, hsource, rfl, _⟩ := hc
  obtain ⟨before', hsource', rfl, _⟩ := hother
  rw [List.append_cancel_right (hsource.symm.trans hsource')]

/-- The offset tells the rest of the text. -/
theorem eq (hc : c.StandsAt source offset) (hd : d.StandsAt source offset) :
    c = d := by
  obtain ⟨before, hsource, hoffset, hpos⟩ := hc
  obtain ⟨before', hsource', hoffset', hpos'⟩ := hd
  have hsplit := splitAtByte?_eq_some_iff.mpr ⟨hsource, hoffset⟩
  rw [splitAtByte?_eq_some_iff.mpr ⟨hsource', hoffset'⟩, Option.some.injEq,
    Prod.mk.injEq] at hsplit
  obtain ⟨rfl, hrest⟩ := hsplit
  obtain ⟨rest, pos⟩ := c
  exact congrArg₂ Cursor.mk hrest.symm (hpos.trans hpos'.symm)

theorem getElem?_of_nil (hc : c.StandsAt source offset) (hrest : c.rest = []) :
    (bytes source)[offset]? = none := by
  obtain ⟨before, rfl, rfl, _⟩ := hc
  simp [hrest]

/-- The byte at the offset is one of the character that comes next. -/
theorem exists_getElem? {x : Char} {rest : List Char}
    (hc : c.StandsAt source offset) (hrest : c.rest = x :: rest) :
    ∃ b ∈ String.utf8EncodeChar x, (bytes source)[offset]? = some b := by
  obtain ⟨before, rfl, rfl, _⟩ := hc
  obtain ⟨b, others, hbytes⟩ := exists_utf8EncodeChar_eq_cons x
  refine ⟨b, by simp [hbytes], ?_⟩
  rw [bytes_append, hrest, bytes_cons, hbytes, ← length_bytes before]
  simp

theorem lt_length_iff (hc : c.StandsAt source offset) :
    offset < (bytes source).length ↔ c.rest ≠ [] := by
  cases hrest : c.rest with
  | nil =>
      have hend := List.getElem?_eq_none_iff.mp (hc.getElem?_of_nil hrest)
      exact iff_of_false (Nat.not_lt_of_le hend) fun hne => hne rfl
  | cons x rest =>
      obtain ⟨b, _, hbyte⟩ := hc.exists_getElem? hrest
      obtain ⟨hlt, _⟩ := List.getElem?_eq_some_iff.mp hbyte
      exact iff_of_true hlt (List.cons_ne_nil x rest)

/-- The byte at the offset is that of an ASCII mark just if the mark comes
next. -/
theorem getElem?_eq_mark_iff (hc : c.StandsAt source offset) (mark : Char)
    (hmark : mark.toNat < 0x80) :
    (bytes source)[offset]? = some mark.toUInt8 ↔
      ∃ rest, c.rest = mark :: rest := by
  cases hrest : c.rest with
  | nil => simp [hc.getElem?_of_nil hrest]
  | cons x rest =>
      obtain ⟨b, hb, hbyte⟩ := hc.exists_getElem? hrest
      rw [hbyte, Option.some.injEq, byte_eq_mark_iff hmark hb]
      constructor
      · rintro rfl
        exact ⟨rest, rfl⟩
      · rintro ⟨_, ⟨⟩⟩
        rfl

theorem next {x : Char} {rest : List Char} (hc : c.StandsAt source offset)
    (hrest : c.rest = x :: rest) (hascii : x.toNat < 0x80) :
    c.next.StandsAt source (offset + 1) := by
  have hsize : byteCount [x] = 1 := by
    rw [← length_bytes]
    rcases utf8EncodeChar_cases x with ⟨_, hbytes⟩ | ⟨hbeyond, _⟩
    · rw [bytes_cons, hbytes]
      rfl
    · omega
  rw [← hsize]
  exact hc.passes (Cursor.passes_next hrest)

end Cursor.StandsAt

theorem IsBoundary.exists_standsAt {source : List Char} {offset : Nat}
    (hoffset : IsBoundary source offset) :
    ∃ c : Cursor, c.StandsAt source offset := by
  obtain ⟨before, after, hsource, hcount⟩ := hoffset
  exact ⟨⟨after, Position.start.advance before⟩, before, hsource, hcount, rfl⟩

end WebConfigAudit.Text

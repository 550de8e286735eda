import Mathlib.Data.List.DropRight
import Mathlib.Data.List.Forall2
import WebConfigAudit.Json.Print
import WebConfigAudit.Json.Read
import WebConfigAudit.Proofs.DecimalDigits
import WebConfigAudit.Proofs.Passage
/-!
Texts that are read as a given value, whatever comes after them.  Texts of the
parts of a value make up texts of the value, and both ways of writing a value
are made up like that, so reading undoes writing.
-/

namespace WebConfigAudit.Json

open Text (Cursor)

variable {cs rest gap : List Char} {json : Json} {fuel : Nat} {c : Char}

/-- A run of blanks. -/
def IsGap (cs : List Char) : Prop :=
  ∀ c ∈ cs, isGap c = true

theorem isGap_nil : IsGap [] := by
  simp [IsGap]

theorem isGap_newLine (depth : Nat) : IsGap (newLine depth) := by
  rw [IsGap, newLine, List.forall_mem_cons]
  refine ⟨rfl, fun c hc => ?_⟩
  rw [List.eq_of_mem_replicate hc]
  rfl

theorem isNumeralChar_of_isGap (hc : isGap c = true) :
    isNumeralChar c = false := by
  simp only [isGap, Bool.or_eq_true, beq_iff_eq] at hc
  rcases hc with ((rfl | rfl) | rfl) | rfl <;> rfl

theorem skipGap_append (hgap : IsGap gap) (cs : List Char) :
    skipGap (gap ++ cs) = skipGap cs :=
  List.dropWhile_append_of_pos hgap

theorem skipGap_skipGap (cs : List Char) : skipGap (skipGap cs) = skipGap cs :=
  List.dropWhile_idempotent isGap cs

theorem skipGap_cons_of_not_isGap (hc : isGap c = false) (cs : List Char) :
    skipGap (c :: cs) = c :: cs := by
  simp [skipGap, hc]

/-- What comes after a numeral does not go on with it. -/
def EndsNumeral (rest : List Char) : Prop :=
  ∀ c ∈ rest.head?, isNumeralChar c = false

theorem endsNumeral_cons (hc : isNumeralChar c = false) (rest : List Char) :
    EndsNumeral (c :: rest) := by
  simpa [EndsNumeral] using hc

theorem EndsNumeral.append (hgap : IsGap gap) (hrest : EndsNumeral rest) :
    EndsNumeral (gap ++ rest) := by
  cases gap with
  | nil => exact hrest
  | cons c gap =>
      exact endsNumeral_cons
        (isNumeralChar_of_isGap (hgap c List.mem_cons_self)) _

theorem readValue_skipGap (fuel : Nat) (cs : List Char) :
    readValue fuel (skipGap cs) = readValue fuel cs := by
  cases fuel with
  | zero => rfl
  | succ fuel => simp only [readValue, skipGap_skipGap]

/-- A text that is read as a value, whatever comes after it. -/
def Spells (cs : List Char) (json : Json) : Prop :=
  ∀ fuel rest, cs.length < fuel → EndsNumeral rest →
    readValue fuel (cs ++ rest) = some (json, rest)

theorem Spells.of_gap (hgap : IsGap gap) (hspells : Spells cs json) :
    Spells (gap ++ cs) json := by
  intro fuel rest hfuel hrest
  rw [List.length_append] at hfuel
  rw [List.append_assoc, ← readValue_skipGap, skipGap_append hgap,
    readValue_skipGap]
  exact hspells fuel rest (by omega) hrest

/-- Reading a text that makes up a value, with blanks after it. -/
theorem read_of_spells (hspells : Spells cs json) (hgap : IsGap gap) :
    read (String.ofList (cs ++ gap)) = some json := by
  have hnone : EndsNumeral [] := by simp [EndsNumeral]
  have hend : EndsNumeral gap := by simpa using hnone.append hgap
  have henough : cs.length < (cs ++ gap).length + 1 := by
    rw [List.length_append]
    omega
  have hvalue := hspells _ gap henough hend
  have hnothing : skipGap gap = [] := by
    simpa [skipGap] using skipGap_append hgap []
  simp only [read, String.toList_ofList, hvalue, Option.bind_eq_bind,
    Option.bind_some, hnothing, List.isEmpty_nil, if_true]

/-! Words and numerals -/

theorem readWord_append (word : String) (value : Json) (rest : List Char) :
    readWord word value (word.toList ++ rest) = some (value, rest) := by
  have hprefix : word.toList.isPrefixOf (word.toList ++ rest) = true := by simp
  rw [readWord, if_pos hprefix, ← String.length_toList, List.drop_left]

theorem Spells.of_word {word : String} {value : Json}
    (hword : ∀ fuel rest, readValue (fuel + 1) (word.toList ++ rest) =
      readWord word value (word.toList ++ rest)) :
    Spells word.toList value := by
  intro fuel rest hfuel _
  obtain ⟨fuel, rfl⟩ :=
    Nat.exists_eq_add_one_of_ne_zero (Nat.ne_zero_of_lt hfuel)
  rw [hword, readWord_append]

theorem spells_null : Spells "null".toList .null :=
  Spells.of_word fun _ _ => rfl

theorem spells_true : Spells "true".toList (.bool true) :=
  Spells.of_word fun _ _ => rfl

theorem spells_false : Spells "false".toList (.bool false) :=
  Spells.of_word fun _ _ => rfl

theorem spells_numeral (hchars : ∀ c ∈ cs, isNumeralChar c = true)
    (hvalue : ofNumeral? cs = some json) : Spells cs json := by
  intro fuel rest hfuel hrest
  obtain ⟨fuel, rfl⟩ :=
    Nat.exists_eq_add_one_of_ne_zero (Nat.ne_zero_of_lt hfuel)
  cases cs with
  | nil =>
      have hnone : ofNumeral? [] = none := rfl
      rw [hnone] at hvalue
      cases hvalue
  | cons c cs =>
      have hfirst := hchars c List.mem_cons_self
      have hgap : isGap c = false := by
        by_contra hblank
        simp [isNumeralChar_of_isGap (by simpa using hblank)] at hfirst
      have hother : c ≠ '"' ∧ c ≠ '[' ∧ c ≠ '\x7b' ∧ c ≠ 'n' ∧ c ≠ 't' ∧
          c ≠ 'f' := by
        refine ⟨?_, ?_, ?_, ?_, ?_, ?_⟩ <;> rintro rfl <;> contradiction
      obtain ⟨hquote, hbracket, hbrace, hn, ht, hf⟩ := hother
      have hskip : skipGap (c :: cs ++ rest) = c :: (cs ++ rest) :=
        skipGap_cons_of_not_isGap hgap (cs ++ rest)
      have htake : (c :: (cs ++ rest)).takeWhile isNumeralChar = c :: cs :=
        Cursor.run_append rest .start hchars hrest
      have hdrop : (c :: (cs ++ rest)).dropWhile isNumeralChar = rest :=
        congrArg Cursor.rest (Cursor.skip_append rest .start hchars hrest)
      simp only [readValue, hskip, hquote, hbracket, hbrace, hn, ht, hf,
        if_false, htake, hdrop, hvalue]
      rfl

theorem isNumeralChar_of_isDigit (hc : Text.isDigit c = true) :
    isNumeralChar c = true := by
  simp [isNumeralChar, hc]

theorem isWholePart_decimalDigits (n : Nat) :
    isWholePart (Text.decimalDigits n) = true := by
  cases n with
  | zero => rfl
  | succ n =>
      have hhead := Text.head_decimalDigits_ne_zero (Nat.succ_pos n)
      have hdigits : ∀ c ∈ Text.decimalDigits (n + 1), Text.isDigit c = true :=
        fun c => Text.isDigit_of_mem_decimalDigits
      obtain ⟨c, cs, hshape⟩ :=
        List.exists_cons_of_ne_nil (Text.decimalDigits_ne_nil (n + 1))
      rw [hshape] at hhead hdigits ⊢
      have hzero : c ≠ '0' := by simpa using hhead
      unfold isWholePart
      split
      · contradiction
      · rfl
      · next hcons =>
          cases hcons
          rw [Bool.and_eq_true, bne_iff_ne, List.all_eq_true]
          exact ⟨hzero, hdigits⟩

theorem spells_natural (n : Nat) :
    Spells (Text.decimalDigits n) (.natural n) := by
  apply spells_numeral
  · exact fun c hc =>
      isNumeralChar_of_isDigit (Text.isDigit_of_mem_decimalDigits hc)
  · unfold ofNumeral?
    rw [if_pos (isWholePart_decimalDigits n), Text.digitsValue_decimalDigits]

/-! Strings -/

theorem hexValue?_hexDigit : ∀ n < 16, hexValue? (hexDigit n) = some n := by
  decide

theorem readHex4_zeros (a b : Nat) (ha : a < 16) (hb : b < 16)
    (rest : List Char) :
    readHex4 ('0' :: '0' :: hexDigit a :: hexDigit b :: rest) =
      some (16 * a + b, rest) := by
  have hzero : hexValue? '0' = some 0 := rfl
  simp [readHex4, hzero, hexValue?_hexDigit a ha, hexValue?_hexDigit b hb]

theorem readUnicode_control (hc : c.toNat < 0x20) (rest : List Char) :
    readUnicode ('0' :: '0' :: hexDigit (c.toNat / 16) ::
      hexDigit (c.toNat % 16) :: rest) =
      some (c, rest) := by
  have hvalue :=
    readHex4_zeros (c.toNat / 16) (c.toNat % 16) (by omega) (by omega) rest
  rw [Nat.div_add_mod] at hvalue
  have hlow : c.toNat < 0xd800 ∨ 0xdfff < c.toNat := Or.inl (by omega)
  simp only [readUnicode, hvalue, Option.bind_eq_bind, Option.bind_some,
    if_pos hlow, Char.ofNat_toNat]
  rfl

/-- One written character is read back as one character. -/
theorem readStringBody_escape (fuel : Nat) (c : Char) (rest : List Char) :
    readStringBody (fuel + 1) (escape c ++ rest) =
      (readStringBody fuel rest).map fun found => (c :: found.1, found.2) := by
  have hmap : ∀ found? : Option (List Char × List Char),
      (found?.bind fun found => some (c :: found.1, found.2)) =
        found?.map fun found => (c :: found.1, found.2) := by
    intro found?
    exact Option.map_eq_bind.symm
  unfold escape
  split
  · next hc => subst hc; exact hmap _
  split
  · next hc => subst hc; exact hmap _
  split
  · next hc => subst hc; exact hmap _
  split
  · next hc => subst hc; exact hmap _
  split
  · next hc => subst hc; exact hmap _
  split
  · next hc => subst hc; exact hmap _
  split
  · next hc => subst hc; exact hmap _
  split
  · next hcontrol =>
      simp only [List.cons_append, List.nil_append, readStringBody,
        Char.reduceEq, if_false, if_true, readEscape,
        readUnicode_control hcontrol]
      exact hmap _
  · next hquote hslash _ _ _ _ _ hplain =>
      simp only [List.cons_append, List.nil_append, readStringBody, hquote,
        hslash, hplain, if_false]
      exact hmap _

theorem readStringBody_flatMap {s : List Char} (hfuel : s.length < fuel)
    (rest : List Char) :
    readStringBody fuel (s.flatMap escape ++ '"' :: rest) = some (s, rest) := by
  induction s generalizing fuel with
  | nil =>
      obtain ⟨fuel, rfl⟩ :=
        Nat.exists_eq_add_one_of_ne_zero (Nat.ne_zero_of_lt hfuel)
      rfl
  | cons c s ih =>
      rw [List.length_cons] at hfuel
      obtain ⟨fuel, rfl⟩ :=
        Nat.exists_eq_add_one_of_ne_zero (Nat.ne_zero_of_lt hfuel)
      rw [List.flatMap_cons, List.append_assoc, readStringBody_escape,
        ih (by omega)]
      rfl

theorem length_le_length_flatMap_escape (s : List Char) :
    s.length ≤ (s.flatMap escape).length := by
  induction s with
  | nil => exact Nat.le_refl _
  | cons c s ih =>
      have hescape : 0 < (escape c).length := by
        unfold escape
        split_ifs <;> exact Nat.succ_pos _
      rw [List.flatMap_cons, List.length_append, List.length_cons]
      omega

theorem readString_printString {s : String}
    (hfuel : (printString s).length ≤ fuel + 1) (rest : List Char) :
    readString fuel (s.toList.flatMap escape ++ '"' :: rest) =
      some (s, rest) := by
  have hlength := length_le_length_flatMap_escape s.toList
  simp only [printString, List.cons_append, List.length_cons,
    List.length_append, List.length_nil] at hfuel
  rw [readString, readStringBody_flatMap (by omega)]
  simp

theorem printString_append (s : String) (rest : List Char) :
    printString s ++ rest =
      '"' :: (s.toList.flatMap escape ++ '"' :: rest) := by
  simp [printString]

theorem spells_string (s : String) : Spells (printString s) (.string s) := by
  intro fuel rest hfuel _
  obtain ⟨fuel, rfl⟩ :=
    Nat.exists_eq_add_one_of_ne_zero (Nat.ne_zero_of_lt hfuel)
  have hskip := skipGap_cons_of_not_isGap (by decide : isGap '"' = false)
    (s.toList.flatMap escape ++ '"' :: rest)
  simp only [printString_append, readValue, hskip, if_true]
  rw [readString_printString (by omega)]
  rfl

/-! Arrays and objects -/

/-- Some texts, with commas between them. -/
def joined (first : List Char) (others : List (List Char)) : List Char :=
  first ++ others.flatMap (',' :: ·)

theorem joined_cons (first second : List Char) (others : List (List Char)) :
    joined first (second :: others) = first ++ ',' :: joined second others := by
  simp [joined]

theorem readItems_joined {first : List Char} {others : List (List Char)}
    {item : Json} {items : List Json} (hfirst : Spells first item)
    (hothers : List.Forall₂ Spells others items) (hgap : IsGap gap)
    (hfuel : (joined first others).length + 1 < fuel) (rest : List Char) :
    readItems fuel (joined first others ++ (gap ++ ']' :: rest)) =
      some (item :: items, rest) := by
  induction hothers generalizing first item fuel with
  | nil =>
      obtain ⟨fuel, rfl⟩ :=
        Nat.exists_eq_add_one_of_ne_zero (Nat.ne_zero_of_lt hfuel)
      simp only [joined, List.flatMap_nil, List.append_nil] at hfuel ⊢
      have hend : EndsNumeral (gap ++ ']' :: rest) :=
        EndsNumeral.append hgap (endsNumeral_cons rfl rest)
      have hskip : skipGap (gap ++ ']' :: rest) = ']' :: rest := by
        rw [skipGap_append hgap, skipGap_cons_of_not_isGap rfl]
      rw [readItems, hfirst _ _ (by omega) hend]
      simp only [Option.bind_eq_bind, Option.bind_some, hskip]
      rfl
  | @cons second item' others items hsecond hothers ih =>
      obtain ⟨fuel, rfl⟩ :=
        Nat.exists_eq_add_one_of_ne_zero (Nat.ne_zero_of_lt hfuel)
      rw [joined_cons, List.length_append, List.length_cons] at hfuel
      rw [joined_cons]
      have hshorter : (joined second others).length + 1 < fuel := by omega
      have hfollowing := ih hsecond hshorter
      rw [List.append_assoc, List.cons_append, readItems,
        hfirst _ _ (by omega) (endsNumeral_cons rfl _)]
      simp only [Option.bind_eq_bind, Option.bind_some]
      rw [skipGap_cons_of_not_isGap rfl]
      simp only [hfollowing, Option.bind_some]
      rfl

theorem readItems_skipGap (fuel : Nat) (cs : List Char) :
    readItems fuel (skipGap cs) = readItems fuel cs := by
  cases fuel with
  | zero => rfl
  | succ fuel => simp only [readItems, readValue_skipGap]

theorem readItems_bracket (fuel : Nat) (rest : List Char) :
    readItems fuel (']' :: rest) = none := by
  cases fuel with
  | zero => rfl
  | succ fuel =>
      cases fuel with
      | zero => rfl
      | succ fuel => rfl

theorem spells_emptyArray : Spells ['[', ']'] (.array []) := by
  intro fuel rest hfuel _
  obtain ⟨fuel, rfl⟩ :=
    Nat.exists_eq_add_one_of_ne_zero (Nat.ne_zero_of_lt hfuel)
  rfl

theorem spells_array {first : List Char} {others : List (List Char)}
    {item : Json} {items : List Json} (hfirst : Spells first item)
    (hothers : List.Forall₂ Spells others items) (hgap : IsGap gap) :
    Spells ('[' :: joined first others ++ gap ++ [']'])
      (.array (item :: items)) := by
  intro fuel rest hfuel _
  obtain ⟨fuel, rfl⟩ :=
    Nat.exists_eq_add_one_of_ne_zero (Nat.ne_zero_of_lt hfuel)
  simp only [List.cons_append, List.length_cons, List.length_append,
    List.append_assoc, List.nil_append] at hfuel ⊢
  rw [readValue, skipGap_cons_of_not_isGap rfl]
  simp only [Char.reduceEq, if_false, if_true]
  have henough : (joined first others).length + 1 < fuel := by omega
  have hitems := readItems_joined hfirst hothers hgap henough rest
  rw [← readItems_skipGap] at hitems
  -- an array that has items does not start with its closing bracket
  split
  · next hclosed =>
      rw [hclosed, readItems_bracket] at hitems
      contradiction
  · rw [hitems]
    rfl

/-- A text of a member: its key, a colon and a text of its value. -/
inductive SpellsMember : List Char → String × Json → Prop where
  | intro {gap cs : List Char} {key : String} {value : Json} :
      IsGap gap → Spells cs value →
        SpellsMember (gap ++ printString key ++ ':' :: cs) (key, value)

theorem readMembers_skipGap (fuel : Nat) (cs : List Char) :
    readMembers fuel (skipGap cs) = readMembers fuel cs := by
  cases fuel with
  | zero => rfl
  | succ fuel => simp only [readMembers, skipGap_skipGap]

/-- What is read of an object behind one of its members: more members after a
comma, or the end. -/
def readBehindMember (fuel : Nat) (member : String × Json) (cs : List Char) :
    Option (List (String × Json) × List Char) :=
  match skipGap cs with
  | ',' :: rest => do
      let (members, rest) ← readMembers fuel rest
      return (member :: members, rest)
  | '\x7d' :: rest => return ([member], rest)
  | _ => none

/-- A member in front of a comma or a closing brace is read before what follows
is looked at. -/
theorem readMembers_append {text : List Char} {member : String × Json}
    (hmember : SpellsMember text member) (hfuel : text.length < fuel + 1)
    (rest : List Char) (hrest : EndsNumeral rest) :
    readMembers (fuel + 1) (text ++ rest) =
      readBehindMember fuel member rest := by
  cases hmember with
  | @intro gap cs key value hgap hspells =>
      simp only [List.length_append, List.length_cons] at hfuel
      rw [← readMembers_skipGap, List.append_assoc, List.append_assoc,
        skipGap_append hgap, readMembers_skipGap, printString_append,
        readMembers, skipGap_cons_of_not_isGap rfl]
      have hlength : (printString key).length ≤ fuel + 1 := by omega
      have hkey := readString_printString hlength (':' :: (cs ++ rest))
      have hcolon :=
        skipGap_cons_of_not_isGap (by decide : isGap ':' = false) (cs ++ rest)
      simp only [List.cons_append, hkey, Option.bind_eq_bind,
        Option.bind_some, hcolon, hspells fuel rest (by omega) hrest]
      rfl

theorem readMembers_joined {first : List Char} {others : List (List Char)}
    {member : String × Json} {members : List (String × Json)}
    (hfirst : SpellsMember first member)
    (hothers : List.Forall₂ SpellsMember others members) (hgap : IsGap gap)
    (hfuel : (joined first others).length + 1 < fuel) (rest : List Char) :
    readMembers fuel (joined first others ++ (gap ++ '\x7d' :: rest)) =
      some (member :: members, rest) := by
  induction hothers generalizing first member fuel with
  | nil =>
      obtain ⟨fuel, rfl⟩ :=
        Nat.exists_eq_add_one_of_ne_zero (Nat.ne_zero_of_lt hfuel)
      simp only [joined, List.flatMap_nil, List.append_nil] at hfuel ⊢
      rw [readMembers_append hfirst (by omega) _
          (EndsNumeral.append hgap (endsNumeral_cons rfl rest)),
        readBehindMember, skipGap_append hgap, skipGap_cons_of_not_isGap rfl]
      rfl
  | @cons second member' others members hsecond hothers ih =>
      obtain ⟨fuel, rfl⟩ :=
        Nat.exists_eq_add_one_of_ne_zero (Nat.ne_zero_of_lt hfuel)
      rw [joined_cons, List.length_append, List.length_cons] at hfuel
      rw [joined_cons]
      have hshorter : (joined second others).length + 1 < fuel := by omega
      have hfollowing := ih hsecond hshorter
      rw [List.append_assoc, List.cons_append,
        readMembers_append hfirst (by omega) _ (endsNumeral_cons rfl _),
        readBehindMember, skipGap_cons_of_not_isGap rfl]
      simp only [hfollowing, Option.bind_eq_bind, Option.bind_some]
      rfl

theorem spells_emptyObject : Spells ['\x7b', '\x7d'] (.object []) := by
  intro fuel rest hfuel _
  obtain ⟨fuel, rfl⟩ :=
    Nat.exists_eq_add_one_of_ne_zero (Nat.ne_zero_of_lt hfuel)
  rfl

theorem readMembers_brace (fuel : Nat) (rest : List Char) :
    readMembers fuel ('\x7d' :: rest) = none := by
  cases fuel with
  | zero => rfl
  | succ fuel => rfl

theorem spells_object {first : List Char} {others : List (List Char)}
    {member : String × Json} {members : List (String × Json)}
    (hfirst : SpellsMember first member)
    (hothers : List.Forall₂ SpellsMember others members) (hgap : IsGap gap) :
    Spells ('\x7b' :: joined first others ++ gap ++ ['\x7d'])
      (.object (member :: members)) := by
  intro fuel rest hfuel _
  obtain ⟨fuel, rfl⟩ :=
    Nat.exists_eq_add_one_of_ne_zero (Nat.ne_zero_of_lt hfuel)
  simp only [List.cons_append, List.length_cons, List.length_append,
    List.append_assoc, List.nil_append, List.length_nil] at hfuel ⊢
  rw [readValue, skipGap_cons_of_not_isGap rfl]
  simp only [Char.reduceEq, if_false, if_true]
  have henough : (joined first others).length + 1 < fuel := by omega
  have hmembers := readMembers_joined hfirst hothers hgap henough rest
  rw [← readMembers_skipGap] at hmembers
  split
  · next hclosed =>
      rw [hclosed, readMembers_brace] at hmembers
      contradiction
  · rw [hmembers]
    rfl

/-! Both ways of writing -/

/-- A value whose numbers are natural numbers. -/
inductive IsPlain : Json → Prop where
  | null : IsPlain .null
  | bool (value : Bool) : IsPlain (.bool value)
  | natural (value : Nat) : IsPlain (.natural value)
  | string (text : String) : IsPlain (.string text)
  | array {items : List Json} : (∀ item ∈ items, IsPlain item) →
      IsPlain (.array items)
  | object {members : List (String × Json)} :
      (∀ member ∈ members, IsPlain member.2) → IsPlain (.object members)

attribute [simp] IsPlain.null IsPlain.bool IsPlain.natural IsPlain.string

@[simp] theorem isPlain_array_iff {items : List Json} :
    IsPlain (.array items) ↔ ∀ item ∈ items, IsPlain item := by
  constructor
  · rintro ⟨⟩
    assumption
  · exact IsPlain.array

@[simp] theorem isPlain_object_iff {members : List (String × Json)} :
    IsPlain (.object members) ↔ ∀ member ∈ members, IsPlain member.2 := by
  constructor
  · rintro ⟨⟩
    assumption
  · exact IsPlain.object

theorem compactItems_cons (item : Json) (items : List Json) :
    compactItems (item :: items) =
      joined (compactChars item) (items.map compactChars) := by
  induction items generalizing item with
  | nil => simp [compactItems, joined]
  | cons second items ih =>
      rw [compactItems, ih, List.map_cons, joined_cons]
      simp

/-- A member on one line. -/
def compactMember (member : String × Json) : List Char :=
  printString member.1 ++ ':' :: compactChars member.2

theorem compactMembers_cons (member : String × Json)
    (members : List (String × Json)) :
    compactMembers (member :: members) =
      joined (compactMember member) (members.map compactMember) := by
  induction members generalizing member with
  | nil => simp [compactMembers, joined, compactMember]
  | cons second members ih =>
      obtain ⟨key, value⟩ := member
      rw [compactMembers, ih, List.map_cons, joined_cons]
      · simp [compactMember]
      · simp

theorem forall₂_map_of_forall {α β : Type} {R : β → α → Prop} {f : α → β}
    {as : List α} (hall : ∀ a ∈ as, R (f a) a) :
    List.Forall₂ R (as.map f) as := by
  rw [List.forall₂_map_left_iff, List.forall₂_same]
  exact hall

theorem spells_compactChars (hplain : json.IsPlain) :
    Spells (compactChars json) json := by
  induction hplain with
  | null => exact spells_null
  | bool value =>
      cases value with
      | true => exact spells_true
      | false => exact spells_false
  | natural value => exact spells_natural value
  | string text => exact spells_string text
  | @array items _ ih =>
      cases items with
      | nil => exact spells_emptyArray
      | cons item items =>
          rw [List.forall_mem_cons] at ih
          have hspells :=
            spells_array ih.1 (forall₂_map_of_forall ih.2) isGap_nil
          simpa [compactChars, compactItems_cons] using hspells
  | @object members _ ih =>
      cases members with
      | nil => exact spells_emptyObject
      | cons member members =>
          rw [List.forall_mem_cons] at ih
          have hmember : ∀ member : String × Json,
              Spells (compactChars member.2) member.2 →
              SpellsMember (compactMember member) member :=
            fun member hvalue => SpellsMember.intro isGap_nil hvalue
          have hspells := spells_object (hmember member ih.1)
            (forall₂_map_of_forall fun other hother =>
              hmember other (ih.2 other hother)) isGap_nil
          simpa [compactChars, compactMembers_cons] using hspells

theorem prettyItems_eq (depth : Nat) (items : List Json) :
    prettyItems depth items =
      (items.map fun item => newLine depth ++ prettyChars depth item).flatMap
        (',' :: ·) := by
  induction items with
  | nil => rfl
  | cons item items ih => simp [prettyItems, ih]

/-- A member on a line of its own. -/
def prettyMember (depth : Nat) (member : String × Json) : List Char :=
  newLine depth ++ printString member.1 ++ ':' :: ' ' ::
    prettyChars depth member.2

theorem prettyMembers_eq (depth : Nat) (members : List (String × Json)) :
    prettyMembers depth members =
      (members.map (prettyMember depth)).flatMap (',' :: ·) := by
  induction members with
  | nil => rfl
  | cons member members ih =>
      obtain ⟨key, value⟩ := member
      simp [prettyMembers, prettyMember, ih]

theorem spells_prettyChars (hplain : json.IsPlain) (depth : Nat) :
    Spells (prettyChars depth json) json := by
  induction hplain generalizing depth with
  | null => exact spells_null
  | bool value =>
      cases value with
      | true => exact spells_true
      | false => exact spells_false
  | natural value => exact spells_natural value
  | string text => exact spells_string text
  | @array items _ ih =>
      cases items with
      | nil => exact spells_emptyArray
      | cons item items =>
          rw [List.forall_mem_cons] at ih
          have hitem : ∀ item, Spells (prettyChars (depth + 1) item) item →
              Spells (newLine (depth + 1) ++ prettyChars (depth + 1) item)
                item :=
            fun item => Spells.of_gap (isGap_newLine _)
          have hspells := spells_array (hitem item (ih.1 _))
            (forall₂_map_of_forall fun other hother =>
              hitem other (ih.2 other hother _))
            (isGap_newLine depth)
          simpa [prettyChars, prettyItems_eq, joined] using hspells
  | @object members _ ih =>
      cases members with
      | nil => exact spells_emptyObject
      | cons member members =>
          rw [List.forall_mem_cons] at ih
          have hblank : IsGap [' '] := by
            rw [IsGap, List.forall_mem_singleton]
            rfl
          have hmember : ∀ member : String × Json,
              Spells (prettyChars (depth + 1) member.2) member.2 →
                SpellsMember (prettyMember (depth + 1) member) member :=
            fun member hvalue => SpellsMember.intro (isGap_newLine _)
              (Spells.of_gap hblank hvalue)
          have hspells := spells_object (hmember member (ih.1 _))
            (forall₂_map_of_forall fun other hother =>
              hmember other (ih.2 other hother _))
            (isGap_newLine depth)
          simpa [prettyChars, prettyMembers_eq, joined, prettyMember]
            using hspells

/-- Reading undoes writing on one line. -/
theorem read_compact (hplain : json.IsPlain) :
    read json.compact = some json := by
  simpa [compact] using read_of_spells (spells_compactChars hplain) isGap_nil

/-- Reading undoes writing over several lines, also with blanks after the
value. -/
theorem read_pretty_append (hplain : json.IsPlain) {blanks : String}
    (hblanks : IsGap blanks.toList) :
    read (json.pretty ++ blanks) = some json := by
  have hread := read_of_spells (spells_prettyChars hplain 0) hblanks
  rwa [String.ofList_append, String.ofList_toList] at hread

theorem read_pretty (hplain : json.IsPlain) : read json.pretty = some json := by
  have hnone : IsGap "".toList := isGap_nil
  simpa using read_pretty_append hplain hnone

end WebConfigAudit.Json

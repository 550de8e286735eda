import WebConfigAudit.Proofs.WrittenTag
import WebConfigAudit.Text.Pieces
/-!
The tokens of a start tag as ranges of bytes.  A place names a line and a
column, and within one text no two places are the same, so that every place has
its offset.
-/

namespace WebConfigAudit

open Text (Cursor Position)

namespace Text

@[simp] theorem byteCount_nil : byteCount [] = 0 := rfl

@[simp] theorem byteCount_append (cs ds : List Char) :
    byteCount (cs ++ ds) = byteCount cs + byteCount ds := by
  rw [byteCount, String.ofList_append, String.utf8ByteSize_append]
  rfl

/-- The bytes between a place and a later one, as the text from the former on
has them. -/
def offsetFrom? (wanted pos : Position) : List Char → Option Nat
  | [] => if pos = wanted then some 0 else none
  | c :: rest =>
      if pos = wanted then some 0
      else (offsetFrom? wanted (pos.after c) rest).map (byteCount [c] + ·)

namespace Position

/-- On an earlier line, or on the same line and in an earlier column. -/
def Before (p q : Position) : Prop :=
  p.line < q.line ∨ p.line = q.line ∧ p.column < q.column

theorem before_after (p : Position) (c : Char) : p.Before (p.after c) := by
  unfold after
  split
  · exact Or.inl (Nat.lt_succ_self _)
  · exact Or.inr ⟨rfl, Nat.lt_succ_self _⟩

theorem Before.trans {p q r : Position} (hpq : p.Before q) (hqr : q.Before r) :
    p.Before r := by
  unfold Before at *
  omega

theorem before_advance_cons (p : Position) (c : Char) (cs : List Char) :
    p.Before (p.advance (c :: cs)) := by
  induction cs generalizing p c with
  | nil => exact p.before_after c
  | cons d cs ih => exact (p.before_after c).trans (ih (p.after c) d)

theorem before_advance {cs : List Char} (hne : cs ≠ []) (p : Position) :
    p.Before (p.advance cs) := by
  obtain ⟨c, rest, rfl⟩ := List.exists_cons_of_ne_nil hne
  exact p.before_advance_cons c rest

theorem Before.ne {p q : Position} (hpq : p.Before q) : p ≠ q := by
  rintro rfl
  unfold Before at hpq
  omega

theorem Before.trans_not_before {p q r : Position} (hpq : p.Before q)
    (hrq : ¬ r.Before q) : p.Before r := by
  unfold Before at *
  omega

theorem not_advance_before (p : Position) (cs : List Char) :
    ¬ (p.advance cs).Before p := by
  rcases eq_or_ne cs [] with rfl | hne
  · exact fun hbefore => hbefore.ne rfl
  · exact fun hbefore => (hbefore.trans (p.before_advance hne)).ne rfl

/-- The number of bytes before a place in a text. -/
def offset? (source : List Char) (pos : Position) : Option Nat :=
  offsetFrom? pos Position.start source

theorem offsetFrom?_advance (pos : Position) (before after : List Char) :
    offsetFrom? (pos.advance before) pos (before ++ after) =
      some (byteCount before) := by
  induction before generalizing pos with
  | nil => cases after <;> simp [offsetFrom?]
  | cons c before ih =>
      rw [List.cons_append, offsetFrom?,
        if_neg (before_advance_cons pos c before).ne, advance_cons, ih,
        Option.map_some, ← byteCount_append]
      rfl

theorem offset?_advance (before after : List Char) :
    offset? (before ++ after) (Position.start.advance before) =
      some (byteCount before) :=
  offsetFrom?_advance Position.start before after

end Position

end Text

/-- A stretch of the bytes of a text, from its first byte to the one after its
last. -/
structure ByteRange where
  start : Nat
  stop : Nat
deriving DecidableEq, Repr

/-- The bytes of a text that begins at an offset. -/
def ByteRange.of (offset : Nat) (text : List Char) : ByteRange :=
  ⟨offset, offset + Text.byteCount text⟩

/-- The bytes of an attribute's name and of its value with the quotes. -/
structure AttributeRanges where
  name : ByteRange
  value : ByteRange
deriving DecidableEq, Repr

/-- The bytes of the tokens of a start tag. -/
structure TagRanges where
  name : ByteRange
  attributes : List AttributeRanges
deriving DecidableEq, Repr

/-- The bytes of a token in a source text. -/
def RawToken.range? (source : List Char) (token : RawToken) :
    Option ByteRange := do
  return ⟨← token.span.start.offset? source, ← token.span.stop.offset? source⟩

/-- The bytes of an attribute's tokens in a source text. -/
def RawAttribute.ranges? (source : List Char) (a : RawAttribute) :
    Option AttributeRanges := do
  return ⟨← a.name.range? source, ← a.value.range? source⟩

/-- The bytes of a start tag's tokens in a source text. -/
def RawStartTag.ranges? (source : List Char) (raw : RawStartTag) :
    Option TagRanges := do
  return ⟨← raw.name.range? source,
    ← raw.attributes.mapM (RawAttribute.ranges? source)⟩

variable {source before : List Char}

/-- A text that stands in a source takes the bytes after those before it. -/
theorem RawToken.range?_placed {text : List Char} (after : List Char)
    (hsource : source = before ++ text ++ after) :
    (RawToken.placed (Position.start.advance before) text).range? source =
      some (.of (Text.byteCount before) text) := by
  have hstart : (Position.start.advance before).offset? source =
      some (Text.byteCount before) := by
    rw [hsource, List.append_assoc]
    exact Position.offset?_advance before (text ++ after)
  have hstop : ((Position.start.advance before).advance text).offset? source =
      some (Text.byteCount before + Text.byteCount text) := by
    rw [hsource, ← Position.advance_append, ← Text.byteCount_append]
    exact Position.offset?_advance (before ++ text) after
  simp only [range?, placed, hstart, hstop]
  rfl

namespace WrittenAttribute

variable (a : WrittenAttribute)

/-- The bytes of the tokens, if the gap begins at the given offset. -/
def rangesAt (offset : Nat) : AttributeRanges :=
  ⟨.of (offset + Text.byteCount a.gap) a.name,
    .of (offset + Text.byteCount a.beforeValue) a.quoted⟩

/-- The bytes of the tokens of attributes in a row. -/
def allRangesAt (offset : Nat) : List WrittenAttribute → List AttributeRanges
  | [] => []
  | a :: rest =>
      a.rangesAt offset :: allRangesAt (offset + Text.byteCount a.chars) rest

theorem ranges?_tokensAt (after : List Char)
    (hsource : source = before ++ a.chars ++ after) :
    (a.tokensAt (Position.start.advance before)).ranges? source =
      some (a.rangesAt (Text.byteCount before)) := by
  have hname :
      (RawToken.placed (Position.start.advance (before ++ a.gap)) a.name).range?
        source =
        some (.of (Text.byteCount (before ++ a.gap)) a.name) :=
    RawToken.range?_placed
      (a.beforeEquals ++ '=' :: a.afterEquals ++ a.quoted ++ after)
      (by simp [hsource, chars, beforeValue])
  have hvalue :
      (RawToken.placed (Position.start.advance (before ++ a.beforeValue))
        a.quoted).range? source =
      some (.of (Text.byteCount (before ++ a.beforeValue)) a.quoted) :=
    RawToken.range?_placed after (by simp [hsource, chars])
  rw [Position.advance_append, Text.byteCount_append] at hname hvalue
  simp only [RawAttribute.ranges?, tokensAt, hname, hvalue]
  rfl

theorem ranges?_allTokensAt (attributes : List WrittenAttribute)
    (after : List Char)
    (hsource : source = before ++ attributes.flatMap chars ++ after) :
    (allTokensAt (Position.start.advance before) attributes).mapM
        (RawAttribute.ranges? source) =
      some (allRangesAt (Text.byteCount before) attributes) := by
  induction attributes generalizing before with
  | nil => rfl
  | cons a others ih =>
      have hfirst :
          (a.tokensAt (Position.start.advance before)).ranges? source =
            some (a.rangesAt (Text.byteCount before)) :=
        a.ranges?_tokensAt (others.flatMap chars ++ after) (by simp [hsource])
      have hrest :
          source = before ++ a.chars ++ others.flatMap chars ++ after := by
        simp [hsource]
      have hothers := ih hrest
      rw [Position.advance_append, Text.byteCount_append] at hothers
      rw [allTokensAt, List.mapM_cons, hfirst, hothers]
      rfl

end WrittenAttribute

/-- The bytes of the tokens of a written tag that begins at an offset. -/
def WrittenTag.rangesAt (tag : WrittenTag) (offset : Nat) : TagRanges :=
  ⟨.of (offset + 1) tag.name,
   WrittenAttribute.allRangesAt (offset + 1 + Text.byteCount tag.name)
     tag.attributes⟩

theorem WrittenTag.ranges?_tokensAt (tag : WrittenTag) (after : List Char)
    (hsource : source = before ++ tag.chars ++ after) :
    (tag.tokensAt (Position.start.advance before)).ranges? source =
      some (tag.rangesAt (Text.byteCount before)) := by
  have hopening : Text.byteCount ['<'] = 1 := by decide
  have hafterOpening :
      source = before ++ ['<'] ++ tag.name ++ (tag.afterName ++ after) := by
    simp [hsource, chars]
  have hafterName : source = before ++ ['<'] ++ tag.name ++
      tag.attributes.flatMap WrittenAttribute.chars ++
      (tag.gap ++ tag.ending ++ after) := by
    simp [hsource, chars, afterName]
  have hname := RawToken.range?_placed _ hafterOpening
  have hattributes :=
    WrittenAttribute.ranges?_allTokensAt tag.attributes _ hafterName
  simp only [Position.advance_append, Position.advance_cons,
    Position.advance_nil, Text.byteCount_append, hopening] at hname hattributes
  simp only [RawStartTag.ranges?, tokensAt, Position.advance_cons, hname,
    hattributes]
  rfl

theorem WrittenAttribute.texts_allTokensAt (pos : Position)
    (attributes : List WrittenAttribute) :
    (allTokensAt pos attributes).map (fun a => (a.name.text, a.value.text)) =
      attributes.map (fun a => (a.name, a.quoted)) := by
  induction attributes generalizing pos with
  | nil => rfl
  | cons a others ih =>
      rw [allTokensAt, List.map_cons, List.map_cons, ih]
      rfl

/-- Scanning a start tag undoes the writing of it.  Wherever a written tag
stands, the scanner finds its name, and the name and the quoted value of each
attribute in order, as they are written, and these are the bytes that they take
in the source.  What comes after the tag plays no part. -/
theorem scanStartTag_undoes_writing (tag : WrittenTag) (before : List Char) :
    ∃ raw : RawStartTag,
      raw.name.text = tag.name ∧
      raw.attributes.map (fun a => (a.name.text, a.value.text)) =
        tag.attributes.map (fun a => (a.name, a.quoted)) ∧
      ∀ after : List Char,
        let source := before ++ tag.chars ++ after
        scanStartTag
            ((Cursor.ofText (String.ofList source)).drop before.length) =
            .ok raw ∧
          raw.ranges? source = some (tag.rangesAt (Text.byteCount before)) := by
  -- the tokens depend on the tag and on what comes before it alone
  refine ⟨tag.tokensAt (Position.start.advance before), rfl,
    WrittenAttribute.texts_allTokensAt _ tag.attributes, ?_⟩
  intro after source
  have hcursor : (Cursor.ofText (String.ofList source)).drop before.length =
      ⟨tag.chars ++ after, Position.start.advance before⟩ := by
    simp [source, Cursor.ofText, Cursor.drop]
  constructor
  · rw [hcursor]
    exact scanStartTag_append tag after _
  · exact tag.ranges?_tokensAt after rfl

/-- Both quotes, delimiters inside a value, and a letter of two bytes before the
tag. -/
example :
    let source := "é<forms a = '>\"/'\n b=\"=\"/>tail".toList
    (scanStartTag ((Cursor.ofText (String.ofList source)).drop 1)).toOption.bind
        (RawStartTag.ranges? source) =
      some ⟨⟨3, 8⟩, [⟨⟨9, 10⟩, ⟨13, 18⟩⟩, ⟨⟨20, 21⟩, ⟨22, 25⟩⟩]⟩ := by
  decide +kernel

end WebConfigAudit

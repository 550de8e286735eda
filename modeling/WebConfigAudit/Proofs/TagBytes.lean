import WebConfigAudit.Proofs.TextBytes
/-!
The scanner of start tags on bytes.  It knows where it is by an offset alone,
and no bound is set to its rounds: it ends because it moves on with every
attribute.  What it finds are ranges of bytes.  They come one after the other,
names hold no delimiter, and values are enclosed in quotes.
-/

namespace WebConfigAudit

open Text (skipBytes)

/-- The blanks of a start tag, as bytes. -/
def isBlankByte (b : UInt8) : Bool :=
  b == ' '.toUInt8 || b == '\t'.toUInt8 || b == '\n'.toUInt8 ||
    b == '\x0c'.toUInt8 ||
    b == '\r'.toUInt8

/-- What ends a name in a start tag, as bytes. -/
def isDelimiterByte (b : UInt8) : Bool :=
  isBlankByte b || b == '/'.toUInt8 || b == '>'.toUInt8 || b == '='.toUInt8

/-- A fault and its offset. -/
structure OffsetError where
  fault : TokenFault
  offset : Nat
deriving DecidableEq, Repr

section Scanner

variable (source : List UInt8)

/-- A quoted value. -/
def scanValueAt (offset : Nat) : Except OffsetError ByteRange :=
  match source[offset]? with
  | none => .error ⟨.noValue, offset⟩
  | some mark =>
      if mark = '"'.toUInt8 ∨ mark = '\''.toUInt8 then
        let closing := skipBytes (fun b => b != mark) source (offset + 1)
        if closing < source.length then .ok ⟨offset, closing + 1⟩
        else .error ⟨.unterminatedValue, offset⟩
      else .error ⟨.noValue, offset⟩

/-- An attribute, at the first byte of its name. -/
def scanAttributeAt (offset : Nat) : Except OffsetError AttributeRanges :=
  let afterName := skipBytes (fun b => !isDelimiterByte b) source offset
  let equals := skipBytes isBlankByte source afterName
  if afterName = offset then .error ⟨.noName, offset⟩
  else if source[equals]? = some '='.toUInt8 then do
    let value ← scanValueAt source (skipBytes isBlankByte source (equals + 1))
    return ⟨⟨offset, afterName⟩, value⟩
  else .error ⟨.noEquals, equals⟩

end Scanner

/-- A name: some bytes, and no delimiter among them. -/
structure ByteRange.HoldsName (source : List UInt8) (range : ByteRange) :
    Prop where
  start_lt : range.start < range.stop
  plain : ∀ i, range.start ≤ i → i < range.stop →
    ∃ b, source[i]? = some b ∧ isDelimiterByte b = false

/-- A value: a quote at either end, the same one, and not between them. -/
structure ByteRange.HoldsValue (source : List UInt8) (range : ByteRange) :
    Prop where
  two_le : range.start + 2 ≤ range.stop
  quoted : ∃ mark, (mark = '"'.toUInt8 ∨ mark = '\''.toUInt8) ∧
    source[range.start]? = some mark ∧ source[range.stop - 1]? = some mark ∧
    ∀ i, range.start < i → i < range.stop - 1 →
      ∃ b, source[i]? = some b ∧ b ≠ mark

/-- What the ranges of an attribute keep to. -/
structure AttributeRanges.Holds (source : List UInt8) (a : AttributeRanges) :
    Prop where
  name : a.name.HoldsName source
  value : a.value.HoldsValue source
  name_stop_le : a.name.stop ≤ a.value.start

/-- The first range starts before the second and does not reach into it. -/
def ByteRange.Precedes (range other : ByteRange) : Prop :=
  range.start < other.start ∧ range.stop ≤ other.start

section Spec

variable {source : List UInt8} {offset : Nat}

theorem ByteRange.HoldsValue.stop_le {range : ByteRange}
    (hholds : range.HoldsValue source) : range.stop ≤ source.length := by
  obtain ⟨mark, _, _, hlast, _⟩ := hholds.quoted
  obtain ⟨hlt, _⟩ := List.getElem?_eq_some_iff.mp hlast
  have htwo := hholds.two_le
  omega

theorem holdsValue_of_scanValueAt {range : ByteRange}
    (hscan : scanValueAt source offset = .ok range) :
    range.start = offset ∧ range.HoldsValue source := by
  unfold scanValueAt at hscan
  split at hscan
  · contradiction
  · next mark hmark =>
      dsimp only at hscan
      split at hscan
      · next hquote =>
          split at hscan
          · next hclosing =>
              cases hscan
              have hle := Text.le_skipBytes (fun b => b != mark) source
                (offset + 1)
              refine ⟨rfl, Nat.succ_le_succ hle, mark, hquote, hmark, ?_, ?_⟩
              · -- the run of other bytes ends before the end, so the mark comes
                -- next
                have hbyte := List.getElem?_eq_getElem hclosing
                have hstop := Text.byte_at_skipBytes _ _ _ hbyte
                rw [bne_eq_false_iff_eq] at hstop
                rw [Nat.add_sub_cancel, hbyte, hstop]
              · intro i hafter hbefore
                obtain ⟨b, hb, hother⟩ :=
                  Text.byte_of_lt_skipBytes _ _ _ hafter hbefore
                exact ⟨b, hb, bne_iff_ne.mp hother⟩
          · contradiction
      · contradiction

theorem holds_of_scanAttributeAt {a : AttributeRanges}
    (hscan : scanAttributeAt source offset = .ok a) :
    a.name.start = offset ∧ a.Holds source := by
  unfold scanAttributeAt at hscan
  dsimp only at hscan
  split at hscan
  · contradiction
  · next hne =>
      split at hscan
      · obtain ⟨value, hvalue, ⟨⟩⟩ := bind_eq_ok_iff.mp hscan
        obtain ⟨hstart, hholds⟩ := holdsValue_of_scanValueAt hvalue
        have hname :=
          Text.le_skipBytes (fun b => !isDelimiterByte b) source offset
        have hequals := Text.le_skipBytes isBlankByte source
          (skipBytes (fun b => !isDelimiterByte b) source offset)
        have hafter := Text.le_skipBytes isBlankByte source
          (skipBytes isBlankByte source
            (skipBytes (fun b => !isDelimiterByte b) source offset) + 1)
        refine ⟨rfl, ⟨?_, ?_⟩, hholds, ?_⟩
        · exact lt_of_le_of_ne hname (Ne.symm hne)
        · intro i hle hlt
          obtain ⟨b, hb, hplain⟩ := Text.byte_of_lt_skipBytes _ _ _ hle hlt
          exact ⟨b, hb, by simpa using hplain⟩
        · show skipBytes _ source offset ≤ value.start
          omega
      · contradiction

/-- The scanner moves on with every attribute, and never past the end. -/
theorem progress_of_scanAttributeAt {a : AttributeRanges}
    (hscan : scanAttributeAt source offset = .ok a) :
    offset < a.value.stop ∧ a.value.stop ≤ source.length := by
  obtain ⟨hstart, hholds⟩ := holds_of_scanAttributeAt hscan
  have hname := hholds.name.start_lt
  have hbetween := hholds.name_stop_le
  have hvalue := hholds.value.two_le
  exact ⟨by omega, hholds.value.stop_le⟩

end Spec

/-- The attributes up to the end of the tag, which is not looked at any
further. -/
def scanAttributesAt (source : List UInt8) (offset : Nat) :
    Except OffsetError (List AttributeRanges) :=
  let start := skipBytes isBlankByte source offset
  match source[start]? with
  | none => .error ⟨.unterminatedTag, start⟩
  | some b =>
      if b = '>'.toUInt8 ∨ b = '/'.toUInt8 then .ok []
      else
        match _hfirst : scanAttributeAt source start with
        | .error e => .error e
        | .ok first => do
            let others ← scanAttributesAt source first.value.stop
            return first :: others
termination_by source.length - offset
decreasing_by
  have hstart := Text.le_skipBytes isBlankByte source offset
  have hprogress := progress_of_scanAttributeAt _hfirst
  omega

/-- One round of the scanner, without the proof that it moves on. -/
theorem scanAttributesAt_eq (source : List UInt8) (offset : Nat) :
    scanAttributesAt source offset =
      match source[skipBytes isBlankByte source offset]? with
      | none => .error ⟨.unterminatedTag, skipBytes isBlankByte source offset⟩
      | some b =>
          if b = '>'.toUInt8 ∨ b = '/'.toUInt8 then .ok []
          else do
            let first ← scanAttributeAt source
              (skipBytes isBlankByte source offset)
            let others ← scanAttributesAt source first.value.stop
            return first :: others := by
  rw [scanAttributesAt]
  cases source[skipBytes isBlankByte source offset]? with
  | none => rfl
  | some b =>
      dsimp only
      split
      · rfl
      · split
        · next e hfault =>
            rw [hfault]
            rfl
        · next first hfirst =>
            rw [hfirst]
            rfl

/-- The start tag at an offset. -/
def scanTagAt (source : List UInt8) (offset : Nat) :
    Except OffsetError TagRanges :=
  if source[offset]? = some '<'.toUInt8 then do
    let afterName := skipBytes (fun b => !isDelimiterByte b) source (offset + 1)
    let attributes ← scanAttributesAt source afterName
    return ⟨⟨offset + 1, afterName⟩, attributes⟩
  else .error ⟨.noStartTag, offset⟩

/-- The ranges of attributes one after the other. -/
def attributeRanges (attributes : List AttributeRanges) : List ByteRange :=
  attributes.flatMap fun a => [a.name, a.value]

/-- The ranges of a start tag, in order. -/
def TagRanges.all (ranges : TagRanges) : List ByteRange :=
  ranges.name :: attributeRanges ranges.attributes

section Order

variable {source : List UInt8} {offset : Nat}
  {attributes : List AttributeRanges}

theorem scanAttributesAt_cases
    (hscan : scanAttributesAt source offset = .ok attributes) :
    attributes = [] ∨ ∃ first others, attributes = first :: others ∧
      scanAttributeAt source (skipBytes isBlankByte source offset) = .ok first ∧
      scanAttributesAt source first.value.stop = .ok others := by
  rw [scanAttributesAt_eq] at hscan
  split at hscan
  · contradiction
  · split at hscan
    · cases hscan
      exact Or.inl rfl
    · obtain ⟨first, hfirst, hscan⟩ := bind_eq_ok_iff.mp hscan
      obtain ⟨others, hothers, ⟨⟩⟩ := bind_eq_ok_iff.mp hscan
      exact Or.inr ⟨first, others, rfl, hfirst, hothers⟩

/-- Every attribute keeps to its ranges, and the ranges of all come one after
the other. -/
theorem holds_of_scanAttributesAt
    (hscan : scanAttributesAt source offset = .ok attributes) :
    (∀ a ∈ attributes, a.Holds source) ∧
      (attributeRanges attributes).Pairwise ByteRange.Precedes ∧
      ∀ range ∈ attributeRanges attributes, offset ≤ range.start := by
  induction attributes generalizing offset with
  | nil =>
      exact ⟨List.forall_mem_nil _, List.Pairwise.nil, List.forall_mem_nil _⟩
  | cons a rest ih =>
      obtain hnone | ⟨first, others, hsplit, hfirst, hothers⟩ :=
        scanAttributesAt_cases hscan
      · contradiction
      · cases hsplit
        obtain ⟨hstart, hholds⟩ := holds_of_scanAttributeAt hfirst
        obtain ⟨hall, hordered, hlater⟩ := ih hothers
        have hblank := Text.le_skipBytes isBlankByte source offset
        have hname := hholds.name.start_lt
        have hbetween := hholds.name_stop_le
        have hvalue := hholds.value.two_le
        refine ⟨List.forall_mem_cons.mpr ⟨hholds, hall⟩, ?_, ?_⟩
        · refine List.Pairwise.cons ?_ (List.Pairwise.cons ?_ hordered)
          · intro range hrange
            rcases List.mem_cons.mp hrange with rfl | hrange
            · exact ⟨by omega, hbetween⟩
            · have hle := hlater range hrange
              exact ⟨by omega, by omega⟩
          · intro range hrange
            have hle := hlater range hrange
            exact ⟨by omega, hle⟩
        · intro range hrange
          rcases List.mem_cons.mp hrange with rfl | hrange
          · omega
          rcases List.mem_cons.mp hrange with rfl | hrange
          · omega
          · have hle := hlater range hrange
            omega

/-- Where a delimiter comes next, no attribute starts. -/
theorem lt_of_scanAttributesAt
    (hscan : scanAttributesAt source offset = .ok attributes)
    (hdelimiter : ∀ b, source[offset]? = some b → isDelimiterByte b = true) :
    ∀ range ∈ attributeRanges attributes, offset < range.start := by
  obtain ⟨hall, hordered, hlater⟩ := holds_of_scanAttributesAt hscan
  cases attributes with
  | nil => exact List.forall_mem_nil _
  | cons a rest =>
      have hfirst : offset < a.name.start := by
        apply lt_of_le_of_ne (hlater a.name List.mem_cons_self)
        rintro rfl
        have hname := (hall a List.mem_cons_self).name
        obtain ⟨b, hb, hplain⟩ := hname.plain _ (Nat.le_refl _) hname.start_lt
        rw [hdelimiter b hb] at hplain
        contradiction
      intro range hrange
      rcases List.mem_cons.mp hrange with rfl | hrange
      · exact hfirst
      · exact hfirst.trans ((List.pairwise_cons.mp hordered).1 range hrange).1

/-- What the ranges of a start tag keep to. -/
structure TagRanges.Holds (source : List UInt8) (offset : Nat)
    (ranges : TagRanges) : Prop where
  opening : source[offset]? = some '<'.toUInt8
  name_start : ranges.name.start = offset + 1
  ordered : ranges.all.Pairwise ByteRange.Precedes
  names : ∀ a ∈ ranges.attributes, a.name.HoldsName source
  values : ∀ a ∈ ranges.attributes, a.value.HoldsValue source

theorem holds_of_scanTagAt {ranges : TagRanges}
    (hscan : scanTagAt source offset = .ok ranges) :
    ranges.Holds source offset := by
  unfold scanTagAt at hscan
  split at hscan
  · next hopening =>
      obtain ⟨attributes, hattributes, ⟨⟩⟩ := bind_eq_ok_iff.mp hscan
      obtain ⟨hall, hordered, hlater⟩ := holds_of_scanAttributesAt hattributes
      have hname :=
        Text.le_skipBytes (fun b => !isDelimiterByte b) source (offset + 1)
      have hafter := lt_of_scanAttributesAt hattributes (fun b hb => by
        simpa using Text.byte_at_skipBytes _ _ _ hb)
      refine ⟨hopening, rfl, ?_, fun a ha => (hall a ha).name,
        fun a ha => (hall a ha).value⟩
      refine List.Pairwise.cons ?_ hordered
      intro range hrange
      have hlt := hafter range hrange
      exact ⟨lt_of_le_of_lt hname hlt, hlt.le⟩
  · contradiction

end Order

end WebConfigAudit

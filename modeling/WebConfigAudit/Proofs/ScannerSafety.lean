import WebConfigAudit.Proofs.ScannedTag
import WebConfigAudit.Proofs.TagBytes
/-!
The scanner of start tags on characters and the one on bytes come to the same
end on every text.  So whatever text the scanner is given, the ranges that it
finds can be cut out of the text, and the faults that it finds have places in
it.
-/

namespace WebConfigAudit

open Text (Cursor Position LineTable IsBoundary ReadsClass byteCount byte_beq
  slice? skipBytes)

theorem isBlankByte_reads : ReadsClass isBlankByte isTagBlank := by
  intro c b hb
  rw [isBlankByte, isTagBlank, byte_beq ' ' (by decide) hb,
    byte_beq '\t' (by decide) hb, byte_beq '\n' (by decide) hb,
    byte_beq '\x0c' (by decide) hb, byte_beq '\r' (by decide) hb]

theorem isDelimiterByte_reads : ReadsClass isDelimiterByte isTagDelimiter := by
  intro c b hb
  rw [isDelimiterByte, isTagDelimiter, isBlankByte_reads c b hb,
    byte_beq '/' (by decide) hb, byte_beq '>' (by decide) hb,
    byte_beq '=' (by decide) hb]

theorem otherByte_reads {mark : Char} (hascii : mark.toNat < 0x80) :
    ReadsClass (fun b => b != mark.toUInt8) fun c => decide (c ≠ mark) := by
  intro c b hb
  rw [Bool.eq_iff_iff, bne_iff_ne, decide_eq_true_eq]
  exact not_congr (Text.byte_eq_mark_iff hascii hb)

/-- The range is that of the token in the text, and its ends have the places of
the token. -/
def RawToken.IsCutBy (source : List Char) (token : RawToken)
    (range : ByteRange) : Prop :=
  slice? source range.start range.stop = some token.text ∧
    token.span =
      ⟨(LineTable.of source).position range.start,
        (LineTable.of source).position range.stop⟩

/-- Two scans come to the same end: what they find is related, or they meet the
same fault at the same place. -/
inductive SameEnd {α β : Type} (source : List Char) (R : α → β → Prop) :
    Except TokenError α → Except OffsetError β → Prop where
  | found {a : α} {b : β} (hrelated : R a b) : SameEnd source R (.ok a) (.ok b)
  | fault (fault : TokenFault) {c : Cursor} {offset : Nat}
        (hc : c.StandsAt source offset) :
      SameEnd source R (.error ⟨fault, c.pos⟩) (.error ⟨fault, offset⟩)

theorem SameEnd.bind {α β γ δ : Type} {source : List Char} {R : α → β → Prop}
    {S : γ → δ → Prop} {x : Except TokenError α} {y : Except OffsetError β}
    {f : α → Except TokenError γ} {g : β → Except OffsetError δ}
    (hend : SameEnd source R x y)
    (hnext : ∀ a b, x = .ok a → R a b → SameEnd source S (f a) (g b)) :
    SameEnd source S (x >>= f) (y >>= g) := by
  cases hend with
  | found hrelated => exact hnext _ _ rfl hrelated
  | fault fault hc => exact .fault fault hc

section Ends

variable {α β : Type} {source : List Char} {R : α → β → Prop}
  {x : Except TokenError α}

theorem SameEnd.exists_ok {b : β} (hend : SameEnd source R x (.ok b)) :
    ∃ a, x = .ok a ∧ R a b := by
  cases hend with
  | found hrelated => exact ⟨_, rfl, hrelated⟩

theorem SameEnd.exists_error {e : OffsetError}
    (hend : SameEnd source R x (.error e)) :
    ∃ c : Cursor, c.StandsAt source e.offset ∧ x = .error ⟨e.fault, c.pos⟩ := by
  cases hend with
  | fault fault hc => exact ⟨_, hc, rfl⟩

end Ends

section Scans

variable {source text : List Char} {offset stop : Nat} {c d : Cursor}

/-- What is passed over between two cursors is cut out between their offsets. -/
theorem isCutBy_of_passes (hc : c.StandsAt source offset)
    (hd : d.StandsAt source stop) (hpasses : c.Passes text d) :
    RawToken.IsCutBy source ⟨text, ⟨c.pos, d.pos⟩⟩ ⟨offset, stop⟩ := by
  obtain rfl : stop = offset + byteCount text :=
    hd.offset_unique (hc.passes hpasses)
  refine ⟨?_, ?_⟩
  · obtain ⟨before, hsource, hoffset, _⟩ := hc
    refine Text.slice?_eq_some_iff.mpr ⟨before, d.rest, ?_, hoffset, rfl⟩
    rw [hsource, hpasses.rest, List.append_assoc]
  · show Span.mk c.pos d.pos = _
    rw [hc.position_eq, hd.position_eq]

theorem mark_ascii {mark : Char} (hmark : mark = '"' ∨ mark = '\'') :
    mark.toNat < 0x80 := by
  rcases hmark with rfl | rfl <;> decide

/-- Both scanners look for the mark that opens a value, and then for the next of
its kind. -/
theorem scanValue_at_mark {mark : Char} {rest : List Char}
    (hrest : c.rest = mark :: rest) (hmark : mark = '"' ∨ mark = '\'') :
    scanValue c =
      match (c.next.skip (· ≠ mark)).rest with
      | [] => .error ⟨.unterminatedValue, c.pos⟩
      | _ :: _ =>
          .ok (⟨mark :: c.next.run (· ≠ mark) ++ [mark],
            ⟨c.pos, (c.next.skip (· ≠ mark)).next.pos⟩⟩,
            (c.next.skip (· ≠ mark)).next) := by
  rw [scanValue, hrest]
  exact if_pos hmark

theorem scanValueAt_at_mark {mark : Char} {rest : List Char}
    (hc : c.StandsAt source offset) (hrest : c.rest = mark :: rest)
    (hmark : mark = '"' ∨ mark = '\'') :
    scanValueAt (Text.bytes source) offset =
      if skipBytes (· != mark.toUInt8) (Text.bytes source) (offset + 1) <
          (Text.bytes source).length then
        .ok ⟨offset,
          skipBytes (· != mark.toUInt8) (Text.bytes source) (offset + 1) + 1⟩
      else .error ⟨.unterminatedValue, offset⟩ := by
  rw [scanValueAt,
    (hc.getElem?_eq_mark_iff mark (mark_ascii hmark)).mpr ⟨rest, hrest⟩]
  apply if_pos
  rcases hmark with rfl | rfl
  · exact Or.inl rfl
  · exact Or.inr rfl

/-- Without a mark there is no value. -/
theorem scanValueAt_of_not_mark (hc : c.StandsAt source offset)
    (hother : ∀ mark rest, c.rest = mark :: rest →
      ¬ (mark = '"' ∨ mark = '\'')) :
    scanValueAt (Text.bytes source) offset = .error ⟨.noValue, offset⟩ := by
  unfold scanValueAt
  split
  · rfl
  · next b hbyte =>
      apply if_neg
      rintro (rfl | rfl)
      · obtain ⟨rest, hrest⟩ :=
          (hc.getElem?_eq_mark_iff '"' (by decide)).mp hbyte
        exact hother '"' rest hrest (Or.inl rfl)
      · obtain ⟨rest, hrest⟩ :=
          (hc.getElem?_eq_mark_iff '\'' (by decide)).mp hbyte
        exact hother '\'' rest hrest (Or.inr rfl)

theorem sameEnd_scanValue (hc : c.StandsAt source offset) :
    SameEnd source
      (fun found range => found.1.IsCutBy source range ∧
        found.2.StandsAt source range.stop)
      (scanValue c) (scanValueAt (Text.bytes source) offset) := by
  cases hrest : c.rest with
  | nil =>
      rw [scanValueAt_of_not_mark hc (by simp [hrest]), scanValue, hrest]
      exact .fault .noValue hc
  | cons mark rest =>
      by_cases hmark : mark = '"' ∨ mark = '\''
      · have hascii := mark_ascii hmark
        have hclosing := (hc.next hrest hascii).skip (otherByte_reads hascii)
        have hscan := scanValue_at_mark hrest hmark
        rw [scanValueAt_at_mark hc hrest hmark]
        cases hend : (c.next.skip (· ≠ mark)).rest with
        | nil =>
            have hno : ¬ skipBytes (· != mark.toUInt8) (Text.bytes source)
                (offset + 1) < (Text.bytes source).length := by
              rw [hclosing.lt_length_iff]
              exact fun hne => hne hend
            rw [hscan, hend, if_neg hno]
            exact .fault .unterminatedValue hc
        | cons closing after =>
            rw [hend] at hscan
            obtain ⟨_, hpasses⟩ := quoted_of_scanValue hscan
            obtain rfl : closing = mark := by
              simpa using Cursor.not_of_skip_rest hend
            have hnext := hclosing.next hend hascii
            have hsome : skipBytes (· != closing.toUInt8) (Text.bytes source)
                (offset + 1) < (Text.bytes source).length := by
              rw [hclosing.lt_length_iff, hend]
              exact List.cons_ne_nil _ _
            rw [hscan, if_pos hsome]
            exact .found ⟨isCutBy_of_passes hc hnext hpasses, hnext⟩
      · have hother : ∀ x others, c.rest = x :: others →
            ¬ (x = '"' ∨ x = '\'') := by
          intro x others hsame
          cases hrest.symm.trans hsame
          exact hmark
        rw [scanValueAt_of_not_mark hc hother, scanValue, hrest]
        dsimp only
        rw [if_neg hmark]
        exact .fault .noValue hc

theorem sameEnd_scanAttribute (hc : c.StandsAt source offset) :
    SameEnd source
      (fun found ranges => found.1.name.IsCutBy source ranges.name ∧
        found.1.value.IsCutBy source ranges.value ∧
        found.2.StandsAt source ranges.value.stop)
      (scanAttribute c) (scanAttributeAt (Text.bytes source) offset) := by
  have hname : c.Passes (scanName c).1.text (scanName c).2 := c.passes_skip _
  have hafter : (scanName c).2.StandsAt source
      (skipBytes (fun b => !isDelimiterByte b) (Text.bytes source) offset) :=
    hc.skip isDelimiterByte_reads.not
  have hequals := hafter.skip isBlankByte_reads
  have hempty : skipBytes (fun b => !isDelimiterByte b) (Text.bytes source)
        offset = offset ↔
      (scanName c).1.text.isEmpty = true := by
    rw [hafter.offset_unique (hc.passes hname), List.isEmpty_iff,
      ← Text.byteCount_eq_zero_iff]
    exact Nat.add_eq_left
  unfold scanAttribute scanAttributeAt
  dsimp only
  by_cases hnone : (scanName c).1.text.isEmpty = true
  · rw [if_pos hnone, if_pos (hempty.mpr hnone)]
    exact .fault .noName hc
  · rw [if_neg hnone, if_neg (hempty.not.mpr hnone)]
    have hmark := hequals.getElem?_eq_mark_iff '=' (by decide)
    split
    · next rest hrest =>
        rw [if_pos (hmark.mpr ⟨rest, hrest⟩)]
        have hvalueStart :=
          (hequals.next hrest (by decide)).skip isBlankByte_reads
        apply SameEnd.bind (sameEnd_scanValue hvalueStart)
        rintro ⟨value, after⟩ range _ ⟨hvalue, hstop⟩
        exact .found ⟨isCutBy_of_passes hc hafter hname, hvalue, hstop⟩
    · next hother =>
        rw [if_neg (hmark.not.mpr (not_exists.mpr hother))]
        exact .fault .noEquals hequals

/-- The scanner on characters has a bound on the number of attributes, which it
never comes to. -/
theorem sameEnd_scanAttributes {fuel : Nat} (hfuel : c.rest.length < fuel)
    (hc : c.StandsAt source offset) :
    SameEnd source
      (fun attributes ranges => List.Forall₂ (RawToken.IsCutBy source)
        (attributeTokens attributes) (attributeRanges ranges))
      (scanAttributes fuel c)
      (scanAttributesAt (Text.bytes source) offset) := by
  induction fuel generalizing c offset with
  | zero => exact absurd hfuel (Nat.not_lt_zero _)
  | succ fuel ih =>
      have hstart := hc.skip isBlankByte_reads
      rw [scanAttributesAt_eq]
      cases hrest : (c.skip isTagBlank).rest with
      | nil =>
          rw [hstart.getElem?_of_nil hrest, scanAttributes, hrest]
          exact .fault .unterminatedTag hstart
      | cons x rest =>
          obtain ⟨b, hb, hbyte⟩ := hstart.exists_getElem? hrest
          have hends : b = '>'.toUInt8 ∨ b = '/'.toUInt8 ↔ x = '>' ∨ x = '/' :=
            or_congr (Text.byte_eq_mark_iff (by decide) hb)
              (Text.byte_eq_mark_iff (by decide) hb)
          rw [hbyte]
          dsimp only
          by_cases hend : x = '>' ∨ x = '/'
          · rw [if_pos (hends.mpr hend), scanAttributes, hrest]
            rcases hend with rfl | rfl
            · exact .found List.Forall₂.nil
            · exact .found List.Forall₂.nil
          · rw [if_neg (hends.not.mpr hend),
              scanAttributes_of_not_end rfl hrest hend]
            apply SameEnd.bind (sameEnd_scanAttribute hstart)
            rintro ⟨first, after⟩ ranges hfirst ⟨hname, hvalue, hafter⟩
            have hadvances : c.Advances after :=
              (c.reaches_skip isTagBlank).trans_advances
                (advances_of_scanAttribute hfirst)
            have hless := hadvances.length_lt
            apply SameEnd.bind
              (ih (hless.trans_le (Nat.le_of_lt_succ hfuel)) hafter)
            intro others otherRanges _ hothers
            exact .found (.cons hname (.cons hvalue hothers))

theorem sameEnd_scanStartTag (hc : c.StandsAt source offset) :
    SameEnd source
      (fun raw ranges => List.Forall₂ (RawToken.IsCutBy source) raw.tokens
        ranges.all)
      (scanStartTag c) (scanTagAt (Text.bytes source) offset) := by
  have hmark := hc.getElem?_eq_mark_iff '<' (by decide)
  unfold scanStartTag scanTagAt
  split
  · next rest hrest =>
      have hnext := hc.next hrest (by decide)
      have hafter := hnext.skip isDelimiterByte_reads.not
      rw [if_pos (hmark.mpr ⟨rest, hrest⟩)]
      apply SameEnd.bind (sameEnd_scanAttributes (Nat.lt_succ_self _) hafter)
      intro attributes ranges _ hattributes
      exact .found
        (.cons (isCutBy_of_passes hnext hafter (c.next.passes_skip _))
          hattributes)
  · next hother =>
      rw [if_neg (hmark.not.mpr (not_exists.mpr hother))]
      exact .fault .noStartTag hc

end Scans

section Tokens

variable {source : List Char}

theorem RawToken.IsCutBy.bounds {token : RawToken} {range : ByteRange}
    (hcut : token.IsCutBy source range) :
    range.start ≤ range.stop ∧ range.stop ≤ byteCount source ∧
      IsBoundary source range.start ∧ IsBoundary source range.stop := by
  obtain ⟨before, after, hsource, hstart, hstop⟩ :=
    Text.slice?_eq_some_iff.mp hcut.1
  have hend : range.stop = byteCount (before ++ token.text) := by
    rw [hstop, hstart, Text.byteCount_append]
  refine ⟨?_, ?_, ?_, ?_⟩
  · rw [hstop]
    exact Nat.le_add_right _ _
  · rw [hend, hsource]
    exact Text.byteCount_le_append _ _
  · exact ⟨before, token.text ++ after,
      by rw [hsource, List.append_assoc], hstart⟩
  · exact ⟨before ++ token.text, after, hsource, hend⟩

/-- The node has the text of the range, and the places of its ends. -/
def ByteRange.IsShownBy (source : List Char) (range : ByteRange) (node : Node) :
    Prop :=
  slice? source range.start range.stop = some node.text.toList ∧
    node.span =
      ⟨(LineTable.of source).position range.start,
        (LineTable.of source).position range.stop⟩

theorem forall₂_isShownBy {tokens : List RawToken} {ranges : List ByteRange}
    {nodes : List Node}
    (hcut : List.Forall₂ (RawToken.IsCutBy source) tokens ranges)
    (hshown : List.Forall₂ RawToken.IsShownBy tokens nodes) :
    List.Forall₂ (ByteRange.IsShownBy source) ranges nodes := by
  induction hcut generalizing nodes with
  | nil =>
      cases hshown
      exact .nil
  | cons hfirst _ ih =>
      cases hshown with
      | cons hnode hothers =>
          refine .cons ⟨?_, hnode.span.trans hfirst.2⟩ (ih hothers)
          rw [hfirst.1, hnode.text, String.toList_ofList]

/-- The tokens of a node are those of the tag that it is built from. -/
theorem RawStartTag.tagTokens_nodeOfTag (raw : RawStartTag) (tag : Tag)
    (span : Span) :
    List.Forall₂ RawToken.IsShownBy raw.tokens
      (nodeOfTag tag span raw).tagTokens := by
  have hstated : List.Forall₂ RawAttribute.IsStatedBy raw.attributes
      (raw.attributes.map RawAttribute.toNode) := by
    rw [List.forall₂_map_right_iff, List.forall₂_same]
    exact fun a _ => a.isStatedBy_toNode
  rw [Node.tagTokens, nodeOfTag, List.flatMap_cons, if_neg (by simp)]
  exact .cons ⟨rfl, rfl, Or.inl rfl, rfl⟩ (flatMap_of_isStatedBy hstated)

end Tokens

/-- At every offset at which a text can be cut stands one cursor, and from there
the scanner of start tags comes to an end, whatever the text is, and to the same
end as the one on bytes.  If it finds a tag, the tag is opened at the offset and
its name follows; the ranges of its tokens come one after the other and can be
cut out of the text; names of attributes are not empty and hold no delimiter,
and values are enclosed in quotes.  So the tokens of the tag's node have the
slices of the ranges for texts.  If the scanner meets a fault, the fault has a
place in the text. -/
theorem start_tag_scan_is_safe (source : String) {start : Nat}
    (hstart : IsBoundary source.toList start) :
    ∃ c : Cursor, (∀ d : Cursor, d.StandsAt source.toList start ↔ d = c) ∧
      match scanTagAt source.toByteArray.data.toList start with
      | .ok ranges =>
          ranges.Holds source.toByteArray.data.toList start ∧
            (∀ range ∈ ranges.all, range.start ≤ range.stop ∧
              range.stop ≤ source.toByteArray.data.toList.length ∧
              IsBoundary source.toList range.start ∧
              IsBoundary source.toList range.stop) ∧
            ∃ raw, scanStartTag c = .ok raw ∧ ∀ tag span,
              List.Forall₂ (ByteRange.IsShownBy source.toList) ranges.all
                (nodeOfTag tag span raw).tagTokens
      | .error e =>
          scanStartTag c =
              .error ⟨e.fault, (LineTable.of source.toList).position e.offset⟩ ∧
            IsBoundary source.toList e.offset ∧
            ((LineTable.of source.toList).position e.offset).IsIn
              source.toList := by
  rw [← Text.bytes_toList, Text.length_bytes]
  obtain ⟨c, hc⟩ := hstart.exists_standsAt
  refine ⟨c, fun d => ⟨fun hd => hd.eq hc, fun hd => hd ▸ hc⟩, ?_⟩
  have hends := sameEnd_scanStartTag hc
  cases hbytes : scanTagAt (Text.bytes source.toList) start with
  | ok ranges =>
      rw [hbytes] at hends
      obtain ⟨raw, hraw, hcut⟩ := hends.exists_ok
      refine ⟨holds_of_scanTagAt hbytes, ?_, raw, hraw, ?_⟩
      · intro range hrange
        obtain ⟨token, _, htoken⟩ := exists_of_mem_forall₂ hcut hrange
        exact htoken.bounds
      · intro tag span
        exact forall₂_isShownBy hcut (raw.tagTokens_nodeOfTag tag span)
  | error e =>
      rw [hbytes] at hends
      obtain ⟨d, hd, hfault⟩ := hends.exists_error
      refine ⟨?_, hd.isBoundary, hd.isBoundary.position_isIn⟩
      rw [hfault, hd.position_eq]

namespace ScannerSafetyWitness

/-- The other quote and a letter of two bytes in a value, and no blank between
two attributes. -/
def text : String := "é<forms a='\"é'b=\"\"\n/>"

/-- A value that is not closed. -/
def cutShort : String := "é<forms\n a='é/>"

theorem scanTagAt_text :
    scanTagAt text.toByteArray.data.toList 2 =
      .ok ⟨⟨3, 8⟩, [⟨⟨9, 10⟩, ⟨11, 16⟩⟩, ⟨⟨16, 17⟩, ⟨18, 20⟩⟩]⟩ := by
  decide +kernel

theorem scanTagAt_cutShort :
    scanTagAt cutShort.toByteArray.data.toList 2 =
      .error ⟨.unterminatedValue, 12⟩ := by
  decide +kernel

theorem both_ends_are_met :
    IsBoundary text.toList 2 ∧ IsBoundary cutShort.toList 2 ∧
    (∃ (c : Cursor) (ranges : TagRanges), c.StandsAt text.toList 2 ∧
      ranges.Holds text.toByteArray.data.toList 2 ∧
      ranges.all.map ByteRange.start = [3, 9, 11, 16, 18] ∧
      ∃ raw, scanStartTag c = .ok raw) ∧
    ∃ c : Cursor, c.StandsAt cutShort.toList 2 ∧
      scanStartTag c = .error ⟨.unterminatedValue, ⟨2, 4⟩⟩ ∧
      Position.IsIn cutShort.toList ⟨2, 4⟩ := by
  have htext : (⟨1, 2⟩ : Position).offset? text.toList = some 2 := by
    decide +kernel
  have hcutShort : (⟨1, 2⟩ : Position).offset? cutShort.toList = some 2 := by
    decide +kernel
  have hplace : (⟨2, 4⟩ : Position).offset? cutShort.toList = some 12 := by
    decide +kernel
  obtain ⟨hfirst, _⟩ := Text.offset?_eq_some_iff.mp htext
  obtain ⟨hsecond, _⟩ := Text.offset?_eq_some_iff.mp hcutShort
  obtain ⟨_, hposition⟩ := Text.offset?_eq_some_iff.mp hplace
  obtain ⟨c, hc, hfound⟩ := start_tag_scan_is_safe text hfirst
  obtain ⟨d, hd, hfault⟩ := start_tag_scan_is_safe cutShort hsecond
  rw [scanTagAt_text] at hfound
  rw [scanTagAt_cutShort] at hfault
  obtain ⟨hholds, _, raw, hraw, _⟩ := hfound
  obtain ⟨herror, _, hin⟩ := hfault
  dsimp only at herror hin
  rw [hposition] at herror hin
  exact ⟨hfirst, hsecond, ⟨c, _, (hc c).mpr rfl, hholds, rfl, raw, hraw⟩,
    d, (hd d).mpr rfl, herror, hin⟩

end ScannerSafetyWitness

end WebConfigAudit

import WebConfigAudit.Audit.Run
import WebConfigAudit.Proofs.DirectiveReading
import WebConfigAudit.Proofs.ElementLineBreaks
import WebConfigAudit.Proofs.Fallible
import WebConfigAudit.Proofs.ScannedTag
import WebConfigAudit.Rule.Builtin
/-!
The form of line ends does not matter.  With a carriage return before every line
feed, a file has the same elements with the same tokens at the same places, and
its lines hold the same directives.
-/

namespace WebConfigAudit

open Text (Cursor Position)

/-- The text with every line feed replaced by a carriage return and a line
feed. -/
def withReturns (source : String) : String :=
  String.ofList (Text.withReturns source.toList)

theorem ofText_withReturns (source : String) :
    Cursor.ofText (withReturns source) =
      (Cursor.ofText source).withReturns := by
  rw [Cursor.ofText, withReturns, String.toList_ofList]
  rfl

section Scanner

variable {c d : Cursor}

/-- Steps that agree one after another agree together. -/
theorem map_bind_eq_except {ε α α' β β' : Type} {x : Except ε α} {g : α → α'}
    {f : α → Except ε β} {f' : α' → Except ε β'} {h : β → β'}
    (hf : ∀ a, x = .ok a → f' (g a) = (f a).map h) :
    (x.map g).bind f' = (x.bind f).map h := by
  cases x with
  | error e => rfl
  | ok a => exact hf a rfl

/-- The token in the text with carriage returns. -/
def RawToken.withReturns (token : RawToken) : RawToken :=
  { token with text := Text.withReturns token.text }

/-- The attribute in the text with carriage returns. -/
def RawAttribute.withReturns (a : RawAttribute) : RawAttribute :=
  { a with value := a.value.withReturns }

/-- The start tag in the text with carriage returns. -/
def RawStartTag.withReturns (raw : RawStartTag) : RawStartTag :=
  { raw with attributes := raw.attributes.map RawAttribute.withReturns }

theorem scanName_withReturns (c : Cursor) :
    scanName c.withReturns = ((scanName c).1, (scanName c).2.withReturns) := by
  unfold scanName
  rw [Cursor.run_withReturns_of_unbroken (by decide) (by decide),
    Cursor.skip_withReturns (by decide)]
  rfl

theorem scanValue_withReturns (c : Cursor) :
    scanValue c.withReturns =
      (scanValue c).map fun found =>
        (found.1.withReturns, found.2.withReturns) := by
  unfold scanValue
  rw [Cursor.withReturns_rest]
  cases hrest : c.rest with
  | nil => rfl
  | cons mark rest =>
      by_cases hfeed : mark = '\n'
      · subst hfeed
        rfl
      · rw [Text.withReturns_cons hfeed]
        dsimp only
        by_cases hquotes : mark = '"' ∨ mark = '\''
        · rw [if_pos hquotes, if_pos hquotes,
            Cursor.next_withReturns hrest hfeed]
          let inside (x : Char) : Bool := x ≠ mark
          have hinside : inside '\r' = true ∧ inside '\n' = true := by
            rcases hquotes with rfl | rfl <;> decide
          have hrun :=
            Cursor.run_withReturns (hinside.1.trans hinside.2.symm) c.next
          have hskip :=
            Cursor.skip_withReturns (hinside.1.trans hinside.2.symm) c.next
          simp only [inside] at hrun hskip
          simp only [hrun, hskip, Cursor.withReturns_rest]
          cases hclosing : (c.next.skip (· ≠ mark)).rest with
          | nil => rfl
          | cons x others =>
              have hx : x ≠ '\n' := Cursor.ne_of_skip_rest hinside.2 hclosing
              rw [Text.withReturns_cons hx]
              simp only [Cursor.next_withReturns hclosing hx]
              refine congrArg Except.ok (Prod.ext ?_ rfl)
              simp [RawToken.withReturns, Text.withReturns_cons hfeed,
                Text.withReturns_append]
        · rw [if_neg hquotes, if_neg hquotes]
          rfl

theorem scanAttribute_withReturns (c : Cursor) :
    scanAttribute c.withReturns =
      (scanAttribute c).map fun found =>
        (found.1.withReturns, found.2.withReturns) := by
  unfold scanAttribute
  rw [scanName_withReturns]
  dsimp only
  rw [Cursor.skip_withReturns (by decide), Cursor.withReturns_rest]
  split
  · rfl
  · cases hrest : ((scanName c).2.skip isTagBlank).rest with
    | nil => rfl
    | cons x rest =>
        have hx : x ≠ '\n' := Cursor.ne_of_skip_rest (by decide) hrest
        rw [Text.withReturns_cons hx, Cursor.next_withReturns hrest hx]
        split
        · next heq =>
            cases heq
            rw [Cursor.skip_withReturns (by decide), scanValue_withReturns]
            exact map_bind_eq_except fun _ _ => rfl
        · next hother =>
            split
            · next heq =>
                cases heq
                exact (hother _ rfl).elim
            · rfl

theorem scanAttributes_withReturns {fuel fuel' : Nat}
    (hfuel : c.rest.length < fuel)
    (hfuel' : c.withReturns.rest.length < fuel') :
    scanAttributes fuel' c.withReturns =
      (scanAttributes fuel c).map (List.map RawAttribute.withReturns) := by
  induction fuel generalizing c fuel' with
  | zero => omega
  | succ fuel ih =>
      obtain ⟨fuel', rfl⟩ :=
        Nat.exists_eq_succ_of_ne_zero (Nat.ne_zero_of_lt hfuel')
      unfold scanAttributes
      dsimp only
      rw [Cursor.skip_withReturns (by decide), Cursor.withReturns_rest]
      cases hrest : (c.skip isTagBlank).rest with
      | nil => rfl
      | cons x rest =>
          have hx : x ≠ '\n' := Cursor.ne_of_skip_rest (by decide) hrest
          rw [Text.withReturns_cons hx]
          split
          · contradiction
          · next heq =>
              cases heq
              rfl
          · next heq =>
              cases heq
              rfl
          · next hgreater hslash heq =>
              cases heq
              split
              · contradiction
              · next heq =>
                  cases heq
                  exact (hgreater rfl).elim
              · next heq =>
                  cases heq
                  exact (hslash rfl).elim
              · rw [scanAttribute_withReturns]
                refine map_bind_eq_except fun ⟨first, after⟩ hfirst => ?_
                obtain ⟨hbound, hbound'⟩ :=
                  ((c.reaches_skip isTagBlank).trans_advances
                    (advances_of_scanAttribute hfirst)).bounds hfuel hfuel'
                dsimp only
                rw [ih hbound hbound']
                exact map_bind_eq_except fun _ _ => rfl

theorem scanStartTag_withReturns (c : Cursor) :
    scanStartTag c.withReturns =
      (scanStartTag c).map RawStartTag.withReturns := by
  unfold scanStartTag
  rw [Cursor.withReturns_rest]
  cases hrest : c.rest with
  | nil => rfl
  | cons x rest =>
      by_cases hfeed : x = '\n'
      · subst hfeed
        rfl
      · rw [Text.withReturns_cons hfeed, Cursor.next_withReturns hrest hfeed,
          scanName_withReturns]
        split
        · next heq =>
            cases heq
            dsimp only
            rw [scanAttributes_withReturns (Nat.lt_succ_self _)
              (Nat.lt_succ_self _)]
            exact map_bind_eq_except fun _ _ => rfl
        · next hother =>
            split
            · next heq =>
                cases heq
                exact (hother _ rfl).elim
            · rfl

theorem RawStartTag.withReturns_of_unbroken {raw : RawStartTag}
    (hvalues : ∀ a ∈ raw.attributes, '\n' ∉ a.value.text) :
    raw.withReturns = raw := by
  have hattribute (a : RawAttribute) (ha : a ∈ raw.attributes) :
      a.withReturns = a := by
    rw [RawAttribute.withReturns, RawToken.withReturns,
      Text.withReturns_of_unbroken (hvalues a ha)]
  rw [RawStartTag.withReturns, List.map_congr_left hattribute, List.map_id']

end Scanner

section Nodes

variable {source : String}

/-- No quoted attribute value of an element goes over the end of a line. -/
def HasUnbrokenValues (source : String) : Prop :=
  ∀ element ∈ (Xml.elements? (Cursor.ofText source)).getD [],
    ∀ raw ∈ (scanStartTag element.start).toOption, ∀ a ∈ raw.attributes,
      '\n' ∉ a.value.text

instance (source : String) : Decidable (HasUnbrokenValues source) :=
  inferInstanceAs (Decidable
    (∀ element ∈ (Xml.elements? (Cursor.ofText source)).getD [],
      ∀ raw ∈ (scanStartTag element.start).toOption, ∀ a ∈ raw.attributes,
        '\n' ∉ a.value.text))

theorem nodeOfElement_withReturns (wanted : List Tag) {element : Xml.Element}
    (hvalues : ∀ raw ∈ (scanStartTag element.start).toOption,
      ∀ a ∈ raw.attributes, '\n' ∉ a.value.text) :
    nodeOfElement wanted element.withReturns =
      nodeOfElement wanted element := by
  have hscan : scanStartTag element.start.withReturns =
      scanStartTag element.start := by
    rw [scanStartTag_withReturns]
    cases hraw : scanStartTag element.start with
    | error e => rfl
    | ok raw =>
        rw [hraw] at hvalues
        exact congrArg Except.ok
          (RawStartTag.withReturns_of_unbroken (hvalues raw rfl))
  unfold nodeOfElement
  dsimp only [Xml.Element.withReturns]
  rw [hscan]
  rfl

theorem readConfiguration_withReturns (hreturns : '\r' ∉ source.toList)
    (hvalues : HasUnbrokenValues source) (wanted : List Tag) :
    readConfiguration wanted (withReturns source) =
      readConfiguration wanted source := by
  unfold readConfiguration
  rw [ofText_withReturns,
    Xml.elements?_withReturns (c := Cursor.ofText source) hreturns]
  unfold HasUnbrokenValues at hvalues
  cases helements : Xml.elements? (Cursor.ofText source) with
  | none => rfl
  | some elements =>
      rw [helements, Option.getD_some] at hvalues
      have hnodes :
          (elements.map Xml.Element.withReturns).mapM (nodeOfElement wanted) =
            elements.mapM (nodeOfElement wanted) := by
        rw [List.mapM_map]
        exact mapM_congr_of_mem fun element hmem =>
          nodeOfElement_withReturns wanted (hvalues element hmem)
      dsimp only [Option.map_some]
      rw [hnodes]

end Nodes

section Lines

/-- The carriage return before a line feed belongs to the line end. -/
theorem splitLines_withReturns {cs line : List Char} (hcs : '\r' ∉ cs)
    (hline : '\r' ∉ line) :
    Text.splitLines line (Text.withReturns cs) = Text.splitLines line cs := by
  induction cs generalizing line with
  | nil => rfl
  | cons c cs ih =>
      rw [List.mem_cons, not_or] at hcs
      by_cases hc : c = '\n'
      · subst hc
        have hreturn : '\n' ∉ ['\r'] := by decide
        have hstep :=
          splitLines_append hreturn line ('\n' :: Text.withReturns cs)
        rw [List.singleton_append, List.reverse_singleton,
          List.singleton_append] at hstep
        rw [Text.withReturns_lineFeed, hstep, splitLines_lineFeed,
          splitLines_lineFeed, ih hcs.2 (by simp)]
        split
        · next front heq =>
            cases heq
            split
            · exact absurd List.mem_cons_self hline
            · rfl
        · next hother => exact (hother _ rfl).elim
      · have hplain : '\n' ∉ [c] := by simpa using Ne.symm hc
        have hstep := splitLines_append hplain line
        simp only [List.singleton_append, List.reverse_singleton] at hstep
        rw [Text.withReturns_cons hc, hstep, hstep, ih hcs.2]
        rw [List.mem_cons, not_or]
        exact ⟨hcs.1, hline⟩

theorem readSuppressions_withReturns {source : String}
    (hreturns : '\r' ∉ source.toList) (file : String) :
    readSuppressions file (withReturns source) =
      readSuppressions file source := by
  rw [readSuppressions, readSuppressions, withReturns, String.toList_ofList,
    Text.linesOf, Text.linesOf, splitLines_withReturns hreturns (by simp)]

end Lines

/-- The form of line ends does not matter.  Where no value goes over several
lines, a text without carriage returns has the same outcome as with one before
every line feed, the same violations at the same places in the same order, and
the same suppressions, which leave the same violations standing. -/
theorem line_ends_do_not_matter (source : String)
    (hreturns : '\r' ∉ source.toList) (hvalues : HasUnbrokenValues source)
    (a : Analyzer) (file : String) (sink : List Violation) :
    a.analyzeSource file (withReturns source) sink =
        a.analyzeSource file source sink ∧
      readSuppressions file (withReturns source) =
        readSuppressions file source ∧
      splitSuppressed (readSuppressions file (withReturns source))
          (a.analyzeSource file (withReturns source) []).2 =
        splitSuppressed (readSuppressions file source)
          (a.analyzeSource file source []).2 := by
  have hnodes := readConfiguration_withReturns hreturns hvalues
  have hanalyze (sink : List Violation) :
      a.analyzeSource file (withReturns source) sink =
        a.analyzeSource file source sink := by
    rw [Analyzer.analyzeSource, Analyzer.analyzeSource, hnodes]
  have hsuppressions := readSuppressions_withReturns hreturns file
  exact ⟨hanalyze sink, hsuppressions, by rw [hsuppressions, hanalyze]⟩

namespace LineEndsWitness

/-- Two forms that keep their tickets anywhere, the first of them accepted for a
reason, and tags that go over two lines. -/
def text : String :=
  "<web\n mode='old'>\n<!-- webcfg-guard:ignore * - mobile clients -->\n<forms/>\n<forms\n/>\n</web>"

def analyzer : Analyzer := { rules := Builtin.rules, hasReader := true }

theorem same_form_stands_in_both_texts :
    '\r' ∉ text.toList ∧ HasUnbrokenValues text ∧
      analyzer.analyzeSource "Web.config" (withReturns text) [] =
        analyzer.analyzeSource "Web.config" text [] ∧
      ((splitSuppressed (readSuppressions "Web.config" (withReturns text))
          (analyzer.analyzeSource "Web.config" (withReturns text) []).2).1.map
        fun v =>
          v.span.start.line) = [5] := by
  have hreturns : '\r' ∉ text.toList := by decide +kernel
  have hvalues : HasUnbrokenValues text := by decide +kernel
  obtain ⟨hsame, _, hsplit⟩ :=
    line_ends_do_not_matter text hreturns hvalues analyzer "Web.config" []
  refine ⟨hreturns, hvalues, hsame, ?_⟩
  rw [hsplit]
  decide +kernel

end LineEndsWitness

end WebConfigAudit

import WebConfigAudit.Proofs.DecimalDigits
import WebConfigAudit.Proofs.RuleCounts
import WebConfigAudit.Report.Pretty
/-!
The report for a terminal with and without colors.  A terminal takes the
sequences that switch styles for no text of their own, and without them the
colored report is the plain one, character by character.
-/

namespace WebConfigAudit

/-- The characters between the opening of a style sequence and the letter that
ends it. -/
def isStyleParameter (c : Char) : Bool :=
  Text.isDigit c || c == ';'

/-- What follows a style sequence at the front of a text, if there is one. -/
def dropStyle? : List Char → Option (List Char)
  | '\x1b' :: '[' :: rest =>
      match rest.dropWhile isStyleParameter with
      | 'm' :: after => some after
      | _ => none
  | _ => none

theorem length_lt_of_dropStyle? {cs after : List Char}
    (hdrop : dropStyle? cs = some after) : after.length < cs.length := by
  unfold dropStyle? at hdrop
  split at hdrop
  · next rest =>
      split at hdrop
      · next left hleft =>
          obtain rfl := Option.some.inj hdrop
          have hshorter :=
            (List.dropWhile_suffix isStyleParameter (l := rest)).length_le
          rw [hleft] at hshorter
          simp only [List.length_cons] at hshorter ⊢
          omega
      · contradiction
  · contradiction

/-- The text without its style sequences. -/
def withoutStyles (cs : List Char) : List Char :=
  match hdrop : dropStyle? cs with
  | some after =>
      have := length_lt_of_dropStyle? hdrop
      withoutStyles after
  | none =>
      match cs with
      | [] => []
      | c :: rest => c :: withoutStyles rest
termination_by cs.length

section Sequences

variable {cs rest : List Char}

theorem withoutStyles_of_dropStyle? (hdrop : dropStyle? cs = some rest) :
    withoutStyles cs = withoutStyles rest := by
  rw [withoutStyles]
  split
  · next after hafter =>
      rw [hdrop] at hafter
      rw [Option.some.inj hafter]
  · next hnone =>
      rw [hdrop] at hnone
      contradiction

theorem withoutStyles_cons {c : Char} (hc : c ≠ '\x1b') (rest : List Char) :
    withoutStyles (c :: rest) = c :: withoutStyles rest := by
  have hnone : dropStyle? (c :: rest) = none := by
    unfold dropStyle?
    split
    · next heq => exact absurd (List.cons.inj heq).1 hc
    · rfl
  rw [withoutStyles]
  split
  · next hsome =>
      rw [hnone] at hsome
      contradiction
  · rfl

/-- Text without an escape character stays. -/
theorem withoutStyles_append (hcs : '\x1b' ∉ cs) (rest : List Char) :
    withoutStyles (cs ++ rest) = cs ++ withoutStyles rest := by
  induction cs with
  | nil => rfl
  | cons c cs ih =>
      rw [List.mem_cons, not_or] at hcs
      rw [List.cons_append, withoutStyles_cons (Ne.symm hcs.1), ih hcs.2,
        List.cons_append]

theorem withoutStyles_on (style : Style) (rest : List Char) :
    withoutStyles (style.on ++ rest) = withoutStyles rest := by
  apply withoutStyles_of_dropStyle?
  cases style <;> rfl

theorem withoutStyles_off (rest : List Char) :
    withoutStyles (styleOff ++ rest) = withoutStyles rest :=
  withoutStyles_of_dropStyle? rfl

/-- In a text without an escape character nothing is switched off, so nothing is
switched on. -/
theorem resume_eq_self (style : Style) (hcs : '\x1b' ∉ cs) :
    resume style 0 cs = cs := by
  induction cs with
  | nil => rfl
  | cons c cs ih =>
      rw [List.mem_cons, not_or] at hcs
      have hother : styleOff.isPrefixOf (c :: cs) = false := by
        rw [styleOff, List.isPrefixOf, beq_eq_false_iff_ne.mpr hcs.1,
          Bool.false_and]
      rw [resume, hother, if_neg Bool.false_ne_true, ih hcs.2]

end Sequences

/-- The text of the piece has no escape character. -/
def Piece.IsClean (piece : Piece) : Prop :=
  '\x1b' ∉ piece.text.toList

theorem Piece.IsClean.not_mem_render {piece : Piece} (hclean : piece.IsClean) :
    '\x1b' ∉ piece.render false := by
  rw [Piece.render, if_neg (by simp), padTo, List.mem_append, not_or]
  refine ⟨hclean, fun hblank => ?_⟩
  have := List.eq_of_mem_replicate hblank
  contradiction

/-- A clean piece shows the same without its style sequences, blanks at its end
included. -/
theorem Piece.IsClean.withoutStyles_render {piece : Piece}
    (hclean : piece.IsClean) (rest : List Char) :
    withoutStyles (piece.render true ++ rest) =
      piece.render false ++ withoutStyles rest := by
  have hplain := withoutStyles_append hclean.not_mem_render
  have huncolored :
      piece.render false = padTo piece.width piece.text.toList := by
    rw [Piece.render, if_neg (by simp)]
  by_cases hstyle : piece.style = .plain
  · have hsame : piece.render true = piece.render false := by
      rw [huncolored, Piece.render, if_neg (by simp [hstyle])]
    rw [hsame, hplain]
  · rw [Piece.render, if_pos ⟨rfl, hstyle⟩, resume_eq_self _ hclean,
      ← huncolored, List.append_assoc, List.append_assoc, withoutStyles_on,
      hplain, withoutStyles_off]

theorem withoutStyles_flatMap_render {pieces : List Piece}
    (hclean : ∀ piece ∈ pieces, piece.IsClean) :
    withoutStyles (pieces.flatMap (Piece.render true)) =
      pieces.flatMap (Piece.render false) := by
  induction pieces with
  | nil => rw [List.flatMap_nil, List.flatMap_nil, withoutStyles]; rfl
  | cons piece pieces ih =>
      rw [List.forall_mem_cons] at hclean
      rw [List.flatMap_cons, List.flatMap_cons, hclean.1.withoutStyles_render,
        ih hclean.2]

/-! The texts that a report is made of -/

namespace Text

theorem exists_digitChar_of_mem_hexDigits {n : Nat} {c : Char}
    (hc : c ∈ hexDigits n) : ∃ k < 16, c = Nat.digitChar k := by
  -- the last digit stands behind those of the number without it
  induction n using Nat.strong_induction_on with
  | _ n ih =>
      rcases Nat.lt_or_ge n 16 with hsmall | hlarge
      · rw [hexDigits, Nat.toDigits_of_lt_base hsmall, List.mem_singleton] at hc
        exact ⟨n, hsmall, hc⟩
      · rw [hexDigits, Nat.toDigits_of_base_le (by decide) hlarge,
          List.mem_append, List.mem_singleton] at hc
        rcases hc with hc | hc
        · exact ih (n / 16) (by omega) hc
        · exact ⟨n % 16, Nat.mod_lt _ (by decide), hc⟩

theorem not_mem_hexDigits (n : Nat) : '\x1b' ∉ hexDigits n := by
  intro hescape
  obtain ⟨k, hk, hdigit⟩ := exists_digitChar_of_mem_hexDigits hescape
  have hdigits : ∀ k < 16, '\x1b' ≠ Nat.digitChar k := by decide
  exact hdigits k hk hdigit

theorem not_mem_escapeChar (apostrophe : Bool) (c : Char) :
    '\x1b' ∉ escapeChar apostrophe c := by
  unfold escapeChar
  split_ifs with _ _ _ _ _ _ _ _ hinvisible
  any_goals decide
  · simp [not_mem_hexDigits]
  · rw [List.mem_singleton]
    rintro rfl
    exact absurd (by decide) hinvisible

/-- An escape character does not come through quoting. -/
theorem not_mem_quote (s : String) : '\x1b' ∉ (quote s).toList := by
  simp [quote, not_mem_escapeChar]

end Text

/-- The texts of a result that the report shows as they are.  Reasons are
quoted. -/
def AuditResult.shownTexts (r : AuditResult) : List String :=
  r.violations.flatMap (fun v => [v.file, v.rule, v.message]) ++
    (r.suppressed.flatMap (fun p => [p.violation.rule, p.violation.file]) ++
      r.failed)

namespace Pretty

/-! The pieces of each part of the report -/

theorem not_mem_plural (n : Nat) : '\x1b' ∉ (plural n).toList := by
  unfold plural
  split <;> decide

theorem not_mem_decimal (n : Nat) : '\x1b' ∉ (Text.decimal n).toList :=
  Text.not_mem_decimal rfl n

theorem isClean_header {path contract : String} (hpath : '\x1b' ∉ path.toList)
    (hcontract : '\x1b' ∉ contract.toList) :
    ∀ piece ∈ header path contract, piece.IsClean := by
  simp [header, plain, styled, lineEnd, Piece.IsClean, hpath, hcontract,
    Tool.name, Tool.version]

theorem isClean_summary (r : AuditResult) :
    ∀ piece ∈ summary r, piece.IsClean := by
  unfold summary
  split <;> split <;>
    simp [plain, styled, lineEnd, Piece.IsClean, not_mem_plural,
      not_mem_decimal]

theorem isClean_violation {v : Violation} (hfile : '\x1b' ∉ v.file.toList)
    (hrule : '\x1b' ∉ v.rule.toList) (hmessage : '\x1b' ∉ v.message.toList) :
    ∀ piece ∈ violation v, piece.IsClean := by
  simp [violation, plain, styled, lineEnd, Piece.IsClean, hfile, hrule,
    hmessage, not_mem_decimal]

theorem isClean_violations {vs : List Violation}
    (hvs : ∀ v ∈ vs, ∀ s ∈ [v.file, v.rule, v.message], '\x1b' ∉ s.toList) :
    ∀ piece ∈ violations vs, piece.IsClean := by
  rw [violations, List.forall_mem_append, List.forall_mem_flatMap]
  refine ⟨?_, fun v hv => ?_⟩
  · simp [plain, styled, lineEnd, Piece.IsClean, not_mem_decimal]
  · simp only [List.forall_mem_cons] at hvs
    obtain ⟨hfile, hrule, hmessage, _⟩ := hvs v hv
    exact isClean_violation hfile hrule hmessage

theorem isClean_suppressedViolation {p : SuppressedViolation}
    (hrule : '\x1b' ∉ p.violation.rule.toList)
    (hfile : '\x1b' ∉ p.violation.file.toList) :
    ∀ piece ∈ suppressedViolation p, piece.IsClean := by
  unfold suppressedViolation
  split <;> split <;>
    simp [plain, styled, lineEnd, Piece.IsClean, hrule, hfile, not_mem_decimal,
      Text.not_mem_quote]

theorem isClean_suppressed (details : Bool) {ps : List SuppressedViolation}
    (hps : ∀ p ∈ ps, ∀ s ∈ [p.violation.rule, p.violation.file],
      '\x1b' ∉ s.toList) :
    ∀ piece ∈ suppressed details ps, piece.IsClean := by
  rw [suppressed, List.forall_mem_append]
  refine ⟨by simp [plain, styled, Piece.IsClean, not_mem_decimal], ?_⟩
  cases details with
  | false => simp [plain, styled, lineEnd, Piece.IsClean]
  | true =>
      rw [if_pos rfl, List.forall_mem_cons, List.forall_mem_flatMap]
      refine ⟨by simp [lineEnd, plain, Piece.IsClean], fun p hp => ?_⟩
      simp only [List.forall_mem_cons] at hps
      obtain ⟨hrule, hfile, _⟩ := hps p hp
      exact isClean_suppressedViolation hrule hfile

theorem isClean_failed {files : List String}
    (hfiles : ∀ file ∈ files, '\x1b' ∉ file.toList) :
    ∀ piece ∈ failed files, piece.IsClean := by
  rw [failed, List.forall_mem_append, List.forall_mem_flatMap]
  refine ⟨by simp [plain, styled, Piece.IsClean, not_mem_decimal],
    fun file hfile => ?_⟩
  simp [plain, styled, lineEnd, Piece.IsClean, hfiles file hfile]

theorem isClean_breakdown {vs : List Violation}
    (hvs : ∀ v ∈ vs, '\x1b' ∉ v.rule.toList) :
    ∀ piece ∈ breakdown vs, piece.IsClean := by
  rw [breakdown, List.forall_mem_append, List.forall_mem_flatMap]
  refine ⟨by simp [plain, styled, lineEnd, Piece.IsClean], fun row hrow => ?_⟩
  obtain ⟨⟨v, hv, hrule⟩, _⟩ := ((isHistogram_breakdown vs).mem_iff row).mp hrow
  have hname : '\x1b' ∉ row.rule.toList := hrule ▸ hvs v hv
  simp [plain, Piece.IsClean, hname, not_mem_plural, not_mem_decimal]

theorem isClean_sectionOf {α : Type} {items : List α} {pieces : List Piece}
    (hpieces : ∀ piece ∈ pieces, piece.IsClean) :
    ∀ piece ∈ sectionOf items pieces, piece.IsClean := by
  unfold sectionOf
  split
  · simp
  · rw [List.forall_mem_append]
    exact ⟨hpieces, by simp [lineEnd, plain, Piece.IsClean]⟩

theorem isClean_report {path contract : String} {r : AuditResult}
    (hclean : ∀ s ∈ path :: contract :: r.shownTexts, '\x1b' ∉ s.toList)
    (details : Bool) :
    ∀ piece ∈ report path contract r details, piece.IsClean := by
  rw [List.forall_mem_cons, List.forall_mem_cons, AuditResult.shownTexts,
    List.forall_mem_append, List.forall_mem_append, List.forall_mem_flatMap,
    List.forall_mem_flatMap] at hclean
  obtain ⟨hpath, hcontract, hviolations, hsuppressed, hfailed⟩ := hclean
  have hrules : ∀ v ∈ r.violations, '\x1b' ∉ v.rule.toList := fun v hv =>
    hviolations v hv v.rule (by simp)
  simp only [report, List.forall_mem_append]
  refine ⟨⟨⟨⟨⟨⟨isClean_header hpath hcontract, isClean_summary r⟩, ?_⟩, ?_⟩,
    ?_⟩, ?_⟩, ?_⟩
  · simp [lineEnd, plain, Piece.IsClean]
  · exact isClean_sectionOf (isClean_violations hviolations)
  · exact isClean_sectionOf (isClean_suppressed details hsuppressed)
  · exact isClean_sectionOf (isClean_failed hfailed)
  · exact isClean_sectionOf (isClean_breakdown hrules)

end Pretty

/-- Colors add style sequences to the report and nothing else.  Where no text
that the report shows has an escape character, the colored report without its
style sequences is the plain report, and that has no escape character at all. -/
theorem uncolored_report_is_plain (path contract : String) (r : AuditResult)
    (details : Bool)
    (hclean : ∀ s ∈ path :: contract :: r.shownTexts, '\x1b' ∉ s.toList) :
    withoutStyles (prettyReport true path contract r details).toList =
        (prettyReport false path contract r details).toList ∧
      '\x1b' ∉ (prettyReport false path contract r details).toList := by
  have hpieces := Pretty.isClean_report hclean details
  rw [prettyReport, prettyReport, renderPieces, renderPieces,
    String.toList_ofList, String.toList_ofList]
  refine ⟨withoutStyles_flatMap_render hpieces, fun hescape => ?_⟩
  obtain ⟨piece, hpiece, hshown⟩ := List.mem_flatMap.mp hescape
  exact (hpieces piece hpiece).not_mem_render hshown

namespace UncoloredReportWitness

/-- Every part of the report has something to list, and the reason has a
sequence of its own. -/
def result : AuditResult where
  violations :=
    [⟨"Site/Web.config", "AvoidTrace", ⟨⟨4, 5⟩, ⟨4, 17⟩⟩, "tracing is on"⟩,
     ⟨"Site/Web.config", "AvoidDebug", ⟨⟨9, 5⟩, ⟨9, 17⟩⟩, ""⟩]
  suppressed :=
    [⟨⟨"Admin/Web.config", "AvoidTrace", ⟨⟨7, 5⟩, ⟨7, 17⟩⟩, "tracing is on"⟩,
      { rule := "*", reason := "\x1b[31mKiosk", file := "Admin/Web.config",
        line := 6,
        scope := .nextLine }⟩]
  scanned := 2
  failed := ["Broken/Web.config"]

theorem full_report_is_plain :
    (∀ s ∈ "." :: "built-in rules" :: result.shownTexts, '\x1b' ∉ s.toList) ∧
      withoutStyles
        (prettyReport true "." "built-in rules" result true).toList =
        (prettyReport false "." "built-in rules" result true).toList := by
  have hclean : ∀ s ∈ "." :: "built-in rules" :: result.shownTexts,
      '\x1b' ∉ s.toList := by
    decide +kernel
  exact ⟨hclean,
    (uncolored_report_is_plain "." "built-in rules" result true hclean).1⟩

/-- A column is filled up between the sequences. -/
example :
    ({ style := .dimmed, text := "AvoidTrace", width := 12 } : Piece).render
        true =
      "\x1b[2mAvoidTrace  \x1b[0m".toList := by
  decide

example :
    withoutStyles "\x1b[1;36mA\x1b[0m B\x1b[K".toList = "A B\x1b[K".toList := by
  cbv

end UncoloredReportWitness

end WebConfigAudit

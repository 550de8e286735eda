import WebConfigAudit.Proofs.JsonText
import WebConfigAudit.Proofs.Records
import WebConfigAudit.Report.Record
/-!
The JSON report of a run says everything about its result: reading its text back
gives the report, and the report tells results apart.
-/

namespace WebConfigAudit

open Record

theorem Record.count?_natural {n : Nat} (hn : n < UInt64.size) :
    count? (.natural n) = some n := by
  have hvalue : (UInt64.ofNat n).toNat = n := UInt64.toNat_ofNat_of_lt hn
  rw [count?, Text.wordOfNat?, if_pos hn, Option.map_some, hvalue]

/-! Reports whose numbers are words of sixty-four bits -/

/-- The lines and columns of a reported violation are words. -/
structure ReportedViolation.FitsWords (v : ReportedViolation) : Prop where
  line : v.line < UInt64.size
  column : v.column < UInt64.size
  endLine : v.endLine < UInt64.size
  endColumn : v.endColumn < UInt64.size

/-- The lines and columns of a reported suppressed violation are words. -/
structure ReportedPair.FitsWords (p : ReportedPair) : Prop where
  violation : p.violation.FitsWords
  line : p.suppression.line < UInt64.size

/-- The numbers of a report are words. -/
structure ReportDocument.FitsWords (d : ReportDocument) : Prop where
  filesScanned : d.filesScanned < UInt64.size
  violations : ∀ v ∈ d.violations, v.FitsWords
  suppressed : ∀ p ∈ d.suppressed, p.FitsWords
  suppressedCount : d.suppressedCount < UInt64.size
  breakdown : ∀ c ∈ d.breakdown, c.count < UInt64.size

theorem ReportedViolation.ofJson?_toJson {v : ReportedViolation}
    (hfits : v.FitsWords) : ofJson? v.toJson = some v := by
  simp [ofJson?, toJson, members?, Json.get?, required, Json.string?,
    count?_natural hfits.line, count?_natural hfits.column,
    count?_natural hfits.endLine, count?_natural hfits.endColumn]

/-- An empty reason is left out, and is what a reason that is left out is read
as. -/
theorem ReportedSuppression.ofJson?_toJson {s : ReportedSuppression}
    (hline : s.line < UInt64.size) : ofJson? s.toJson = some s := by
  obtain ⟨rule, reason, file, line, kind⟩ := s
  by_cases hreason : reason = ""
  · subst hreason
    simp [ofJson?, toJson, members?, Json.get?, required, withDefault,
      Json.string?, count?_natural hline]
  · simp [ofJson?, toJson, members?, Json.get?, required, withDefault,
      Json.string?, hreason, count?_natural hline]

theorem ReportedPair.ofJson?_toJson {p : ReportedPair} (hfits : p.FitsWords) :
    ofJson? p.toJson = some p := by
  simp [ofJson?, toJson, members?, Json.get?, required,
    ReportedViolation.ofJson?_toJson hfits.violation,
    ReportedSuppression.ofJson?_toJson hfits.line]

theorem RuleCount.ofJson?_toJson {c : RuleCount}
    (hcount : c.count < UInt64.size) : ofJson? c.toJson = some c := by
  simp [ofJson?, toJson, members?, Json.get?, required, Json.string?,
    count?_natural hcount]

/-- A list in its place, or nothing if it is empty. -/
def listedUnlessEmpty {α : Type} (encode : α → Json) (as : List α) :
    Option Json :=
  if as.isEmpty then none else some (.array (as.map encode))

theorem withDefault_listedUnlessEmpty {α : Type} {decode : Json → Option α}
    {encode : α → Json} {as : List α}
    (hback : ∀ a ∈ as, decode (encode a) = some a) :
    withDefault [] (listOf decode) (listedUnlessEmpty encode as) = some as := by
  cases as with
  | nil => rfl
  | cons a as => exact listOf_map hback

theorem reverse_unlessEmpty (key : String) (items : List Json) :
    (unlessEmpty key items).reverse = unlessEmpty key items := by
  cases items <;> rfl

/-- The member is found by its own name only, and not if it is left out. -/
theorem find?_unlessEmpty {α : Type} (encode : α → Json) (as : List α)
    (key name : String) :
    (unlessEmpty key (as.map encode)).find? (fun member => member.1 == name) =
      if key = name then (listedUnlessEmpty encode as).map (Prod.mk key)
      else none := by
  cases as with
  | nil => simp [unlessEmpty, listedUnlessEmpty]
  | cons a as =>
      by_cases hname : key = name
      · simp [unlessEmpty, listedUnlessEmpty, hname]
      · simp [unlessEmpty, hname]

/-- The members of a report in the order of their names; the two lists that may
be left out are missing if they are empty. -/
theorem ReportDocument.members?_toJson (d : ReportDocument) :
    members? ["version", "path", "contract", "passed", "files_scanned",
        "files_failed", "violations", "suppressed", "suppressed_count",
        "breakdown"] d.toJson =
      some [some (.string d.version), some (.string d.path),
        some (.string d.contract), some (.bool d.passed),
        some (.natural d.filesScanned), listedUnlessEmpty .string d.filesFailed,
        some (.array (d.violations.map ReportedViolation.toJson)),
        listedUnlessEmpty ReportedPair.toJson d.suppressed,
        some (.natural d.suppressedCount),
        some (.array (d.breakdown.map RuleCount.toJson))] := by
  simp [toJson, members?, Json.get?, reverse_unlessEmpty, find?_unlessEmpty,
    Function.comp_def]

theorem ReportDocument.ofJson?_toJson {d : ReportDocument}
    (hfits : d.FitsWords) : ofJson? d.toJson = some d := by
  have hfiles : withDefault [] (listOf Json.string?)
      (listedUnlessEmpty Json.string d.filesFailed) = some d.filesFailed :=
    withDefault_listedUnlessEmpty fun _ _ => rfl
  have hviolations :=
    listOf_map fun v hv =>
      ReportedViolation.ofJson?_toJson (hfits.violations v hv)
  have hsuppressed :=
    withDefault_listedUnlessEmpty fun p hp =>
      ReportedPair.ofJson?_toJson (hfits.suppressed p hp)
  have hbreakdown := listOf_map fun c hc =>
    RuleCount.ofJson?_toJson (hfits.breakdown c hc)
  simp [ofJson?, members?_toJson, required, Json.string?, Json.bool?, hfiles,
    hviolations, hsuppressed, hbreakdown, count?_natural hfits.filesScanned,
    count?_natural hfits.suppressedCount]

/-! The text of a report -/

theorem ReportedViolation.isPlain_toJson (v : ReportedViolation) :
    v.toJson.IsPlain := by
  simp [toJson]

theorem ReportedSuppression.isPlain_toJson (s : ReportedSuppression) :
    s.toJson.IsPlain := by
  by_cases hreason : s.reason = ""
  · simp [toJson, hreason]
  · simp [toJson, hreason]

theorem ReportedPair.isPlain_toJson (p : ReportedPair) : p.toJson.IsPlain := by
  simp [toJson, p.violation.isPlain_toJson, p.suppression.isPlain_toJson]

theorem RuleCount.isPlain_toJson (c : RuleCount) : c.toJson.IsPlain := by
  simp [toJson]

theorem isPlain_of_mem_unlessEmpty {key : String} {items : List Json}
    (hitems : ∀ item ∈ items, item.IsPlain) :
    ∀ member ∈ unlessEmpty key items, member.2.IsPlain := by
  cases items with
  | nil => simp [unlessEmpty]
  | cons item items => simpa [unlessEmpty] using hitems

theorem ReportDocument.isPlain_toJson (d : ReportDocument) :
    d.toJson.IsPlain := by
  have hfiles :
        ∀ member ∈ unlessEmpty "files_failed" (d.filesFailed.map Json.string),
      member.2.IsPlain := isPlain_of_mem_unlessEmpty (by simp)
  have hsuppressed :
      ∀ member ∈ unlessEmpty "suppressed" (d.suppressed.map
        ReportedPair.toJson),
        member.2.IsPlain :=
    isPlain_of_mem_unlessEmpty (by simp [ReportedPair.isPlain_toJson])
  simp only [toJson, Json.isPlain_object_iff, List.forall_mem_append]
  refine ⟨⟨⟨⟨?_, hfiles⟩, ?_⟩, hsuppressed⟩, ?_⟩
  · simp
  · simp [ReportedViolation.isPlain_toJson]
  · simp [RuleCount.isPlain_toJson]

theorem read_jsonReport (path contract : String) (r : AuditResult) :
    Json.read (jsonReport path contract r) =
      some (ReportDocument.of path contract r).toJson :=
  Json.read_pretty_append (ReportDocument.isPlain_toJson _)
    (by simp [Json.IsGap]; rfl)

/-! Results whose numbers are words of sixty-four bits -/

/-- Both ends of a span are given by words. -/
structure Span.FitsWords (s : Span) : Prop where
  startLine : s.start.line < UInt64.size
  startColumn : s.start.column < UInt64.size
  stopLine : s.stop.line < UInt64.size
  stopColumn : s.stop.column < UInt64.size

/-- The numbers of a result, and the lengths of the lists that it counts, are
words. -/
structure AuditResult.FitsWords (r : AuditResult) : Prop where
  violations : ∀ v ∈ r.violations, v.span.FitsWords
  suppressed : ∀ p ∈ r.suppressed, p.violation.span.FitsWords ∧
    p.suppression.line < UInt64.size
  scanned : r.scanned < UInt64.size
  length_violations : r.violations.length < UInt64.size
  length_suppressed : r.suppressed.length < UInt64.size

theorem Violation.fitsWords_of_span {v : Violation} (hspan : v.span.FitsWords) :
    (ReportedViolation.of v).FitsWords :=
  ⟨hspan.startLine, hspan.startColumn, hspan.stopLine, hspan.stopColumn⟩

theorem count_le_of_mem_breakdown {vs : List Violation} {c : RuleCount}
    (hc : c ∈ breakdown vs) : c.count ≤ vs.length := by
  rw [breakdown, List.mem_mergeSort, List.mem_map] at hc
  obtain ⟨rule, _, rfl⟩ := hc
  exact List.countP_le_length

theorem AuditResult.FitsWords.report {r : AuditResult} (hfits : r.FitsWords)
    (path contract : String) :
    (ReportDocument.of path contract r).FitsWords where
  filesScanned := hfits.scanned
  violations := by
    simp only [ReportDocument.of, List.forall_mem_map]
    exact fun v hv => Violation.fitsWords_of_span (hfits.violations v hv)
  suppressed := by
    simp only [ReportDocument.of, List.forall_mem_map]
    intro p hp
    exact ⟨Violation.fitsWords_of_span (hfits.suppressed p hp).1,
      (hfits.suppressed p hp).2⟩
  suppressedCount := hfits.length_suppressed
  breakdown c hc :=
    Nat.lt_of_le_of_lt (count_le_of_mem_breakdown hc) hfits.length_violations

/-! What a report tells of the result -/

theorem ReportedViolation.of_injective :
    Function.Injective ReportedViolation.of := by
  rintro ⟨_, _, ⟨⟨_, _⟩, ⟨_, _⟩⟩, _⟩ ⟨_, _, ⟨⟨_, _⟩, ⟨_, _⟩⟩, _⟩ hsame
  cases hsame
  rfl

theorem Scope.reportName_injective : Function.Injective Scope.reportName := by
  intro s t hsame
  cases s <;> cases t <;> first | rfl | simp [reportName] at hsame

theorem ReportedSuppression.of_injective :
    Function.Injective ReportedSuppression.of := by
  rintro ⟨_, _, _, _, _⟩ ⟨_, _, _, _, _⟩ hsame
  simp only [ReportedSuppression.of, ReportedSuppression.mk.injEq] at hsame
  obtain ⟨rfl, rfl, rfl, rfl, hscope⟩ := hsame
  rw [Scope.reportName_injective hscope]

theorem ReportedPair.of_injective : Function.Injective ReportedPair.of := by
  rintro ⟨v, s⟩ ⟨w, t⟩ hsame
  simp only [ReportedPair.of, ReportedPair.mk.injEq] at hsame
  rw [ReportedViolation.of_injective hsame.1,
    ReportedSuppression.of_injective hsame.2]

theorem ReportDocument.of_injective (path contract : String) :
    Function.Injective (ReportDocument.of path contract) := by
  rintro ⟨violations, suppressed, scanned, failed⟩
    ⟨violations', suppressed', scanned', failed'⟩ hsame
  simp only [ReportDocument.of, ReportDocument.mk.injEq] at hsame
  obtain ⟨_, _, _, _, rfl, rfl, hviolations, hsuppressed, _, _⟩ := hsame
  rw [ReportedViolation.of_injective.list_map hviolations,
    ReportedPair.of_injective.list_map hsuppressed]

/-- The text of a report is read back as the report, member by member, and
results with the same text are the same. -/
theorem jsonReport_tells_result (path contract : String) {r s : AuditResult}
    (hr : r.FitsWords) (hs : s.FitsWords) :
    ReportDocument.ofText? (jsonReport path contract r) =
        some (.of path contract r) ∧
      (jsonReport path contract r = jsonReport path contract s → r = s) := by
  have hback : ∀ t : AuditResult, t.FitsWords →
      ReportDocument.ofText? (jsonReport path contract t) =
        some (.of path contract t) := by
    intro t ht
    rw [ReportDocument.ofText?, read_jsonReport, Option.bind_some,
      ReportDocument.ofJson?_toJson (ht.report path contract)]
  refine ⟨hback r hr, fun hsame => ?_⟩
  have hreports : some (ReportDocument.of path contract r) =
      some (.of path contract s) := by
    rw [← hback r hr, hsame, hback s hs]
  exact ReportDocument.of_injective path contract (Option.some.inj hreports)

namespace LosslessReportWitness

/-- A place at the far end of what can be counted. -/
def farAway : Span :=
  ⟨⟨UInt64.size - 1, UInt64.size - 1⟩, ⟨UInt64.size - 1, UInt64.size - 1⟩⟩

/-- Quotes, a backslash, control characters and characters of several octets. -/
def traced : Violation :=
  ⟨"Wéb\x01.config", "Avoid \"tracing\"", farAway, "tab\tand \\\n😀\x7f"⟩

/-- A result with a suppressed violation and the scope of its suppression. -/
def resultWith (scope : Scope) : AuditResult where
  violations := [traced, traced]
  suppressed := [⟨traced, ⟨"*", "", "Wéb\x01.config", 3, scope⟩⟩]
  scanned := UInt64.size - 1

theorem fitsWords_resultWith (scope : Scope) :
    (resultWith scope).FitsWords := by
  have hspan : farAway.FitsWords := ⟨by decide, by decide, by decide, by decide⟩
  have hline : 3 < UInt64.size := by decide
  constructor
  · simpa [resultWith, traced] using hspan
  · simpa [resultWith, traced] using And.intro hspan hline
  · exact Nat.sub_one_lt (by decide)
  · exact (by decide : 2 < UInt64.size)
  · exact (by decide : 1 < UInt64.size)

theorem scope_is_told :
    (resultWith .line).FitsWords ∧ (resultWith .nextLine).FitsWords ∧
      ReportDocument.ofText?
        (jsonReport "site" "built-in rules" (resultWith .line)) =
        some (.of "site" "built-in rules" (resultWith .line)) ∧
      jsonReport "site" "built-in rules" (resultWith .line) ≠
        jsonReport "site" "built-in rules" (resultWith .nextLine) := by
  have hline := fitsWords_resultWith .line
  have hnext := fitsWords_resultWith .nextLine
  obtain ⟨hback, hsame⟩ :=
    jsonReport_tells_result "site" "built-in rules" hline hnext
  have hdiffer : resultWith .line ≠ resultWith .nextLine := by simp [resultWith]
  exact ⟨hline, hnext, hback, fun htext => hdiffer (hsame htext)⟩

end LosslessReportWitness

end WebConfigAudit

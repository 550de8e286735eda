import WebConfigAudit.Proofs.Fallible
import WebConfigAudit.Proofs.LineBreaks
import WebConfigAudit.Source.StartTag
/-!
What the scanner of start tags lets through: how far each of its steps goes, and
what a value looks like that it accepts.
-/

namespace WebConfigAudit

open Text (Cursor)

/-- A value in quotes: a mark, then anything but the mark, then the mark
again. -/
def IsQuoted (cs : List Char) : Prop :=
  ∃ mark inside, (mark = '"' ∨ mark = '\'') ∧ mark ∉ inside ∧
    cs = mark :: inside ++ [mark]

variable {c d : Cursor}

/-- A value is all that the scan passes over. -/
theorem quoted_of_scanValue {value : RawToken}
    (hscan : scanValue c = .ok (value, d)) :
    IsQuoted value.text ∧ c.Passes value.text d := by
  unfold scanValue at hscan
  split at hscan
  · contradiction
  · next mark rest hrest =>
      split at hscan
      · next hmark =>
          dsimp only at hscan
          split at hscan
          · contradiction
          · next closing after hclosing =>
              cases hscan
              obtain rfl : closing = mark := by
                simpa using Cursor.not_of_skip_rest hclosing
              refine ⟨⟨closing, _, hmark, fun hinside => ?_, rfl⟩, ?_⟩
              · simpa using Cursor.of_mem_run hinside
              · have hinside :=
                  Cursor.passes_skip (fun x => decide (x ≠ closing)) c.next
                exact ((Cursor.passes_next hrest).trans hinside).trans
                  (Cursor.passes_next hclosing)
      · contradiction

/-- An attribute has a name, so the scan moves on before it comes to the
value. -/
theorem exists_value_of_scanAttribute {a : RawAttribute}
    (hscan : scanAttribute c = .ok (a, d)) :
    ∃ e, c.Advances e ∧ scanValue e = .ok (a.value, d) := by
  have hname : c.Passes (scanName c).1.text (scanName c).2 := c.passes_skip _
  unfold scanAttribute at hscan
  dsimp only at hscan
  split at hscan
  · contradiction
  · next hne =>
      rw [List.isEmpty_iff] at hne
      split at hscan
      · obtain ⟨⟨value, after⟩, hvalue, ⟨⟩⟩ := bind_eq_ok_iff.mp hscan
        refine ⟨_, (hname.advances hne).trans_reaches ?_, hvalue⟩
        exact ((Cursor.reaches_skip _ _).trans (Cursor.reaches_next _)).trans
          (Cursor.reaches_skip _ _)
      · contradiction

theorem advances_of_scanAttribute {a : RawAttribute}
    (hscan : scanAttribute c = .ok (a, d)) : c.Advances d := by
  obtain ⟨e, hname, hvalue⟩ := exists_value_of_scanAttribute hscan
  exact hname.trans_reaches (quoted_of_scanValue hvalue).2.reaches

theorem isQuoted_of_scanAttributes {fuel : Nat} {attributes : List RawAttribute}
    (hscan : scanAttributes fuel c = .ok attributes) :
    ∀ a ∈ attributes, IsQuoted a.value.text := by
  induction fuel generalizing c attributes with
  | zero => contradiction
  | succ fuel ih =>
      unfold scanAttributes at hscan
      dsimp only at hscan
      split at hscan
      · contradiction
      · cases hscan
        exact List.forall_mem_nil _
      · cases hscan
        exact List.forall_mem_nil _
      · obtain ⟨⟨first, after⟩, hfirst, hscan⟩ := bind_eq_ok_iff.mp hscan
        obtain ⟨others, hothers, ⟨⟩⟩ := bind_eq_ok_iff.mp hscan
        obtain ⟨_, _, hvalue⟩ := exists_value_of_scanAttribute hfirst
        exact List.forall_mem_cons.mpr ⟨(quoted_of_scanValue hvalue).1,
          ih hothers⟩

theorem isQuoted_of_scanStartTag {raw : RawStartTag}
    (hscan : scanStartTag c = .ok raw) :
    ∀ a ∈ raw.attributes, IsQuoted a.value.text := by
  unfold scanStartTag at hscan
  split at hscan
  · obtain ⟨attributes, hattributes, ⟨⟩⟩ := bind_eq_ok_iff.mp hscan
    exact isQuoted_of_scanAttributes hattributes
  · contradiction

end WebConfigAudit

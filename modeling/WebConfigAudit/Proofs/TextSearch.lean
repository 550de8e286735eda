import Mathlib.Data.List.DropRight
import WebConfigAudit.Text.CharClass
import WebConfigAudit.Text.Pieces
/-!
Texts within texts.  A search stops at the first occurrence, and a character
that the wanted text does not have changes nothing when it is put at the end.
-/

namespace WebConfigAudit.Text

section Search

variable {wanted cs ds rest : List Char} {c : Char}

theorem isPrefixOf_concat (hc : c ∉ wanted) (cs : List Char) :
    wanted.isPrefixOf (cs ++ [c]) = wanted.isPrefixOf cs := by
  rw [Bool.eq_iff_iff, List.isPrefixOf_iff_prefix, List.isPrefixOf_iff_prefix,
    List.prefix_concat_iff]
  constructor
  · rintro (rfl | hbegins)
    · simp at hc
    · exact hbegins
  · exact Or.inr

/-- A text that lies around a character lies on one side of it, if it has no
such character. -/
theorem infix_or_infix_of_append_cons (hc : c ∉ wanted)
    (hoccurs : wanted <:+: cs ++ c :: ds) :
    wanted <:+: cs ∨ wanted <:+: ds := by
  rcases List.infix_append_iff.mp hoccurs with
    hleft | hright | ⟨front, back, rfl, hfront, hback⟩
  · exact Or.inl hleft
  · rcases List.infix_cons_iff.mp hright with hbegins | hright
    · cases wanted with
      | nil => exact Or.inl List.nil_infix
      | cons x wanted =>
          obtain ⟨rfl, _⟩ := List.cons_prefix_cons.mp hbegins
          exact absurd List.mem_cons_self hc
    · exact Or.inr hright
  · cases back with
    | nil =>
        rw [List.append_nil]
        exact Or.inl hfront.isInfix
    | cons x back =>
        obtain ⟨rfl, _⟩ := List.cons_prefix_cons.mp hback
        exact absurd (List.mem_append_right front List.mem_cons_self) hc

/-- Nothing is found just if the text does not occur. -/
theorem before?_eq_none_iff (hwanted : wanted ≠ []) :
    before? wanted cs = none ↔ ¬ wanted <:+: cs := by
  induction cs with
  | nil => simp [before?, hwanted]
  | cons x cs ih =>
      rw [List.infix_cons_iff, not_or, ← ih,
        ← List.isPrefixOf_iff_prefix, before?]
      split
      · next hbegins => simp [hbegins]
      · next hother => simp [hother]

/-- What comes before an occurrence is what is found, unless another one begins
in it. -/
theorem before?_append (hfirst : ¬ wanted <:+: cs ++ wanted.dropLast)
    (rest : List Char) : before? wanted (cs ++ wanted ++ rest) = some cs := by
  induction cs with
  | nil =>
      cases wanted with
      | nil => simp at hfirst
      | cons w wanted =>
          rw [List.nil_append, List.cons_append, before?, if_pos]
          rw [List.isPrefixOf_iff_prefix]
          exact List.prefix_append (w :: wanted) rest
  | cons x cs ih =>
      rw [List.cons_append, List.infix_cons_iff, not_or] at hfirst
      have hlength : wanted.length ≤ (x :: (cs ++ wanted.dropLast)).length := by
        simp only [List.length_cons, List.length_append, List.length_dropLast]
        omega
      -- an occurrence at the front would fit into the text that has none
      have hother : ¬ wanted <+: x :: (cs ++ wanted ++ rest) := by
        intro hbegins
        apply hfirst.1
        refine List.prefix_of_prefix_length_le hbegins ?_ hlength
        rw [List.cons_prefix_cons, List.append_assoc]
        exact ⟨rfl, (List.prefix_append_right_inj cs).mpr
          ((List.dropLast_prefix wanted).trans
            (List.prefix_append wanted rest))⟩
      rw [List.cons_append, List.cons_append, before?,
        if_neg (by simpa using hother), ih hfirst.2]
      rfl

theorem exists_rest_of_before? {text : List Char}
    (hbefore : before? wanted cs = some text) :
    ∃ rest, cs = text ++ wanted ++ rest := by
  induction cs generalizing text with
  | nil =>
      rw [before?] at hbefore
      split at hbefore
      · next hempty =>
          cases hbefore
          exact ⟨[], by simpa using hempty⟩
      · contradiction
  | cons c cs ih =>
      rw [before?] at hbefore
      split at hbefore
      · next hbegins =>
          cases hbefore
          obtain ⟨rest, hrest⟩ := List.isPrefixOf_iff_prefix.mp hbegins
          exact ⟨rest, by rw [List.nil_append, hrest]⟩
      · obtain ⟨text, htext, rfl⟩ := Option.map_eq_some_iff.mp hbefore
        obtain ⟨rest, rfl⟩ := ih htext
        exact ⟨rest, rfl⟩

/-- No other occurrence begins in what comes before the one that is found. -/
theorem not_infix_of_before? (hwanted : wanted ≠ []) {text : List Char}
    (hbefore : before? wanted cs = some text) :
    ¬ wanted <:+: text ++ wanted.dropLast := by
  induction cs generalizing text with
  | nil => simp [before?, hwanted] at hbefore
  | cons x cs ih =>
      rw [before?] at hbefore
      split at hbefore
      · cases hbefore
        intro hoccurs
        have hlength := hoccurs.length_le
        rw [List.nil_append, List.length_dropLast] at hlength
        have hpos := List.length_pos_iff.mpr hwanted
        omega
      · next hother =>
          obtain ⟨front, hfront, rfl⟩ := Option.map_eq_some_iff.mp hbefore
          rw [List.cons_append, List.infix_cons_iff, not_or]
          refine ⟨fun hbegins => hother ?_, ih hfront⟩
          obtain ⟨rest, hrest⟩ := exists_rest_of_before? hfront
          rw [List.isPrefixOf_iff_prefix]
          refine hbegins.trans ?_
          rw [List.prefix_cons_inj, hrest, List.append_assoc,
            List.prefix_append_right_inj]
          exact (List.dropLast_prefix wanted).trans
            (List.prefix_append wanted rest)

/-- A search passes over characters that the wanted text does not begin with. -/
theorem before?_append_of_not_mem {front : List Char} (hc : c ∉ front)
    (cs : List Char) :
    before? (c :: wanted) (front ++ cs) =
      (before? (c :: wanted) cs).map (front ++ ·) := by
  induction front with
  | nil => simp
  | cons x front ih =>
      rw [List.mem_cons, not_or] at hc
      have hother : ¬ (c :: wanted).isPrefixOf (x :: (front ++ cs)) = true := by
        simp [hc.1]
      rw [List.cons_append, before?, if_neg hother, ih hc.2, Option.map_map]
      rfl

theorem before?_singleton (hc : c ∉ cs) (rest : List Char) :
    before? [c] (cs ++ [c] ++ rest) = some cs := by
  rw [List.append_assoc, before?_append_of_not_mem hc]
  simp [before?]

theorem before?_concat (hwanted : wanted ≠ []) (hc : c ∉ wanted)
    (cs : List Char) : before? wanted (cs ++ [c]) = before? wanted cs := by
  induction cs with
  | nil =>
      have hone : ¬ wanted <:+: [] ++ [c] := by
        intro hoccurs
        rcases infix_or_infix_of_append_cons hc hoccurs with hnil | hnil
        all_goals exact hwanted (List.infix_nil.mp hnil)
      rw [(before?_eq_none_iff hwanted).mpr hone]
      simp [before?, hwanted]
  | cons x cs ih =>
      rw [List.cons_append, before?, before?, ih, ← List.cons_append,
        isPrefixOf_concat hc]

theorem after?_eq_some_iff :
    after? wanted cs = some rest ↔ cs = wanted ++ rest := by
  unfold after?
  split
  · next hbegins =>
      obtain ⟨tail, rfl⟩ := List.isPrefixOf_iff_prefix.mp hbegins
      simp
  · next hother =>
      simp only [reduceCtorEq, false_iff]
      rintro rfl
      exact hother
        (List.isPrefixOf_iff_prefix.mpr (List.prefix_append wanted rest))

@[simp] theorem after?_append (wanted rest : List Char) :
    after? wanted (wanted ++ rest) = some rest :=
  after?_eq_some_iff.mpr rfl

theorem after?_concat (hc : c ∉ wanted) (cs : List Char) :
    after? wanted (cs ++ [c]) = (after? wanted cs).map (· ++ [c]) := by
  unfold after?
  rw [isPrefixOf_concat hc]
  split
  · next hbegins =>
      have hlength : wanted.length ≤ cs.length :=
        (List.isPrefixOf_iff_prefix.mp hbegins).length_le
      rw [Option.map_some, List.drop_append_of_le_length hlength]
  · rfl

end Search

section Blank

variable {cs rest : List Char} {c : Char}

theorem trimStart_concat_of_eq_nil (hc : isBlank c = true)
    (hnil : trimStart cs = []) : trimStart (cs ++ [c]) = [] := by
  unfold trimStart at hnil ⊢
  simp [List.dropWhile_append, hnil, hc]

/-- A blank at the end stays there, unless all is blank. -/
theorem trimStart_concat (hne : trimStart cs ≠ []) (c : Char) :
    trimStart (cs ++ [c]) = trimStart cs ++ [c] := by
  unfold trimStart at hne ⊢
  rw [List.dropWhile_append, if_neg (by simpa using hne)]

theorem takeWhile_not_blank_concat (hc : isBlank c = true) (cs : List Char) :
    (cs ++ [c]).takeWhile (fun x => !isBlank x) = cs.takeWhile fun x =>
      !isBlank x := by
  induction cs with
  | nil => simp [hc]
  | cons x cs ih =>
      rw [List.cons_append, List.takeWhile_cons, List.takeWhile_cons, ih]

theorem trimEnd_concat (hc : isBlank c = true) (cs : List Char) :
    trimEnd (cs ++ [c]) = trimEnd cs := by
  simp [trimEnd, hc]

theorem trimStart_suffix (cs : List Char) : trimStart cs <:+ cs :=
  List.dropWhile_suffix isBlank

/-- Trimming the end uncovers no blank at the front. -/
theorem trimStart_trimEnd_trimStart (cs : List Char) :
    trimStart (trimEnd (trimStart cs)) = trimEnd (trimStart cs) := by
  have hfront : trimEnd (trimStart cs) <+: trimStart cs := by
    rw [← List.reverse_suffix, trimEnd, List.reverse_reverse]
    exact List.dropWhile_suffix isBlank
  unfold trimStart at hfront ⊢
  rw [List.dropWhile_eq_self_iff]
  intro hlength
  rw [hfront.getElem hlength]
  exact List.dropWhile_get_zero_not isBlank cs
    (hlength.trans_le hfront.length_le)

theorem trimChars_trimChars (cs : List Char) :
    trimChars (trimChars cs) = trimChars cs := by
  have hend (ds : List Char) : trimEnd (trimEnd ds) = trimEnd ds :=
    List.rdropWhile_idempotent isBlank ds
  rw [trimChars, trimChars, trimStart_trimEnd_trimStart, hend]

theorem trimChars_cons_ne_nil (hc : isBlank c = false) (cs : List Char) :
    trimChars (c :: cs) ≠ [] := by
  simp [trimChars, trimStart, trimEnd, hc]

/-- Blanks before a text without blanks at its front are dropped, and nothing
else. -/
theorem trimStart_append (hne : cs ≠ []) (hcs : trimStart cs = cs)
    (rest : List Char) : trimStart (cs ++ rest) = cs ++ rest := by
  unfold trimStart at hcs ⊢
  rw [List.dropWhile_append, hcs, if_neg (by simpa using hne)]

end Blank

end WebConfigAudit.Text

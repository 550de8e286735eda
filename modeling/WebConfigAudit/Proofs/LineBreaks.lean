import WebConfigAudit.Proofs.Passage
import WebConfigAudit.Proofs.TextSearch
/-!
Line feeds with a carriage return before each of them.  Columns count up to the
end of a line and begin anew behind it, so no character but the line feed gets
another place.
-/

namespace WebConfigAudit.Text

/-- The text with a carriage return put before every line feed. -/
def withReturns : List Char → List Char
  | [] => []
  | c :: rest =>
      if c = '\n' then '\r' :: '\n' :: withReturns rest
      else c :: withReturns rest

/-- Neither of the characters that line ends are made of. -/
def HasNoBreak (cs : List Char) : Prop :=
  '\n' ∉ cs ∧ '\r' ∉ cs

instance (cs : List Char) : Decidable (HasNoBreak cs) :=
  inferInstanceAs (Decidable ('\n' ∉ cs ∧ '\r' ∉ cs))

section Characters

variable {c : Char} {cs wanted : List Char} {p : Char → Bool}

@[simp] theorem withReturns_nil : withReturns [] = [] := rfl

@[simp] theorem withReturns_lineFeed (cs : List Char) :
    withReturns ('\n' :: cs) = '\r' :: '\n' :: withReturns cs :=
  if_pos rfl

theorem withReturns_cons (hc : c ≠ '\n') (cs : List Char) :
    withReturns (c :: cs) = c :: withReturns cs :=
  if_neg hc

theorem withReturns_append (cs ds : List Char) :
    withReturns (cs ++ ds) = withReturns cs ++ withReturns ds := by
  induction cs with
  | nil => rfl
  | cons c cs ih =>
      by_cases hc : c = '\n'
      · subst hc
        simp [ih]
      · rw [List.cons_append, withReturns_cons hc, withReturns_cons hc, ih,
          List.cons_append]

theorem withReturns_of_unbroken (hcs : '\n' ∉ cs) : withReturns cs = cs := by
  induction cs with
  | nil => rfl
  | cons c cs ih =>
      rw [List.mem_cons, not_or] at hcs
      rw [withReturns_cons (Ne.symm hcs.1), ih hcs.2]

@[simp] theorem withReturns_eq_nil_iff : withReturns cs = [] ↔ cs = [] := by
  cases cs with
  | nil => simp
  | cons c cs =>
      by_cases hc : c = '\n'
      · subst hc
        simp
      · simp [withReturns_cons hc]

theorem isEmpty_withReturns (cs : List Char) :
    (withReturns cs).isEmpty = cs.isEmpty := by
  rw [Bool.eq_iff_iff, List.isEmpty_iff, List.isEmpty_iff,
    withReturns_eq_nil_iff]

theorem all_withReturns (hp : p '\r' = p '\n') (cs : List Char) :
    (withReturns cs).all p = cs.all p := by
  induction cs with
  | nil => rfl
  | cons c cs ih =>
      by_cases hc : c = '\n'
      · subst hc
        rw [withReturns_lineFeed, List.all_cons, List.all_cons,
          List.all_cons, ih, hp, ← Bool.and_assoc, Bool.and_self]
      · rw [withReturns_cons hc, List.all_cons, List.all_cons, ih]

/-- A run of a class that has both characters or neither ends at the same
place. -/
theorem takeWhile_withReturns (hp : p '\r' = p '\n') (cs : List Char) :
    (withReturns cs).takeWhile p = withReturns (cs.takeWhile p) := by
  induction cs with
  | nil => rfl
  | cons c cs ih =>
      by_cases hc : c = '\n'
      · subst hc
        simp only [withReturns_lineFeed, List.takeWhile_cons, hp, ih]
        split
        · rw [withReturns_lineFeed]
        · rfl
      · rw [withReturns_cons hc, List.takeWhile_cons, List.takeWhile_cons, ih]
        split
        · rw [withReturns_cons hc]
        · rfl

theorem dropWhile_withReturns (hp : p '\r' = p '\n') (cs : List Char) :
    (withReturns cs).dropWhile p = withReturns (cs.dropWhile p) := by
  induction cs with
  | nil => rfl
  | cons c cs ih =>
      by_cases hc : c = '\n'
      · subst hc
        simp only [withReturns_lineFeed, List.dropWhile_cons, hp, ih]
        split
        · rfl
        · rw [withReturns_lineFeed]
      · rw [withReturns_cons hc, List.dropWhile_cons, List.dropWhile_cons, ih]
        split
        · rfl
        · rw [withReturns_cons hc]

theorem isPrefixOf_withReturns (hwanted : HasNoBreak wanted) (cs : List Char) :
    wanted.isPrefixOf (withReturns cs) = wanted.isPrefixOf cs := by
  induction wanted generalizing cs with
  | nil => simp
  | cons w wanted ih =>
      obtain ⟨hfeed, hreturn⟩ := hwanted
      rw [List.mem_cons, not_or] at hfeed hreturn
      cases cs with
      | nil => rfl
      | cons c cs =>
          by_cases hc : c = '\n'
          · subst hc
            rw [withReturns_lineFeed, List.isPrefixOf_cons_cons,
              List.isPrefixOf_cons_cons,
              beq_eq_false_iff_ne.mpr (Ne.symm hreturn.1),
              beq_eq_false_iff_ne.mpr (Ne.symm hfeed.1)]
            rfl
          · rw [withReturns_cons hc, List.isPrefixOf_cons_cons,
              List.isPrefixOf_cons_cons, ih ⟨hfeed.2, hreturn.2⟩]

theorem before?_withReturns (hwanted : HasNoBreak wanted) (hne : wanted ≠ [])
    (cs : List Char) :
    before? wanted (withReturns cs) = (before? wanted cs).map withReturns := by
  have hempty : wanted.isEmpty = false := by simpa using hne
  induction cs with
  | nil => simp [before?, hempty]
  | cons c cs ih =>
      by_cases hc : c = '\n'
      · subst hc
        have hother (x : Char) (hx : x ∉ wanted) (rest : List Char) :
            ¬ wanted.isPrefixOf (x :: rest) = true := by
          cases wanted with
          | nil => contradiction
          | cons w wanted =>
              rw [List.isPrefixOf_iff_prefix, List.cons_prefix_cons]
              rintro ⟨rfl, _⟩
              exact hx List.mem_cons_self
        rw [withReturns_lineFeed, before?, before?, before?,
          if_neg (hother _ hwanted.2 _), if_neg (hother _ hwanted.1 _),
          if_neg (hother _ hwanted.1 _), ih]
        cases before? wanted cs <;> simp
      · have hbegins := isPrefixOf_withReturns hwanted (c :: cs)
        rw [withReturns_cons hc] at hbegins ⊢
        rw [before?, before?, hbegins, ih]
        split
        · rfl
        · cases before? wanted cs <;> simp [withReturns_cons hc]

theorem occurs_withReturns (hwanted : HasNoBreak wanted) (hne : wanted ≠ [])
    (cs : List Char) : occurs wanted (withReturns cs) = occurs wanted cs := by
  rw [occurs, occurs, before?_withReturns hwanted hne, Option.isSome_map]

/-- A line feed leads to the start of the next line, whatever stands before
it. -/
@[simp] theorem Position.advance_withReturns (pos : Position) (cs : List Char) :
    pos.advance (withReturns cs) = pos.advance cs := by
  induction cs generalizing pos with
  | nil => rfl
  | cons c cs ih =>
      by_cases hc : c = '\n'
      · subst hc
        exact ih _
      · rw [withReturns_cons hc, advance_cons, advance_cons, ih]

end Characters

namespace Cursor

variable {c d e : Cursor} {text : List Char} {p : Char → Bool}

/-- A cursor on the same character, in the text with carriage returns. -/
def withReturns (c : Cursor) : Cursor :=
  ⟨Text.withReturns c.rest, c.pos⟩

@[simp] theorem withReturns_rest (c : Cursor) :
    c.withReturns.rest = Text.withReturns c.rest :=
  rfl

@[simp] theorem withReturns_pos (c : Cursor) : c.withReturns.pos = c.pos := rfl

theorem run_withReturns (hp : p '\r' = p '\n') (c : Cursor) :
    c.withReturns.run p = Text.withReturns (c.run p) :=
  takeWhile_withReturns hp c.rest

/-- A run of a class without line ends has none to change. -/
theorem run_withReturns_of_unbroken (hreturn : p '\r' = false)
    (hfeed : p '\n' = false) (c : Cursor) : c.withReturns.run p = c.run p := by
  have hunbroken : '\n' ∉ c.run p := by
    intro hmem
    rw [of_mem_run hmem] at hfeed
    contradiction
  rw [run_withReturns (hreturn.trans hfeed.symm),
    withReturns_of_unbroken hunbroken]

theorem skip_withReturns (hp : p '\r' = p '\n') (c : Cursor) :
    c.withReturns.skip p = (c.skip p).withReturns := by
  rw [skip, run_withReturns hp, Position.advance_withReturns, withReturns_rest,
    dropWhile_withReturns hp]
  rfl

/-- Behind a run of a class with line feeds there is no line feed. -/
theorem ne_of_skip_rest {x : Char} {rest : List Char} (hfeed : p '\n' = true)
    (hrest : (c.skip p).rest = x :: rest) : x ≠ '\n' := by
  rintro rfl
  rw [not_of_skip_rest hrest] at hfeed
  contradiction

theorem next_withReturns {x : Char} {rest : List Char}
    (hrest : c.rest = x :: rest) (hx : x ≠ '\n') :
    c.withReturns.next = c.next.withReturns := by
  rw [next, next, withReturns_rest, hrest, withReturns_cons hx]
  rfl

/-- A line feed takes two steps, to the same place as before. -/
theorem next_next_withReturns {rest : List Char}
    (hrest : c.rest = '\n' :: rest) :
    c.withReturns.next.rest = '\n' :: Text.withReturns rest ∧
      c.withReturns.next.next = c.next.withReturns := by
  simp only [next, withReturns_rest, hrest, withReturns_lineFeed,
    withReturns_pos, true_and]
  rfl

theorem Passes.withReturns (hpasses : c.Passes text d) :
    c.withReturns.Passes (Text.withReturns text) d.withReturns where
  rest := by rw [withReturns_rest, hpasses.rest, withReturns_append,
    withReturns_rest]
  pos := by rw [withReturns_pos, withReturns_pos, hpasses.pos,
    Position.advance_withReturns]

theorem Passes.eq (hpasses : c.Passes text d) : d = c.drop text.length := by
  obtain ⟨rest, pos⟩ := d
  have hrest : c.rest.drop text.length = rest := by
    rw [hpasses.rest, List.drop_left]
  have hpos : c.pos.advance (c.rest.take text.length) = pos := by
    rw [hpasses.rest, List.take_left, ← hpasses.pos]
  rw [drop, hrest, hpos]

/-- Passing over a text that starts what is still to be read. -/
theorem passes_of_isPrefixOf (hbegins : text.isPrefixOf c.rest = true) :
    c.Passes text (c.drop text.length) :=
  passes_of_expect? (if_pos hbegins)

theorem drop_length_withReturns (hbegins : text.isPrefixOf c.rest = true) :
    c.withReturns.drop (Text.withReturns text).length =
      (c.drop text.length).withReturns :=
  (passes_of_isPrefixOf hbegins).withReturns.eq.symm

theorem drop_withReturns (htext : HasNoBreak text)
    (hbegins : text.isPrefixOf c.rest = true) :
    c.withReturns.drop text.length = (c.drop text.length).withReturns := by
  have hdrop := drop_length_withReturns hbegins
  rwa [withReturns_of_unbroken htext.1] at hdrop

theorem expect?_withReturns (htext : HasNoBreak text) (c : Cursor) :
    c.withReturns.expect? text = (c.expect? text).map withReturns := by
  rw [expect?, expect?, withReturns_rest, isPrefixOf_withReturns htext]
  split
  · next hbegins => rw [Option.map_some, drop_withReturns htext hbegins]
  · rfl

/-- The second cursor is reached from the first by passing over something. -/
def Advances (c d : Cursor) : Prop :=
  ∃ text, text ≠ [] ∧ c.Passes text d

theorem Passes.advances (hpasses : c.Passes text d) (hne : text ≠ []) :
    c.Advances d :=
  ⟨text, hne, hpasses⟩

theorem Advances.trans_reaches (hcd : c.Advances d) (hde : d.Reaches e) :
    c.Advances e := by
  obtain ⟨s, hne, hs⟩ := hcd
  obtain ⟨t, ht⟩ := hde
  exact ⟨s ++ t, List.append_ne_nil_of_left_ne_nil hne t, hs.trans ht⟩

theorem Reaches.trans_advances (hcd : c.Reaches d) (hde : d.Advances e) :
    c.Advances e := by
  obtain ⟨s, hs⟩ := hcd
  obtain ⟨t, hne, ht⟩ := hde
  exact ⟨s ++ t, List.append_ne_nil_of_right_ne_nil s hne, hs.trans ht⟩

theorem Advances.reaches (hcd : c.Advances d) : c.Reaches d := by
  obtain ⟨text, _, hpasses⟩ := hcd
  exact hpasses.reaches

theorem Advances.length_lt (hcd : c.Advances d) :
    d.rest.length < c.rest.length := by
  obtain ⟨text, hne, hpasses⟩ := hcd
  have hpos := List.length_pos_iff.mpr hne
  rw [hpasses.rest, List.length_append]
  omega

theorem Advances.withReturns (hcd : c.Advances d) :
    c.withReturns.Advances d.withReturns := by
  obtain ⟨text, hne, hpasses⟩ := hcd
  exact ⟨_, by simpa using hne, hpasses.withReturns⟩

theorem Contains.not_mem {x : Char} (hcd : c.Contains d) (hx : x ∉ c.rest) :
    x ∉ d.rest := by
  obtain ⟨before, after, hrest, _⟩ := hcd
  intro hmem
  exact hx (by simp [hrest, hmem])

/-- There is less to read after a step, with carriage returns and without, so
what bounds the number of steps before bounds it after. -/
theorem Advances.bounds {fuel fuel' : Nat} (hcd : c.Advances d)
    (hfuel : c.rest.length < fuel + 1)
    (hfuel' : c.withReturns.rest.length < fuel' + 1) :
    d.rest.length < fuel ∧ d.withReturns.rest.length < fuel' := by
  have hlength := hcd.length_lt
  have hlength' := hcd.withReturns.length_lt
  omega

end Cursor

end WebConfigAudit.Text

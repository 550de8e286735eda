import Mathlib.Data.List.TakeWhile
import WebConfigAudit.Text.Position
/-!
Reading as passing over text: which characters lie between two cursors, and
where a cursor stands within a text.
-/

namespace WebConfigAudit.Text

/-- The second cursor is reached from the first by passing over the text. -/
structure Cursor.Passes (c : Cursor) (text : List Char) (d : Cursor) :
    Prop where
  rest : c.rest = text ++ d.rest
  pos : d.pos = c.pos.advance text

namespace Cursor

variable {c d e : Cursor} {s t : List Char} {p : Char → Bool}

theorem Passes.refl (c : Cursor) : c.Passes [] c := ⟨rfl, rfl⟩

theorem Passes.trans (hcd : c.Passes s d) (hde : d.Passes t e) :
    c.Passes (s ++ t) e where
  rest := by rw [hcd.rest, hde.rest, List.append_assoc]
  pos := by rw [hde.pos, hcd.pos, Position.advance_append]

/-- A text is passed over part by part. -/
theorem Passes.split (hcd : c.Passes (s ++ t) d) :
    ∃ e, c.Passes s e ∧ e.Passes t d := by
  refine ⟨⟨t ++ d.rest, c.pos.advance s⟩, ⟨?_, rfl⟩, ⟨rfl, ?_⟩⟩
  · rw [hcd.rest, List.append_assoc]
  · rw [hcd.pos, Position.advance_append]

@[simp] theorem next_cons (x : Char) (rest : List Char) (pos : Position) :
    next ⟨x :: rest, pos⟩ = ⟨rest, pos.after x⟩ := rfl

theorem passes_next {x : Char} {rest : List Char} (hrest : c.rest = x :: rest) :
    c.Passes [x] c.next := by
  rw [next, hrest]
  exact ⟨hrest, rfl⟩

theorem passes_skip (p : Char → Bool) (c : Cursor) :
    c.Passes (c.run p) (c.skip p) :=
  ⟨(List.takeWhile_append_dropWhile).symm, rfl⟩

theorem passes_drop (n : Nat) (c : Cursor) :
    c.Passes (c.rest.take n) (c.drop n) :=
  ⟨(List.take_append_drop n c.rest).symm, rfl⟩

theorem passes_of_expect? (hexpect : c.expect? t = some d) : c.Passes t d := by
  unfold expect? at hexpect
  split at hexpect
  · next hbegins =>
      cases hexpect
      obtain ⟨rest, hrest⟩ := List.isPrefixOf_iff_prefix.mp hbegins
      have htake : c.rest.take t.length = t := by rw [← hrest, List.take_left]
      have hpasses := passes_drop t.length c
      rwa [htake] at hpasses
  · contradiction

/-- The second cursor is reached from the first by passing over some text. -/
def Reaches (c d : Cursor) : Prop :=
  ∃ text, c.Passes text d

theorem Passes.reaches (hpasses : c.Passes s d) : c.Reaches d := ⟨s, hpasses⟩

theorem Reaches.refl (c : Cursor) : c.Reaches c := (Passes.refl c).reaches

theorem Reaches.trans (hcd : c.Reaches d) (hde : d.Reaches e) :
    c.Reaches e := by
  obtain ⟨s, hs⟩ := hcd
  obtain ⟨t, ht⟩ := hde
  exact (hs.trans ht).reaches

theorem reaches_skip (p : Char → Bool) (c : Cursor) : c.Reaches (c.skip p) :=
  (passes_skip p c).reaches

theorem reaches_drop (n : Nat) (c : Cursor) : c.Reaches (c.drop n) :=
  (passes_drop n c).reaches

theorem reaches_next (c : Cursor) : c.Reaches c.next := by
  cases hrest : c.rest with
  | nil =>
      rw [next, hrest]
      exact Reaches.refl c
  | cons x rest => exact (passes_next hrest).reaches

/-- The text of the second cursor is a stretch of the text of the first, and
stands where its place says. -/
def Contains (c d : Cursor) : Prop :=
  ∃ before after, c.rest = before ++ d.rest ++ after ∧
    d.pos = c.pos.advance before

theorem Reaches.contains (hcd : c.Reaches d) : c.Contains d := by
  obtain ⟨text, hpasses⟩ := hcd
  exact ⟨text, [], by rw [List.append_nil, hpasses.rest], hpasses.pos⟩

theorem Contains.refl (c : Cursor) : c.Contains c := (Reaches.refl c).contains

theorem Contains.trans (hcd : c.Contains d) (hde : d.Contains e) :
    c.Contains e := by
  obtain ⟨s, s', hs, hspos⟩ := hcd
  obtain ⟨t, t', ht, htpos⟩ := hde
  refine ⟨s ++ t, t' ++ s', ?_, ?_⟩
  · simp [hs, ht]
  · rw [htpos, hspos, Position.advance_append]

/-- A run of characters, cut off where it ends. -/
theorem contains_run (p : Char → Bool) (c : Cursor) :
    c.Contains ⟨c.run p, c.pos⟩ :=
  ⟨[], (c.skip p).rest,
    by rw [List.nil_append]; exact (passes_skip p c).rest, rfl⟩

theorem of_mem_run {x : Char} (hx : x ∈ c.run p) : p x = true :=
  List.mem_takeWhile_imp hx

/-- Behind a run no character of its class comes next. -/
theorem not_of_skip_rest {x : Char} {rest : List Char}
    (hrest : (c.skip p).rest = x :: rest) : p x = false := by
  have hhead := List.head?_dropWhile_not p c.rest
  rw [show c.rest.dropWhile p = x :: rest from hrest] at hhead
  simpa using hhead

/-- A run ends where a character of another class comes, or the text ends. -/
theorem run_append {cs : List Char} (rest : List Char) (pos : Position)
    (hrun : ∀ x ∈ cs, p x = true) (hstop : ∀ x ∈ rest.head?, p x = false) :
    run p ⟨cs ++ rest, pos⟩ = cs := by
  rw [run, List.takeWhile_append_of_pos hrun]
  cases rest with
  | nil => simp
  | cons x rest => simp [hstop x rfl]

theorem skip_append {cs : List Char} (rest : List Char) (pos : Position)
    (hrun : ∀ x ∈ cs, p x = true) (hstop : ∀ x ∈ rest.head?, p x = false) :
    skip p ⟨cs ++ rest, pos⟩ = ⟨rest, pos.advance cs⟩ := by
  rw [skip, run_append rest pos hrun hstop, List.dropWhile_append_of_pos hrun]
  cases rest with
  | nil => rfl
  | cons x rest => simp [hstop x rfl]

end Cursor

end WebConfigAudit.Text

import WebConfigAudit.Proofs.PlainTree
/-!
What a path leads to in a tree with symbolic links.  A path that goes on goes on
from the place that its beginning leads to, so it leaves that place by a link or
for an item that stands there.
-/

namespace WebConfigAudit

namespace FileTree

variable {tree : FileTree} {place inside : Location} {item : Item}
  {name : String} {p : Path} {links : Nat} {pieces rest : List (List Char)}

/-- A piece that leads anywhere leads to another place, or into a symbolic
link. -/
theorem walkPieces_cons_cases {piece : List Char}
    {through : Location → Path → List (List Char) →
      Except FileError Destination}
    (hfound : tree.walkPieces true through place (piece :: rest) =
      .ok (.found inside item)) :
    (∃ next, ∀ others, tree.walkPieces true through place (piece :: others) =
        tree.walkPieces true through next others) ∨
      ∃ target, ∀ others, tree.walkPieces true through place (piece :: others) =
        through place target others := by
  simp only [walkPieces] at hfound ⊢
  split at hfound
  · contradiction
  · next hdirectory =>
      simp only [if_neg hdirectory]
      split at hfound
      · next hidle =>
          simp only [if_pos hidle]
          exact Or.inl ⟨place, fun _ => rfl⟩
      · next hidle =>
          simp only [if_neg hidle]
          split at hfound
          · next hup =>
              simp only [if_pos hup]
              exact Or.inl ⟨place.dropLast, fun _ => rfl⟩
          · next hup =>
              simp only [if_neg hup]
              split at hfound
              · contradiction
              · next hshort =>
                  simp only [if_neg hshort]
                  cases hitem : tree.item? (place ++ [String.ofList piece]) with
                  | none =>
                      simp only [hitem] at hfound
                      split at hfound <;> cases hfound
                  | some there =>
                      cases there with
                      | file content => exact Or.inl ⟨_, fun _ => rfl⟩
                      | directory => exact Or.inl ⟨_, fun _ => rfl⟩
                      | link target =>
                          exact Or.inr ⟨⟨target⟩, fun others => by simp⟩

/-- The same with the links that are left: a symbolic link uses one of them up,
and puts its own pieces before the others. -/
theorem walk_cons_cases {piece : List Char}
    (hfound : tree.walk true links place (piece :: rest) =
      .ok (.found inside item)) :
    (∃ next, ∀ others, tree.walk true links place (piece :: others) =
        tree.walk true links next others) ∨
      ∃ fewer next more, fewer < links ∧ ∀ others,
        tree.walk true links place (piece :: others) =
          tree.walk true fewer next (more ++ others) := by
  cases links with
  | zero =>
      rcases walkPieces_cons_cases hfound with hnext | ⟨target, hthrough⟩
      · exact Or.inl hnext
      · rw [walk, hthrough] at hfound
        contradiction
  | succ links =>
      rcases walkPieces_cons_cases hfound with hnext | ⟨target, hthrough⟩
      · exact Or.inl hnext
      · exact Or.inr ⟨links, _, target.pieces, Nat.lt_succ_self links, hthrough⟩

/-- However many links are left, it is only what happens at a link that depends
on them. -/
theorem exists_walk_eq (tree : FileTree) (links : Nat) :
    ∃ through, tree.walk true links = tree.walkPieces true through := by
  cases links with
  | zero => exact ⟨_, rfl⟩
  | succ links => exact ⟨_, rfl⟩

theorem exists_item?_of_walk
    (hfound : tree.walk true links place pieces = .ok (.found inside item)) :
    ∃ there, tree.item? place = some there := by
  obtain ⟨through, hwalk⟩ := tree.exists_walk_eq links
  rw [hwalk] at hfound
  cases pieces with
  | nil =>
      rw [walkPieces] at hfound
      split at hfound
      · next there hthere => exact ⟨there, hthere⟩
      · contradiction
  | cons piece pieces =>
      rw [walkPieces] at hfound
      split at hfound
      · contradiction
      · next hdirectory => exact ⟨.directory, not_not.mp hdirectory⟩

theorem walk_nil_iff :
    tree.walk true links place [] = .ok (.found inside item) ↔
      inside = place ∧ tree.item? place = some item := by
  obtain ⟨through, hwalk⟩ := tree.exists_walk_eq links
  rw [hwalk, walkPieces]
  cases tree.item? place with
  | none => simp
  | some there => simp [eq_comm]

/-- A slash at the end leads no further. -/
theorem eq_of_walk_slash
    (hfound : tree.walk true links place [[]] = .ok (.found inside item)) :
    inside = place := by
  obtain ⟨through, hwalk⟩ := tree.exists_walk_eq links
  rw [hwalk, walkPieces, ← hwalk] at hfound
  split at hfound
  · contradiction
  · exact (walk_nil_iff.mp hfound).1

/-- A name leads to the item of that name, unless that is a link. -/
theorem eq_of_walk_name (hname : IsName name)
    (hnot : ∀ target, tree.item? (place ++ [name]) ≠ some (.link target))
    (hfound : tree.walk true links place [name.toList] =
      .ok (.found inside item)) :
    inside = place ++ [name] := by
  obtain ⟨through, hwalk⟩ := tree.exists_walk_eq links
  rw [hwalk, walkPieces, ← hwalk, String.ofList_toList,
    if_neg (Nat.not_lt.mpr hname.short), if_neg hname.ne_dots, hname.not_isIdle,
    if_neg Bool.false_ne_true] at hfound
  split at hfound
  · contradiction
  · cases hitem : tree.item? (place ++ [name]) with
    | none =>
        rw [hitem] at hfound
        cases hfound
    | some there =>
        rw [hitem] at hfound
        cases there with
        | link target => exact absurd hitem (hnot target)
        | file content => exact (walk_nil_iff.mp hfound).1
        | directory => exact (walk_nil_iff.mp hfound).1

/-- A walk that goes on continues from what its first pieces lead to, with the
links that they leave. -/
theorem exists_walk_append
    (hfound : tree.walk true links place (pieces ++ rest) =
      .ok (.found inside item)) :
    ∃ left mid there, tree.walk true links place pieces =
        .ok (.found mid there) ∧
      ∀ others, tree.walk true links place (pieces ++ others) =
        tree.walk true left mid others := by
  induction links using Nat.strong_induction_on generalizing place pieces with
  | _ links ihLinks =>
      induction pieces generalizing place with
      | nil =>
          obtain ⟨there, hthere⟩ := exists_item?_of_walk hfound
          exact ⟨links, place, there, walk_nil_iff.mpr ⟨rfl, hthere⟩,
            fun _ => rfl⟩
      | cons piece pieces ih =>
          rcases walk_cons_cases hfound with
            ⟨next, hnext⟩ | ⟨fewer, next, more, hfewer, hthrough⟩
          · simp only [List.cons_append, hnext] at hfound ⊢
            exact ih hfound
          · simp only [List.cons_append, hthrough, ← List.append_assoc]
              at hfound ⊢
            exact ihLinks fewer hfewer hfound

/-- A path leads to what stands at a place. -/
theorem item?_of_find (hfound : tree.find true p = .ok (place, item)) :
    tree.item? place = some item := by
  obtain ⟨_, hwalk⟩ := resolve_eq_ok_iff.mp (find_eq_ok_iff_resolve.mp hfound)
  rw [← List.append_nil p.pieces] at hwalk
  obtain ⟨left, mid, there, _, hothers⟩ := exists_walk_append hwalk
  rw [hothers, walk_nil_iff] at hwalk
  rw [hwalk.1]
  exact hwalk.2

/-- A path that goes on by a name leads to the item of that name, unless that is
a link. -/
theorem eq_of_find_join (hfound : tree.find true p = .ok (place, .directory))
    (hname : IsName name)
    (hnot : ∀ target, tree.item? (place ++ [name]) ≠ some (.link target))
    (hjoin : tree.find true (p.join name) = .ok (inside, item)) :
    inside = place ++ [name] := by
  obtain ⟨hallowed, hwalk⟩ :=
    resolve_eq_ok_iff.mp (find_eq_ok_iff_resolve.mp hfound)
  obtain ⟨_, hdown⟩ := resolve_eq_ok_iff.mp (find_eq_ok_iff_resolve.mp hjoin)
  rw [Path.pieces_join hallowed.ne_nil hname, start,
    Path.isAbsolute_join hallowed.ne_nil hname, ← start] at hdown
  obtain ⟨left, mid, there, _, hothers⟩ := exists_walk_append hdown
  -- The directory is reached before the slash that may stand at the end of its
  -- path.
  have hmid : mid = place := by
    rcases Path.withoutLastEmpty_eq_or p.pieces with heq | heq
    · rw [heq, ← List.append_nil (Path.withoutLastEmpty p.pieces), hothers,
        walk_nil_iff] at hwalk
      exact hwalk.1.symm
    · rw [heq, hothers] at hwalk
      exact (eq_of_walk_slash hwalk).symm
  rw [hothers, hmid] at hdown
  exact eq_of_walk_name hname hnot hdown

end FileTree

end WebConfigAudit
